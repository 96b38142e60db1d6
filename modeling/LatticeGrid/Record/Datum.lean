/-!
# Plain data

`Datum` is the data that records are stored as: numbers, texts, truth values, lists, and records of
named fields. A number that is not written as an integer is kept as it is written, since nothing here
computes with it.

Main statement: `Datum.same_iff`, the structural comparison decides equality.
-/

set_option autoImplicit false

namespace LatticeGrid

/-- A piece of plain data. -/
inductive Datum where
  /-- The absent value. -/
  | null
  /-- A truth value. -/
  | bool (b : Bool)
  /-- An integer. -/
  | int (n : Int)
  /-- A number that is not an integer, as it is written. -/
  | real (text : String)
  /-- A text. -/
  | text (s : String)
  /-- A list. -/
  | list (items : List Datum)
  /-- A record of named fields, in their order. -/
  | record (fields : List (String × Datum))
deriving Inhabited

namespace Datum

/-! ## Equality -/

mutual

/-- Whether two pieces of data have the same structure. -/
def same : Datum → Datum → Bool
  | null, null => true
  | bool a, bool b => a == b
  | int m, int n => m == n
  | real s, real t => s == t
  | text s, text t => s == t
  | list ds, list es => sameItems ds es
  | record fs, record gs => sameFields fs gs
  | _, _ => false

/-- Whether two lists of data have the same structure, item by item. -/
def sameItems : List Datum → List Datum → Bool
  | [], [] => true
  | d :: ds, e :: es => same d e && sameItems ds es
  | _, _ => false

/-- Whether two lists of named fields have the same structure, field by field. -/
def sameFields : List (String × Datum) → List (String × Datum) → Bool
  | [], [] => true
  | (m, d) :: fs, (n, e) :: gs => m == n && same d e && sameFields fs gs
  | _, _ => false

end

mutual

theorem same_iff : ∀ d e : Datum, same d e = true ↔ d = e
  | null, e => by cases e <;> simp [same]
  | bool a, e => by cases e <;> simp [same]
  | int m, e => by cases e <;> simp [same]
  | real s, e => by cases e <;> simp [same]
  | text s, e => by cases e <;> simp [same]
  | list ds, e => by cases e <;> simp [same, sameItems_iff ds]
  | record fs, e => by cases e <;> simp [same, sameFields_iff fs]

theorem sameItems_iff : ∀ ds es : List Datum, sameItems ds es = true ↔ ds = es
  | [], es => by cases es <;> simp [sameItems]
  | d :: ds, es => by cases es <;> simp [sameItems, same_iff d, sameItems_iff ds]

theorem sameFields_iff :
    ∀ fs gs : List (String × Datum), sameFields fs gs = true ↔ fs = gs
  | [], gs => by cases gs <;> simp [sameFields]
  | (m, d) :: fs, gs => by
      cases gs with
      | nil => simp [sameFields]
      | cons g gs => simp [sameFields, same_iff d, sameFields_iff fs, Prod.ext_iff]

end

instance : DecidableEq Datum := fun d e => decidable_of_iff _ (same_iff d e)

/-! ## Parts -/

/-- The value of a field of a record. Of several fields with one name the last one counts. -/
def field? : Datum → String → Option Datum
  | record fields, name => fields.reverse.lookup name
  | _, _ => none

/-- The items of a list. -/
def items? : Datum → Option (List Datum)
  | list items => some items
  | _ => none

/-- The integer. -/
def int? : Datum → Option Int
  | int n => some n
  | _ => none

/-- The text. -/
def text? : Datum → Option String
  | text s => some s
  | _ => none

/-- The natural number, if it is below a bound. -/
def natBelow? (bound : Nat) (d : Datum) : Option Nat := do
  let n ← d.int?
  if 0 ≤ n ∧ n < bound then some n.toNat else none

/-- The list of a sequence of natural numbers. -/
def ofNats (l : List Nat) : Datum := list (l.map fun (n : Nat) => int n)

end Datum

end LatticeGrid
