import LatticeGrid.Copy.Pointwise
import LatticeGrid.Copy.Region
import LatticeGrid.Grid.Fill

/-!
# A workspace of named grids

A `Workspace` holds grids by name. A `Command` makes, reads, writes, copies or removes grids and is
answered by a `Reply`. A command that fails is answered by its failure, and the grid that it writes stays as
the command has left it. A command that makes a grid may lack a name for it; then it fails, but only after
the grid has been made, so that a grid that cannot be made at all is answered by the reason for that.

`Workspace.run` carries out one command, `Workspace.attempt` goes on with the workspace that it leaves, and
`Workspace.runAll` carries out a whole list.
-/

set_option autoImplicit false

namespace LatticeGrid

/-- What can be asked of a workspace. -/
inductive Command (α : Type) where
  /-- Makes a grid from a shape and values. -/
  | make (name : Option String) (shape : Shape) (values : Array α)
  /-- Makes a grid with the same value everywhere. -/
  | fill (name : Option String) (shape : Shape) (value : α)
  /-- Makes a grid by a function of the number of the call and the multi-index, which may fail. -/
  | fillWith (name : Option String) (shape : Shape) (filler : Nat → Index → Except Failure α)
  /-- Makes a copy of a grid under another name. -/
  | clone (source : String) (name : Option String)
  /-- Removes a grid and answers what it held. -/
  | takeOut (name : String)
  /-- Answers all there is to know of a grid. -/
  | describe (name : String)
  /-- Whether two grids are equal. -/
  | compare (a b : String)
  /-- Whether a multi-index lies in a grid. -/
  | contains (name : String) (p : Index)
  /-- The value at a multi-index. -/
  | get (name : String) (p : Index)
  /-- The value at a multi-index, if there is one. -/
  | lookup (name : String) (p : Index)
  /-- The value at a flat position. -/
  | getAt (name : String) (position : Nat)
  /-- Writes a multi-index. -/
  | set (name : String) (p : Index) (value : α)
  /-- Writes a flat position. -/
  | setAt (name : String) (position : Nat) (value : α)
  /-- Writes a multi-index, if the grid has it, and answers the value that was there. -/
  | exchange (name : String) (p : Index) (value : α)
  /-- Writes every element. -/
  | reset (name : String) (value : α)
  /-- Writes the elements that lie in a box. -/
  | fillRegion (name : String) (box : Box) (value : α)
  /-- Copies a source, placed at an offset in a target, into the target. -/
  | copy (source target : String) (offset : Point)
  /-- Copies a chunk into a window that lies at an origin in the chunk. -/
  | readChunk (chunk window : String) (origin : Point)
  /-- Copies a window that lies at an origin in a chunk into the chunk. -/
  | writeWindow (window chunk : String) (origin : Point)
  /-- Copies a source into a target point by point. -/
  | copyPointwise (source target : String) (offset : Point)

/-- The answer to a command. -/
inductive Reply (α : Type) where
  /-- The values of the grid that the command made or wrote. -/
  | values (values : Array α)
  /-- The grid that was removed. -/
  | removed (g : Grid α)
  /-- The grid that was asked about. -/
  | description (g : Grid α)
  /-- A truth value. -/
  | truth (b : Bool)
  /-- A value of a grid. -/
  | element (value : α)
  /-- A value of a grid, if there is one. -/
  | found (value : Option α)
  /-- The value before the write, if there was a write, and the values after it. -/
  | exchanged (old : Option α) (values : Array α)

/-- Grids by name. -/
structure Workspace (α : Type) where
  /-- The grids, each under its name. -/
  grids : List (String × Grid α)
  /-- The number of bytes that a store takes for one element. -/
  width : Nat

namespace Workspace

variable {α : Type}

/-- The workspace without grids. -/
def empty (width : Nat) : Workspace α := ⟨[], width⟩

/-- Elements take eight bytes if nothing else is said. -/
instance : EmptyCollection (Workspace α) := ⟨empty 8⟩

/-- The grid with a name, if there is one. -/
def get? (w : Workspace α) (name : String) : Option (Grid α) := w.grids.lookup name

/-- The grid with a name. -/
def find (w : Workspace α) (name : String) : Except Failure (Grid α) :=
  match w.get? name with
  | some g => .ok g
  | none => .error (.unknownGrid name)

/-- The workspace without the grid of a name. -/
def erase (w : Workspace α) (name : String) : Workspace α :=
  { w with grids := w.grids.filter fun entry => entry.1 != name }

/-- A list of named grids with a grid under a name, in the place of the one that had it, or at the end. -/
def insertInto (name : String) (g : Grid α) : List (String × Grid α) → List (String × Grid α)
  | [] => [(name, g)]
  | entry :: rest => if entry.1 = name then (name, g) :: rest else entry :: insertInto name g rest

/-- The workspace with a grid under a name, in the place of the one that had it. -/
def insert (w : Workspace α) (name : String) (g : Grid α) : Workspace α :=
  { w with grids := insertInto name g w.grids }

/-- Puts a grid that a command made or wrote under a name and answers its values. -/
def store (w : Workspace α) (name : String) (g : Grid α) : Reply α × Workspace α :=
  (.values g.values, w.insert name g)

/-- Puts a new grid under its name, if it has one, and answers its values. -/
def keep (w : Workspace α) (name : Option String) (g : Grid α) :
    Except (Failure × Workspace α) (Reply α × Workspace α) :=
  match name with
  | some name => .ok (w.store name g)
  | none => .error (.unnamedGrid, w)

/-- Writes the grid of a name. It stays as the write leaves it, also if the write fails. -/
def write {β : Type} (w : Workspace α) (name : String)
    (change : Grid α → Except (Failure × Grid α) (β × Grid α)) :
    Except (Failure × Workspace α) (β × Workspace α) := do
  let g ← leaving w (w.find name)
  match change g with
  | .ok (answer, g) => return (answer, w.insert name g)
  | .error (e, g) => .error (e, w.insert name g)

/-- Writes the grid of a name and answers its values. -/
def update (w : Workspace α) (name : String) (change : Grid α → Except (Failure × Grid α) (Grid α)) :
    Except (Failure × Workspace α) (Reply α × Workspace α) :=
  w.write name fun g => do
    let g ← change g
    return (.values g.values, g)

/-- Carries out one command. -/
def run [BEq α] (w : Workspace α) :
    Command α → Except (Failure × Workspace α) (Reply α × Workspace α)
  | .make name shape values => do w.keep name (← leaving w (Grid.ofValues shape values))
  | .fill name shape value => do w.keep name (← leaving w (Grid.fill w.width shape value))
  | .fillWith name shape filler => do
      let outcomes ← leaving w (Grid.fillWith w.width shape (fun calls p => (filler calls p, calls + 1)) 0)
      w.keep name (← leaving w outcomes.collect)
  | .clone source name => do w.keep name (← leaving w (w.find source))
  | .takeOut name => do return (.removed (← leaving w (w.find name)), w.erase name)
  | .describe name => do return (.description (← leaving w (w.find name)), w)
  | .compare a b => do
      return (.truth ((← leaving w (w.find a)) == (← leaving w (w.find b))), w)
  | .contains name p => do return (.truth (decide (p ∈ (← leaving w (w.find name)).shape)), w)
  | .get name p => do return (.element (← leaving w (w.find name >>= (·.get p))), w)
  | .lookup name p => do return (.found (← leaving w (w.find name >>= (·.lookup p))), w)
  | .getAt name position => do return (.element (← leaving w (w.find name >>= (·.getAt position))), w)
  | .set name p value => w.update name (·.set p value)
  | .setAt name position value => w.update name (·.setAt position value)
  | .exchange name p value =>
      w.write name fun g => do
        let (old, g) ← g.exchange p value
        return (.exchanged old g.values, g)
  | .reset name value => w.update name fun g => return g.reset value
  | .fillRegion name box value => w.update name (·.fillRegion box value)
  -- the source of a copy is read first, so it may be the target itself
  | .copy source target offset => do
      let source ← leaving w (w.find source)
      w.update target (·.copyFrom offset source)
  | .readChunk chunk window origin => do
      let chunk ← leaving w (w.find chunk)
      w.update window (·.readChunk origin chunk)
  | .writeWindow window chunk origin => do
      let window ← leaving w (w.find window)
      w.update chunk (·.writeWindow origin window)
  | .copyPointwise source target offset => do
      let source ← leaving w (w.find source)
      w.update target (·.copyPointwise offset source)

/-- Carries out one command and goes on with the workspace that it leaves, also if it fails. -/
def attempt [BEq α] (w : Workspace α) (c : Command α) :
    Except Failure (Reply α) × Workspace α :=
  match w.run c with
  | .ok (reply, next) => (.ok reply, next)
  | .error (e, left) => (.error e, left)

/-- Carries out the commands of a list one after the other. -/
def runAll [BEq α] (w : Workspace α) : List (Command α) → List (Except Failure (Reply α)) × Workspace α
  | [] => ([], w)
  | c :: rest =>
      let (reply, next) := w.attempt c
      let (replies, last) := runAll next rest
      (reply :: replies, last)

/-! ## What a workspace holds -/

section InsertInto

variable {name other : String} {g : Grid α} {grids : List (String × Grid α)}

theorem lookup_insertInto_self : (insertInto name g grids).lookup name = some g := by
  induction grids with
  | nil => exact List.lookup_cons_self
  | cons entry rest ih =>
      rw [insertInto]
      split
      · exact List.lookup_cons_self
      · next hkey =>
          have hname : (name == entry.1) = false := beq_eq_false_iff_ne.2 fun h => hkey h.symm
          rw [List.lookup_cons, hname]
          exact ih

theorem lookup_insertInto_of_ne (h : other ≠ name) :
    (insertInto name g grids).lookup other = grids.lookup other := by
  have hother : (other == name) = false := beq_eq_false_iff_ne.2 h
  induction grids with
  | nil => rw [insertInto, List.lookup_cons, hother]
  | cons entry rest ih =>
      rw [insertInto]
      split
      · next hkey => rw [List.lookup_cons, List.lookup_cons, hkey, hother]
      · rw [List.lookup_cons, List.lookup_cons, ih]

theorem insertInto_of_lookup_eq_some (h : grids.lookup name = some g) :
    insertInto name g grids = grids := by
  induction grids with
  | nil => cases h
  | cons entry rest ih =>
      rw [List.lookup_cons] at h
      rw [insertInto]
      split
      · next hkey =>
          rw [hkey, beq_self_eq_true] at h
          rw [← hkey, ← Option.some.inj h]
      · next hkey =>
          have hname : (name == entry.1) = false := beq_eq_false_iff_ne.2 fun heq => hkey heq.symm
          rw [hname] at h
          rw [ih h]

end InsertInto

@[simp] theorem get?_empty (width : Nat) (name : String) :
    (empty width : Workspace α).get? name = none := rfl

@[simp] theorem get?_insert_self (w : Workspace α) (name : String) (g : Grid α) :
    (w.insert name g).get? name = some g := lookup_insertInto_self

/-- Putting a grid under a name does not touch the grids of other names. -/
theorem get?_insert_of_ne (w : Workspace α) {name other : String} (g : Grid α) (h : other ≠ name) :
    (w.insert name g).get? other = w.get? other := lookup_insertInto_of_ne h

/-- Putting a grid back where it is changes nothing. -/
theorem insert_of_get?_eq_some {w : Workspace α} {name : String} {g : Grid α}
    (h : w.get? name = some g) : w.insert name g = w :=
  congrArg (Workspace.mk · w.width) (insertInto_of_lookup_eq_some h)

/-- Removing a grid does not touch the grids of other names. -/
theorem get?_erase_of_ne (w : Workspace α) {name other : String} (h : other ≠ name) :
    (w.erase name).get? other = w.get? other := by
  obtain ⟨grids, width⟩ := w
  show List.lookup other (grids.filter fun entry => entry.1 != name) = List.lookup other grids
  induction grids with
  | nil => rfl
  | cons entry rest ih =>
      obtain ⟨key, g⟩ := entry
      by_cases hkey : key = name
      · -- the entry goes, and it was not the one looked for
        subst hkey
        have hother : (other == key) = false := by simpa using h
        simp [List.lookup_cons, hother, ih]
      · simp [hkey, List.lookup_cons, ih]

theorem find_eq_ok_iff {w : Workspace α} {name : String} {g : Grid α} :
    w.find name = .ok g ↔ w.get? name = some g := by
  unfold find
  cases h : w.get? name with
  | some g' => simp
  | none => simp

/-- A write that fails and leaves its grid alone leaves the workspace alone. -/
theorem update_eq_error {w : Workspace α} {name : String} {g : Grid α} {e : Failure}
    {change : Grid α → Except (Failure × Grid α) (Grid α)} (hg : w.get? name = some g)
    (hfails : change g = .error (e, g)) : w.update name change = .error (e, w) := by
  rw [update, write, find_eq_ok_iff.2 hg]
  simp only [leaving_ok, bind, Except.bind, hfails, insert_of_get?_eq_some hg]

/-- A failure is answered, and the next command goes on with what it has left. -/
theorem attempt_of_run_eq_error [BEq α] {w left : Workspace α} {c : Command α} {e : Failure}
    (h : w.run c = .error (e, left)) : w.attempt c = (.error e, left) := by
  rw [attempt, h]

end Workspace

end LatticeGrid
