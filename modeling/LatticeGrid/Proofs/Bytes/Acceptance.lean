import LatticeGrid.Proofs.Bytes.RoundTrip
import LatticeGrid.Proofs.Faults

/-!
# Which byte strings are accepted

A byte string is checked twice on its way into a grid: its length against the bytes of the shape, and the
number of elements it is cut into against the elements of the shape. For elements that take bytes the second
check has nothing left to refuse (`Grid.ofBytes_eq_ok_iff`), so a byte string of the right length is read and
every other one is reported with the length it should have. Elements that take no bytes pass the first check
with no bytes at all, and then the number of elements in the byte string is a division by zero.

Main statement: `Grid.ofBytes_accepts_measured`.
-/

set_option autoImplicit false

namespace LatticeGrid.Grid

variable {type : ElementType} {shape : Shape} {bytes : List UInt8} {n : Nat} {e : Failure}

/-- The elements of a shape can be counted, and this is the number of their bytes, which fits a word. -/
def Measures (type : ElementType) (shape : Shape) (n : Nat) : Prop :=
  ∃ count, shape.pointCount? = some count ∧ count * type.width < Word.bound ∧ n = count * type.width

theorem byteCount?_eq_some_iff_measures : byteCount? shape type = some n ↔ Measures type shape n := by
  rw [byteCount?_eq_some_iff]
  constructor
  · rintro ⟨hcount, hfit, hn⟩
    exact ⟨shape.size, hcount, hfit, hn⟩
  · rintro ⟨count, hcount, hfit, hn⟩
    obtain rfl := Shape.pointCount?_eq_some hcount
    exact ⟨hcount, hfit, hn⟩

theorem byteCount?_eq_none_iff : byteCount? shape type = none ↔ ∀ n, ¬ Measures type shape n := by
  simp only [Option.eq_none_iff_forall_ne_some, ← byteCount?_eq_some_iff_measures, ne_eq]

theorem exists_ofBytes_eq_ok_iff :
    (∃ g, ofBytes type shape bytes = .ok g) ↔
      type.width ≠ 0 ∧ Measures type shape bytes.length := by
  rw [← byteCount?_eq_some_iff_measures]
  constructor
  · rintro ⟨g, hg⟩
    obtain ⟨hbytes, hwidth, -⟩ := ofBytes_eq_ok_iff.1 hg
    exact ⟨hwidth, hbytes⟩
  · rintro ⟨hwidth, hbytes⟩
    have hsize : ((cut type.width shape.size bytes).map type.ofBytes).toArray.size = shape.size := by
      rw [List.size_toArray, List.length_map, length_cut]
    exact ⟨⟨shape, shape.strides, _, rfl, hsize⟩, ofBytes_eq_ok_iff.2 ⟨hbytes, hwidth, rfl, rfl⟩⟩

/-- Elements that take no bytes cannot be cut off a byte string. -/
theorem ofBytes_eq_divisionByZero (hwidth : type.width = 0) (h : Measures type shape bytes.length) :
    ofBytes type shape bytes = .error .divisionByZero := by
  rw [ofBytes, byteCount?_eq_some_iff_measures.2 h]
  dsimp only
  rw [if_pos rfl, if_pos hwidth]

theorem ofBytes_eq_valueCount (h : Measures type shape n) (hne : n ≠ bytes.length) :
    ofBytes type shape bytes = .error (.valueCount shape n bytes.length) := by
  rw [ofBytes, byteCount?_eq_some_iff_measures.2 h]
  exact if_neg hne

theorem ofBytes_of_not_measures (h : ∀ n, ¬ Measures type shape n) :
    ofBytes type shape bytes = .error (.valueCount shape Word.greatest bytes.length) := by
  rw [ofBytes, byteCount?_eq_none_iff.2 h]

/-- For a shape and a byte string of any lengths: a grid is read exactly when the elements take bytes and the
byte string has the bytes of the shape. A byte string of another length is reported with that length and the
one it should have, or with the greatest word for a shape whose elements or bytes do not fit a word. There is
one fault, a division by zero, for elements that take no bytes where the byte string is empty and the elements
of the shape can be counted. -/
theorem ofBytes_accepts_measured (type : ElementType) (shape : Shape) (bytes : List UInt8) :
    ((∃ g, ofBytes type shape bytes = .ok g) ↔
      type.width ≠ 0 ∧ Measures type shape bytes.length) ∧
    (∀ n, Measures type shape n → n ≠ bytes.length →
      ofBytes type shape bytes = .error (.valueCount shape n bytes.length)) ∧
    ((∀ n, ¬ Measures type shape n) →
      ofBytes type shape bytes = .error (.valueCount shape 18446744073709551615 bytes.length)) ∧
    (OnlyReports (ofBytes type shape bytes) ↔
      ¬ (type.width = 0 ∧ Measures type shape bytes.length)) ∧
    (type.width = 0 → Measures type shape bytes.length →
      ofBytes type shape bytes = .error .divisionByZero) := by
  refine ⟨exists_ofBytes_eq_ok_iff, fun n h hne => ofBytes_eq_valueCount h hne, ofBytes_of_not_measures, ?_,
    ofBytes_eq_divisionByZero⟩
  constructor
  · rintro h ⟨hwidth, hbytes⟩
    cases h _ (ofBytes_eq_divisionByZero hwidth hbytes)
  · intro h e he
    by_cases hbytes : Measures type shape bytes.length
    · obtain ⟨g, hg⟩ := exists_ofBytes_eq_ok_iff.2 ⟨fun hwidth => h ⟨hwidth, hbytes⟩, hbytes⟩
      cases hg.symm.trans he
    · -- another length is reported, and so is a shape without one
      by_cases hmeasured : ∃ n, Measures type shape n
      · obtain ⟨n, hn⟩ := hmeasured
        cases (ofBytes_eq_valueCount hn fun heq => hbytes (heq ▸ hn)).symm.trans he
        rfl
      · cases (ofBytes_of_not_measures fun n hn => hmeasured ⟨n, hn⟩).symm.trans he
        rfl

/-- Five bytes for three pairs of bytes; no bytes for a row of pairs that has `2^64` of them; and a byte for
elements that take none. -/
theorem ofBytes_accepts_measured_pairs :
    ofBytes (.unsigned 2) ⟨[3]⟩ [1, 2, 3, 4, 5] = .error (.valueCount ⟨[3]⟩ 6 5) ∧
    ofBytes (.unsigned 2) ⟨[9223372036854775808]⟩ [] =
      .error (.valueCount ⟨[9223372036854775808]⟩ 18446744073709551615 0) ∧
    OnlyReports (ofBytes .unit ⟨[3]⟩ [0]) := by
  obtain ⟨-, hshort, -⟩ := ofBytes_accepts_measured (.unsigned 2) ⟨[3]⟩ [1, 2, 3, 4, 5]
  obtain ⟨-, -, hlong, -⟩ := ofBytes_accepts_measured (.unsigned 2) ⟨[9223372036854775808]⟩ []
  obtain ⟨-, -, -, hunit, -⟩ := ofBytes_accepts_measured .unit ⟨[3]⟩ [0]
  refine ⟨hshort 6 ⟨3, rfl, by decide, rfl⟩ (by decide), hlong ?_, hunit.2 ?_⟩
  · rintro n ⟨count, hcount, hfit, -⟩
    cases hcount
    exact absurd hfit (by decide)
  · rintro ⟨-, count, hcount, -, hone⟩
    cases hcount
    cases hone

/-- Two elements that take no bytes are just the length of the empty byte string, and cannot be read from it. -/
theorem ofBytes_accepts_measured_not_unit :
    Measures .unit ⟨[2]⟩ ([] : List UInt8).length ∧
    ofBytes .unit ⟨[2]⟩ [] = .error .divisionByZero ∧ Failure.divisionByZero.isReported = false :=
  ⟨⟨2, rfl, by decide, rfl⟩, rfl, rfl⟩

end LatticeGrid.Grid
