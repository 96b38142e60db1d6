import LatticeGrid.Lattice.Box.Basic
import LatticeGrid.Record.Datum

/-!
# Points, shapes and boxes as data

A point is stored as the list of its coordinates and a shape as the list of its lengths. A box is
stored as a record of two fields, `minimum` and `shape`; when it is read, other fields are ignored,
and a list of exactly the two is accepted in place of the record. Nothing but the range of each number
is checked.

Main statements: `Point.ofDatum?_toDatum` and `Box.ofDatum?_toDatum`, what is stored is read back.
-/

set_option autoImplicit false

namespace LatticeGrid

/-- The coordinate that a number stands for. -/
def Coord.ofDatum? (d : Datum) : Option Coord := d.int?.bind Coord.ofInt?

/-- A point as data. -/
def Point.toDatum (p : Point) : Datum := .list (p.coords.map fun c => .int c.val)

/-- The point that a list of numbers stands for. -/
def Point.ofDatum? (d : Datum) : Option Point := do
  let items ← d.items?
  Point.mk <$> items.mapM Coord.ofDatum?

/-- A shape as data. -/
def Shape.toDatum (s : Shape) : Datum := Datum.ofNats s.lengths

/-- The multi-index, or the list of lengths, that a list of numbers stands for. -/
def Index.ofDatum? (d : Datum) : Option Index := do
  let items ← d.items?
  items.mapM (Datum.natBelow? Word.bound)

/-- The shape that a list of numbers stands for. -/
def Shape.ofDatum? (d : Datum) : Option Shape := Shape.mk <$> Index.ofDatum? d

/-- A box as data. -/
def Box.toDatum (b : Box) : Datum :=
  .record [("minimum", b.corner.toDatum), ("shape", b.sides.toDatum)]

/-- The box that a record, or a list of two, stands for. -/
def Box.ofDatum? : Datum → Option Box
  | .list [corner, sides] => return ⟨← Point.ofDatum? corner, ← Point.ofDatum? sides⟩
  | .list _ => none
  | d => do
      let corner ← d.field? "minimum"
      let sides ← d.field? "shape"
      return ⟨← Point.ofDatum? corner, ← Point.ofDatum? sides⟩

/-! ## Reading back -/

theorem Coord.ofInt?_val (c : Coord) : Coord.ofInt? c.val = some c :=
  Coord.ofInt?_eq_some_iff.2 rfl

@[simp] theorem Point.ofDatum?_toDatum (p : Point) : Point.ofDatum? p.toDatum = some p := by
  obtain ⟨cs⟩ := p
  have hitems : (cs.map fun c => Datum.int c.val).mapM Coord.ofDatum? = some cs := by
    induction cs with
    | nil => rfl
    | cons c cs ih =>
        rw [List.map_cons, List.mapM_cons, ih]
        simp [Coord.ofDatum?, Datum.int?, Coord.ofInt?_val]
  simp [toDatum, ofDatum?, Datum.items?, hitems]

@[simp] theorem Box.ofDatum?_toDatum (b : Box) : Box.ofDatum? b.toDatum = some b := by
  simp [toDatum, ofDatum?, Datum.field?, List.lookup_cons]

end LatticeGrid
