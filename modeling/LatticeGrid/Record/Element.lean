import LatticeGrid.Bytes.Element
import LatticeGrid.Record.Datum

/-!
# Elements as data

Each element of an `ElementType` as a piece of plain data: integers as numbers, floating-point numbers
as the number of their bit pattern, runs of bytes as lists of numbers, and the element of no bytes as
the absent value.
-/

set_option autoImplicit false

namespace LatticeGrid.ElementType

/-- An element as data. -/
def toDatum : (t : ElementType) → t.Value → Datum
  | unsigned _, v | float _, v => .int (BitVec.toNat v)
  | signed _, v => .int (BitVec.toInt v)
  | octets _, v => Datum.ofNats ((Vector.toList v).map UInt8.toNat)
  | unit, _ => .null

/-- The element that a piece of data stands for, if the number lies in the range of the type. -/
def ofDatum? : (t : ElementType) → Datum → Option t.Value
  | unsigned n, d | float n, d => (d.natBelow? (1 <<< (8 * n))).map (BitVec.ofNat (8 * n))
  | signed n, d => do
      let i ← d.int?
      let bound : Nat := 1 <<< (8 * n)
      if -bound ≤ 2 * i ∧ 2 * i < bound then some (BitVec.ofInt (8 * n) i) else none
  | octets n, d => do
      let items ← d.items?
      let bytes ← items.mapM (Datum.natBelow? 256)
      if bytes.length = n then
        some (Vector.ofFn fun i => UInt8.ofNat (bytes[i.val]?.getD 0))
      else
        none
  | unit, .null => some ()
  | unit, _ => none

end LatticeGrid.ElementType
