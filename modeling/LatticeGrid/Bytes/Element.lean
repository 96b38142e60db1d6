import LatticeGrid.Bytes.LittleEndian

/-!
# Element types

The types of the elements that a grid can be read from and written to bytes with, each of a fixed
width: integers with and without a sign, floating-point numbers by their bit pattern, short runs of
bytes, and the type of no bytes. All numbers are little-endian.
-/

set_option autoImplicit false

namespace LatticeGrid

/-- A type of elements of a fixed width in bytes. -/
inductive ElementType where
  /-- Integers without a sign. -/
  | unsigned (bytes : Nat)
  /-- Integers with a sign, in two's complement. -/
  | signed (bytes : Nat)
  /-- Floating-point numbers, held by their bit pattern. -/
  | float (bytes : Nat)
  /-- Runs of bytes. -/
  | octets (count : Nat)
  /-- The type with a single element, which takes no bytes. -/
  | unit
deriving DecidableEq, Repr

namespace ElementType

/-- The number of bytes of an element. -/
def width : ElementType → Nat
  | unsigned n | signed n | float n | octets n => n
  | unit => 0

/-- The elements of a type. A number is held as its bits. -/
def Value : ElementType → Type
  | unsigned n | signed n | float n => BitVec (8 * n)
  | octets n => Vector UInt8 n
  | unit => Unit

/-- The bytes of an element. -/
def toBytes : (t : ElementType) → t.Value → List UInt8
  | unsigned n, v | signed n, v | float n, v => LittleEndian.encode n (BitVec.toNat v)
  | octets _, v => Vector.toList v
  | unit, _ => []

/-- The element with these bytes. Missing bytes count as zero. -/
def ofBytes : (t : ElementType) → List UInt8 → t.Value
  | unsigned n, bs | signed n, bs | float n, bs => BitVec.ofNat (8 * n) (LittleEndian.decode bs)
  | octets _, bs => Vector.ofFn fun i => bs[i.val]?.getD 0
  | unit, _ => ()

end ElementType

end LatticeGrid
