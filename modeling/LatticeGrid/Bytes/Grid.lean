import LatticeGrid.Bytes.Element
import LatticeGrid.Grid.Basic

/-!
# Grids as bytes

A grid as the bytes of its elements in row-major order, and back. Reading checks the number of bytes
against the shape; the bytes of elements that take none cannot be cut into elements, which is a
fault.
-/

set_option autoImplicit false

namespace LatticeGrid.Grid

/-- Cuts the first `count` elements of `width` bytes off a byte string. -/
def cut (width : Nat) : (count : Nat) → List UInt8 → List (List UInt8)
  | 0, _ => []
  | count + 1, bytes => bytes.take width :: cut width count (bytes.drop width)

/-- The number of bytes of a grid, or `none` when it does not fit a word. -/
def byteCount? (shape : Shape) (type : ElementType) : Option Nat := do
  let count ← shape.pointCount?
  (Word.mul count type.width).toOption

/-- The grid of a shape whose elements have these bytes. -/
def ofBytes (type : ElementType) (shape : Shape) (bytes : List UInt8) :
    Except Failure (Grid type.Value) :=
  match byteCount? shape type with
  | none => .error (.valueCount shape Word.greatest bytes.length)
  | some expected =>
      if expected = bytes.length then
        -- the number of elements is the number of bytes divided by the width
        if type.width = 0 then
          .error .divisionByZero
        else
          let pieces := cut type.width (bytes.length / type.width) bytes
          ofValues shape (pieces.map type.ofBytes).toArray
      else
        .error (.valueCount shape expected bytes.length)

/-- The bytes of the elements of a grid, in row-major order. -/
def toBytes (type : ElementType) (g : Grid type.Value) : List UInt8 :=
  g.values.toList.flatMap type.toBytes

end LatticeGrid.Grid
