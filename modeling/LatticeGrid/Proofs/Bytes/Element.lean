import LatticeGrid.Bytes.Element
import LatticeGrid.Proofs.Bytes.LittleEndian

/-!
# Elements are read back from their bytes

An element of a type has as many bytes as the width of the type says. Reading them gives the element
back, and every byte string of that length is the bytes of the element that is read from it: no bit
pattern is left out, whether or not the type has a sign.

Main statements: `ElementType.ofBytes_toBytes`, `ElementType.toBytes_ofBytes` and
`ElementType.getElem?_toBytes`.
-/

set_option autoImplicit false

namespace LatticeGrid.ElementType

section Widths

/-! ## Numbers of a width in bytes -/

variable {n : Nat}

theorem toNat_lt_pow (v : BitVec (8 * n)) : v.toNat < 256 ^ n := by
  have hpow : 256 ^ n = 2 ^ (8 * n) := (Nat.pow_mul 2 8 n).symm
  rw [hpow]
  exact v.isLt

theorem ofNat_decode_encode (v : BitVec (8 * n)) :
    BitVec.ofNat (8 * n) (LittleEndian.decode (LittleEndian.encode n v.toNat)) = v := by
  rw [LittleEndian.decode_encode (toNat_lt_pow v), BitVec.ofNat_toNat, BitVec.setWidth_eq]

theorem encode_ofNat_decode {bs : List UInt8} (h : bs.length = n) :
    LittleEndian.encode n (BitVec.ofNat (8 * n) (LittleEndian.decode bs)).toNat = bs := by
  have hlt : LittleEndian.decode bs < 2 ^ (8 * n) := by
    rw [Nat.pow_mul, ← h]
    exact LittleEndian.decode_lt bs
  rw [BitVec.toNat_ofNat, Nat.mod_eq_of_lt hlt, LittleEndian.encode_decode h]

/-! ## Runs of bytes -/

theorem ofFn_toList (v : Vector UInt8 n) : (Vector.ofFn fun i => v.toList[i.val]?.getD 0) = v := by
  apply Vector.ext
  intro i hi
  simp

theorem toList_ofFn {bs : List UInt8} (h : bs.length = n) :
    (Vector.ofFn fun i : Fin n => bs[i.val]?.getD 0).toList = bs := by
  apply List.ext_getElem
  · exact Vector.length_toList.trans h.symm
  · intro i hi hi'
    simp [hi']

end Widths

/-! ## Elements of any type -/

/-- Byte number `j` of an element: of a number the digit of place `256 ^ j`, of a run of bytes the byte
itself. -/
def byteAt : (t : ElementType) → t.Value → Nat → UInt8
  | unsigned _, v, j | signed _, v, j | float _, v, j => UInt8.ofNat (BitVec.toNat v / 256 ^ j)
  | octets _, v, j => (Vector.toList v)[j]?.getD 0
  | unit, _, _ => 0

theorem length_toBytes (t : ElementType) (v : t.Value) : (t.toBytes v).length = t.width := by
  cases t with
  | unsigned n | signed n | float n => exact LittleEndian.length_encode n _
  | octets n => exact Vector.length_toList
  | unit => rfl

theorem ofBytes_toBytes (t : ElementType) (v : t.Value) : t.ofBytes (t.toBytes v) = v := by
  cases t with
  | unsigned n | signed n | float n => exact ofNat_decode_encode v
  | octets n => exact ofFn_toList v
  | unit => rfl

theorem toBytes_ofBytes {t : ElementType} {bs : List UInt8} (h : bs.length = t.width) :
    t.toBytes (t.ofBytes bs) = bs := by
  cases t with
  | unsigned n | signed n | float n => exact encode_ofNat_decode h
  | octets n => exact toList_ofFn h
  | unit => exact (List.eq_nil_of_length_eq_zero h).symm

/-- The bytes of an element stand in their order. -/
theorem getElem?_toBytes {t : ElementType} (v : t.Value) {j : Nat} (h : j < t.width) :
    (t.toBytes v)[j]? = some (t.byteAt v j) := by
  cases t with
  | unsigned n | signed n | float n => exact LittleEndian.getElem?_encode _ h
  | octets n =>
      have hlen : j < (Vector.toList v).length := Nat.lt_of_lt_of_eq h Vector.length_toList.symm
      show (Vector.toList v)[j]? = some ((Vector.toList v)[j]?.getD 0)
      rw [List.getElem?_eq_getElem hlen, Option.getD_some]
  | unit => exact absurd h (Nat.not_lt_zero j)

end LatticeGrid.ElementType
