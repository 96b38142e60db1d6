/-!
# Little-endian numbers

The digits of a natural number in base 256, least significant first, in a fixed number of bytes.
-/

set_option autoImplicit false

namespace LatticeGrid.LittleEndian

/-- The lowest `width` base-256 digits of a number, least significant first. -/
def encode : (width : Nat) → Nat → List UInt8
  | 0, _ => []
  | width + 1, n => UInt8.ofNat (n % 256) :: encode width (n / 256)

/-- The number with these base-256 digits, least significant first. -/
def decode : List UInt8 → Nat
  | [] => 0
  | b :: bs => b.toNat + 256 * decode bs

@[simp] theorem length_encode (width n : Nat) : (encode width n).length = width := by
  induction width generalizing n with
  | zero => rfl
  | succ width ih => simp [encode, ih]

end LatticeGrid.LittleEndian
