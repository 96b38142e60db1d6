import LatticeGrid.Bytes.LittleEndian
import Mathlib.Algebra.Group.Nat.Defs

/-!
# Little-endian numbers are read back

Writing a number that fits into a width and reading it, or reading as many bytes as a width has and
writing them, gives back what one started with.

Main statements: `decode_encode` (a number below `256 ^ width` is read back), `encode_decode`
(a byte string of the right length is written back) and `getElem?_encode` (byte number `j` is the digit
of place `256 ^ j`).
-/

set_option autoImplicit false

namespace LatticeGrid.LittleEndian

theorem decode_encode {width n : Nat} (h : n < 256 ^ width) : decode (encode width n) = n := by
  induction width generalizing n with
  | zero =>
      have hn : n = 0 := by simpa using h
      simp [encode, decode, hn]
  | succ width ih =>
      have hq : n / 256 < 256 ^ width := by
        rw [Nat.div_lt_iff_lt_mul (by decide)]
        rwa [Nat.pow_succ] at h
      have hr : (UInt8.ofNat (n % 256)).toNat = n % 256 := by
        simp
      rw [encode, decode, ih hq, hr]
      omega

theorem decode_lt (bs : List UInt8) : decode bs < 256 ^ bs.length := by
  induction bs with
  | nil => decide
  | cons b bs ih =>
      have hb := b.toNat_lt
      rw [decode, List.length_cons, Nat.pow_succ]
      omega

theorem encode_decode {width : Nat} {bs : List UInt8} (h : bs.length = width) :
    encode width (decode bs) = bs := by
  induction width generalizing bs with
  | zero =>
      have hn : bs = [] := List.eq_nil_of_length_eq_zero h
      simp [hn, encode]
  | succ width ih =>
      cases bs with
      | nil => cases h
      | cons b bs =>
          have hb := b.toNat_lt
          have hlen : bs.length = width := by simpa using h
          have hmod : (b.toNat + 256 * decode bs) % 256 = b.toNat := by omega
          have hdiv : (b.toNat + 256 * decode bs) / 256 = decode bs := by omega
          rw [decode, encode, hmod, hdiv, ih hlen]
          simp

/-- Byte number `j` is the digit of place `256 ^ j`. -/
theorem getElem?_encode {width j : Nat} (n : Nat) (h : j < width) :
    (encode width n)[j]? = some (UInt8.ofNat (n / 256 ^ j)) := by
  induction width generalizing n j with
  | zero => exact absurd h (Nat.not_lt_zero j)
  | succ width ih =>
      cases j with
      | zero =>
          rw [encode, List.getElem?_cons_zero, Nat.pow_zero, Nat.div_one]
          exact congrArg some (UInt8.toNat_inj.1 (by simp))
      | succ j =>
          rw [encode, List.getElem?_cons_succ, ih _ (Nat.lt_of_succ_lt_succ h),
            Nat.div_div_eq_div_mul, Nat.pow_succ']

end LatticeGrid.LittleEndian
