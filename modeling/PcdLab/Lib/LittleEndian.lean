import Mathlib.Data.Nat.ModEq
import Mathlib.Tactic.Ring

/-! # Fixed-width little-endian bytes

`encode w n` keeps the low `w` bytes of `n`, so it truncates exactly as a machine
conversion does. Decoding accepts every byte string. The two are inverse on the
strings of one width, and on the numbers which that width can hold.
-/

namespace PcdLab.Lib.LittleEndian

/-- The low `w` bytes of a number, least significant first. -/
def encode : Nat → Nat → List UInt8
  | 0, _ => []
  | w + 1, n => UInt8.ofNat n :: encode w (n / 256)

def decode : List UInt8 → Nat
  | [] => 0
  | b :: bs => b.toNat + 256 * decode bs

@[simp] theorem length_encode (w n : Nat) : (encode w n).length = w := by
  induction w generalizing n with
  | zero => rfl
  | succ w ih => simp only [encode, List.length_cons, ih]

/-- Decoding recovers the number up to the bytes which the width cut off. -/
theorem decode_encode (w n : Nat) : decode (encode w n) = n % 256 ^ w := by
  induction w generalizing n with
  | zero => simp only [encode, decode, Nat.pow_zero, Nat.mod_one]
  | succ w ih =>
      have low : (UInt8.ofNat n).toNat = n % 256 := UInt8.toNat_ofNat'
      have width : 256 ^ (w + 1) = 256 * 256 ^ w := by ring
      simp only [encode, decode, ih, low, width]
      exact Nat.mod_mul.symm

theorem decode_encode_of_lt {w n : Nat} (fits : n < 256 ^ w) : decode (encode w n) = n := by
  rw [decode_encode, Nat.mod_eq_of_lt fits]

theorem decode_lt (bs : List UInt8) : decode bs < 256 ^ bs.length := by
  induction bs with
  | nil => simp only [decode, List.length_nil, Nat.pow_zero, Nat.zero_lt_one]
  | cons b bs ih =>
      have byte : b.toNat < 256 := b.toNat_lt
      have width : 256 ^ (b :: bs).length = 256 * 256 ^ bs.length := by
        rw [List.length_cons]; ring
      rw [width]
      simp only [decode]
      omega

theorem encode_decode (bs : List UInt8) : encode bs.length (decode bs) = bs := by
  induction bs with
  | nil => rfl
  | cons b bs ih =>
      have byte : b.toNat < 256 := b.toNat_lt
      have head : UInt8.ofNat (b.toNat + 256 * decode bs) = b := by
        apply UInt8.toNat_inj.mp
        rw [UInt8.toNat_ofNat']
        omega
      have tail : (b.toNat + 256 * decode bs) / 256 = decode bs := by omega
      simp only [List.length_cons, decode, encode, head, tail, ih]

end PcdLab.Lib.LittleEndian
