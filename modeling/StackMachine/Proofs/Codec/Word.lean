import Mathlib.Data.Nat.Digits.Defs
import StackMachine.Word

/-!
# Words and their bytes

Base-256 digits, least significant first, are another way to write a number that has no more of
them, so that the eight bytes of a word and the word determine each other.

* `Word.ofBytes_toBytes` and `Word.toBytes_ofBytes`: writing and reading are inverse to each other.
-/

namespace StackMachine
namespace Word

theorem maximum_eq :
    maximum = 2 ^ 64 - 1 := by
  norm_num [maximum]

/-- Digits of a number that has no more of them read back as that number. -/
theorem value_digits
    (count n : Nat)
    (h : n < 256 ^ count) :
    value (digits count n) = n := by
  induction count generalizing n with
  | zero => simp [digits, value] at h ⊢; omega
  | succ count ih =>
      have hdiv : n / 256 < 256 ^ count := by
        rw [Nat.div_lt_iff_lt_mul (by omega)]
        rwa [Nat.pow_succ] at h
      simp only [digits, value, ih _ hdiv, UInt8.toNat_ofNat']
      omega

/-- A word reads back from its bytes. -/
@[simp] theorem ofBytes_toBytes
    (w : Word) :
    ofBytes (toBytes w) = w := by
  have h : w.toNat < 256 ^ 8 := w.toNat_lt
  simp [ofBytes, toBytes, byteCount, value_digits 8 _ h]

/-- Base-256 digits stand for a number that has no more digits. -/
theorem value_lt
    (bs : List UInt8) :
    value bs < 256 ^ bs.length := by
  induction bs with
  | nil => simp [value]
  | cons b bs ih =>
      have hb : b.toNat < 256 := b.toNat_lt
      rw [value, List.length_cons, Nat.pow_succ]
      omega

/-- The digits of the number that digits stand for are these digits. -/
theorem digits_value
    (bs : List UInt8) :
    digits bs.length (value bs) = bs := by
  induction bs with
  | nil => rfl
  | cons b bs ih =>
      have hb : b.toNat < 256 := b.toNat_lt
      have hdiv : (b.toNat + 256 * value bs) / 256 = value bs := by omega
      have hmod : UInt8.ofNat (b.toNat + 256 * value bs) = b := by
        rw [← UInt8.toNat_inj, UInt8.toNat_ofNat']
        omega
      rw [List.length_cons, digits, value, hdiv, hmod, ih]

/-- Eight bytes are the bytes of the word that they stand for. -/
theorem toBytes_ofBytes
    {bs : List UInt8}
    (h : bs.length = byteCount) :
    toBytes (ofBytes bs) = bs := by
  have hlt := value_lt bs
  rw [h, byteCount] at hlt
  rw [toBytes, ofBytes, UInt64.toNat_ofNat_of_lt' hlt, ← h, digits_value]

end Word
end StackMachine
