/-!
# Words

A word is an unsigned 64-bit number: an immediate value, an offset from the top of the stack or a
branch target.  In a record it is written as eight bytes, least significant first.

* `Word.toBytes` and `Word.ofBytes` write and read the eight bytes.
-/

namespace StackMachine

/-- An unsigned 64-bit number. -/
abbrev Word := UInt64

namespace Word

/-- The largest number that fits in a word. -/
def maximum : Nat := 0xFFFFFFFFFFFFFFFF

/-- How many bytes a word takes in a record. -/
def byteCount : Nat := 8

/-- The `count` lowest base-256 digits of a number, least significant first. -/
def digits : Nat → Nat → List UInt8
  | 0, _ => []
  | count + 1, n => UInt8.ofNat n :: digits count (n / 256)

/-- The number that base-256 digits stand for, least significant first. -/
def value : List UInt8 → Nat
  | [] => 0
  | b :: bs => b.toNat + 256 * value bs

/-- The eight bytes of a word, least significant first. -/
def toBytes (w : Word) : List UInt8 :=
  digits byteCount w.toNat

/-- The word that a record's bytes stand for. -/
def ofBytes (bs : List UInt8) : Word :=
  UInt64.ofNat (value bs)

@[simp] theorem length_digits
    (count n : Nat) :
    (digits count n).length = count := by
  induction count generalizing n with
  | zero => rfl
  | succ count ih => simp [digits, ih]

@[simp] theorem length_toBytes
    (w : Word) :
    (toBytes w).length = byteCount :=
  length_digits _ _

end Word

end StackMachine
