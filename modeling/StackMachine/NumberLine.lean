import StackMachine.Console
import StackMachine.Text.Numeral
import StackMachine.Word

/-!
# Number lines

A number line is a line of input that holds one number: an optional plus sign and decimal digits,
with nothing around them but the end of the line, a line feed or a carriage return and a line feed.
The number has to fit in a word.

* `NumberLine.parse` gives the number of a line, or says why there is none.
-/

namespace StackMachine.NumberLine

/-- Why a line holds no number. -/
inductive Rejection
  /-- The line is not a sign and digits; `text` is the line without its end. -/
  | notANumber (text : List UInt8)
  /-- The number does not fit in a word. -/
  | tooLarge (value : Nat)
  /-- The numeral has too many digits to be converted. -/
  | tooLong (digitCount : Nat)
  deriving DecidableEq, Repr

/-- A line without the line feed that ends it and without a carriage return before that. -/
def text (line : List UInt8) : List UInt8 :=
  if line.getLast? = some lineFeed then
    let body := line.dropLast
    if body.getLast? = some carriageReturn then body.dropLast else body
  else
    line

/-- The part of a line's text after an optional plus sign. -/
def unsigned : List UInt8 → List UInt8
  | 0x2B :: rest => rest
  | bytes => bytes

/-- Whether the byte is an ASCII digit. -/
def isDigit (b : UInt8) : Bool :=
  0x30 ≤ b && b ≤ 0x39

/-- The number that a line holds. -/
def parse (line : List UInt8) : Except Rejection Nat :=
  let body := text line
  let ds := unsigned body
  if ds.isEmpty || !ds.all isDigit then
    .error (.notANumber body)
  else if Text.maxDecimalDigits < ds.length then
    .error (.tooLong ds.length)
  else
    let n := Text.positional 10 (ds.map fun b => b.toNat - 0x30)
    if n ≤ Word.maximum then .ok n else .error (.tooLarge n)

/-- A number that a line holds fits in a word. -/
theorem le_of_parse
    {line : List UInt8} {n : Nat}
    (h : parse line = .ok n) :
    n ≤ Word.maximum := by
  simp only [parse] at h
  split at h
  · simp at h
  · split at h
    · simp at h
    · split at h
      · next hle => simpa [← Except.ok.inj h] using hle
      · simp at h

end StackMachine.NumberLine
