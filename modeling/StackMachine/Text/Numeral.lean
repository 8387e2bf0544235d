/-!
# Numerals

The value of a list of digits, and the limit on decimal numerals: one of more than 4300 digits is
neither read nor written, because the conversion takes time quadratic in its length.
-/

namespace StackMachine.Text

/-- The number of digits of the longest decimal numeral that is converted. -/
def maxDecimalDigits : Nat := 4300

/-- The value of digits in positional notation, most significant first. -/
def positional (radix : Nat) (ds : List Nat) : Nat :=
  ds.foldl (fun n d => n * radix + d) 0

/-- The complaint about a decimal numeral that is too long to be read. -/
def numeralTooLong (digitCount : Nat) : String :=
  "Exceeds the limit (" ++ toString maxDecimalDigits ++
    " digits) for integer string conversion: value has " ++ toString digitCount ++
    " digits; use sys.set_int_max_str_digits() to increase the limit"

/-- The complaint about a number whose decimal numeral is too long to be written. -/
def numberTooLong : String :=
  "Exceeds the limit (" ++ toString maxDecimalDigits ++
    " digits) for integer string conversion; use sys.set_int_max_str_digits() to increase the limit"

/-- The value of digits followed by one more digit. -/
theorem positional_concat
    (radix : Nat) (ds : List Nat) (d : Nat) :
    positional radix (ds ++ [d]) = positional radix ds * radix + d := by
  simp [positional]

end StackMachine.Text
