import StackMachine.Text.DecimalDigit
import StackMachine.Text.Numeral

/-!
# Integer literals

An integer literal is an optional sign followed by digits in one of four bases.  The prefixes `0x`,
`0o` and `0b`, in either case, choose base 16, 8 and 2; without one the literal is decimal, and then
it starts with a zero only if all its digits are zero.  Single underscores may stand between digits
and right after a base prefix.  A decimal digit of any script counts as its value.

* `parseInteger?` gives the value of a literal.
-/

namespace StackMachine.Text

/-- The underscore that may separate digits. -/
def separator : Char := '_'

/-- A decimal digit of any script becomes the ASCII digit of its value; other characters stay. -/
def asciiDigit (c : Char) : Char :=
  match decimalDigit? c with
  | some d => Char.ofNat ('0'.toNat + d)
  | none => c

/-- The value of a digit in a base of at most sixteen; letters count in either case. -/
def digitValue? (radix : Nat) (c : Char) : Option Nat :=
  let n := c.toNat
  let v? : Option Nat :=
    if '0'.toNat ≤ n ∧ n ≤ '9'.toNat then some (n - '0'.toNat)
    else if 'a'.toNat ≤ n ∧ n ≤ 'f'.toNat then some (n - 'a'.toNat + 10)
    else if 'A'.toNat ≤ n ∧ n ≤ 'F'.toNat then some (n - 'A'.toNat + 10)
    else none
  v?.filter (· < radix)

/-- Separators stand alone and between other characters only. -/
def wellSeparated (cs : List Char) : Bool :=
  cs.head?.any (· != separator) && cs.getLast?.any (· != separator) &&
    (cs.zip cs.tail).all fun pair => pair.1 != separator || pair.2 != separator

/-- The digits of a numeral: at least one, with single separators between them. -/
def digits? (radix : Nat) (cs : List Char) : Option (List Nat) :=
  if wellSeparated cs then
    (cs.filter (· != separator)).mapM (digitValue? radix)
  else
    none

/-- The value of what follows a base prefix. -/
def prefixed? (radix : Nat) (cs : List Char) : Option Nat :=
  let body := if cs.head? = some separator then cs.tail else cs
  (digits? radix body).map (positional radix)

/-- The value of a decimal numeral: at most `maxDecimalDigits` digits, and none but zeros if the
first one is a zero. -/
def decimal? (cs : List Char) : Option Nat := do
  let ds ← digits? 10 cs
  let n := positional 10 ds
  if ds.length ≤ maxDecimalDigits ∧ (ds.head? = some 0 → n = 0) then some n else none

/-- The value of an unsigned literal whose digits are ASCII. -/
def magnitude? (cs : List Char) : Option Nat :=
  match cs with
  | '0' :: mark :: rest =>
      if mark = 'x' ∨ mark = 'X' then prefixed? 16 rest
      else if mark = 'o' ∨ mark = 'O' then prefixed? 8 rest
      else if mark = 'b' ∨ mark = 'B' then prefixed? 2 rest
      else decimal? cs
  | _ => decimal? cs

/-- The value of an integer literal. -/
def parseInteger? (cs : List Char) : Option Int :=
  match cs.map asciiDigit with
  | '+' :: rest => (magnitude? rest).map Int.ofNat
  | '-' :: rest => (magnitude? rest).map fun n => -Int.ofNat n
  | rest => (magnitude? rest).map Int.ofNat

end StackMachine.Text
