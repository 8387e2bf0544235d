import StackMachine.Text.Printable

/-!
# Quoted text

A text or a block of bytes is shown between quotes, on one line and in a form from which it can be
read back: the quote in use and the backslash are escaped by a backslash, tabs and line ends have
two-character escapes, and whatever else is not printable is shown by its number in hexadecimal.

* `quoteText` quotes a text, `quoteBytes` a block of bytes.
-/

namespace StackMachine.Text

/-- The single quote. -/
def singleQuote : Char := '\x27'

/-- The double quote. -/
def doubleQuote : Char := '\x22'

/-- The backslash. -/
def backslash : Char := '\x5c'

/-- The quote that surrounds a text: single, unless the text holds a single quote and no double
one. -/
def quoteFor (cs : List Char) : Char :=
  if cs.contains singleQuote && !cs.contains doubleQuote then doubleQuote else singleQuote

/-- A number in lower-case hexadecimal, with leading zeros up to the given width. -/
def hexPadded (width n : Nat) : List Char :=
  let ds := Nat.toDigits 16 n
  List.replicate (width - ds.length) '0' ++ ds

/-- The two-character escapes of the tab and the line ends. -/
def shortEscape? (c : Char) : Option Char :=
  if c = '\t' then some 't'
  else if c = '\n' then some 'n'
  else if c = '\r' then some 'r'
  else none

/-- The escape of a character by its number: two, four or eight hexadecimal digits. -/
def numericEscape (c : Char) : List Char :=
  if c.toNat < 0x100 then backslash :: 'x' :: hexPadded 2 c.toNat
  else if c.toNat < 0x10000 then backslash :: 'u' :: hexPadded 4 c.toNat
  else backslash :: 'U' :: hexPadded 8 c.toNat

/-- How a character appears inside a text quoted with `quote`. -/
def escapeChar (quote c : Char) : List Char :=
  if c = quote ∨ c = backslash then [backslash, c]
  else match shortEscape? c with
    | some letter => [backslash, letter]
    | none => if isPrintable c then [c] else numericEscape c

/-- The quoted form of a list of characters. -/
def quoteChars (cs : List Char) : List Char :=
  let quote := quoteFor cs
  quote :: (cs.flatMap (escapeChar quote) ++ [quote])

/-- The quoted form of a text. -/
def quoteText (s : String) : String :=
  String.ofList (quoteChars s.toList)

/-- How a byte appears inside a block of bytes quoted with `quote`. -/
def escapeByte (quote : Char) (b : UInt8) : List Char :=
  let c := Char.ofNat b.toNat
  if c = quote ∨ c = backslash then [backslash, c]
  else match shortEscape? c with
    | some letter => [backslash, letter]
    | none =>
        if 0x20 ≤ b ∧ b < 0x7F then [c] else backslash :: 'x' :: hexPadded 2 b.toNat

/-- The quoted form of a block of bytes, marked by a leading `b`. -/
def quoteBytes (bs : List UInt8) : String :=
  let quote := quoteFor (bs.map fun b => Char.ofNat b.toNat)
  String.ofList ('b' :: quote :: (bs.flatMap (escapeByte quote) ++ [quote]))

end StackMachine.Text
