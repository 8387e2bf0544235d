import Mathlib.Data.List.Basic
import Mathlib.Data.Nat.Digits.Defs
import StackMachine.Proofs.Text.Delimited
import StackMachine.Text.IntegerLiteral
import StackMachine.Text.Quoted

/-!
# Quoted text is read back

A quoted text holds no line feed, whatever the text holds, and shows where it ends.  The quote in
use is its first character; after that, one character of the text after the other can be read back,
since an escape begins with a backslash, its second character tells how many digits follow, and
neither the quote nor a backslash is shown in any other way.

* `hexValue_hexPadded`: a hexadecimal number is read back, with zeros before it.
* `readChar?_escapeChar`: a character is read back, whatever follows it.
* `delimited_quoteText` and `lineFeed_notMem_quoteText` are what follows for whole texts.
-/

namespace StackMachine.Text

/-! ## Hexadecimal numbers -/

/-- The value of hexadecimal digits; other characters count as zero. -/
def hexValue (ds : List Char) : Nat :=
  positional 16 (ds.map fun d => (digitValue? 16 d).getD 0)

theorem digitValue?_digitChar
    {d : Nat}
    (hd : d < 16) :
    digitValue? 16 d.digitChar = some d := by
  revert hd
  revert d
  decide

theorem hexValue_concat
    (ds : List Char) {d : Nat}
    (hd : d < 16) :
    hexValue (ds ++ [d.digitChar]) = hexValue ds * 16 + d := by
  rw [hexValue, List.map_append, List.map_singleton, positional_concat, digitValue?_digitChar hd]
  rfl

theorem hexValue_toDigits
    (n : Nat) :
    hexValue (Nat.toDigits 16 n) = n := by
  induction n using Nat.strongRecOn with
  | ind n ih =>
      by_cases hn : n < 16
      · rw [Nat.toDigits_of_lt_base hn]
        have hvalue := hexValue_concat [] hn
        rw [List.nil_append] at hvalue
        rw [hvalue]
        exact Nat.zero_add n
      · rw [Nat.toDigits_of_base_le (by decide) (Nat.le_of_not_lt hn),
          hexValue_concat _ (Nat.mod_lt n (by decide)), ih (n / 16) (by omega)]
        omega

theorem hexValue_replicate_zero
    (k : Nat) (ds : List Char) :
    hexValue (List.replicate k '0' ++ ds) = hexValue ds := by
  induction k with
  | zero =>
      rfl
  | succ k ih =>
      rw [← ih]
      rfl

@[simp] theorem hexValue_hexPadded
    (width n : Nat) :
    hexValue (hexPadded width n) = n := by
  rw [hexPadded, hexValue_replicate_zero, hexValue_toDigits]

theorem length_hexPadded
    {width n : Nat}
    (hwidth : 0 < width)
    (hn : n < 16 ^ width) :
    (hexPadded width n).length = width := by
  have hlength := (Nat.length_toDigits_le_iff (by decide) hwidth).2 hn
  rw [hexPadded, List.length_append, List.length_replicate]
  omega

theorem exists_digitChar_of_mem
    {n : Nat} {c : Char}
    (h : c ∈ Nat.toDigits 16 n) :
    ∃ d, d < 16 ∧ c = d.digitChar := by
  induction n using Nat.strongRecOn with
  | ind n ih =>
      by_cases hn : n < 16
      · rw [Nat.toDigits_of_lt_base hn, List.mem_singleton] at h
        exact ⟨n, hn, h⟩
      · rw [Nat.toDigits_of_base_le (by decide) (Nat.le_of_not_lt hn), List.mem_append,
          List.mem_singleton] at h
        rcases h with h | h
        · exact ih (n / 16) (by omega) h
        · exact ⟨n % 16, Nat.mod_lt n (by decide), h⟩

theorem lineFeed_notMem_hexPadded
    (width n : Nat) :
    '\n' ∉ hexPadded width n := by
  intro h
  rcases List.mem_append.1 h with h | h
  · cases List.eq_of_mem_replicate h
  · obtain ⟨d, hd, hc⟩ := exists_digitChar_of_mem h
    have hdigit : ∀ d < 16, '\n' ≠ Nat.digitChar d := by
      decide
    exact hdigit d hd hc

/-! ## Characters -/

/-- The number of digits of an escape, by its second character. -/
def escapeWidth? (mark : Char) : Option Nat :=
  if mark = 'x' then some 2
  else if mark = 'u' then some 4
  else if mark = 'U' then some 8
  else none

/-- The character that an escape of two characters stands for, by the second of them. -/
def shortEscaped (letter : Char) : Char :=
  if letter = 't' then '\t'
  else if letter = 'n' then '\n'
  else if letter = 'r' then '\r'
  else letter

/-- Reads a character of a quoted text, and gives the text behind it as well. -/
def readChar? : List Char → Option (Char × List Char)
  | [] => none
  | c :: rest =>
      if c = backslash then
        match rest with
        | [] => none
        | mark :: rest =>
            match escapeWidth? mark with
            | some width => some (Char.ofNat (hexValue (rest.take width)), rest.drop width)
            | none => some (shortEscaped mark, rest)
      else
        some (c, rest)

theorem readChar?_of_ne
    {c : Char}
    (hc : c ≠ backslash)
    (rest : List Char) :
    readChar? (c :: rest) = some (c, rest) :=
  if_neg hc

theorem readChar?_short
    {letter : Char}
    (hletter : escapeWidth? letter = none)
    (rest : List Char) :
    readChar? (backslash :: letter :: rest) = some (shortEscaped letter, rest) := by
  simp only [readChar?, hletter, ↓reduceIte]

theorem readChar?_numeric
    {mark : Char} {width n : Nat}
    (hmark : escapeWidth? mark = some width)
    (hwidth : 0 < width)
    (hn : n < 16 ^ width)
    (rest : List Char) :
    readChar? (backslash :: mark :: (hexPadded width n ++ rest)) = some (Char.ofNat n, rest) := by
  have hlength := length_hexPadded hwidth hn
  simp only [readChar?, hmark, ↓reduceIte]
  rw [List.take_left' hlength, List.drop_left' hlength, hexValue_hexPadded]

/-- The escape of a character by its number has as many digits as its second character says. -/
theorem exists_numericEscape_eq
    (c : Char) :
    ∃ mark width, numericEscape c = backslash :: mark :: hexPadded width c.toNat ∧
      escapeWidth? mark = some width ∧ 0 < width ∧ c.toNat < 16 ^ width := by
  unfold numericEscape
  split
  · next hsmall =>
      exact ⟨'x', 2, rfl, rfl, by decide, by omega⟩
  · split
    · next hmiddle =>
        exact ⟨'u', 4, rfl, rfl, by decide, by omega⟩
    · have hlarge : c.toNat < 2 ^ 32 := c.val.toNat_lt
      exact ⟨'U', 8, rfl, rfl, by decide, by omega⟩

/-- A quote is one of two. -/
def IsQuote (quote : Char) : Prop :=
  quote = singleQuote ∨ quote = doubleQuote

theorem isQuote_quoteFor
    (cs : List Char) :
    IsQuote (quoteFor cs) := by
  unfold quoteFor
  split
  · exact Or.inr rfl
  · exact Or.inl rfl

/-- The ways in which a character appears in a quoted text. -/
theorem escapeChar_cases
    (quote c : Char) :
    ((c = quote ∨ c = backslash) ∧ escapeChar quote c = [backslash, c]) ∨
    (∃ letter, shortEscape? c = some letter ∧ escapeChar quote c = [backslash, letter]) ∨
    (c ≠ quote ∧ c ≠ backslash ∧ isPrintable c ∧ escapeChar quote c = [c]) ∨
    escapeChar quote c = numericEscape c := by
  by_cases hmarked : c = quote ∨ c = backslash
  · exact Or.inl ⟨hmarked, if_pos hmarked⟩
  · refine Or.inr ?_
    rw [escapeChar, if_neg hmarked]
    rw [not_or] at hmarked
    cases shortEscape? c with
    | some letter =>
        exact Or.inl ⟨letter, rfl, rfl⟩
    | none =>
        by_cases hprintable : isPrintable c
        · exact Or.inr (Or.inl ⟨hmarked.1, hmarked.2, hprintable, if_pos hprintable⟩)
        · exact Or.inr (Or.inr (if_neg hprintable))

/-- A quote and a backslash are marks of escapes that stand for themselves. -/
theorem shortEscaped_of_marked
    {quote c : Char}
    (hquote : IsQuote quote)
    (hc : c = quote ∨ c = backslash) :
    escapeWidth? c = none ∧ shortEscaped c = c := by
  rcases hc with rfl | rfl
  · rcases hquote with rfl | rfl <;> decide
  · decide

/-- The second character of a short escape tells the character that is escaped. -/
theorem shortEscaped_of_shortEscape?
    {c letter : Char}
    (h : shortEscape? c = some letter) :
    escapeWidth? letter = none ∧ shortEscaped letter = c := by
  unfold shortEscape? at h
  split at h
  · next hc =>
      cases h
      exact ⟨rfl, hc.symm⟩
  · split at h
    · next hc =>
        cases h
        exact ⟨rfl, hc.symm⟩
    · split at h
      · next hc =>
          cases h
          exact ⟨rfl, hc.symm⟩
      · cases h

/-- A character is read back, whatever follows it. -/
theorem readChar?_escapeChar
    {quote : Char}
    (hquote : IsQuote quote)
    (c : Char) (rest : List Char) :
    readChar? (escapeChar quote c ++ rest) = some (c, rest) := by
  rcases escapeChar_cases quote c with
    ⟨hmarked, hescape⟩ | ⟨letter, hletter, hescape⟩ | ⟨-, hc, -, hescape⟩ | hescape
  · obtain ⟨hnone, hback⟩ := shortEscaped_of_marked hquote hmarked
    rw [hescape, List.cons_append, List.singleton_append, readChar?_short hnone, hback]
  · obtain ⟨hnone, hback⟩ := shortEscaped_of_shortEscape? hletter
    rw [hescape, List.cons_append, List.singleton_append, readChar?_short hnone, hback]
  · rw [hescape, List.singleton_append, readChar?_of_ne hc]
  · obtain ⟨mark, width, hnumeric, hmark, hwidth, hlt⟩ := exists_numericEscape_eq c
    rw [hescape, hnumeric, List.cons_append, List.cons_append,
      readChar?_numeric hmark hwidth hlt, Char.ofNat_toNat]

theorem delimited_escapeChar
    {quote : Char}
    (hquote : IsQuote quote) :
    Delimited Anything (escapeChar quote) :=
  .of_reader readChar? fun c rest _ => readChar?_escapeChar hquote c rest

/-- Inside a quoted text the quote does not stand where a character begins. -/
theorem exists_cons_escapeChar
    {quote : Char}
    (hquote : IsQuote quote)
    (c : Char) :
    ∃ d ds, escapeChar quote c = d :: ds ∧ d ≠ quote := by
  have hbackslash : backslash ≠ quote := by
    rcases hquote with rfl | rfl <;> decide
  rcases escapeChar_cases quote c with
    ⟨-, hescape⟩ | ⟨letter, -, hescape⟩ | ⟨hc, -, -, hescape⟩ | hescape
  · exact ⟨backslash, [c], hescape, hbackslash⟩
  · exact ⟨backslash, [letter], hescape, hbackslash⟩
  · exact ⟨c, [], hescape, hc⟩
  · obtain ⟨mark, width, hnumeric, -⟩ := exists_numericEscape_eq c
    exact ⟨backslash, _, hescape.trans hnumeric, hbackslash⟩

theorem lineFeed_notMem_escapeChar
    {quote : Char}
    (hquote : IsQuote quote)
    (c : Char) :
    '\n' ∉ escapeChar quote c := by
  have hbackslash : '\n' ≠ backslash := by
    decide
  rcases escapeChar_cases quote c with
    ⟨hmarked, hescape⟩ | ⟨letter, hletter, hescape⟩ | ⟨-, -, hprintable, hescape⟩ | hescape
  · have hc : '\n' ≠ c := by
      rintro rfl
      rcases hmarked with h | h
      · rcases hquote with rfl | rfl <;> cases h
      · cases h
    simp [hescape, hbackslash, hc]
  · have hc : '\n' ≠ letter := by
      -- A line feed would be the escape of a line feed, and that is a letter.
      rintro rfl
      obtain ⟨-, rfl⟩ := shortEscaped_of_shortEscape? hletter
      cases hletter
    simp [hescape, hbackslash, hc]
  · have hc : '\n' ≠ c := by
      rintro rfl
      cases hprintable
    simp [hescape, hc]
  · obtain ⟨mark, width, hnumeric, hmark, -, -⟩ := exists_numericEscape_eq c
    have hc : '\n' ≠ mark := by
      rintro rfl
      cases hmark
    simp [hescape, hnumeric, hbackslash, hc, lineFeed_notMem_hexPadded]

/-! ## Texts -/

theorem delimited_quoteChars :
    Delimited Anything quoteChars := by
  intro cs ds s t hs ht heq
  simp only [quoteChars, List.cons_append, List.cons.injEq] at heq
  obtain ⟨hquote, heq⟩ := heq
  rw [← hquote] at heq
  have hall := (delimited_escapeChar (isQuote_quoteFor cs)).flatMap
    (exists_cons_escapeChar (isQuote_quoteFor cs)) (fun _ _ => trivial) fun _ => trivial
  exact hall cs ds s t hs ht heq

/-- A quoted text is read back, whatever follows it. -/
theorem delimited_quoteText :
    Delimited Anything fun text => (quoteText text).toList := by
  intro text text' s t hs ht heq
  simp only [quoteText, String.toList_ofList] at heq
  obtain ⟨hchars, hst⟩ := delimited_quoteChars _ _ s t hs ht heq
  exact ⟨String.toList_inj.1 hchars, hst⟩

/-- A quoted text is all on one line. -/
theorem lineFeed_notMem_quoteText
    (text : String) :
    '\n' ∉ (quoteText text).toList := by
  have hquote : '\n' ≠ quoteFor text.toList := by
    rcases isQuote_quoteFor text.toList with h | h <;> rw [h] <;> decide
  have hchars : ∀ c ∈ text.toList, '\n' ∉ escapeChar (quoteFor text.toList) c :=
    fun c _ => lineFeed_notMem_escapeChar (isQuote_quoteFor _) c
  simpa [quoteText, quoteChars, hquote] using hchars

end StackMachine.Text
