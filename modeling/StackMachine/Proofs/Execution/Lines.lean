import Mathlib.Data.List.Basic
import StackMachine.Proofs.Codec.Utf8
import StackMachine.Proofs.Codec.Word
import StackMachine.Proofs.Execution.TopFirst
import StackMachine.Proofs.Text.IntegerLiteral

/-!
# Lines, read and written

The lines of the table are the lines that a console hands over and that a machine writes.

* `TopFirst.firstLine_eq` is the split of the input after its first line.
* `TopFirst.parse_eq` is the word that a line holds.
* `TopFirst.textLine_eq` and `TopFirst.numberLine_eq` are the lines that are written.
-/

namespace StackMachine
namespace TopFirst

/-! ## Lines of the input -/

theorem lineLength_cons_lineFeed
    (rest : List UInt8) :
    lineLength (lineFeed :: rest) = 1 := by
  simp [lineLength]

theorem lineLength_cons_of_ne
    {b : UInt8}
    (h : b ≠ lineFeed)
    (rest : List UInt8) :
    lineLength (b :: rest) = lineLength rest + 1 := by
  have hmem : lineFeed ∈ b :: rest ↔ lineFeed ∈ rest := by
    simp [List.mem_cons, h.symm]
  simp only [lineLength, hmem, List.length_cons, List.idxOf_cons_ne rest h]
  split <;> rfl

theorem firstLine_cons_lineFeed
    (rest : List UInt8) :
    firstLine (lineFeed :: rest) = ([lineFeed], rest) := by
  simp [firstLine]

theorem firstLine_cons_of_ne
    {b : UInt8}
    (h : b ≠ lineFeed)
    (rest : List UInt8) :
    firstLine (b :: rest) = (b :: (firstLine rest).1, (firstLine rest).2) := by
  simp only [firstLine, List.takeWhile_cons, List.dropWhile_cons, bne_iff_ne, ne_eq, h,
    not_false_eq_true, ↓reduceIte]
  split <;> simp_all

/-- A line and the rest of the input. -/
theorem firstLine_eq
    (input : List UInt8) :
    firstLine input = (input.take (lineLength input), input.drop (lineLength input)) := by
  induction input with
  | nil =>
      rfl
  | cons b rest ih =>
      by_cases h : b = lineFeed
      · subst h
        rw [firstLine_cons_lineFeed, lineLength_cons_lineFeed]
        rfl
      · rw [firstLine_cons_of_ne h, lineLength_cons_of_ne h, ih]
        rfl

theorem readLine_eq
    (c : Console) :
    c.readLine =
      (c.input.take (lineLength c.input),
        { c with
          input := c.input.drop (lineLength c.input)
          consumed := c.consumed + (c.input.take (lineLength c.input)).length
          calls := c.calls.push .readLine }) := by
  rw [Console.readLine, firstLine_eq]

/-- Only an exhausted input has an empty line. -/
theorem take_lineLength_eq_nil
    {input : List UInt8} :
    input.take (lineLength input) = [] ↔ input = [] := by
  cases input with
  | nil =>
      simp
  | cons b rest =>
      by_cases h : b = lineFeed
      · simp [h, lineLength_cons_lineFeed]
      · simp [lineLength_cons_of_ne h]

/-! ## Words of lines -/

theorem lineText_concat_lineFeed
    (body : List UInt8) :
    lineText (body ++ [lineFeed]) =
      if body.getLast? = some carriageReturn then body.dropLast else body := by
  have hsuffix : [carriageReturn, lineFeed] <:+ body ++ [lineFeed] ↔
      body.getLast? = some carriageReturn := by
    rw [← List.singleton_suffix_iff_getLast?_eq_some]
    constructor
    · rintro ⟨before, h⟩
      have hline : (before ++ [carriageReturn]) ++ [lineFeed] = body ++ [lineFeed] := by
        rw [List.append_assoc]
        exact h
      exact ⟨before, List.append_cancel_right hline⟩
    · rintro ⟨before, rfl⟩
      exact ⟨before, by simp⟩
  have hends : [lineFeed] <:+ body ++ [lineFeed] := List.suffix_append _ _
  rw [lineText, if_congr hsuffix rfl rfl, if_pos hends]
  split
  · next hlast =>
      obtain ⟨before, rfl⟩ := List.getLast?_eq_some_iff.1 hlast
      simp
  · simp

theorem text_eq
    (line : List UInt8) :
    NumberLine.text line = lineText line := by
  rcases List.eq_nil_or_concat' line with rfl | ⟨body, b, rfl⟩
  · rfl
  · by_cases hb : b = lineFeed
    · subst hb
      rw [lineText_concat_lineFeed]
      simp [NumberLine.text]
    · have hends : ¬ [lineFeed] <:+ body ++ [b] := by
        simpa [List.singleton_suffix_append_singleton_iff] using Ne.symm hb
      have hends' : ¬ [carriageReturn, lineFeed] <:+ body ++ [b] := by
        intro h
        exact hends ((List.suffix_cons _ _).trans h)
      simp [NumberLine.text, lineText, hends, hends', hb]

theorem unsigned_eq
    (text : List UInt8) :
    NumberLine.unsigned text = if [0x2B] <+: text then text.drop 1 else text := by
  unfold NumberLine.unsigned
  split
  · simp
  · next hplus =>
      have hnone : ¬ [0x2B] <+: text := by
        rintro ⟨rest, rfl⟩
        exact hplus rest rfl
      rw [if_neg hnone]

theorem isNumeral_eq_false
    {ds : List UInt8} :
    (ds.isEmpty || !ds.all NumberLine.isDigit) = true ↔
      ds = [] ∨ ∃ d ∈ ds, d < 0x30 ∨ 0x39 < d := by
  have hdigit : ∀ d : UInt8, NumberLine.isDigit d = false ↔ d < 0x30 ∨ 0x39 < d := by
    intro d
    rw [NumberLine.isDigit, Bool.and_eq_false_iff, decide_eq_false_iff_not,
      decide_eq_false_iff_not, UInt8.not_le, UInt8.not_le]
  simp [List.isEmpty_iff, hdigit]

/-- A line holds the word that the machine reads from it. -/
theorem parse_eq
    (line : List UInt8) :
    NumberLine.parse line = (lineWord line).map UInt64.toNat := by
  simp only [NumberLine.parse, lineWord, text_eq, unsigned_eq, Text.positional_eq, ← List.map_reverse]
  generalize (if [0x2B] <+: lineText line then (lineText line).drop 1 else lineText line) = ds
  generalize Nat.ofDigits 10 (ds.reverse.map fun d => d.toNat - 0x30) = n
  have hmaximum := Word.maximum_eq
  by_cases hform : ds = [] ∨ ∃ d ∈ ds, d < 0x30 ∨ 0x39 < d
  · rw [if_pos hform, if_pos (isNumeral_eq_false.2 hform)]
    rfl
  · rw [if_neg hform, if_neg (mt isNumeral_eq_false.1 hform)]
    by_cases hlong : Text.maxDecimalDigits < ds.length
    · rw [if_pos hlong, if_pos hlong]
      rfl
    · rw [if_neg hlong, if_neg hlong]
      by_cases hlarge : 2 ^ 64 ≤ n
      · rw [if_pos hlarge, if_neg (by omega)]
        rfl
      · have hword : (UInt64.ofNat n).toNat = n :=
          UInt64.toNat_ofNat_of_lt' (show n < 2 ^ 64 by omega)
        rw [if_neg hlarge, if_pos (by omega), Except.map, hword]

/-! ## Lines of the output -/

theorem textLine_eq
    (s : String) :
    textLine s = lineOf s := by
  rw [textLine, lineOf, Utf8.encode_toList]

theorem encodeChar_of_isDigit
    {c : Char}
    (h : c.isDigit = true) :
    String.utf8EncodeChar c = [UInt8.ofNat c.toNat] := by
  have hle : c.val.toNat ≤ 0x7f := by
    have hnine : c.val ≤ 57 := by
      simpa [Char.isDigit] using (Bool.and_eq_true_iff.1 h).2
    have hnat : c.val.toNat ≤ 57 := UInt32.le_iff_toNat_le.1 hnine
    omega
  rw [String.utf8EncodeChar]
  exact if_pos hle

/-- The numeral of a word is written in ASCII. -/
theorem numberLine_eq
    (w : Word) :
    numberLine (w.toNat : Int) = lineOf (toString w.toNat) := by
  have hnumeral : (toString w.toNat).toList = Nat.toDigits 10 w.toNat := Nat.toList_repr
  have hascii : Utf8.encode (Nat.toDigits 10 w.toNat) =
      (Nat.toDigits 10 w.toNat).map fun c => UInt8.ofNat c.toNat := by
    rw [Utf8.encode, List.map_eq_flatMap]
    apply List.flatMap_congr
    intro c hc
    exact encodeChar_of_isDigit (Nat.isDigit_of_mem_toDigits (by decide) (by decide) hc)
  rw [← textLine_eq, textLine, hnumeral, hascii]
  rfl

end TopFirst
end StackMachine
