import Mathlib.Data.List.Basic
import StackMachine.Text.Numeral

/-!
# Text that can be taken apart

What is written one thing after the other can be taken apart again if it shows where each thing
ends.  For a numeral this takes something other than a digit behind it; for other things whatever
follows will do.

* `Delimited` is a way of writing that shows where a written value ends, for what may follow it.
  `Delimited.flatMap` is what it means for lists with an end mark.
* `delimited_decimal` and `delimited_integer` are the numerals, `readNumeral_append` is the one with
  blanks or zeros before it.
* `linesOf_intercalate`: lines that are joined are the lines of the text.
-/

namespace StackMachine.Text

/-! ## Ways of writing -/

/-- Different values are written differently, and a written value shows where it ends, as long as
`Ends` holds of the text behind it. -/
def Delimited {α : Type} (Ends : List Char → Prop) (written : α → List Char) : Prop :=
  ∀ a b s t, Ends s → Ends t → written a ++ s = written b ++ t → a = b ∧ s = t

/-- Any text may follow. -/
def Anything (_ : List Char) : Prop :=
  True

namespace Delimited

variable {α : Type} {Ends : List Char → Prop} {written : α → List Char}

/-- What can be read back, whatever `Ends` lets follow it, is delimited. -/
theorem of_reader
    (read : List Char → Option (α × List Char))
    (h : ∀ a s, Ends s → read (written a ++ s) = some (a, s)) :
    Delimited Ends written := by
  intro a b s t hs ht heq
  have hread := congrArg read heq
  rw [h a s hs, h b t ht] at hread
  exact Prod.mk.inj (Option.some.inj hread)

/-- Text that is always the same may stand before a value. -/
theorem prepend
    (h : Delimited Ends written)
    (before : List Char) :
    Delimited Ends fun a => before ++ written a := by
  intro a b s t hs ht heq
  rw [List.append_assoc, List.append_assoc] at heq
  exact h a b s t hs ht (List.append_cancel_left heq)

/-- Values one after the other are delimited by a mark that none of them begins with. -/
theorem flatMap
    {stop : Char}
    (h : Delimited Ends written)
    (hhead : ∀ a, ∃ c cs, written a = c :: cs ∧ c ≠ stop)
    (hnext : ∀ a s, Ends (written a ++ s))
    (hstop : ∀ s, Ends (stop :: s)) :
    Delimited Anything fun as : List α => as.flatMap written ++ [stop] := by
  intro as bs s t _ _ heq
  simp only [List.append_assoc, List.singleton_append] at heq
  -- Behind every value there is another one or the mark.
  have hends : ∀ (as : List α) s, Ends (as.flatMap written ++ stop :: s) := by
    intro as s
    cases as with
    | nil =>
        exact hstop s
    | cons a as =>
        rw [List.flatMap_cons, List.append_assoc]
        exact hnext a _
  induction as generalizing bs with
  | nil =>
      cases bs with
      | nil =>
          exact ⟨rfl, (List.cons.inj heq).2⟩
      | cons b bs =>
          obtain ⟨c, cs, hc, hne⟩ := hhead b
          simp only [List.flatMap_nil, List.nil_append, List.flatMap_cons, hc, List.cons_append,
            List.cons.injEq] at heq
          exact absurd heq.1.symm hne
  | cons a as ih =>
      cases bs with
      | nil =>
          obtain ⟨c, cs, hc, hne⟩ := hhead a
          simp only [List.flatMap_nil, List.nil_append, List.flatMap_cons, hc, List.cons_append,
            List.cons.injEq] at heq
          exact absurd heq.1 hne
      | cons b bs =>
          rw [List.flatMap_cons, List.append_assoc, List.flatMap_cons, List.append_assoc] at heq
          obtain ⟨rfl, hrest⟩ := h a b _ _ (hends as s) (hends bs t) heq
          obtain ⟨rfl, hst⟩ := ih bs hrest
          exact ⟨rfl, hst⟩

theorem intercalate_cons_eq
    (separator : List Char) (a : α) (as : List α) :
    separator.intercalate ((a :: as).map written) =
      written a ++ as.flatMap fun b => separator ++ written b := by
  induction as generalizing a with
  | nil =>
      simp
  | cons b as ih =>
      rw [List.map_cons, List.map_cons, List.intercalate_cons_cons, ← List.map_cons, ih,
        List.flatMap_cons]
      simp

/-- Values with a separator between them are delimited by a mark that neither they nor the separator
begin with. -/
theorem intercalate
    {first stop : Char} {separator : List Char}
    (h : Delimited Ends written)
    (hhead : ∀ a, ∃ c cs, written a = c :: cs ∧ c ≠ stop)
    (hfirst : first ≠ stop)
    (hnext : ∀ s, Ends (first :: s))
    (hstop : ∀ s, Ends (stop :: s)) :
    Delimited Anything fun as : List α =>
      (first :: separator).intercalate (as.map written) ++ [stop] := by
  have htail : Delimited Anything fun as : List α =>
      as.flatMap (fun a => (first :: separator) ++ written a) ++ [stop] :=
    (h.prepend (first :: separator)).flatMap (fun a => ⟨first, _, rfl, hfirst⟩)
      (fun a s => hnext _) hstop
  have hends : ∀ (as : List α) s,
      Ends (as.flatMap (fun b => (first :: separator) ++ written b) ++ [stop] ++ s) := by
    intro as s
    cases as with
    | nil =>
        exact hstop s
    | cons b as =>
        exact hnext _
  intro as bs s t hs ht heq
  cases as with
  | nil =>
      cases bs with
      | nil =>
          exact ⟨rfl, List.append_cancel_left heq⟩
      | cons b bs =>
          obtain ⟨c, cs, hc, hne⟩ := hhead b
          simp only [intercalate_cons_eq, hc, List.map_nil, List.intercalate_nil, List.nil_append,
            List.cons_append, List.cons.injEq] at heq
          exact absurd heq.1.symm hne
  | cons a as =>
      cases bs with
      | nil =>
          obtain ⟨c, cs, hc, hne⟩ := hhead a
          simp only [intercalate_cons_eq, hc, List.map_nil, List.intercalate_nil, List.nil_append,
            List.cons_append, List.cons.injEq] at heq
          exact absurd heq.1 hne
      | cons b bs =>
          simp only [intercalate_cons_eq] at heq
          rw [List.append_assoc, List.append_assoc, List.append_assoc, List.append_assoc,
            ← List.append_assoc _ [stop], ← List.append_assoc _ [stop]] at heq
          obtain ⟨rfl, hrest⟩ := h a b _ _ (hends as s) (hends bs t) heq
          obtain ⟨rfl, hst⟩ := htail as bs s t hs ht hrest
          exact ⟨rfl, hst⟩

end Delimited

/-- A text without the mark is what stands before the first mark. -/
theorem append_mark_inj
    {mark : Char} {before before' s t : List Char}
    (h : mark ∉ before)
    (h' : mark ∉ before')
    (heq : before ++ mark :: s = before' ++ mark :: t) :
    before = before' ∧ s = t := by
  induction before generalizing before' with
  | nil =>
      cases before' with
      | nil =>
          exact ⟨rfl, (List.cons.inj heq).2⟩
      | cons c before' =>
          exact absurd (List.cons.inj heq).1 (List.ne_of_not_mem_cons h')
  | cons c before ih =>
      cases before' with
      | nil =>
          exact absurd (List.cons.inj heq).1.symm (List.ne_of_not_mem_cons h)
      | cons d before' =>
          obtain ⟨rfl, hrest⟩ := List.cons.inj heq
          obtain ⟨rfl, hst⟩ :=
            ih (List.not_mem_of_not_mem_cons h) (List.not_mem_of_not_mem_cons h') hrest
          exact ⟨rfl, hst⟩

/-- What neither a separator nor a text holds does not come in by joining the texts. -/
theorem notMem_intercalate
    {c : Char} {separator : String} {texts : List String}
    (hseparator : c ∉ separator.toList)
    (h : ∀ text ∈ texts, c ∉ text.toList) :
    c ∉ (separator.intercalate texts).toList := by
  induction texts with
  | nil =>
      simp
  | cons text texts ih =>
      rw [List.forall_mem_cons] at h
      by_cases hnil : texts = []
      · subst hnil
        simpa using h.1
      · rw [String.intercalate_cons_of_ne_nil hnil, String.toList_append, String.toList_append,
          List.mem_append, List.mem_append]
        exact not_or.2 ⟨not_or.2 ⟨h.1, hseparator⟩, ih h.2⟩

/-! ## Numerals -/

/-- The text does not go on with a digit, so that a numeral before it has ended. -/
def EndsNumeral (s : List Char) : Prop :=
  ∀ c ∈ s.head?, c.isDigit = false

@[simp] theorem endsNumeral_cons
    {c : Char} {s : List Char} :
    EndsNumeral (c :: s) ↔ c.isDigit = false := by
  simp [EndsNumeral]

theorem isDigit_of_mem_decimal
    {n : Nat} {c : Char}
    (h : c ∈ Nat.toDigits 10 n) :
    c.isDigit = true :=
  Nat.isDigit_of_mem_toDigits (by decide) (by decide) h

@[simp] theorem lineFeed_notMem_decimal
    (n : Nat) :
    '\n' ∉ Nat.toDigits 10 n := by
  intro h
  cases isDigit_of_mem_decimal h

theorem exists_cons_decimal
    (n : Nat) :
    ∃ c cs, Nat.toDigits 10 n = c :: cs ∧ c.isDigit = true := by
  obtain ⟨c, cs, hcs⟩ := List.exists_cons_of_ne_nil (Nat.toDigits_ne_nil (n := n) (b := 10))
  exact ⟨c, cs, hcs, isDigit_of_mem_decimal (n := n) (by simp [hcs])⟩

/-- Reads a decimal numeral after blanks: its value and the text behind it. -/
def readNumeral (s : List Char) : Nat × List Char :=
  let body := s.dropWhile (· == ' ')
  (Nat.ofDigitChars 10 (body.takeWhile Char.isDigit) 0, body.dropWhile Char.isDigit)

/-- Blanks and zeros before a numeral do not matter. -/
theorem readNumeral_append
    (blanks zeros n : Nat) {s : List Char}
    (hs : EndsNumeral s) :
    readNumeral
        (List.replicate blanks ' ' ++ (List.replicate zeros '0' ++ Nat.toDigits 10 n) ++ s) =
      (n, s) := by
  have hdigits : ∀ c ∈ List.replicate zeros '0' ++ Nat.toDigits 10 n, c.isDigit = true := by
    intro c hc
    rcases List.mem_append.1 hc with hc | hc
    · rw [List.eq_of_mem_replicate hc]
      rfl
    · exact isDigit_of_mem_decimal hc
  have hbody : (List.replicate blanks ' ' ++ (List.replicate zeros '0' ++ Nat.toDigits 10 n) ++
      s).dropWhile (· == ' ') = List.replicate zeros '0' ++ Nat.toDigits 10 n ++ s := by
    obtain ⟨c, cs, hcs⟩ : ∃ c cs, List.replicate zeros '0' ++ Nat.toDigits 10 n = c :: cs :=
      List.exists_cons_of_ne_nil (by simp)
    have hc : (c == ' ') = false := by
      have hdigit := hdigits c (by simp [hcs])
      rw [beq_eq_false_iff_ne]
      rintro rfl
      cases hdigit
    rw [List.append_assoc, List.dropWhile_append_of_pos (by simp), hcs, List.cons_append,
      List.dropWhile_cons_of_neg (by simp [hc])]
  have htake : s.takeWhile Char.isDigit = [] := by
    cases s with
    | nil =>
        rfl
    | cons c s =>
        rw [endsNumeral_cons] at hs
        simp [hs]
  have hdrop : s.dropWhile Char.isDigit = s := by
    cases s with
    | nil =>
        rfl
    | cons c s =>
        rw [endsNumeral_cons] at hs
        simp [hs]
  rw [readNumeral, hbody, List.takeWhile_append_of_pos hdigits, List.dropWhile_append_of_pos hdigits,
    htake, hdrop, List.append_nil, Nat.ofDigitChars_append]
  simp

/-- Decimal numerals, with nothing before them. -/
theorem delimited_decimal :
    Delimited EndsNumeral (Nat.toDigits 10) := by
  refine .of_reader (fun s => some (readNumeral s)) ?_
  intro n s hs
  exact congrArg some (readNumeral_append 0 0 n hs)

/-- The characters of a number in decimal, with a sign if the number is negative. -/
theorem toList_integer
    (n : Int) :
    (toString n).toList =
      if n < 0 then '-' :: Nat.toDigits 10 n.natAbs else Nat.toDigits 10 n.natAbs := by
  cases n with
  | ofNat n =>
      exact Nat.toList_repr
  | negSucc n =>
      have hrepr : (toString (Int.negSucc n)).toList = '-' :: Nat.toDigits 10 (n + 1) := by
        simp [Int.repr]
      rw [if_pos (Int.negSucc_lt_zero n), hrepr, Int.natAbs_negSucc]

theorem lineFeed_notMem_integer
    (n : Int) :
    '\n' ∉ (toString n).toList := by
  rw [toList_integer]
  split <;> simp

/-- Reads a decimal numeral that may have a sign. -/
def readInteger (s : List Char) : Int × List Char :=
  if s.head? = some '-' then
    (-(readNumeral s.tail).1, (readNumeral s.tail).2)
  else
    ((readNumeral s).1, (readNumeral s).2)

/-- Decimal numerals with a sign if the number is negative. -/
theorem delimited_integer :
    Delimited EndsNumeral fun n : Int => (toString n).toList := by
  refine .of_reader (fun s => some (readInteger s)) ?_
  intro n s hs
  have hread := readNumeral_append 0 0 n.natAbs hs
  simp only [List.replicate_zero, List.nil_append] at hread
  by_cases hn : n < 0
  · simp only [toList_integer, if_pos hn, List.cons_append, readInteger, List.head?_cons,
      List.tail_cons, hread, ↓reduceIte]
    rw [← Int.eq_neg_natAbs_of_nonpos (Int.le_of_lt hn)]
  · have hhead : (Nat.toDigits 10 n.natAbs ++ s).head? ≠ some '-' := by
      obtain ⟨c, cs, hcs, hdigit⟩ := exists_cons_decimal n.natAbs
      rw [hcs, List.cons_append, List.head?_cons]
      rintro ⟨⟩
      cases hdigit
    simp only [toList_integer, if_neg hn, readInteger, if_neg hhead, hread]
    rw [Int.natAbs_of_nonneg (Int.not_lt.1 hn)]

/-! ## Lines -/

/-- The lines of a text: what stands between its line feeds. -/
def linesOf (text : String) : List String :=
  (text.split '\n').toList.map (·.copy)

/-- Lines that are joined are the lines of the text. -/
theorem linesOf_intercalate
    {lines : List String}
    (hne : lines ≠ [])
    (h : ∀ line ∈ lines, '\n' ∉ line.toList) :
    linesOf ("\n".intercalate lines) = lines := by
  have hsplit := String.toList_split_intercalate h
  rw [if_neg hne] at hsplit
  exact hsplit

end StackMachine.Text
