import Mathlib.Data.List.Induction
import Mathlib.Data.Nat.Digits.Defs
import StackMachine.Text.IntegerLiteral

/-!
# Which texts are integer literals

The literals of integers by their grammar, and what each of them stands for.

* `IsDigit` says which characters are digits, and of what value.
* `IsDigits` are the digits of a numeral, with single separators between them, `IsMagnitude` the
  literals without a sign and `IsInteger` those with one.
* `parseInteger?_eq_some_iff`: the texts that are read, and the integers that are read from them, are
  those of the grammar.
-/

namespace StackMachine.Text

variable {radix n d : Nat} {c mark : Char} {cs : List Char} {ds : List Nat}

/-! ## Positional notation -/

theorem positional_eq
    (radix : Nat) (ds : List Nat) :
    positional radix ds = Nat.ofDigits radix ds.reverse := by
  induction ds using List.reverseRecOn with
  | nil =>
      rfl
  | append_singleton ds d ih =>
      rw [positional_concat, ih, List.reverse_append, List.reverse_singleton,
        List.singleton_append, Nat.ofDigits_cons, Nat.mul_comm, Nat.add_comm]

/-- Digits stand for zero exactly if all of them are zeros. -/
theorem ofDigits_eq_zero_iff
    (hradix : radix ≠ 0) :
    Nat.ofDigits radix ds = 0 ↔ ∀ d ∈ ds, d = 0 := by
  constructor
  · exact Nat.digits_zero_of_eq_zero hradix
  · intro h
    rw [List.eq_replicate_of_mem h, Nat.ofDigits_replicate_zero]

/-! ## Decimal digits -/

theorem decimalZeros_disjoint :
    ∀ start ∈ decimalZeros, ∀ start' ∈ decimalZeros, start < start' → start + 10 ≤ start' := by
  decide +kernel

theorem ascii_or_le_of_mem_decimalZeros :
    ∀ start ∈ decimalZeros, start = 0x30 ∨ 0x660 ≤ start := by
  decide

/-- The decimal digits of value `d` are those that stand `d` places after a zero. -/
theorem decimalDigit?_eq_some_iff :
    decimalDigit? c = some d ↔ d < 10 ∧ ∃ start ∈ decimalZeros, c.toNat = start + d := by
  constructor
  · intro h
    obtain ⟨start, hstart, rfl⟩ := Option.map_eq_some_iff.1 h
    have hrange := List.find?_some hstart
    simp only [Bool.and_eq_true, decide_eq_true_eq] at hrange
    exact ⟨by omega, start, List.mem_of_find?_eq_some hstart, by omega⟩
  · rintro ⟨hd, start, hstart, hc⟩
    cases hfound : decimalZeros.find? fun start => start ≤ c.toNat && c.toNat < start + 10 with
    | none =>
        have hnone := List.find?_eq_none.1 hfound start hstart
        simp only [Bool.and_eq_true, decide_eq_true_eq] at hnone
        omega
    | some start' =>
        have hrange := List.find?_some hfound
        simp only [Bool.and_eq_true, decide_eq_true_eq] at hrange
        have hstart' := List.mem_of_find?_eq_some hfound
        have hbefore := decimalZeros_disjoint start hstart start' hstart'
        have hafter := decimalZeros_disjoint start' hstart' start hstart
        have hsame : start' = start := by omega
        rw [decimalDigit?, hfound, Option.map_some, hsame, hc, Nat.add_sub_cancel_left]

/-- The ASCII characters between the runs of digits are no decimal digits. -/
theorem decimalDigit?_eq_none
    (hc : c.toNat < 0x30 ∨ 0x39 < c.toNat ∧ c.toNat < 0x660) :
    decimalDigit? c = none := by
  cases h : decimalDigit? c with
  | none =>
      rfl
  | some d =>
      obtain ⟨hd, start, hstart, hvalue⟩ := decimalDigit?_eq_some_iff.1 h
      have hascii := ascii_or_le_of_mem_decimalZeros start hstart
      omega

theorem asciiDigit_of_none
    (h : decimalDigit? c = none) :
    asciiDigit c = c := by
  rw [asciiDigit, h]

theorem toNat_asciiDigit_of_some
    (h : decimalDigit? c = some d) :
    (asciiDigit c).toNat = 0x30 + d := by
  have hdigits : ∀ d < 10, (Char.ofNat ('0'.toNat + d)).toNat = 0x30 + d := by
    decide
  rw [asciiDigit, h]
  exact hdigits d (decimalDigit?_lt h)

/-- Making digits ASCII makes no other character out of them, and leaves the others as they are. -/
theorem asciiDigit_eq_iff
    {k : Char}
    (hk : k.toNat < 0x30 ∨ 0x39 < k.toNat ∧ k.toNat < 0x660) :
    asciiDigit c = k ↔ c = k := by
  constructor
  · rintro rfl
    cases h : decimalDigit? c with
    | none =>
        exact (asciiDigit_of_none h).symm
    | some d =>
        have hd : d < 10 := decimalDigit?_lt h
        rw [toNat_asciiDigit_of_some h] at hk
        omega
  · rintro rfl
    exact asciiDigit_of_none (decimalDigit?_eq_none hk)

/-! ## Digits -/

/-- The character is a digit of value `d`: a decimal digit of any script, or, from ten on, a letter
in either case. -/
inductive IsDigit (c : Char) (d : Nat) : Prop
  | decimal (start : Nat) (hstart : start ∈ decimalZeros) (hd : d < 10) (hc : c.toNat = start + d)
  | lower (hd : 10 ≤ d ∧ d < 16) (hc : c.toNat + 10 = 'a'.toNat + d)
  | upper (hd : 10 ≤ d ∧ d < 16) (hc : c.toNat + 10 = 'A'.toNat + d)

theorem isDigit_iff :
    IsDigit c d ↔
      decimalDigit? c = some d ∨
        (10 ≤ d ∧ d < 16) ∧ (c.toNat + 10 = 'a'.toNat + d ∨ c.toNat + 10 = 'A'.toNat + d) := by
  constructor
  · rintro (⟨start, hstart, hd, hc⟩ | ⟨hd, hc⟩ | ⟨hd, hc⟩)
    · exact Or.inl (decimalDigit?_eq_some_iff.2 ⟨hd, start, hstart, hc⟩)
    · exact Or.inr ⟨hd, Or.inl hc⟩
    · exact Or.inr ⟨hd, Or.inr hc⟩
  · rintro (h | ⟨hd, hc | hc⟩)
    · obtain ⟨hd, start, hstart, hc⟩ := decimalDigit?_eq_some_iff.1 h
      exact .decimal start hstart hd hc
    · exact .lower hd hc
    · exact .upper hd hc

/-- The digits whose values are read are the ASCII ones. -/
theorem digitValue?_eq_some_iff :
    digitValue? radix c = some d ↔
      d < radix ∧
        (c.toNat = 0x30 + d ∧ d < 10 ∨
          (10 ≤ d ∧ d < 16) ∧ (c.toNat + 10 = 'a'.toNat + d ∨ c.toNat + 10 = 'A'.toNat + d)) := by
  simp only [digitValue?, Option.filter_eq_some_iff, decide_eq_true_eq, Char.reduceToNat]
  rw [and_comm]
  refine and_congr_right fun _ => ?_
  split
  · rw [Option.some.injEq]
    omega
  · split
    · rw [Option.some.injEq]
      omega
    · split
      · rw [Option.some.injEq]
        omega
      · simp only [reduceCtorEq, false_iff]
        omega

/-- The value of a digit that is made ASCII is its value. -/
theorem digitValue?_asciiDigit :
    digitValue? radix (asciiDigit c) = some d ↔ IsDigit c d ∧ d < radix := by
  rw [digitValue?_eq_some_iff, isDigit_iff, and_comm]
  refine and_congr_left fun _ => ?_
  cases h : decimalDigit? c with
  | some k =>
      have hk : k < 10 := decimalDigit?_lt h
      rw [toNat_asciiDigit_of_some h, Option.some.injEq]
      simp only [Char.reduceToNat]
      have hletter : ¬ (0x61 ≤ c.toNat ∧ c.toNat ≤ 0x66) ∧ ¬ (0x41 ≤ c.toNat ∧ c.toNat ≤ 0x46) := by
        constructor <;>
        · intro hc
          rw [decimalDigit?_eq_none (Or.inr (by omega))] at h
          cases h
      omega
  | none =>
      have hascii : ¬ (c.toNat = 0x30 + d ∧ d < 10) := by
        rintro ⟨hc, hd⟩
        rw [decimalDigit?_eq_some_iff.2 ⟨hd, 0x30, by decide, hc⟩] at h
        cases h
      rw [asciiDigit_of_none h]
      simp [hascii]

theorem asciiDigit_separator :
    asciiDigit c = separator ↔ c = separator :=
  asciiDigit_eq_iff (by decide)

theorem digitValue?_separator :
    digitValue? radix separator = none := by
  cases h : digitValue? radix separator with
  | none =>
      rfl
  | some d =>
      have hvalue := (digitValue?_eq_some_iff.1 h).2
      simp only [separator, Char.reduceToNat] at hvalue
      omega

/-- A separator is no digit. -/
theorem IsDigit.ne_separator
    (h : IsDigit c d) :
    c ≠ separator := by
  rintro rfl
  have hvalue := digitValue?_asciiDigit.2 ⟨h, Nat.lt_succ_self d⟩
  rw [asciiDigit_separator.2 rfl, digitValue?_separator] at hvalue
  cases hvalue

/-! ## Digits with separators -/

/-- The characters are the digits `ds` in the given base, with single separators between some of
them. -/
inductive IsDigits (radix : Nat) : List Char → List Nat → Prop
  | single {c : Char} {d : Nat}
      (hdigit : IsDigit c d) (hd : d < radix) :
      IsDigits radix [c] [d]
  | cons {c : Char} {d : Nat} {cs : List Char} {ds : List Nat}
      (hdigit : IsDigit c d) (hd : d < radix) (rest : IsDigits radix cs ds) :
      IsDigits radix (c :: cs) (d :: ds)
  | separated {c : Char} {d : Nat} {cs : List Char} {ds : List Nat}
      (hdigit : IsDigit c d) (hd : d < radix) (rest : IsDigits radix cs ds) :
      IsDigits radix (c :: separator :: cs) (d :: ds)

theorem IsDigits.exists_head
    (h : IsDigits radix cs ds) :
    ∃ (c : Char) (rest : List Char) (d : Nat), cs = c :: rest ∧ IsDigit c d := by
  cases h with
  | single hdigit => exact ⟨_, _, _, rfl, hdigit⟩
  | cons hdigit => exact ⟨_, _, _, rfl, hdigit⟩
  | separated hdigit => exact ⟨_, _, _, rfl, hdigit⟩

theorem wellSeparated_cons_of_ne
    {c' : Char}
    (h : c' ≠ separator) :
    wellSeparated (c :: c' :: cs) = (c != separator && wellSeparated (c' :: cs)) := by
  have hne : (c' != separator) = true := bne_iff_ne.2 h
  simp [wellSeparated, hne, Bool.and_assoc]

theorem wellSeparated_cons_separator :
    wellSeparated (c :: separator :: cs) = (c != separator && wellSeparated cs) := by
  cases cs with
  | nil =>
      simp [wellSeparated]
  | cons c' cs =>
      cases hc : c != separator <;> cases hc' : c' != separator <;>
        simp [wellSeparated, hc, hc']

theorem digits?_single :
    digits? radix [c] = (digitValue? radix c).map ([·]) := by
  by_cases hc : c = separator
  · rw [hc, digitValue?_separator]
    rfl
  · have hsep : wellSeparated [c] = true := by
      simp [wellSeparated, hc]
    have hfilter : [c].filter (· != separator) = [c] := by
      simp [hc]
    rw [digits?, if_pos hsep, hfilter, List.mapM_cons, List.mapM_nil]
    cases digitValue? radix c <;> rfl

/-- A digit, and then what is left of the digits behind it. -/
theorem digits?_cons
    {rest : List Char}
    (hseparated : wellSeparated (c :: rest) = (c != separator && wellSeparated cs))
    (hdigits : rest.filter (· != separator) = cs.filter (· != separator)) :
    digits? radix (c :: rest) =
      (digitValue? radix c).bind fun d => (digits? radix cs).map (d :: ·) := by
  by_cases hc : c = separator
  · rw [hc, digitValue?_separator, digits?, ← hc, hseparated, hc, bne_self_eq_false,
      Bool.false_and]
    rfl
  · have hne : (c != separator) = true := bne_iff_ne.2 hc
    have hfilter : (c :: rest).filter (· != separator) = c :: cs.filter (· != separator) := by
      rw [List.filter_cons, if_pos hne, hdigits]
    rw [digits?, digits?, hseparated, hne, Bool.true_and, hfilter, List.mapM_cons]
    cases wellSeparated cs with
    | false =>
        cases digitValue? radix c <;> rfl
    | true =>
        cases digitValue? radix c with
        | none => rfl
        | some d => cases (cs.filter (· != separator)).mapM (digitValue? radix) <;> rfl

theorem digits?_cons_of_ne
    {c' : Char}
    (h : c' ≠ separator) :
    digits? radix (c :: c' :: cs) =
      (digitValue? radix c).bind fun d => (digits? radix (c' :: cs)).map (d :: ·) :=
  digits?_cons (wellSeparated_cons_of_ne h) rfl

theorem digits?_cons_separator :
    digits? radix (c :: separator :: cs) =
      (digitValue? radix c).bind fun d => (digits? radix cs).map (d :: ·) :=
  digits?_cons wellSeparated_cons_separator
    (List.filter_cons_of_neg (by rw [bne_self_eq_false]; exact Bool.false_ne_true))

theorem IsDigits.digits?_eq
    (h : IsDigits radix cs ds) :
    digits? radix (cs.map asciiDigit) = some ds := by
  induction h with
  | single hdigit hd =>
      rw [List.map_singleton, digits?_single, digitValue?_asciiDigit.2 ⟨hdigit, hd⟩]
      rfl
  | cons hdigit hd rest ih =>
      obtain ⟨c', cs, d', rfl, hdigit'⟩ := rest.exists_head
      have hne : asciiDigit c' ≠ separator := mt asciiDigit_separator.1 hdigit'.ne_separator
      rw [List.map_cons] at ih
      rw [List.map_cons, List.map_cons, digits?_cons_of_ne hne, ih,
        digitValue?_asciiDigit.2 ⟨hdigit, hd⟩]
      rfl
  | separated hdigit hd rest ih =>
      rw [List.map_cons, List.map_cons, asciiDigit_separator.2 rfl, digits?_cons_separator, ih,
        digitValue?_asciiDigit.2 ⟨hdigit, hd⟩]
      rfl

/-- The digits that are read behind a first one. -/
theorem eq_cons_of_bind
    {d? : Option Nat} {ds? : Option (List Nat)}
    (h : (d?.bind fun d => ds?.map (d :: ·)) = some ds) :
    ∃ (d : Nat) (ds' : List Nat), ds = d :: ds' ∧ d? = some d ∧ ds? = some ds' := by
  obtain ⟨d, rfl, hds⟩ := Option.bind_eq_some_iff.1 h
  obtain ⟨ds', rfl, rfl⟩ := Option.map_eq_some_iff.1 hds
  exact ⟨d, ds', rfl, rfl, rfl⟩

theorem isDigits_of_digits? :
    ∀ (cs : List Char) (ds : List Nat),
      digits? radix (cs.map asciiDigit) = some ds → IsDigits radix cs ds
  | [], _, h => by
      cases h
  | [c], ds, h => by
      rw [List.map_singleton, digits?_single] at h
      obtain ⟨d, hvalue, rfl⟩ := Option.map_eq_some_iff.1 h
      obtain ⟨hdigit, hd⟩ := digitValue?_asciiDigit.1 hvalue
      exact .single hdigit hd
  | c :: c' :: cs, ds, h => by
      -- The digit is followed by a separator or by the next digit.
      rw [List.map_cons, List.map_cons] at h
      by_cases hc' : asciiDigit c' = separator
      · rw [hc', digits?_cons_separator] at h
        obtain ⟨d, ds, rfl, hvalue, hrest⟩ := eq_cons_of_bind h
        obtain ⟨hdigit, hd⟩ := digitValue?_asciiDigit.1 hvalue
        rw [asciiDigit_separator.1 hc']
        exact .separated hdigit hd (isDigits_of_digits? cs ds hrest)
      · rw [digits?_cons_of_ne hc', ← List.map_cons] at h
        obtain ⟨d, ds, rfl, hvalue, hrest⟩ := eq_cons_of_bind h
        obtain ⟨hdigit, hd⟩ := digitValue?_asciiDigit.1 hvalue
        exact .cons hdigit hd (isDigits_of_digits? (c' :: cs) ds hrest)

theorem digits?_eq_some_iff :
    digits? radix (cs.map asciiDigit) = some ds ↔ IsDigits radix cs ds :=
  ⟨isDigits_of_digits? cs ds, IsDigits.digits?_eq⟩

/-! ## Literals without a sign -/

/-- The character chooses a base, in either case. -/
inductive IsMark (mark : Char) : Nat → Prop
  | hexadecimal (h : mark = 'x' ∨ mark = 'X') : IsMark mark 16
  | octal (h : mark = 'o' ∨ mark = 'O') : IsMark mark 8
  | binary (h : mark = 'b' ∨ mark = 'B') : IsMark mark 2

/-- The characters are a literal without a sign, of value `n`. -/
inductive IsMagnitude : List Char → Nat → Prop
  /-- A zero and the mark of a base, and then, perhaps behind a separator, digits in this base. -/
  | prefixed {c mark : Char} {radix : Nat} {gap cs : List Char} {ds : List Nat}
      (hzero : IsDigit c 0) (hmark : IsMark mark radix) (hgap : gap = [] ∨ gap = [separator])
      (hdigits : IsDigits radix cs ds) :
      IsMagnitude (c :: mark :: (gap ++ cs)) (Nat.ofDigits radix ds.reverse)
  /-- Not too many decimal digits, of which the first one is a zero only if all of them are. -/
  | decimal {cs : List Char} {ds : List Nat}
      (hdigits : IsDigits 10 cs ds) (hshort : ds.length ≤ maxDecimalDigits)
      (hzeros : ds.head? = some 0 → ∀ d ∈ ds, d = 0) :
      IsMagnitude cs (Nat.ofDigits 10 ds.reverse)

/-- What the digits are behind a mark, where one separator may stand before them. -/
theorem isDigits_body_iff :
    IsDigits radix (if cs.head? = some separator then cs.tail else cs) ds ↔
      ∃ gap rest : List Char,
        (gap = [] ∨ gap = [separator]) ∧ cs = gap ++ rest ∧ IsDigits radix rest ds := by
  constructor
  · intro h
    split at h
    · next hsep =>
        obtain ⟨rest, rfl⟩ := List.head?_eq_some_iff.1 hsep
        exact ⟨[separator], rest, Or.inr rfl, rfl, h⟩
    · exact ⟨[], cs, Or.inl rfl, rfl, h⟩
  · rintro ⟨gap, rest, rfl | rfl, rfl, h⟩
    · obtain ⟨c, rest, d, rfl, hdigit⟩ := h.exists_head
      rw [List.head?_cons, if_neg (mt Option.some.inj hdigit.ne_separator)]
      exact h
    · exact h

theorem prefixed?_eq_some_iff :
    prefixed? radix (cs.map asciiDigit) = some n ↔
      ∃ (gap rest : List Char) (ds : List Nat),
        (gap = [] ∨ gap = [separator]) ∧ cs = gap ++ rest ∧ IsDigits radix rest ds ∧
        Nat.ofDigits radix ds.reverse = n := by
  have hhead : (cs.map asciiDigit).head? = some separator ↔ cs.head? = some separator := by
    cases cs with
    | nil => rfl
    | cons c cs => simp [asciiDigit_separator]
  have hbody : (if (cs.map asciiDigit).head? = some separator then (cs.map asciiDigit).tail
      else cs.map asciiDigit) =
        (if cs.head? = some separator then cs.tail else cs).map asciiDigit := by
    simp only [hhead, apply_ite (List.map asciiDigit), List.map_tail]
  rw [prefixed?, hbody]
  simp only [Option.map_eq_some_iff, digits?_eq_some_iff, isDigits_body_iff, positional_eq]
  constructor
  · rintro ⟨ds, ⟨gap, rest, hgap, hcs, hdigits⟩, hvalue⟩
    exact ⟨gap, rest, ds, hgap, hcs, hdigits, hvalue⟩
  · rintro ⟨gap, rest, ds, hgap, hcs, hdigits, hvalue⟩
    exact ⟨ds, ⟨gap, rest, hgap, hcs, hdigits⟩, hvalue⟩

theorem decimal?_eq_some_iff :
    decimal? (cs.map asciiDigit) = some n ↔
      ∃ ds : List Nat,
        IsDigits 10 cs ds ∧ ds.length ≤ maxDecimalDigits ∧
        (ds.head? = some 0 → ∀ d ∈ ds, d = 0) ∧ Nat.ofDigits 10 ds.reverse = n := by
  have hzeros : ∀ ds : List Nat, Nat.ofDigits 10 ds.reverse = 0 ↔ ∀ d ∈ ds, d = 0 := by
    intro ds
    rw [ofDigits_eq_zero_iff (by decide)]
    simp only [List.mem_reverse]
  simp only [decimal?, Option.bind_eq_bind, Option.bind_eq_some_iff, digits?_eq_some_iff,
    positional_eq, Option.ite_none_right_eq_some, Option.some.injEq, hzeros, and_assoc]

theorem asciiDigit_eq_zero :
    asciiDigit c = '0' ↔ IsDigit c 0 := by
  constructor
  · intro h
    have hvalue : digitValue? 10 (asciiDigit c) = some 0 := by
      rw [h]
      rfl
    exact (digitValue?_asciiDigit.1 hvalue).1
  · intro h
    have hvalue := (digitValue?_eq_some_iff.1 (digitValue?_asciiDigit.2 ⟨h, Nat.zero_lt_one⟩)).2
    have hcode : (asciiDigit c).toNat = 0x30 := by omega
    rw [← Char.ofNat_toNat (asciiDigit c), hcode]

theorem IsMark.asciiDigit_eq
    (h : IsMark mark radix) :
    asciiDigit c = mark ↔ c = mark := by
  apply asciiDigit_eq_iff
  rcases h with (rfl | rfl) | (rfl | rfl) | (rfl | rfl) <;> decide

/-- A mark begins no decimal digits, and is no separator either. -/
theorem IsMark.digits?_eq_none
    (h : IsMark mark radix)
    (cs : List Char) :
    digits? 10 ('0' :: mark :: cs) = none := by
  have hne : mark ≠ separator := by
    rcases h with (rfl | rfl) | (rfl | rfl) | (rfl | rfl) <;> decide
  have hvalue : digitValue? 10 mark = none := by
    rcases h with (rfl | rfl) | (rfl | rfl) | (rfl | rfl) <;> rfl
  have hrest : digits? 10 (mark :: cs) = none := by
    cases cs with
    | nil =>
        rw [digits?_single, hvalue]
        rfl
    | cons c cs =>
        by_cases hc : c = separator
        · rw [hc, digits?_cons_separator, hvalue]
          rfl
        · rw [digits?_cons_of_ne hc, hvalue]
          rfl
  rw [digits?_cons_of_ne hne, hrest]
  rfl

theorem magnitude?_of_mark
    (h : IsMark mark radix)
    (cs : List Char) :
    magnitude? ('0' :: mark :: cs) = prefixed? radix cs := by
  rcases h with (rfl | rfl) | (rfl | rfl) | (rfl | rfl) <;> rfl

theorem magnitude?_cases
    (cs : List Char) :
    (∃ (mark : Char) (radix : Nat) (rest : List Char),
      IsMark mark radix ∧ cs = '0' :: mark :: rest) ∨ magnitude? cs = decimal? cs := by
  unfold magnitude?
  split
  · next mark rest =>
      by_cases hx : mark = 'x' ∨ mark = 'X'
      · exact Or.inl ⟨mark, 16, rest, .hexadecimal hx, rfl⟩
      · by_cases ho : mark = 'o' ∨ mark = 'O'
        · exact Or.inl ⟨mark, 8, rest, .octal ho, rfl⟩
        · by_cases hb : mark = 'b' ∨ mark = 'B'
          · exact Or.inl ⟨mark, 2, rest, .binary hb, rfl⟩
          · rw [if_neg hx, if_neg ho, if_neg hb]
            exact Or.inr rfl
  · exact Or.inr rfl

theorem IsMagnitude.magnitude?_eq
    (h : IsMagnitude cs n) :
    magnitude? (cs.map asciiDigit) = some n := by
  cases h with
  | @prefixed c mark radix gap cs ds hzero hmark hgap hdigits =>
      rw [List.map_cons, List.map_cons, asciiDigit_eq_zero.2 hzero, hmark.asciiDigit_eq.2 rfl,
        magnitude?_of_mark hmark, prefixed?_eq_some_iff]
      exact ⟨gap, cs, ds, hgap, rfl, hdigits, rfl⟩
  | @decimal cs ds hdigits hshort hzeros =>
      rcases magnitude?_cases (cs.map asciiDigit) with ⟨mark, radix, rest, hmark, hcs⟩ | hdecimal
      · -- Behind a zero, a mark would have to be a decimal digit.
        have hnone := hdigits.digits?_eq
        rw [hcs, hmark.digits?_eq_none] at hnone
        cases hnone
      · rw [hdecimal, decimal?_eq_some_iff]
        exact ⟨ds, hdigits, hshort, hzeros, rfl⟩

theorem magnitude?_eq_some_iff :
    magnitude? (cs.map asciiDigit) = some n ↔ IsMagnitude cs n := by
  refine ⟨fun h => ?_, IsMagnitude.magnitude?_eq⟩
  rcases magnitude?_cases (cs.map asciiDigit) with ⟨mark, radix, rest, hmark, hcs⟩ | hdecimal
  · rw [hcs, magnitude?_of_mark hmark] at h
    obtain ⟨c, cs, rfl, hzero, hcs⟩ := List.map_eq_cons_iff.1 hcs
    obtain ⟨c', cs, rfl, hc', rfl⟩ := List.map_eq_cons_iff.1 hcs
    obtain ⟨gap, rest, ds, hgap, rfl, hdigits, rfl⟩ := prefixed?_eq_some_iff.1 h
    rw [hmark.asciiDigit_eq.1 hc']
    exact .prefixed (asciiDigit_eq_zero.1 hzero) hmark hgap hdigits
  · rw [hdecimal] at h
    obtain ⟨ds, hdigits, hshort, hzeros, rfl⟩ := decimal?_eq_some_iff.1 h
    exact .decimal hdigits hshort hzeros

theorem IsMagnitude.exists_head
    (h : IsMagnitude cs n) :
    ∃ (c : Char) (rest : List Char) (d : Nat), cs = c :: rest ∧ IsDigit c d := by
  cases h with
  | prefixed hzero => exact ⟨_, _, _, rfl, hzero⟩
  | decimal hdigits => exact hdigits.exists_head

/-! ## Literals -/

/-- The characters are a literal of the integer `n`. -/
inductive IsInteger : List Char → Int → Prop
  | unsigned {cs : List Char} {n : Nat} (h : IsMagnitude cs n) : IsInteger cs n
  | positive {cs : List Char} {n : Nat} (h : IsMagnitude cs n) : IsInteger ('+' :: cs) n
  | negative {cs : List Char} {n : Nat} (h : IsMagnitude cs n) : IsInteger ('-' :: cs) (-n)

/-- A sign is no digit. -/
theorem asciiDigit_ne_of_isDigit
    {k : Char}
    (h : IsDigit c d)
    (hk : k.toNat < 0x30) :
    asciiDigit c ≠ k := by
  rintro rfl
  have hvalue := (digitValue?_eq_some_iff.1 (digitValue?_asciiDigit.2 ⟨h, Nat.lt_succ_self d⟩)).2
  simp only [Char.reduceToNat] at hvalue
  omega

theorem parseInteger?_eq_some_iff
    {n : Int} :
    parseInteger? cs = some n ↔ IsInteger cs n := by
  constructor
  · intro h
    unfold parseInteger? at h
    split at h
    · next rest hcs =>
        obtain ⟨c, cs, rfl, hc, rfl⟩ := List.map_eq_cons_iff.1 hcs
        obtain ⟨k, hk, rfl⟩ := Option.map_eq_some_iff.1 h
        rw [(asciiDigit_eq_iff (by decide)).1 hc]
        exact .positive (magnitude?_eq_some_iff.1 hk)
    · next rest hcs =>
        obtain ⟨c, cs, rfl, hc, rfl⟩ := List.map_eq_cons_iff.1 hcs
        obtain ⟨k, hk, rfl⟩ := Option.map_eq_some_iff.1 h
        rw [(asciiDigit_eq_iff (by decide)).1 hc]
        exact .negative (magnitude?_eq_some_iff.1 hk)
    · obtain ⟨k, hk, rfl⟩ := Option.map_eq_some_iff.1 h
      exact .unsigned (magnitude?_eq_some_iff.1 hk)
  · rintro (hmagnitude | hmagnitude | hmagnitude)
    · -- What begins with a digit is not taken for a literal with a sign.
      obtain ⟨c, rest, d, rfl, hdigit⟩ := hmagnitude.exists_head
      have hplus : asciiDigit c ≠ '+' := asciiDigit_ne_of_isDigit hdigit (by decide)
      have hminus : asciiDigit c ≠ '-' := asciiDigit_ne_of_isDigit hdigit (by decide)
      have hvalue := hmagnitude.magnitude?_eq
      rw [List.map_cons] at hvalue
      simp only [parseInteger?, List.map_cons]
      split
      · next h => exact absurd (List.cons.inj h).1 hplus
      · next h => exact absurd (List.cons.inj h).1 hminus
      · rw [hvalue]
        rfl
    · have hplus : asciiDigit '+' = '+' := (asciiDigit_eq_iff (by decide)).2 rfl
      simp only [parseInteger?, List.map_cons, hplus, hmagnitude.magnitude?_eq]
      rfl
    · have hminus : asciiDigit '-' = '-' := (asciiDigit_eq_iff (by decide)).2 rfl
      simp only [parseInteger?, List.map_cons, hminus, hmagnitude.magnitude?_eq]
      rfl

/-- Arabic-Indic digits, of which the first one is the zero of the prefix. -/
example : parseInteger? ['-', '٠', 'X', '_', '١', '_', 'f'] = some (-31) := by
  decide

/-- A leading zero before another digit. -/
example : parseInteger? ['0', '_', '7'] = none := by
  decide

theorem not_isInteger_nil
    (n : Int) :
    ¬ IsInteger [] n := by
  rw [← parseInteger?_eq_some_iff]
  exact nofun

/-- A literal is one of its integer only. -/
theorem IsInteger.iff_eq
    {n : Int}
    (h : IsInteger cs n)
    (n' : Int) :
    IsInteger cs n' ↔ n' = n := by
  constructor
  · intro h'
    rw [← parseInteger?_eq_some_iff] at h h'
    exact Option.some.inj (h'.symm.trans h)
  · rintro rfl
    exact h

end StackMachine.Text
