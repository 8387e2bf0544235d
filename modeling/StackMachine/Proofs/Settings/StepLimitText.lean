import Mathlib.Data.List.DropRight
import StackMachine.Proofs.Text.IntegerLiteral
import StackMachine.Settings

/-!
# Which texts are limits on steps

The white space around a text does not count.  What is left is a limit if it is a literal of a
positive integer, and it is none, which is allowed too, if it is empty or a literal of zero.
Everything else is refused, and the complaint about a negative integer shows it, as long as its
decimal numeral is short enough to be written.

* `Text.IsTrimmed` says what is left of a text without the white space around it.
* `parseStepLimit_reads_literals` is what becomes of any text.
* `parseStepLimit_refuses_long_negative` is a negative integer that cannot be shown.
-/

namespace StackMachine

/-! ## White space -/

namespace Text

variable {cs : List Char}

/-- The characters are those of the text without the white space at its two ends. -/
structure IsTrimmed (cs trimmed : List Char) : Prop where
  exists_blanks :
    ∃ before after : List Char,
      cs = before ++ trimmed ++ after ∧
      (∀ c ∈ before, isBlank c = true) ∧ (∀ c ∈ after, isBlank c = true)
  head_not_blank : ∀ c ∈ trimmed.head?, isBlank c = false
  last_not_blank : ∀ c ∈ trimmed.getLast?, isBlank c = false

theorem trim_eq_rdropWhile
    (cs : List Char) :
    trim cs = (cs.dropWhile isBlank).rdropWhile isBlank := rfl

theorem isTrimmed_trim
    (cs : List Char) :
    IsTrimmed cs (trim cs) := by
  rw [trim_eq_rdropWhile]
  refine ⟨⟨cs.takeWhile isBlank, (cs.dropWhile isBlank).rtakeWhile isBlank, ?_, ?_, ?_⟩, ?_, ?_⟩
  · rw [List.append_assoc, List.rdropWhile_append_rtakeWhile, List.takeWhile_append_dropWhile]
  · exact fun c hc => List.mem_takeWhile_imp hc
  · exact fun c hc => List.mem_rtakeWhile_imp hc
  · intro c hc
    obtain ⟨rest, hrest⟩ := List.head?_eq_some_iff.1 hc
    obtain ⟨after, hafter⟩ : (cs.dropWhile isBlank).rdropWhile isBlank <+: cs.dropWhile isBlank :=
      List.rdropWhile_prefix isBlank _
    have hhead : (cs.dropWhile isBlank).head? = some c := by
      rw [← hafter, hrest]
      rfl
    have hblank := List.head?_dropWhile_not isBlank cs
    rw [hhead] at hblank
    exact hblank
  · intro c hc
    have hblank := List.head?_dropWhile_not isBlank (cs.dropWhile isBlank).reverse
    rw [List.rdropWhile, List.getLast?_reverse] at hc
    rw [hc] at hblank
    exact hblank

/-- A text without white space at its ends stays as it is. -/
theorem trim_eq_self
    (hhead : ∀ c ∈ cs.head?, isBlank c = false)
    (hlast : ∀ c ∈ cs.getLast?, isBlank c = false) :
    trim cs = cs := by
  have hfirst : cs.dropWhile isBlank = cs := by
    cases cs with
    | nil =>
        rfl
    | cons c rest =>
        rw [List.dropWhile_cons, hhead c rfl]
        rfl
  rw [trim_eq_rdropWhile, hfirst, List.rdropWhile_eq_self_iff]
  intro hne
  rw [hlast _ (List.getLast?_eq_some_getLast hne)]
  exact Bool.false_ne_true

end Text

/-! ## Limits -/

open Text

/-- The numerals that are written are those of at most `maxDecimalDigits` digits. -/
theorem isShowable_iff
    {n : Nat} :
    isShowable n = true ↔ n < 10 ^ maxDecimalDigits := by
  rw [isShowable, decide_eq_true_iff]
  exact Nat.length_toDigits_le_iff (by decide) (by decide)

/-- The text is refused with the given error, which complains in the given words. -/
structure RefusesLimit (value source : String) (e : SettingsError) (complaint : String) : Prop where
  result_eq : parseStepLimit value source = .error e
  message_eq : e.message = complaint

variable {value source t : String}

/-- What is left of a text, if it is not empty, settles what becomes of it. -/
theorem parseStepLimit_of_ne_empty
    (source : String)
    (ht : trimmed value = t)
    (hne : t ≠ "") :
    ((∀ n, ¬ IsInteger t.toList n) ∧
        parseStepLimit value source = .error (.notAnInteger source t)) ∨
      ∃ n : Int, IsInteger t.toList n ∧
        ((n = 0 ∧ parseStepLimit value source = .ok none) ∨
          (0 < n ∧ parseStepLimit value source = .ok (some n.toNat)) ∨
          (n < 0 ∧ n.natAbs < 10 ^ maxDecimalDigits ∧
            parseStepLimit value source = .error (.negativeLimit source n)) ∨
          (n < 0 ∧ 10 ^ maxDecimalDigits ≤ n.natAbs ∧
            parseStepLimit value source = .error .negativeLimitTooLong)) := by
  have hempty : t.isEmpty = false := by
    simpa using hne
  simp only [parseStepLimit, ht, hempty, ← parseInteger?_eq_some_iff, Bool.false_eq_true, if_false]
  cases hparse : parseInteger? t.toList with
  | none =>
      exact Or.inl ⟨nofun, rfl⟩
  | some n =>
      refine Or.inr ⟨n, rfl, ?_⟩
      rcases n with (_ | n) | n
      · exact Or.inl ⟨rfl, rfl⟩
      · exact Or.inr (Or.inl ⟨Int.natCast_pos.2 (Nat.succ_pos n), rfl⟩)
      · refine Or.inr (Or.inr ?_)
        simp only [isShowable_iff, Int.natAbs_negSucc, Int.negSucc_lt_zero, true_and]
        by_cases hshort : n + 1 < 10 ^ maxDecimalDigits
        · exact Or.inl ⟨hshort, if_pos hshort⟩
        · exact Or.inr ⟨Nat.le_of_not_lt hshort, if_neg hshort⟩

theorem ne_empty_of_isInteger
    {n : Int}
    (h : IsInteger (trimmed value).toList n) :
    trimmed value ≠ "" := by
  intro hempty
  rw [hempty] at h
  exact not_isInteger_nil n h

/-- The literal that a text is settles what becomes of it. -/
theorem parseStepLimit_of_isInteger
    {n : Int}
    (h : IsInteger (trimmed value).toList n)
    (source : String) :
    (n = 0 ∧ parseStepLimit value source = .ok none) ∨
      (0 < n ∧ parseStepLimit value source = .ok (some n.toNat)) ∨
      (n < 0 ∧ n.natAbs < 10 ^ maxDecimalDigits ∧
        parseStepLimit value source = .error (.negativeLimit source n)) ∨
      (n < 0 ∧ 10 ^ maxDecimalDigits ≤ n.natAbs ∧
        parseStepLimit value source = .error .negativeLimitTooLong) := by
  rcases parseStepLimit_of_ne_empty source rfl (ne_empty_of_isInteger h) with
    ⟨hnone, -⟩ | ⟨n', hn', houtcome⟩
  · exact absurd h (hnone n)
  · obtain rfl := (h.iff_eq n').1 hn'
    exact houtcome

theorem refusesLimit_notAnInteger :
    RefusesLimit value source (.notAnInteger source t)
        (source ++ ": expected an integer, got " ++ quoteText t) ↔
      parseStepLimit value source = .error (.notAnInteger source t) :=
  ⟨fun h => h.result_eq, fun h => ⟨h, rfl⟩⟩

theorem refusesLimit_negativeLimit
    {n : Int} :
    RefusesLimit value source (.negativeLimit source n)
        (source ++ ": must be >= 0, got " ++ toString n) ↔
      parseStepLimit value source = .error (.negativeLimit source n) :=
  ⟨fun h => h.result_eq, fun h => ⟨h, rfl⟩⟩

/-- **What becomes of a text that is to be a limit.**  With the white space around it left out, it is
no limit exactly if it is empty or a literal of zero, and a limit exactly if it is a literal of a
positive integer.  It is refused as no integer exactly if it is another text that is no literal, and
as negative exactly if it is a literal of a negative integer whose numeral is short enough to be
shown in the complaint.  If it is not, the text is refused with a complaint of another kind. -/
theorem parseStepLimit_reads_literals
    (value source : String) :
    let t := trimmed value
    IsTrimmed value.toList t.toList ∧
    (parseStepLimit value source = .ok none ↔ t = "" ∨ IsInteger t.toList 0) ∧
    (∀ n : Nat,
      parseStepLimit value source = .ok (some n) ↔ 0 < n ∧ IsInteger t.toList n) ∧
    (RefusesLimit value source (.notAnInteger source t)
        (source ++ ": expected an integer, got " ++ quoteText t) ↔
      t ≠ "" ∧ ∀ n : Int, ¬ IsInteger t.toList n) ∧
    (∀ n : Int,
      RefusesLimit value source (.negativeLimit source n)
          (source ++ ": must be >= 0, got " ++ toString n) ↔
        n < 0 ∧ IsInteger t.toList n ∧ n.natAbs < 10 ^ maxDecimalDigits) ∧
    (parseStepLimit value source = .error .negativeLimitTooLong ↔
      ∃ n : Int, n < 0 ∧ IsInteger t.toList n ∧ 10 ^ maxDecimalDigits ≤ n.natAbs) := by
  intro t
  have ht : trimmed value = t := rfl
  have htrimmed : IsTrimmed value.toList t.toList := by
    rw [← ht, trimmed, String.toList_ofList]
    exact isTrimmed_trim value.toList
  clear_value t
  refine ⟨htrimmed, ?_⟩
  simp only [refusesLimit_notAnInteger, refusesLimit_negativeLimit]
  by_cases hempty : t = ""
  · have hresult : parseStepLimit value source = .ok none := by
      simp [parseStepLimit, ht, hempty]
    simp [hresult, hempty, not_isInteger_nil]
  · rcases parseStepLimit_of_ne_empty source ht hempty with ⟨hnone, hresult⟩ | ⟨n, hn, houtcome⟩
    · simp [hresult, hempty, hnone]
    · simp only [hn.iff_eq]
      -- The conditions exclude each other, and so do the answers.
      rcases houtcome with ⟨hzero, hresult⟩ | ⟨hpos, hresult⟩ | ⟨hneg, hshort, hresult⟩ |
          ⟨hneg, hlong, hresult⟩ <;>
        rw [hresult] <;> grind

/-! ## Integers that cannot be shown -/

theorem isDigit_zero :
    IsDigit '0' 0 :=
  .decimal 0x30 (by decide) (by decide) rfl

theorem isDigit_one :
    IsDigit '1' 1 :=
  .decimal 0x30 (by decide) (by decide) rfl

theorem isDigits_replicate_zero
    (k : Nat) :
    IsDigits 16 (List.replicate (k + 1) '0') (List.replicate (k + 1) 0) := by
  induction k with
  | zero => exact .single isDigit_zero (by decide)
  | succ k ih => exact .cons isDigit_zero (by decide) ih

/-- A one and zeros behind it, in base sixteen. -/
theorem isMagnitude_hexadecimal_power
    (k : Nat) :
    IsMagnitude ('0' :: 'x' :: '1' :: List.replicate k '0') (16 ^ k) := by
  have hdigits : IsDigits 16 ('1' :: List.replicate k '0') (1 :: List.replicate k 0) := by
    cases k with
    | zero => exact .single isDigit_one (by decide)
    | succ k => exact .cons isDigit_one (by decide) (isDigits_replicate_zero k)
  have hvalue : Nat.ofDigits 16 (1 :: List.replicate k 0).reverse = 16 ^ k := by
    rw [List.reverse_cons, List.reverse_replicate, Nat.ofDigits_append,
      Nat.ofDigits_replicate_zero, List.length_replicate, Nat.ofDigits_singleton, Nat.zero_add,
      Nat.mul_one]
  rw [← hvalue]
  exact .prefixed isDigit_zero (.hexadecimal (Or.inl rfl)) (Or.inl rfl) hdigits

/-- A minus, the prefix of base sixteen, a one and zeros. -/
def hexadecimalPowerBelowZero (k : Nat) : List Char :=
  '-' :: '0' :: 'x' :: '1' :: List.replicate k '0'

theorem isInteger_hexadecimalPowerBelowZero
    (k : Nat) :
    IsInteger (hexadecimalPowerBelowZero k) (-(16 ^ k : Nat)) :=
  .negative (isMagnitude_hexadecimal_power k)

theorem trimmed_hexadecimalPowerBelowZero
    (k : Nat) :
    trimmed (String.ofList (hexadecimalPowerBelowZero k)) =
      String.ofList (hexadecimalPowerBelowZero k) := by
  have hlast : ∀ c ∈ (hexadecimalPowerBelowZero k).getLast?, isBlank c = false := by
    intro c hc
    have hmem : c ∈ hexadecimalPowerBelowZero k := List.mem_of_getLast? hc
    simp only [hexadecimalPowerBelowZero, List.mem_cons, List.mem_replicate] at hmem
    rcases hmem with rfl | rfl | rfl | rfl | ⟨-, rfl⟩ <;> decide
  rw [trimmed, String.toList_ofList, trim_eq_self _ hlast]
  rintro c ⟨⟩
  decide

/-- With as many zeros as a numeral may have digits, the power has more digits than these. -/
theorem parseStepLimit_hexadecimalPowerBelowZero
    {k : Nat}
    (hk : maxDecimalDigits ≤ k)
    (source : String) :
    parseStepLimit (String.ofList (hexadecimalPowerBelowZero k)) source =
      .error .negativeLimitTooLong := by
  have hlarge : 10 ^ maxDecimalDigits ≤ 16 ^ k :=
    (Nat.pow_le_pow_left (by decide) _).trans (Nat.pow_le_pow_right (by decide) hk)
  have hliteral : IsInteger (trimmed (String.ofList (hexadecimalPowerBelowZero k))).toList
      (-(16 ^ k : Nat)) := by
    rw [trimmed_hexadecimalPowerBelowZero, String.toList_ofList]
    exact isInteger_hexadecimalPowerBelowZero k
  have hpos : 0 < 16 ^ k := Nat.pow_pos (by decide)
  have houtcome := parseStepLimit_of_isInteger hliteral source
  rw [Int.natAbs_neg, Int.natAbs_natCast] at houtcome
  rcases houtcome with ⟨hzero, -⟩ | ⟨hpositive, -⟩ | ⟨-, hshort, -⟩ | ⟨-, -, hresult⟩
  · omega
  · omega
  · omega
  · exact hresult

/-- The text is a literal of a negative integer, and the complaint about it is not the one about
negative integers. -/
theorem parseStepLimit_refuses_long_negative :
    let value := String.ofList (hexadecimalPowerBelowZero 4300)
    let n : Int := -(16 ^ 4300 : Nat)
    n < 0 ∧ IsInteger (trimmed value).toList n ∧
      parseStepLimit value "max-steps" = .error .negativeLimitTooLong ∧
      ∀ (n : Int) (complaint : String),
        ¬ RefusesLimit value "max-steps" (.negativeLimit "max-steps" n) complaint := by
  intro value n
  have hpos : ∀ k : Nat, 0 < 16 ^ k := fun _ => Nat.pow_pos (by decide)
  have hresult : parseStepLimit value "max-steps" = .error .negativeLimitTooLong :=
    parseStepLimit_hexadecimalPowerBelowZero (by decide) "max-steps"
  refine ⟨Int.neg_neg_of_pos (Int.natCast_pos.2 (hpos _)), ?_, hresult, ?_⟩
  · rw [trimmed_hexadecimalPowerBelowZero, String.toList_ofList]
    exact isInteger_hexadecimalPowerBelowZero 4300
  · intro n complaint h
    rw [h.result_eq] at hresult
    cases hresult

end StackMachine
