import StackMachine.Proofs.Settings.StepLimitText

/-!
# What the texts of settings stand for

There are three kinds of settings that are given as texts: switches, limits on steps and levels of
messages.  For each kind, some texts stand for a value, and there is one complaint about each of the
others.

* `SettingKind` is a kind of setting, and `SettingKind.IsReadBy` says that a function reads exactly
  the texts of a kind.
* `isReadBy_parseSwitch`, `isReadBy_parseStepLimit` and `isReadBy_parseLevel`: the three kinds are
  read in this way.
-/

namespace StackMachine

open Text

variable {α : Type} {source text : String} {limit : Option Nat} {e : SettingsError}

/-- A kind of setting: the values that texts stand for, and the complaints about texts that stand for
none, with the sources where they are found. -/
structure SettingKind (α : Type) where
  Means (text : String) (value : α) : Prop
  Complaint (source text : String) (e : SettingsError) : Prop

namespace SettingKind

variable {k : SettingKind α} {parse : String → String → Except SettingsError α}

/-- The function finds what the texts of the kind stand for, and complains about the others. -/
structure IsReadBy
    (k : SettingKind α) (parse : String → String → Except SettingsError α) : Prop where
  ok_iff :
    ∀ (text source : String) (value : α),
      parse text source = .ok value ↔ k.Means text value
  error_iff :
    ∀ (text source : String) (e : SettingsError),
      parse text source = .error e ↔ k.Complaint source text e

end SettingKind

/-! ## Switches -/

/-- The words for a position of a switch. -/
def switchWords (on : Bool) : List String :=
  if on then affirmatives else negatives

/-- Switches: a word for on or off, in any case and with any white space around it. -/
def switchKind : SettingKind Bool where
  Means text on := (trimmed text).toLower ∈ switchWords on
  Complaint source text e :=
    (∀ on, (trimmed text).toLower ∉ switchWords on) ∧ e = .notABoolean source text

/-- No word stands for both positions. -/
theorem notMem_negatives :
    ∀ word ∈ affirmatives, word ∉ negatives := by
  decide

theorem isReadBy_parseSwitch :
    switchKind.IsReadBy parseSwitch where
  ok_iff := by
    intro text source on
    have hwords := notMem_negatives (trimmed text).toLower
    simp only [switchKind, parseSwitch, List.contains_iff_mem]
    split
    · next hon =>
        cases on <;> simp [switchWords, hon, hwords hon]
    · next hoff =>
        split <;> next h => cases on <;> simp [switchWords, hoff, h]
  error_iff := by
    intro text source e
    simp only [switchKind, parseSwitch, List.contains_iff_mem, Bool.forall_bool, switchWords]
    split
    · next hon =>
        simp [hon]
    · next hoff =>
        split <;> next h => simp [hoff, h, eq_comm]

/-! ## Limits on steps -/

/-- The text stands for a limit on steps, or for none: a literal of zero and the empty text are no
limit. -/
inductive MeansLimit (text : String) : Option Nat → Prop
  | empty
      (h : trimmed text = "") :
      MeansLimit text none
  | zero
      (h : IsInteger (trimmed text).toList 0) :
      MeansLimit text none
  | positive
      {n : Nat}
      (hpos : 0 < n)
      (h : IsInteger (trimmed text).toList n) :
      MeansLimit text (some n)

/-- The complaint about a text that is no limit.  A negative integer is shown if its numeral is
short enough to be written. -/
inductive LimitComplaint (source text : String) : SettingsError → Prop
  | notAnInteger
      (hne : trimmed text ≠ "")
      (h : ∀ n, ¬ IsInteger (trimmed text).toList n) :
      LimitComplaint source text (.notAnInteger source (trimmed text))
  | negative
      {n : Int}
      (hneg : n < 0)
      (h : IsInteger (trimmed text).toList n)
      (hshort : n.natAbs < 10 ^ maxDecimalDigits) :
      LimitComplaint source text (.negativeLimit source n)
  | tooLong
      {n : Int}
      (hneg : n < 0)
      (h : IsInteger (trimmed text).toList n)
      (hlong : 10 ^ maxDecimalDigits ≤ n.natAbs) :
      LimitComplaint source text .negativeLimitTooLong

/-- Limits on steps. -/
def limitKind : SettingKind (Option Nat) where
  Means := MeansLimit
  Complaint := LimitComplaint

/-- Zero steps are no limit. -/
theorem MeansLimit.ne_zero
    (h : MeansLimit text limit) :
    limit ≠ some 0 := by
  cases h with
  | empty _ => nofun
  | zero _ => nofun
  | positive hpos _ => simpa using hpos.ne'

theorem parseStepLimit_of_empty
    (source : String)
    (h : trimmed text = "") :
    parseStepLimit text source = .ok none := by
  rw [parseStepLimit, h]
  rfl

/-- Every text is a limit or is refused, and what is said about it is right. -/
theorem parseStepLimit_cases
    (text source : String) :
    (∃ limit, parseStepLimit text source = .ok limit ∧ MeansLimit text limit) ∨
      ∃ e, parseStepLimit text source = .error e ∧ LimitComplaint source text e := by
  by_cases hempty : trimmed text = ""
  · exact Or.inl ⟨none, parseStepLimit_of_empty source hempty, .empty hempty⟩
  · rcases parseStepLimit_of_ne_empty source rfl hempty with ⟨hnone, hresult⟩ | ⟨n, hn, houtcome⟩
    · exact Or.inr ⟨_, hresult, .notAnInteger hempty hnone⟩
    · rcases houtcome with ⟨rfl, hresult⟩ | ⟨hpos, hresult⟩ | ⟨hneg, hshort, hresult⟩ |
          ⟨hneg, hlong, hresult⟩
      · exact Or.inl ⟨none, hresult, .zero hn⟩
      · obtain ⟨k, rfl⟩ := Int.eq_ofNat_of_zero_le hpos.le
        exact Or.inl ⟨some k, hresult, .positive (Int.natCast_pos.1 hpos) hn⟩
      · exact Or.inr ⟨_, hresult, .negative hneg hn hshort⟩
      · exact Or.inr ⟨_, hresult, .tooLong hneg hn hlong⟩

theorem isReadBy_parseStepLimit :
    limitKind.IsReadBy parseStepLimit where
  ok_iff := by
    intro text source limit
    constructor
    · intro hresult
      rcases parseStepLimit_cases text source with ⟨limit', hlimit, hmeans⟩ | ⟨e, he, -⟩
      · obtain rfl : limit' = limit := Except.ok.inj (hlimit.symm.trans hresult)
        exact hmeans
      · rw [he] at hresult
        cases hresult
    · intro hmeans
      cases hmeans with
      | empty h =>
          exact parseStepLimit_of_empty source h
      | zero h =>
          rcases parseStepLimit_of_isInteger h source with ⟨-, hresult⟩ | hother | hother | hother
          · exact hresult
          all_goals omega
      | positive hpos h =>
          rcases parseStepLimit_of_isInteger h source with hother | ⟨-, hresult⟩ | hother | hother
          · omega
          · exact hresult
          all_goals omega
  error_iff := by
    intro text source e
    constructor
    · intro hresult
      rcases parseStepLimit_cases text source with ⟨limit, hlimit, -⟩ | ⟨e', he, hcomplaint⟩
      · rw [hlimit] at hresult
        cases hresult
      · obtain rfl : e' = e := Except.error.inj (he.symm.trans hresult)
        exact hcomplaint
    · intro hcomplaint
      cases hcomplaint with
      | notAnInteger hne h =>
          rcases parseStepLimit_of_ne_empty source rfl hne with ⟨-, hresult⟩ | ⟨n, hn, -⟩
          · exact hresult
          · exact absurd hn (h n)
      | negative hneg h hshort =>
          rcases parseStepLimit_of_isInteger h source with
            hother | hother | ⟨-, -, hresult⟩ | ⟨-, hlong, -⟩
          · omega
          · omega
          · exact hresult
          · omega
      | tooLong hneg h hlong =>
          rcases parseStepLimit_of_isInteger h source with
            hother | hother | ⟨-, hshort, -⟩ | ⟨-, -, hresult⟩
          · omega
          · omega
          · omega
          · exact hresult

/-! ## Levels of messages -/

/-- Levels of messages: one of their names, in any case and with any white space around it. -/
def levelKind : SettingKind Int where
  Means text level :=
    (String.ofList ((trim text.toList).map upperLetter), level) ∈ levels
  Complaint source text e :=
    (∀ level, (String.ofList ((trim text.toList).map upperLetter), level) ∉ levels) ∧
      e = .unknownLevel source text

/-- A name has one level. -/
theorem lookup_levels_eq_some_iff
    {word : String} {level : Int} :
    levels.lookup word = some level ↔ (word, level) ∈ levels := by
  have hentries : ∀ entry ∈ levels, levels.lookup entry.1 = some entry.2 := by
    decide
  constructor
  · intro h
    obtain ⟨before, after, hlevels, -⟩ := List.lookup_eq_some_iff.1 h
    rw [hlevels]
    exact List.mem_append_right before List.mem_cons_self
  · exact hentries (word, level)

theorem isReadBy_parseLevel :
    levelKind.IsReadBy parseLevel where
  ok_iff := by
    intro text source level
    simp only [levelKind, ← lookup_levels_eq_some_iff, parseLevel]
    split <;> next h => simp [h]
  error_iff := by
    intro text source e
    simp only [levelKind, ← lookup_levels_eq_some_iff, parseLevel]
    split <;> next h => simp [h, eq_comm]

end StackMachine
