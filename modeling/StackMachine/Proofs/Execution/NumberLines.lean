import StackMachine.Proofs.Execution.StepTable

/-!
# Which lines are numbers

A line is a number if, without its end, it is one or more decimal digits after at most one plus sign,
and these stand for a number that fits in a word.  The instruction that reads a number accepts these
lines, and only these, as long as there are no more digits than a numeral may have to be converted:
a longer one, whatever number it stands for, is reported as a failed conversion.

* `TopFirst.IsNumeral` and `TopFirst.numeralValue` say what the digits of a line are and what they
  stand for.
* `TopFirst.lineWord_cases` sorts the lines.
* `Machine.readNumber_accepts` is what a step makes of a line, and
  `Machine.readNumber_refuses_long_zero` is a line that is a number and is refused.
-/

namespace StackMachine
namespace TopFirst

/-! ## Numerals -/

/-- The text of a line is the digits `ds`, which stand alone or after one plus sign. -/
structure IsNumeral (text ds : List UInt8) : Prop where
  eq_or_signed : text = ds ∨ text = 0x2B :: ds
  ne_nil : ds ≠ []
  isDigit : ∀ d ∈ ds, 0x30 ≤ d ∧ d ≤ 0x39

/-- The number that decimal digits stand for, the most significant one first. -/
def numeralValue (ds : List UInt8) : Nat :=
  Nat.ofDigits 10 (ds.reverse.map fun d => d.toNat - 0x30)

/-- The bytes of a text after an optional plus sign. -/
def afterSign (text : List UInt8) : List UInt8 :=
  if [0x2B] <+: text then text.drop 1 else text

variable {text ds ds' line : List UInt8}

/-- A plus sign is no digit, so that there is one way only to take a text apart. -/
theorem IsNumeral.eq_afterSign
    (h : IsNumeral text ds) :
    ds = afterSign text := by
  obtain ⟨rfl | rfl, -, hdigits⟩ := h
  · have hunsigned : ¬ [0x2B] <+: text := by
      rintro ⟨rest, rfl⟩
      exact absurd (hdigits 0x2B (by simp)) (by decide)
    rw [afterSign, if_neg hunsigned]
  · rw [afterSign, if_pos ⟨ds, rfl⟩, List.drop_one, List.tail_cons]

theorem IsNumeral.unique
    (h : IsNumeral text ds)
    (h' : IsNumeral text ds') :
    ds = ds' :=
  h.eq_afterSign.trans h'.eq_afterSign.symm

theorem isNumeral_afterSign
    (hne : afterSign text ≠ [])
    (hdigits : ∀ d ∈ afterSign text, 0x30 ≤ d ∧ d ≤ 0x39) :
    IsNumeral text (afterSign text) := by
  refine ⟨?_, hne, hdigits⟩
  unfold afterSign
  split
  · next hsigned =>
      obtain ⟨rest, rfl⟩ := hsigned
      exact Or.inr rfl
  · exact Or.inl rfl

/-- The four kinds of lines. -/
theorem lineWord_cases
    (line : List UInt8) :
    ((∀ ds, ¬ IsNumeral (lineText line) ds) ∧
        lineWord line = .error (.notANumber (lineText line))) ∨
      ∃ ds, IsNumeral (lineText line) ds ∧
        ((Text.maxDecimalDigits < ds.length ∧ lineWord line = .error (.tooLong ds.length)) ∨
          (ds.length ≤ Text.maxDecimalDigits ∧ 2 ^ 64 ≤ numeralValue ds ∧
            lineWord line = .error (.tooLarge (numeralValue ds))) ∨
          (ds.length ≤ Text.maxDecimalDigits ∧ numeralValue ds < 2 ^ 64 ∧
            lineWord line = .ok (UInt64.ofNat (numeralValue ds)))) := by
  have hword : lineWord line =
      if afterSign (lineText line) = [] ∨
          ∃ d ∈ afterSign (lineText line), d < 0x30 ∨ 0x39 < d then
        .error (.notANumber (lineText line))
      else if Text.maxDecimalDigits < (afterSign (lineText line)).length then
        .error (.tooLong (afterSign (lineText line)).length)
      else if 2 ^ 64 ≤ numeralValue (afterSign (lineText line)) then
        .error (.tooLarge (numeralValue (afterSign (lineText line))))
      else
        .ok (UInt64.ofNat (numeralValue (afterSign (lineText line)))) := rfl
  rw [hword]
  by_cases hform : afterSign (lineText line) = [] ∨
      ∃ d ∈ afterSign (lineText line), d < 0x30 ∨ 0x39 < d
  · refine Or.inl ⟨?_, if_pos hform⟩
    intro ds hds
    obtain rfl := hds.eq_afterSign
    rcases hform with hnil | ⟨d, hd, hlow | hhigh⟩
    · exact hds.ne_nil hnil
    · exact UInt8.not_le.2 hlow (hds.isDigit d hd).1
    · exact UInt8.not_le.2 hhigh (hds.isDigit d hd).2
  · rw [if_neg hform]
    rw [not_or] at hform
    have hdigits : ∀ d ∈ afterSign (lineText line), 0x30 ≤ d ∧ d ≤ 0x39 := by
      intro d hd
      constructor
      · exact UInt8.not_lt.1 fun hlow => hform.2 ⟨d, hd, Or.inl hlow⟩
      · exact UInt8.not_lt.1 fun hhigh => hform.2 ⟨d, hd, Or.inr hhigh⟩
    refine Or.inr ⟨_, isNumeral_afterSign hform.1 hdigits, ?_⟩
    by_cases hlong : Text.maxDecimalDigits < (afterSign (lineText line)).length
    · exact Or.inl ⟨hlong, if_pos hlong⟩
    · rw [if_neg hlong]
      by_cases hlarge : 2 ^ 64 ≤ numeralValue (afterSign (lineText line))
      · exact Or.inr (Or.inl ⟨Nat.le_of_not_lt hlong, hlarge, if_pos hlarge⟩)
      · exact Or.inr (Or.inr
          ⟨Nat.le_of_not_lt hlong, Nat.lt_of_not_le hlarge, if_neg hlarge⟩)

/-- The line is read as the number that it holds. -/
theorem lineWord_eq_ok_iff
    {n : Nat} :
    (∃ w, lineWord line = .ok w ∧ w.toNat = n) ↔
      ∃ ds, IsNumeral (lineText line) ds ∧ ds.length ≤ Text.maxDecimalDigits ∧
        numeralValue ds = n ∧ n < 2 ^ 64 := by
  constructor
  · rintro ⟨w, hw, rfl⟩
    rcases lineWord_cases line with
      ⟨-, hword⟩ | ⟨ds, hds, ⟨-, hword⟩ | ⟨-, -, hword⟩ | ⟨hshort, hfits, hword⟩⟩ <;>
      rw [hword] at hw <;> cases hw
    have hvalue := UInt64.toNat_ofNat_of_lt' hfits
    exact ⟨ds, hds, hshort, hvalue.symm, by rwa [hvalue]⟩
  · rintro ⟨ds, hds, hshort, rfl, hfits⟩
    rcases lineWord_cases line with
      ⟨hnone, -⟩ | ⟨ds', hds', ⟨hlong, -⟩ | ⟨-, hlarge, -⟩ | ⟨-, -, hword⟩⟩
    · exact absurd hds (hnone ds)
    · rw [hds.unique hds'] at hshort
      omega
    · rw [hds.unique hds'] at hfits
      omega
    · rw [hds.unique hds'] at hfits ⊢
      exact ⟨_, hword, UInt64.toNat_ofNat_of_lt' hfits⟩

/-- The line is too long to be converted, whatever number it holds. -/
theorem lineWord_eq_tooLong_iff :
    (∃ count, lineWord line = .error (.tooLong count)) ↔
      ∃ ds, IsNumeral (lineText line) ds ∧ Text.maxDecimalDigits < ds.length := by
  constructor
  · rintro ⟨count, hcount⟩
    rcases lineWord_cases line with
      ⟨-, hword⟩ | ⟨ds, hds, ⟨hlong, hword⟩ | ⟨-, -, hword⟩ | ⟨-, -, hword⟩⟩ <;>
      rw [hword] at hcount <;> cases hcount
    exact ⟨ds, hds, hlong⟩
  · rintro ⟨ds, hds, hlong⟩
    rcases lineWord_cases line with
      ⟨hnone, -⟩ | ⟨ds', hds', ⟨-, hword⟩ | ⟨hshort, -, -⟩ | ⟨hshort, -, -⟩⟩
    · exact absurd hds (hnone ds)
    · exact ⟨_, hword⟩
    · rw [hds.unique hds'] at hlong
      omega
    · rw [hds.unique hds'] at hlong
      omega

/-- The line holds no number that fits, and is not too long to find this out. -/
theorem lineWord_eq_error_iff :
    (∃ rejection, lineWord line = .error rejection ∧ ∀ count, rejection ≠ .tooLong count) ↔
      ∀ ds, IsNumeral (lineText line) ds →
        ds.length ≤ Text.maxDecimalDigits ∧ 2 ^ 64 ≤ numeralValue ds := by
  rcases lineWord_cases line with
    ⟨hnone, hword⟩ | ⟨ds, hds, ⟨hlong, hword⟩ | ⟨hshort, hlarge, hword⟩ | ⟨-, hfits, hword⟩⟩
  · simp [hword, hnone]
  · simp only [hword, Except.error.injEq]
    constructor
    · rintro ⟨_, rfl, hnot⟩
      exact absurd rfl (hnot _)
    · intro h
      exact absurd hlong (Nat.not_lt_of_le (h ds hds).1)
  · simp only [hword, Except.error.injEq]
    constructor
    · intro _ ds' hds'
      obtain rfl := hds.unique hds'
      exact ⟨hshort, hlarge⟩
    · intro _
      exact ⟨_, rfl, nofun⟩
  · simp only [hword, reduceCtorEq, false_and, exists_false, false_iff]
    intro h
    exact absurd hfits (Nat.not_lt_of_le (h ds hds).2)

/-! ## Lines that end -/

theorem lineLength_concat_lineFeed
    {body : List UInt8}
    (h : lineFeed ∉ body) :
    lineLength (body ++ [lineFeed]) = (body ++ [lineFeed]).length := by
  simp [lineLength, List.idxOf_append_of_notMem h]

theorem numeralValue_replicate_zero
    (k : Nat) :
    numeralValue (List.replicate k 0x30) = 0 := by
  have hzero : (0x30 : UInt8).toNat - 0x30 = 0 := rfl
  rw [numeralValue, List.reverse_replicate, List.map_replicate, hzero, Nat.ofDigits_replicate_zero]

/-! ## Reading a number -/

/-- What becomes of a line, whether it is a number or not. -/
theorem execute_readNumber
    {c : Console}
    (hinput : c.input ≠ [])
    (stack : Stack) :
    Instruction.readNumber.execute stack c =
      (match lineWord (c.input.take (lineLength c.input)) with
        | .ok w => .done (stack.push w.toNat) none
        | .error rejection =>
            .fault (.badLine (c.input.take (lineLength c.input)) rejection),
        c.flush.readLine.2) := by
  have hread := readLine_eq c.flush
  have hflush : c.flush.input = c.input := rfl
  rw [hflush] at hread
  obtain ⟨b, line, hline⟩ := List.exists_cons_of_ne_nil (mt take_lineLength_eq_nil.1 hinput)
  rw [hline] at hread ⊢
  simp only [Instruction.execute, acceptNumber, hread, parse_eq]
  cases lineWord (b :: line) with
  | ok w => rfl
  | error rejection => rfl

end TopFirst

open TopFirst

/-- The step at position `pc` failed as it read the line, for a fault of the family. -/
structure Failure.RejectsLine
    (e : Failure)
    (pc : Nat)
    (line : List UInt8)
    (family : FaultFamily) :
    Prop where
  pc_eq : e.pc = pc
  instruction_eq : e.instruction = .readNumber
  fault_eq : ∃ rejection : NumberLine.Rejection, e.fault = .badLine line rejection
  family_eq : e.fault.family = family

theorem rejectsLine_iff
    {pc : Nat} {line : List UInt8} {rejection : NumberLine.Rejection} {family : FaultFamily} :
    Failure.RejectsLine ⟨pc, .readNumber, .badLine line rejection⟩ pc line family ↔
      (Fault.badLine line rejection).family = family :=
  ⟨fun h => h.family_eq, fun h => ⟨rfl, rfl, ⟨rejection, rfl⟩, h⟩⟩

/-- A failed conversion is reported without a position. -/
theorem isLocated_badLine
    {pc : Nat} {i : Instruction} {line : List UInt8} {rejection : NumberLine.Rejection} :
    Failure.isLocated ⟨pc, i, .badLine line rejection⟩ =
      decide ((Fault.badLine line rejection).family = .input) := by
  cases rejection <;> rfl

namespace Machine

variable {m : Machine} {c : Console}

/-- The machine after a step that has read the number `n`. -/
def withNumber (m : Machine) (n : Nat) : Machine :=
  { m.record .readNumber with
    stack := m.stack.push n
    pc := m.pc + 1
    steps := m.steps + 1 }

theorem withNumber_inj
    {n n' : Nat} :
    m.withNumber n = m.withNumber n' ↔ n = n' := by
  constructor
  · intro h
    have hpush : m.stack.push (n : Int) = m.stack.push (n' : Int) := congrArg Machine.stack h
    have hlast := congrArg Array.back? hpush
    rw [Array.back?_push, Array.back?_push] at hlast
    exact Int.ofNat.inj (Option.some.inj hlast)
  · rintro rfl
    rfl

/-- A step that reads a line pushes its number or fails with the line. -/
theorem step_readNumber
    (hi : m.program[m.pc]? = some .readNumber)
    (hinput : c.input ≠ []) :
    m.step c =
      match lineWord (c.input.take (lineLength c.input)) with
      | .ok w => (.advanced, m.withNumber w.toNat, c.flush.readLine.2)
      | .error rejection =>
          (.failed ⟨m.pc, .readNumber, .badLine (c.input.take (lineLength c.input)) rejection⟩,
            m.record .readNumber, c.flush.readLine.2) := by
  have hexecute := execute_readNumber hinput m.stack
  cases hword : lineWord (c.input.take (lineLength c.input)) with
  | ok w =>
      rw [hword] at hexecute
      exact step_of_done hi hexecute
  | error rejection =>
      rw [hword] at hexecute
      exact step_of_fault hi hexecute

/-- **What is read as a number.**  Reading a number takes the first line of the input.  It pushes a
number exactly if this is what the line holds, as no more digits than are converted, and fits in a
word.  It fails with the input at fault, which is reported with the position and the whole line,
exactly if the line is no numeral or one that is converted and does not fit.  A numeral with more
digits than are converted fails with another fault, which is reported without a position. -/
theorem readNumber_accepts
    (hi : m.program[m.pc]? = some .readNumber)
    (hinput : c.input ≠ []) :
    let line := c.input.take (lineLength c.input)
    ∃ (s : StepResult) (m' : Machine) (c' : Console),
      m.step c = (s, m', c') ∧
      c.input = line ++ c'.input ∧ c'.consumed = c.consumed + line.length ∧
      (∀ n : Nat,
        s = .advanced ∧ m' = m.withNumber n ↔
          ∃ ds, IsNumeral (lineText line) ds ∧ ds.length ≤ Text.maxDecimalDigits ∧
            numeralValue ds = n ∧ n < 2 ^ 64) ∧
      ((∃ e, s = .failed e ∧ e.RejectsLine m.pc line .input ∧ e.isLocated = true) ↔
        ∀ ds, IsNumeral (lineText line) ds →
          ds.length ≤ Text.maxDecimalDigits ∧ 2 ^ 64 ≤ numeralValue ds) ∧
      ((∃ e, s = .failed e ∧ e.RejectsLine m.pc line .conversion ∧ e.isLocated = false) ↔
        ∃ ds, IsNumeral (lineText line) ds ∧ Text.maxDecimalDigits < ds.length) := by
  intro line
  have hstep := step_readNumber hi hinput
  have htaken : c.input = line ++ c.flush.readLine.2.input := by
    rw [readLine_eq]
    exact (List.take_append_drop _ _).symm
  have hconsumed : c.flush.readLine.2.consumed = c.consumed + line.length := by
    rw [readLine_eq]
    rfl
  have hline : c.input.take (lineLength c.input) = line := rfl
  clear_value line
  rw [hline] at hstep
  simp only [← lineWord_eq_ok_iff, ← lineWord_eq_error_iff, ← lineWord_eq_tooLong_iff]
  cases hword : lineWord line with
  | ok w =>
      rw [hword] at hstep
      refine ⟨_, _, _, hstep, htaken, hconsumed, ?_, ?_, ?_⟩
      · simp [withNumber_inj]
      · simp
      · simp
  | error rejection =>
      rw [hword] at hstep
      refine ⟨_, _, _, hstep, htaken, hconsumed, ?_, ?_, ?_⟩
      · simp
      · simp [rejectsLine_iff, isLocated_badLine, family_badLine_eq_input]
      · cases rejection <;> simp [rejectsLine_iff, isLocated_badLine, Fault.family]

/-- A plus sign, leading zeros and a carriage return, and another line after them. -/
theorem readNumber_accepts_signed :
    let m : Machine := ⟨#[.jump 1, .readNumber], #[5], 1, 4, none, true, #[]⟩
    let c : Console := .ofInput [0x2B, 0x30, 0x30, 0x37, 0x0D, 0x0A, 0x38]
    m.program[m.pc]? = some .readNumber ∧ c.input ≠ [] ∧
      ∃ c' : Console, m.step c = (.advanced, m.withNumber 7, c') ∧
        c.input = [0x2B, 0x30, 0x30, 0x37, 0x0D, 0x0A] ++ c'.input ∧
        c'.consumed = c.consumed + 6 := by
  intro m c
  have hi : m.program[m.pc]? = some .readNumber := rfl
  have hinput : c.input ≠ [] := by
    decide
  obtain ⟨s, m', c', hstep, htaken, hconsumed, haccepts, -, -⟩ := readNumber_accepts hi hinput
  have hnumeral : IsNumeral (lineText (c.input.take (lineLength c.input))) [0x30, 0x30, 0x37] :=
    ⟨Or.inr (by decide), by decide, by simp⟩
  obtain ⟨rfl, rfl⟩ := (haccepts 7).2 ⟨_, hnumeral, by decide, by decide, by decide⟩
  exact ⟨hi, hinput, c', hstep, htaken, hconsumed⟩

/-- The line is the number zero, which fits, and is refused for the number of its zeros; the failure
is none of the input's, and is reported without a position. -/
theorem readNumber_refuses_long_zero :
    let ds : List UInt8 := List.replicate 4301 0x30
    let m : Machine := .start [.readNumber] false none
    let c : Console := .ofInput (ds ++ [lineFeed])
    IsNumeral (lineText (c.input.take (lineLength c.input))) ds ∧ numeralValue ds = 0 ∧
      ∃ (e : Failure) (m' : Machine) (c' : Console),
        m.step c = (.failed e, m', c') ∧ e.fault.family = .conversion ∧ e.isLocated = false := by
  intro ds m c
  have hdigit : ∀ d ∈ ds, d = 0x30 := fun d hd => List.eq_of_mem_replicate hd
  have hline : c.input.take (lineLength c.input) = ds ++ [lineFeed] := by
    have hfeed : lineFeed ∉ ds := by
      intro h
      exact absurd (hdigit _ h) (by decide)
    show (ds ++ [lineFeed]).take (lineLength (ds ++ [lineFeed])) = ds ++ [lineFeed]
    rw [lineLength_concat_lineFeed hfeed, List.take_length]
  have htext : lineText (ds ++ [lineFeed]) = ds := by
    rw [lineText_concat_lineFeed, if_neg]
    intro h
    exact absurd (hdigit _ (List.mem_of_getLast? h)) (by decide)
  have hlong : Text.maxDecimalDigits < ds.length := by
    rw [List.length_replicate]
    decide
  have hnumeral : IsNumeral (lineText (ds ++ [lineFeed])) ds := by
    rw [htext]
    refine ⟨Or.inl rfl, List.ne_nil_of_length_pos (Nat.zero_lt_of_lt hlong), ?_⟩
    intro d hd
    rw [hdigit d hd]
    decide
  obtain ⟨count, hword⟩ := lineWord_eq_tooLong_iff.2 ⟨ds, hnumeral, hlong⟩
  have hinput : c.input ≠ [] := List.append_ne_nil_of_right_ne_nil ds (by simp)
  have hstep := step_readNumber (m := m) rfl hinput
  rw [hline, hword] at hstep
  rw [hline]
  exact ⟨hnumeral, numeralValue_replicate_zero 4301, _, _, _, hstep, rfl, rfl⟩

end Machine
end StackMachine
