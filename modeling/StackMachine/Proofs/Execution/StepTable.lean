import StackMachine.Proofs.Execution.Refinement

/-!
# A step and the table

What a step does, and of which family its fault is if it fails, can be read off the instruction, the
stack read from the top and the input.

* `TopFirst.execute_cases` and `TopFirst.execute_fails_iff` sort the outcomes of the table by the
  family of their faults.
* `Machine.step_follows_table` is the same for the steps of a machine.
-/

namespace StackMachine

/-- The next step fails with a fault of the family. -/
def Machine.Fails (m : Machine) (c : Console) (family : FaultFamily) : Prop :=
  ∃ (e : Failure) (m' : Machine) (c' : Console),
    m.step c = (.failed e, m', c') ∧ e.fault.family = family

namespace TopFirst

variable {m : Machine} {c : Console} {i : Instruction} {s : List Word}
variable {pc : Nat} {input : List UInt8}

theorem Misfit.family_cases
    {f : Fault}
    (h : Misfit s i f) :
    (f.family = .bounds ∧ SameElement i) ∨
      (f.family = .arithmetic ∧ ¬ SameElement i ∧ Overflows s i) := by
  cases h with
  | same h =>
      exact Or.inl ⟨rfl, h⟩
  | sum hne h =>
      exact Or.inr ⟨rfl, hne, h⟩
  | zero h =>
      exact Or.inr ⟨rfl, id, h⟩
  | maximum h =>
      exact Or.inr ⟨rfl, id, h⟩
  | large h =>
      exact Or.inr ⟨rfl, id, h⟩

/-- The table says that an instruction is out of bounds, or that its result does not fit, or what it
does. -/
theorem execute_cases
    (pc : Nat) (s : List Word) (input : List UInt8) (i : Instruction) :
    (OutOfBounds s i ∧
        ∃ f, execute pc s input i = .failed f input ∧ f.family = .bounds) ∨
      (¬ OutOfBounds s i ∧ Overflows s i ∧
        ∃ f, execute pc s input i = .failed f input ∧ f.family = .arithmetic) ∨
      (¬ OutOfBounds s i ∧ ¬ Overflows s i ∧
        execute pc s input i = perform pc s input i) := by
  cases hstray : strayOffset s i with
  | some p =>
      have hmem : p ∈ offsets i := List.mem_of_find?_eq_some hstray
      have hle : s.length ≤ p.toNat := by
        simpa using List.find?_some hstray
      refine Or.inl ⟨Or.inl ⟨p, hmem, hle⟩, .offsetOutOfRange p.toNat s.length, ?_, rfl⟩
      simp only [execute, hstray]
  | none =>
      have hlt := lt_of_strayOffset_eq_none hstray
      -- All operands name elements, which leaves one way of being out of bounds.
      have hbounds : OutOfBounds s i ↔ SameElement i := by
        constructor
        · rintro (⟨p, hp, hle⟩ | hsame)
          · exact absurd hle (Nat.not_le_of_lt (hlt p hp))
          · exact hsame
        · exact Or.inr
      rcases misfit_cases s i with ⟨hmisfit, hdistinct, hfits⟩ | ⟨f, hmisfit, hf⟩
      · have hexecute : execute pc s input i = perform pc s input i := by
          simp only [execute, hstray, hmisfit]
        exact Or.inr (Or.inr ⟨mt hbounds.1 hdistinct, hfits, hexecute⟩)
      · have hexecute : execute pc s input i = .failed f input := by
          simp only [execute, hstray, hmisfit]
        rcases hf.family_cases with ⟨hfamily, hsame⟩ | ⟨hfamily, hdistinct, hoverflows⟩
        · exact Or.inl ⟨hbounds.2 hsame, f, hexecute, hfamily⟩
        · exact Or.inr (Or.inl ⟨mt hbounds.1 hdistinct, hoverflows, f, hexecute, hfamily⟩)

/-- An instruction without an obstacle fails only on a line that holds no word. -/
theorem perform_eq_failed
    {f : Fault} {rest : List UInt8} :
    perform pc s input i = .failed f rest ↔
      i = .readNumber ∧ ∃ rejection : NumberLine.Rejection, BadLine input rejection ∧
        f = .badLine (input.take (lineLength input)) rejection ∧
        rest = input.drop (lineLength input) := by
  cases i with
  | readNumber =>
      by_cases hinput : input = []
      · simp [perform, BadLine, hinput]
      · cases hword : lineWord (input.take (lineLength input)) with
        | ok w =>
            simp [perform, BadLine, hinput, hword]
        | error rejection =>
            simp [perform, BadLine, hinput, hword, eq_comm]
  | readByte =>
      cases input with
      | nil =>
          simp [perform]
      | cons b rest =>
          simp [perform]
  | _ =>
      simp [perform]

/-- Only an instruction that reads notices the end of the input. -/
theorem perform_eq_endOfInput :
    perform pc s input i = .endOfInput ↔
      (i = .readNumber ∨ i = .readByte) ∧ input = [] := by
  cases i with
  | readNumber =>
      by_cases hinput : input = []
      · simp [perform, hinput]
      · cases hword : lineWord (input.take (lineLength input)) with
        | ok w =>
            simp [perform, hinput, hword]
        | error rejection =>
            simp [perform, hinput, hword]
  | readByte =>
      cases input with
      | nil =>
          simp [perform]
      | cons b rest =>
          simp [perform]
  | _ =>
      simp [perform]

/-- An instruction that reads has no obstacle. -/
theorem not_obstructed_of_reads
    (h : i = .readNumber ∨ i = .readByte) :
    ¬ OutOfBounds s i ∧ ¬ Overflows s i := by
  rcases h with rfl | rfl
  · simp [OutOfBounds, Overflows, SameElement, offsets]
  · simp [OutOfBounds, Overflows, SameElement, offsets]

theorem family_badLine_eq_input
    {line : List UInt8} {rejection : NumberLine.Rejection} :
    (Fault.badLine line rejection).family = .input ↔ ∀ count, rejection ≠ .tooLong count := by
  cases rejection <;> simp [Fault.family]

theorem family_badLine_eq_conversion
    {line : List UInt8} {rejection : NumberLine.Rejection} :
    (Fault.badLine line rejection).family = .conversion ↔ ∃ count, rejection = .tooLong count := by
  cases rejection <;> simp [Fault.family]

/-- A line that holds no word is the fault of the input, or too long to be converted. -/
theorem family_badLine
    {line : List UInt8} {rejection : NumberLine.Rejection} {family : FaultFamily}
    (h : (Fault.badLine line rejection).family = family) :
    family = .input ∨ family = .conversion := by
  cases rejection <;> simp [Fault.family] at h <;> simp [← h]

/-- The families of faults by the table. -/
theorem execute_fails_iff
    {family : FaultFamily} :
    (∃ (f : Fault) (rest : List UInt8),
        execute pc s input i = .failed f rest ∧ f.family = family) ↔
      (OutOfBounds s i ∧ family = .bounds) ∨
      (¬ OutOfBounds s i ∧ Overflows s i ∧ family = .arithmetic) ∨
      (i = .readNumber ∧ ∃ rejection : NumberLine.Rejection,
        BadLine input rejection ∧ (Fault.badLine [] rejection).family = family) := by
  have hreads : i = .readNumber → ¬ OutOfBounds s i ∧ ¬ Overflows s i :=
    fun h => not_obstructed_of_reads (Or.inl h)
  rcases execute_cases pc s input i with
    ⟨hbounds, f, hexecute, hfamily⟩ | ⟨hbounds, hoverflows, f, hexecute, hfamily⟩ |
    ⟨hbounds, hfits, hexecute⟩
  · constructor
    · rintro ⟨g, rest, hg, rfl⟩
      rw [hexecute] at hg
      cases hg
      exact Or.inl ⟨hbounds, hfamily⟩
    · rintro (⟨-, rfl⟩ | ⟨hnot, -, -⟩ | ⟨hread, -⟩)
      · exact ⟨f, input, hexecute, hfamily⟩
      · exact absurd hbounds hnot
      · exact absurd hbounds (hreads hread).1
  · constructor
    · rintro ⟨g, rest, hg, rfl⟩
      rw [hexecute] at hg
      cases hg
      exact Or.inr (Or.inl ⟨hbounds, hoverflows, hfamily⟩)
    · rintro (⟨hyes, -⟩ | ⟨-, -, rfl⟩ | ⟨hread, -⟩)
      · exact absurd hyes hbounds
      · exact ⟨f, input, hexecute, hfamily⟩
      · exact absurd hoverflows (hreads hread).2
  · rw [hexecute]
    constructor
    · rintro ⟨f, rest, hf, rfl⟩
      obtain ⟨hread, rejection, hbad, rfl, -⟩ := perform_eq_failed.1 hf
      refine Or.inr (Or.inr ⟨hread, rejection, hbad, ?_⟩)
      cases rejection <;> rfl
    · rintro (⟨hyes, -⟩ | ⟨-, hyes, -⟩ | ⟨hread, rejection, hbad, rfl⟩)
      · exact absurd hyes hbounds
      · exact absurd hyes hfits
      · refine ⟨_, _, perform_eq_failed.2 ⟨hread, rejection, hbad, rfl, rfl⟩, ?_⟩
        cases rejection <;> rfl

theorem execute_eq_endOfInput :
    execute pc s input i = .endOfInput ↔
      (i = .readNumber ∨ i = .readByte) ∧ input = [] := by
  rcases execute_cases pc s input i with
    ⟨hbounds, f, hexecute, -⟩ | ⟨-, hoverflows, f, hexecute, -⟩ | ⟨-, -, hexecute⟩
  · rw [hexecute]
    constructor
    · intro h
      cases h
    · rintro ⟨hreads, -⟩
      exact absurd hbounds (not_obstructed_of_reads hreads).1
  · rw [hexecute]
    constructor
    · intro h
      cases h
    · rintro ⟨hreads, -⟩
      exact absurd hoverflows (not_obstructed_of_reads hreads).2
  · rw [hexecute, perform_eq_endOfInput]

/-! ## Steps -/

theorem Outcome.Follows.fails_iff
    {o : Outcome}
    (h : o.Follows m c i)
    {family : FaultFamily} :
    m.Fails c family ↔
      ∃ (f : Fault) (rest : List UInt8), o = .failed f rest ∧ f.family = family := by
  obtain ⟨c₁, hstep, -, -⟩ := h
  constructor
  · rintro ⟨e, m', c', hfails, hfamily⟩
    rw [hstep] at hfails
    cases o with
    | next s pc output rest =>
        cases hfails
    | endOfInput =>
        cases hfails
    | failed f rest =>
        cases hfails
        exact ⟨f, rest, rfl, hfamily⟩
  · rintro ⟨f, rest, rfl, hfamily⟩
    exact ⟨_, _, _, hstep, hfamily⟩

theorem Outcome.Follows.stops_iff
    {o : Outcome}
    (h : o.Follows m c i) :
    (m.step c).1 = .stopped .endOfInput ↔ o = .endOfInput := by
  obtain ⟨c₁, hstep, -, -⟩ := h
  rw [hstep]
  cases o <;> simp [Outcome.result]

end TopFirst

open TopFirst

/-- A step of a machine does what the table says of the stack read from the top, if the stack holds
words and the output accepts what is written.  It fails with a fault of bounds if and only if an
operand names no element or two summands are one element, otherwise with a fault of arithmetic if
and only if the result does not fit, and otherwise with the fault of a line if and only if it reads
a line that holds no word. -/
theorem Machine.step_follows_table
    {m : Machine} {c : Console} {i : Instruction}
    (hi : m.program[m.pc]? = some i)
    (hstack : ∀ n ∈ m.stack, 0 ≤ n ∧ n < 2 ^ 64)
    (hopen : c.budget = none) :
    (execute m.pc (topFirst m.stack) c.input i).Follows m c i ∧
      (m.Fails c .bounds ↔ OutOfBounds (topFirst m.stack) i) ∧
      (m.Fails c .arithmetic ↔
        ¬ OutOfBounds (topFirst m.stack) i ∧ Overflows (topFirst m.stack) i) ∧
      (m.Fails c .input ↔
        i = .readNumber ∧ ∃ rejection : NumberLine.Rejection,
          BadLine c.input rejection ∧ ∀ count, rejection ≠ .tooLong count) ∧
      (m.Fails c .conversion ↔
        i = .readNumber ∧ ∃ count, BadLine c.input (.tooLong count)) ∧
      ¬ m.Fails c .output ∧
      ((m.step c).1 = .stopped .endOfInput ↔
        (i = .readNumber ∨ i = .readByte) ∧ c.input = []) := by
  have hs : m.stack = bottomFirst (topFirst m.stack) := (bottomFirst_topFirst hstack).symm
  have hfollows := follows_execute hi hs hopen
  refine ⟨hfollows, ?_, ?_, ?_, ?_, ?_, ?_⟩
  · rw [hfollows.fails_iff, execute_fails_iff]
    constructor
    · rintro (⟨hbounds, -⟩ | ⟨-, -, hfamily⟩ | ⟨-, rejection, -, hfamily⟩)
      · exact hbounds
      · cases hfamily
      · rcases family_badLine hfamily with hother | hother <;> cases hother
    · intro hbounds
      exact Or.inl ⟨hbounds, rfl⟩
  · rw [hfollows.fails_iff, execute_fails_iff]
    constructor
    · rintro (⟨-, hfamily⟩ | ⟨hbounds, hoverflows, -⟩ | ⟨-, rejection, -, hfamily⟩)
      · cases hfamily
      · exact ⟨hbounds, hoverflows⟩
      · rcases family_badLine hfamily with hother | hother <;> cases hother
    · rintro ⟨hbounds, hoverflows⟩
      exact Or.inr (Or.inl ⟨hbounds, hoverflows, rfl⟩)
  · rw [hfollows.fails_iff, execute_fails_iff]
    simp only [family_badLine_eq_input, reduceCtorEq, and_false, false_or]
  · rw [hfollows.fails_iff, execute_fails_iff]
    simp only [family_badLine_eq_conversion, reduceCtorEq, and_false, false_or]
    constructor
    · rintro ⟨hread, rejection, hbad, count, rfl⟩
      exact ⟨hread, count, hbad⟩
    · rintro ⟨hread, count, hbad⟩
      exact ⟨hread, _, hbad, count, rfl⟩
  · rw [hfollows.fails_iff, execute_fails_iff]
    rintro (⟨-, hfamily⟩ | ⟨-, -, hfamily⟩ | ⟨-, rejection, -, hfamily⟩)
    · cases hfamily
    · cases hfamily
    · rcases family_badLine hfamily with hother | hother <;> cases hother
  · rw [hfollows.stops_iff, execute_eq_endOfInput]

/-- The top and the element two below it are added, and the element between them stays. -/
theorem Machine.step_follows_table_add :
    let m : Machine := ⟨#[.jump 1, .add 0 2], #[5, 7, 9], 1, 4, some 5, true, #[]⟩
    let c : Console := .ofInput [0x31]
    m.program[m.pc]? = some (.add 0 2) ∧ (∀ n ∈ m.stack, 0 ≤ n ∧ n < 2 ^ 64) ∧
      c.budget = none ∧
      (∃ c' : Console,
        m.step c =
          (.advanced,
            ⟨m.program, #[7, 14], 2, 5, some 5, true, #[⟨1, .add 0 2, #[5, 7, 9]⟩]⟩,
            c') ∧
        c'.input = [0x31] ∧ c'.written = []) ∧
      ¬ m.Fails c .bounds ∧ ¬ m.Fails c .arithmetic := by
  intro m c
  have hi : m.program[m.pc]? = some (.add 0 2) := rfl
  have hstack : ∀ n ∈ m.stack, 0 ≤ n ∧ n < 2 ^ 64 := by decide
  have hopen : c.budget = none := rfl
  obtain ⟨hfollows, hbounds, harithmetic, -⟩ := step_follows_table hi hstack hopen
  refine ⟨hi, hstack, hopen, hfollows, ?_, ?_⟩
  · rw [hbounds]
    decide
  · rw [harithmetic]
    decide

end StackMachine
