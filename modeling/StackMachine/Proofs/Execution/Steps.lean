import StackMachine.Machine.Run

/-!
# What a step and a run can do

Every proof about execution goes through this module instead of through the definitions of a step
and of the run loop.

* `emit_cases` lists the outcomes of writing, and `Machine.step_cases` those of a step;
  `Machine.exists_done_of_step` and `Machine.exists_trace_of_unexecuted` are what follows for a step
  with a given result.
* `emit_of_open`, `accepted_of_emit` and `console_of_emit` say what an instruction that writes does
  to the console.
* `Machine.Advances` relates a machine to what a number of executed steps makes of it, each of them
  below the limit on steps.
* `Machine.loop_eq_some_iff` takes a run apart: some executed steps, and one look at the machine
  that ends it.
-/

namespace StackMachine

/-- The outcomes of an instruction that writes. -/
theorem emit_cases
    (stack : Stack) (c : Console) (bytes : Except Fault (List UInt8)) :
    (∃ f : Fault, bytes = .error f ∧ emit stack c bytes = (.fault f, c)) ∨
    ∃ (written : List UInt8) (c' : Console), bytes = .ok written ∧
      ((c.write written = (true, c') ∧ emit stack c bytes = (.done stack none, c')) ∨
        (c.write written = (false, c') ∧ emit stack c bytes = (.fault .outputClosed, c'))) := by
  cases bytes with
  | error f =>
      exact Or.inl ⟨f, rfl, rfl⟩
  | ok written =>
      refine Or.inr ⟨written, (c.write written).2, rfl, ?_⟩
      rcases hwrite : c.write written with ⟨- | -, c'⟩
      · exact Or.inr ⟨rfl, by rw [emit, hwrite]⟩
      · exact Or.inl ⟨rfl, by rw [emit, hwrite]⟩

theorem emit_of_open
    {c : Console}
    (hopen : c.budget = none)
    (stack : Stack) (bytes : List UInt8) :
    emit stack c (.ok bytes) = (.done stack none, c.accept bytes) := by
  simp only [emit, Console.write, hopen]

theorem written_accept
    (c : Console) (bytes : List UInt8) :
    (c.accept bytes).written = c.written ++ bytes := by
  simp [Console.written, Console.accept]

/-- An instruction that writes is executed if its write is accepted, and leaves the stack alone. -/
theorem accepted_of_emit
    {stack stack' : Stack} {c c' : Console} {target : Option Nat}
    {bytes : Except Fault (List UInt8)}
    (h : emit stack c bytes = (.done stack' target, c')) :
    stack' = stack ∧
      ∃ written : List UInt8, bytes = .ok written ∧ c.write written = (true, c') := by
  rcases emit_cases stack c bytes with
    ⟨f, -, hemit⟩ | ⟨written, c₁, hbytes, ⟨hwrite, hemit⟩ | ⟨-, hemit⟩⟩
  · rw [hemit] at h
    cases h
  · rw [hemit] at h
    cases h
    exact ⟨rfl, written, hbytes, hwrite⟩
  · rw [hemit] at h
    cases h

/-- An instruction that writes does nothing to the console but the write. -/
theorem console_of_emit
    {stack : Stack} {c c' : Console} {effect : Effect} {bytes : Except Fault (List UInt8)}
    (h : emit stack c bytes = (effect, c')) :
    c' = c ∨ ∃ written : List UInt8, c' = (c.write written).2 := by
  cases bytes with
  | error f =>
      cases h
      exact Or.inl rfl
  | ok written =>
      refine Or.inr ⟨written, ?_⟩
      rcases hwrite : c.write written with ⟨- | -, c₁⟩
      · rw [emit, hwrite] at h
        cases h
        rfl
      · rw [emit, hwrite] at h
        cases h
        rfl

namespace Machine

variable {m m' : Machine} {c c' : Console} {i : Instruction}

@[simp] theorem record_program :
    (m.record i).program = m.program := by
  rw [record_eq]

@[simp] theorem record_stack :
    (m.record i).stack = m.stack := by
  rw [record_eq]

@[simp] theorem record_pc :
    (m.record i).pc = m.pc := by
  rw [record_eq]

@[simp] theorem record_steps :
    (m.record i).steps = m.steps := by
  rw [record_eq]

@[simp] theorem record_stepLimit :
    (m.record i).stepLimit = m.stepLimit := by
  rw [record_eq]

@[simp] theorem record_tracing :
    (m.record i).tracing = m.tracing := by
  rw [record_eq]

/-! ## One step -/

theorem step_of_halted
    (h : m.program[m.pc]? = none) :
    m.step c = (.stopped .programEnd, m, c) := by
  simp only [step, h]

theorem step_of_done
    {stack : Stack} {target : Option Nat}
    (hi : m.program[m.pc]? = some i)
    (h : i.execute m.stack c = (.done stack target, c')) :
    m.step c =
      (.advanced,
        { m.record i with
          stack := stack
          pc := target.getD (m.pc + 1)
          steps := m.steps + 1 },
        c') := by
  simp [step, hi, h]

theorem step_of_endOfInput
    (hi : m.program[m.pc]? = some i)
    (h : i.execute m.stack c = (.endOfInput, c')) :
    m.step c = (.stopped .endOfInput, m.record i, c') := by
  simp [step, hi, h]

theorem step_of_fault
    {f : Fault}
    (hi : m.program[m.pc]? = some i)
    (h : i.execute m.stack c = (.fault f, c')) :
    m.step c = (.failed ⟨m.pc, i, f⟩, m.record i, c') := by
  simp [step, hi, h]

/-- The outcomes of a step. -/
theorem step_cases
    (m : Machine) (c : Console) :
    (m.program[m.pc]? = none ∧ m.step c = (.stopped .programEnd, m, c)) ∨
    ∃ i : Instruction, m.program[m.pc]? = some i ∧
      ((∃ (stack : Stack) (target : Option Nat) (c' : Console),
          i.execute m.stack c = (.done stack target, c') ∧
          m.step c =
            (.advanced,
              { m.record i with
                stack := stack
                pc := target.getD (m.pc + 1)
                steps := m.steps + 1 },
              c')) ∨
        (∃ c' : Console,
          i.execute m.stack c = (.endOfInput, c') ∧
          m.step c = (.stopped .endOfInput, m.record i, c')) ∨
        (∃ (f : Fault) (c' : Console),
          i.execute m.stack c = (.fault f, c') ∧
          m.step c = (.failed ⟨m.pc, i, f⟩, m.record i, c'))) := by
  cases hi : m.program[m.pc]? with
  | none =>
      exact Or.inl ⟨rfl, step_of_halted hi⟩
  | some i =>
      refine Or.inr ⟨i, rfl, ?_⟩
      rcases h : i.execute m.stack c with ⟨effect, c'⟩
      cases effect with
      | done stack target =>
          exact Or.inl ⟨stack, target, c', rfl, step_of_done hi h⟩
      | endOfInput =>
          exact Or.inr (Or.inl ⟨c', rfl, step_of_endOfInput hi h⟩)
      | fault f =>
          exact Or.inr (Or.inr ⟨f, c', rfl, step_of_fault hi h⟩)

/-- A step is executed if its instruction is, and then the machine is where the effect says. -/
theorem exists_done_of_step
    (h : m.step c = (.advanced, m', c')) :
    ∃ (i : Instruction) (stack : Stack) (target : Option Nat),
      m.program[m.pc]? = some i ∧ i.execute m.stack c = (.done stack target, c') ∧
        m' =
          { m.record i with
            stack := stack
            pc := target.getD (m.pc + 1)
            steps := m.steps + 1 } := by
  rcases step_cases m c with
    ⟨-, hstep⟩ | ⟨i, hi, ⟨stack, target, c₁, hexecute, hstep⟩ | ⟨c₁, -, hstep⟩ | ⟨f, c₁, -, hstep⟩⟩
  · rw [hstep] at h
    cases h
  · rw [hstep] at h
    cases h
    exact ⟨i, stack, target, hi, hexecute, rfl⟩
  · rw [hstep] at h
    cases h
  · rw [hstep] at h
    cases h

/-- A step that is not executed leaves the machine as it was, except for the trace. -/
theorem exists_trace_of_unexecuted
    {s : StepResult}
    (h : m.step c = (s, m', c'))
    (hs : s ≠ .advanced) :
    ∃ trace : Array Attempt, m' = { m with trace := trace } := by
  rcases step_cases m c with
    ⟨-, hstep⟩ | ⟨i, -, ⟨stack, target, c₁, -, hstep⟩ | ⟨c₁, -, hstep⟩ | ⟨f, c₁, -, hstep⟩⟩
  · rw [hstep] at h
    cases h
    exact ⟨m.trace, rfl⟩
  · rw [hstep] at h
    cases h
    exact absurd rfl hs
  · rw [hstep] at h
    cases h
    exact ⟨_, record_eq m i⟩
  · rw [hstep] at h
    cases h
    exact ⟨_, record_eq m i⟩

/-! ## Executed steps -/

/-- From `m` and `c`, `n` executed steps lead to `m'` and `c'`, and before each of them the limit
on steps is not reached. -/
inductive Advances : Nat → Machine → Console → Machine → Console → Prop
  | refl
      (m : Machine) (c : Console) :
      Advances 0 m c m c
  | step
      {n : Nat} {m m₁ m' : Machine} {c c₁ c' : Console}
      (hlimit : m.limitReached = false)
      (hstep : m.step c = (.advanced, m₁, c₁))
      (rest : Advances n m₁ c₁ m' c') :
      Advances (n + 1) m c m' c'

/-- An executed step counts, and leaves the program and the settings of the machine alone. -/
theorem step_advanced
    (h : m.step c = (.advanced, m', c')) :
    m'.steps = m.steps + 1 ∧ m'.program = m.program ∧ m'.stepLimit = m.stepLimit ∧
      m'.tracing = m.tracing := by
  obtain ⟨i, stack, target, -, -, rfl⟩ := exists_done_of_step h
  simp

/-- The steps are counted, and the program and the settings of the machine stay. -/
theorem Advances.counts
    {n : Nat}
    (h : Advances n m c m' c') :
    m'.steps = m.steps + n ∧ m'.program = m.program ∧ m'.stepLimit = m.stepLimit ∧
      m'.tracing = m.tracing := by
  induction h with
  | refl m c =>
      simp
  | step hlimit hstep rest ih =>
      obtain ⟨hsteps, hprogram, hstepLimit, htracing⟩ := step_advanced hstep
      obtain ⟨ihsteps, ihprogram, ihstepLimit, ihtracing⟩ := ih
      refine ⟨?_, ?_, ?_, ?_⟩
      · omega
      · rw [ihprogram, hprogram]
      · rw [ihstepLimit, hstepLimit]
      · rw [ihtracing, htracing]

/-! ## Runs -/

/-- A run ends at `m` and `c` with the result `r`, which leaves `m'` and `c'`. -/
inductive Ends (m : Machine) (c : Console) : RunResult → Machine → Console → Prop
  | limit
      (hlimit : m.limitReached = true) :
      Ends m c (.ok .stepLimit) m c
  | stopped
      {reason : Stop} {m' : Machine} {c' : Console}
      (hlimit : m.limitReached = false)
      (hstep : m.step c = (.stopped reason, m', c')) :
      Ends m c (.ok reason) m' c'
  | failed
      {e : Failure} {m' : Machine} {c' : Console}
      (hlimit : m.limitReached = false)
      (hstep : m.step c = (.failed e, m', c')) :
      Ends m c (.error e) m' c'

/-- A run is some executed steps and an end, and it attempts one step more than it executes. -/
theorem loop_eq_some_iff
    {fuel : Nat} {r : RunResult} :
    loop fuel m c = some (r, m', c') ↔
      ∃ (n : Nat) (m₁ : Machine) (c₁ : Console),
        n < fuel ∧ Advances n m c m₁ c₁ ∧ Ends m₁ c₁ r m' c' := by
  constructor
  · intro h
    -- Every attempt takes a unit of fuel, the last one too, although it executes no step.
    induction fuel generalizing m c with
    | zero =>
        simp [loop] at h
    | succ fuel ih =>
        rw [loop] at h
        split at h
        · next hlimit =>
            cases h
            exact ⟨0, _, _, by omega, .refl _ _, .limit hlimit⟩
        · next hlimit =>
            rw [Bool.not_eq_true] at hlimit
            split at h
            · next m₂ c₂ hstep =>
                obtain ⟨n, m₁, c₁, hn, hadvances, hends⟩ := ih h
                exact ⟨n + 1, m₁, c₁, by omega, .step hlimit hstep hadvances, hends⟩
            · next reason m₂ c₂ hstep =>
                cases h
                exact ⟨0, m, c, by omega, .refl m c, .stopped hlimit hstep⟩
            · next e m₂ c₂ hstep =>
                cases h
                exact ⟨0, m, c, by omega, .refl m c, .failed hlimit hstep⟩
  · rintro ⟨n, m₁, c₁, hn, hadvances, hends⟩
    induction hadvances generalizing fuel with
    | refl m c =>
        obtain ⟨k, rfl⟩ := Nat.exists_eq_succ_of_ne_zero (show fuel ≠ 0 by omega)
        cases hends with
        | limit hlimit => simp [loop, hlimit]
        | stopped hlimit hstep => simp [loop, hlimit, hstep]
        | failed hlimit hstep => simp [loop, hlimit, hstep]
    | step hlimit hstep rest ih =>
        obtain ⟨k, rfl⟩ := Nat.exists_eq_succ_of_ne_zero (show fuel ≠ 0 by omega)
        have hrest := ih (show _ < k by omega) hends
        simp [loop, hlimit, hstep, hrest]

end Machine
end StackMachine
