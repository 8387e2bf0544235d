import StackMachine.Proofs.Execution.Steps

/-!
# Whole runs, and two runs side by side

A run is looked at here without its fuel: either it ends, with one result, or it executes steps for
ever.  On its way the trace only grows.  Two runs are compared through a relation between machines
with their consoles that executing an instruction preserves.

* `Machine.effect_cases_of_step`: what a step comes to is what the effect of its instruction says.
* `Machine.Advances.runs_iff`: a run goes on from wherever its executed steps have led.
* `Machine.runs_or_runsForever`: what does not end executes any number of steps.
* `Machine.StepSimulation` is a relation that steps preserve, except when the first machine's step
  comes to one of the exempted results; `Machine.StepSimulation.advances` and
  `Machine.StepSimulation.runs` carry it over to runs.
* `Machine.Simulation` is one between machines with the same program, which the effects of
  instructions preserve; `Machine.Simulation.attempts` and `Machine.Simulation.endsAlike` are what
  follows for attempted steps and for ends of runs.
-/

namespace StackMachine

/-- What a step with the effect comes to. -/
def Effect.result (pc : Nat) (i : Instruction) : Effect → StepResult
  | .done _ _ => .advanced
  | .endOfInput => .stopped .endOfInput
  | .fault f => .failed ⟨pc, i, f⟩

/-- The last step of a run with the result, unless the limit on steps has ended the run. -/
def RunResult.lastStep : RunResult → StepResult
  | .ok reason => .stopped reason
  | .error e => .failed e

/-- Two computations come to the same result, or both fail, with errors that are related. -/
inductive ResultsUpTo {ε α : Type} (F : ε → ε → Prop) : Except ε α → Except ε α → Prop
  | ok
      (a : α) :
      ResultsUpTo F (.ok a) (.ok a)
  | error
      {e e' : ε}
      (h : F e e') :
      ResultsUpTo F (.error e) (.error e')

theorem ResultsUpTo.eq
    {ε α : Type} {x y : Except ε α}
    (h : ResultsUpTo Eq x y) :
    x = y := by
  cases h with
  | ok a => rfl
  | error h => rw [h]

theorem ResultsUpTo.symm
    {ε α : Type} {F : ε → ε → Prop} {x y : Except ε α}
    (h : ResultsUpTo F x y)
    (hF : ∀ e e', F e e' → F e' e) :
    ResultsUpTo F y x := by
  cases h with
  | ok a => exact .ok a
  | error h => exact .error (hF _ _ h)

/-- Two steps come to the same, or both fail, with failures that are related. -/
inductive StepsUpTo (F : Failure → Failure → Prop) : StepResult → StepResult → Prop
  | advanced :
      StepsUpTo F .advanced .advanced
  | stopped
      (reason : Stop) :
      StepsUpTo F (.stopped reason) (.stopped reason)
  | failed
      {e e' : Failure}
      (h : F e e') :
      StepsUpTo F (.failed e) (.failed e')

theorem StepsUpTo.refl
    (s : StepResult) :
    StepsUpTo Eq s s := by
  cases s with
  | advanced => exact .advanced
  | stopped reason => exact .stopped reason
  | failed e => exact .failed rfl

namespace Machine

variable {m m' m₁ n : Machine} {c c' c₁ d : Console} {i : Instruction} {r : RunResult} {k l : Nat}

/-! ## Steps -/

/-- The machine that a step with the effect leaves. -/
def after (m : Machine) (i : Instruction) : Effect → Machine
  | .done stack target =>
      { m.record i with
        stack := stack
        pc := target.getD (m.pc + 1)
        steps := m.steps + 1 }
  | .endOfInput | .fault _ => m.record i

theorem step_of_execute
    {effect : Effect}
    (hi : m.program[m.pc]? = some i)
    (h : i.execute m.stack c = (effect, c')) :
    m.step c = (effect.result m.pc i, m.after i effect, c') := by
  cases effect with
  | done stack target =>
      exact step_of_done hi h
  | endOfInput =>
      exact step_of_endOfInput hi h
  | fault f =>
      exact step_of_fault hi h

/-- A step finds the end of the program, or comes to what the effect of its instruction does. -/
theorem effect_cases_of_step
    {s : StepResult}
    (h : m.step c = (s, m', c')) :
    (m.program[m.pc]? = none ∧ s = .stopped .programEnd ∧ m' = m ∧ c' = c) ∨
      ∃ (i : Instruction) (effect : Effect),
        m.program[m.pc]? = some i ∧ i.execute m.stack c = (effect, c') ∧
          s = effect.result m.pc i ∧ m' = m.after i effect := by
  cases hi : m.program[m.pc]? with
  | none =>
      rw [step_of_halted hi] at h
      cases h
      exact Or.inl ⟨rfl, rfl, rfl, rfl⟩
  | some i =>
      rcases heffect : i.execute m.stack c with ⟨effect, c₁⟩
      rw [step_of_execute hi heffect] at h
      cases h
      exact Or.inr ⟨i, effect, rfl, heffect, rfl, rfl⟩

/-- The limit on steps is none of a step's concerns. -/
theorem ne_stepLimit_of_step
    {reason : Stop}
    (h : m.step c = (.stopped reason, m', c')) :
    reason ≠ .stepLimit := by
  rintro rfl
  obtain ⟨-, hs, -, -⟩ | ⟨i, effect, -, -, hs, -⟩ := effect_cases_of_step h
  · cases hs
  · cases effect <;> cases hs

/-! ## Executed steps -/

theorem Advances.trans
    (h : Advances k m c m₁ c₁)
    (rest : Advances l m₁ c₁ m' c') :
    Advances (k + l) m c m' c' := by
  induction h with
  | refl m c =>
      rwa [Nat.zero_add]
  | step hlimit hstep _ ih =>
      rw [Nat.add_right_comm]
      exact .step hlimit hstep (ih rest)

theorem Advances.split
    (h : Advances (k + l) m c m' c') :
    ∃ (m₁ : Machine) (c₁ : Console), Advances k m c m₁ c₁ ∧ Advances l m₁ c₁ m' c' := by
  induction k generalizing m c with
  | zero =>
      rw [Nat.zero_add] at h
      exact ⟨m, c, .refl m c, h⟩
  | succ k ih =>
      rw [Nat.add_right_comm] at h
      cases h with
      | step hlimit hstep rest =>
          obtain ⟨m₁, c₁, hk, hl⟩ := ih rest
          exact ⟨m₁, c₁, .step hlimit hstep hk, hl⟩

/-- Executed steps are none, or the last of them comes after the others. -/
theorem Advances.last_cases
    (h : Advances k m c m' c') :
    (k = 0 ∧ m' = m ∧ c' = c) ∨
      ∃ (l : Nat) (m₁ : Machine) (c₁ : Console),
        k = l + 1 ∧ Advances l m c m₁ c₁ ∧ m₁.step c₁ = (.advanced, m', c') := by
  cases k with
  | zero =>
      cases h
      exact Or.inl ⟨rfl, rfl, rfl⟩
  | succ l =>
      obtain ⟨m₁, c₁, hbefore, hlast⟩ := h.split
      cases hlast with
      | step _ hstep rest =>
          cases rest
          exact Or.inr ⟨l, m₁, c₁, rfl, hbefore, hstep⟩

theorem Advances.unique
    (h : Advances k m c m₁ c₁)
    (h' : Advances k m c m' c') :
    m₁ = m' ∧ c₁ = c' := by
  induction h with
  | refl m c =>
      cases h'
      exact ⟨rfl, rfl⟩
  | step _ hstep _ ih =>
      cases h' with
      | step _ hstep' hrest =>
          rw [hstep] at hstep'
          cases hstep'
          exact ih hrest

/-- Executed steps use up one unit of fuel each. -/
theorem loop_add
    (h : Advances k m c m₁ c₁)
    (fuel : Nat) :
    loop (k + fuel) m c = loop fuel m₁ c₁ := by
  induction h with
  | refl m c =>
      rw [Nat.zero_add]
  | step hlimit hstep _ ih =>
      rw [Nat.add_right_comm, loop]
      simp only [hlimit, hstep, Bool.false_eq_true, ↓reduceIte]
      exact ih

/-- Fuel runs out only while steps are executed. -/
theorem loop_eq_none_iff
    {fuel : Nat} :
    loop fuel m c = none ↔ ∃ (m' : Machine) (c' : Console), Advances fuel m c m' c' := by
  constructor
  · intro h
    induction fuel generalizing m c with
    | zero =>
        exact ⟨m, c, .refl m c⟩
    | succ fuel ih =>
        rw [loop] at h
        split at h
        · cases h
        · next hlimit =>
            rw [Bool.not_eq_true] at hlimit
            split at h
            · next m₁ c₁ hstep =>
                obtain ⟨m', c', hrest⟩ := ih h
                exact ⟨m', c', .step hlimit hstep hrest⟩
            · cases h
            · cases h
  · rintro ⟨m', c', h⟩
    exact loop_add h 0

/-! ## Attempted steps -/

/-- Steps one after the other, with what they come to.  The limit on steps is not looked at, and a
step that is not executed does not end them. -/
inductive Attempts : List StepResult → Machine → Console → Machine → Console → Prop
  | nil
      (m : Machine) (c : Console) :
      Attempts [] m c m c
  | cons
      {s : StepResult} {results : List StepResult} {m m₁ m' : Machine} {c c₁ c' : Console}
      (hstep : m.step c = (s, m₁, c₁))
      (rest : Attempts results m₁ c₁ m' c') :
      Attempts (s :: results) m c m' c'

/-! ## Runs without fuel -/

/-- A run ends with the result `r` and leaves `m'` and `c'`. -/
def Runs (m : Machine) (c : Console) (r : RunResult) (m' : Machine) (c' : Console) : Prop :=
  ∃ fuel : Nat, m.run fuel c = some (r, m', c')

theorem run_eq_some_iff
    {fuel : Nat} :
    m.run fuel c = some (r, m', c') ↔
      ∃ c₁ : Console, loop fuel m c = some (r, m', c₁) ∧ c' = c₁.flush := by
  simp only [run, Option.map_eq_some_iff]
  constructor
  · rintro ⟨⟨r₁, m₁, c₁⟩, hloop, heq⟩
    cases heq
    exact ⟨c₁, hloop, rfl⟩
  · rintro ⟨c₁, hloop, rfl⟩
    exact ⟨_, hloop, rfl⟩

/-- A run is some executed steps and an end, after which the output is flushed. -/
theorem runs_iff :
    m.Runs c r m' c' ↔
      ∃ (k : Nat) (m₁ : Machine) (c₁ c₂ : Console),
        Advances k m c m₁ c₁ ∧ Ends m₁ c₁ r m' c₂ ∧ c' = c₂.flush := by
  constructor
  · rintro ⟨fuel, h⟩
    obtain ⟨c₂, hloop, hflush⟩ := run_eq_some_iff.1 h
    obtain ⟨k, m₁, c₁, -, hadvances, hends⟩ := loop_eq_some_iff.1 hloop
    exact ⟨k, m₁, c₁, c₂, hadvances, hends, hflush⟩
  · rintro ⟨k, m₁, c₁, c₂, hadvances, hends, hflush⟩
    have hloop := loop_eq_some_iff.2 ⟨k, m₁, c₁, Nat.lt_succ_self k, hadvances, hends⟩
    exact ⟨k + 1, run_eq_some_iff.2 ⟨c₂, hloop, hflush⟩⟩

theorem Runs.unique
    {r' : RunResult}
    (h : m.Runs c r m₁ c₁)
    (h' : m.Runs c r' m' c') :
    r = r' ∧ m₁ = m' ∧ c₁ = c' := by
  obtain ⟨fuel, hrun⟩ := h
  obtain ⟨fuel', hrun'⟩ := h'
  obtain ⟨c₂, hloop, rfl⟩ := run_eq_some_iff.1 hrun
  obtain ⟨c₃, hloop', rfl⟩ := run_eq_some_iff.1 hrun'
  have hmore := loop_eq_of_le (Nat.le_max_left fuel fuel') hloop
  rw [loop_eq_of_le (Nat.le_max_right fuel fuel') hloop'] at hmore
  cases hmore
  exact ⟨rfl, rfl, rfl⟩

/-- A run goes on from where its executed steps have led. -/
theorem Advances.runs_iff
    (h : Advances k m c m₁ c₁) :
    m.Runs c r m' c' ↔ m₁.Runs c₁ r m' c' := by
  have hadd : ∀ fuel, m.run (k + fuel) c = m₁.run fuel c₁ := by
    intro fuel
    rw [run, run, loop_add h]
  constructor
  · rintro ⟨fuel, hrun⟩
    obtain ⟨c₂, hloop, hflush⟩ := run_eq_some_iff.1 hrun
    have hmore := loop_eq_of_le (Nat.le_add_left fuel k) hloop
    exact ⟨fuel, by rw [← hadd, run_eq_some_iff]; exact ⟨c₂, hmore, hflush⟩⟩
  · rintro ⟨fuel, hrun⟩
    exact ⟨k + fuel, by rw [hadd, hrun]⟩

/-- A run executes any number of steps. -/
def RunsForever (m : Machine) (c : Console) : Prop :=
  ∀ k : Nat, ∃ (m' : Machine) (c' : Console), Advances k m c m' c'

theorem RunsForever.not_runs
    (h : m.RunsForever c) :
    ¬ m.Runs c r m' c' := by
  rintro ⟨fuel, hrun⟩
  obtain ⟨c₁, hloop, -⟩ := run_eq_some_iff.1 hrun
  rw [loop_eq_none_iff.2 (h fuel)] at hloop
  cases hloop

theorem runs_or_runsForever
    (m : Machine) (c : Console) :
    (∃ r m' c', m.Runs c r m' c') ∨ m.RunsForever c := by
  by_cases hends : ∃ r m' c', m.Runs c r m' c'
  · exact Or.inl hends
  · refine Or.inr fun k => loop_eq_none_iff.1 (Option.eq_none_iff_forall_ne_some.2 ?_)
    rintro ⟨r, m', c'⟩ hloop
    exact hends ⟨r, m', c'.flush, k, run_eq_some_iff.2 ⟨c', hloop, rfl⟩⟩

/-! ## Traces -/

/-- What the trace gains when the instruction is attempted. -/
def attempt (m : Machine) (i : Instruction) : Array Attempt :=
  if m.tracing then #[⟨m.pc, i, m.stack⟩] else #[]

theorem record_eq_append
    (m : Machine) (i : Instruction) :
    m.record i = { m with trace := m.trace ++ m.attempt i } := by
  rw [record_eq, attempt]
  cases m.tracing <;> simp

theorem trace_after
    (m : Machine) (i : Instruction) (effect : Effect) :
    (m.after i effect).trace = m.trace ++ m.attempt i := by
  cases effect <;> rw [after, record_eq_append]

theorem trace_of_step
    {s : StepResult}
    (hi : m.program[m.pc]? = some i)
    (h : m.step c = (s, m', c')) :
    m'.trace = m.trace ++ m.attempt i := by
  obtain ⟨hnone, -⟩ | ⟨j, effect, hj, -, -, rfl⟩ := effect_cases_of_step h
  · rw [hi] at hnone
    cases hnone
  · rw [hi] at hj
    cases hj
    exact trace_after m i effect

/-- A step adds to the trace and takes nothing from it. -/
theorem exists_trace_of_step
    {s : StepResult}
    (h : m.step c = (s, m', c')) :
    ∃ rest : Array Attempt, m'.trace = m.trace ++ rest := by
  obtain ⟨-, -, rfl, -⟩ | ⟨i, effect, -, -, -, rfl⟩ := effect_cases_of_step h
  · exact ⟨#[], Array.append_empty.symm⟩
  · exact ⟨m.attempt i, trace_after m i effect⟩

theorem Ends.exists_trace
    (h : Ends m c r m' c') :
    ∃ rest : Array Attempt, m'.trace = m.trace ++ rest := by
  cases h with
  | limit _ =>
      exact ⟨#[], Array.append_empty.symm⟩
  | stopped _ hstep =>
      exact exists_trace_of_step hstep
  | failed _ hstep =>
      exact exists_trace_of_step hstep

theorem Advances.exists_trace
    (h : Advances k m c m' c') :
    ∃ rest : Array Attempt, m'.trace = m.trace ++ rest := by
  induction h with
  | refl m c =>
      exact ⟨#[], Array.append_empty.symm⟩
  | step _ hstep _ ih =>
      obtain ⟨first, hfirst⟩ := exists_trace_of_step hstep
      obtain ⟨rest, hrest⟩ := ih
      exact ⟨first ++ rest, by rw [hrest, hfirst, Array.append_assoc]⟩

/-- The trace of a run that attempts a step goes on from that attempt. -/
theorem Runs.exists_trace
    (h : m.Runs c r m' c')
    (hlimit : m.limitReached = false)
    (hi : m.program[m.pc]? = some i) :
    ∃ rest : Array Attempt, m'.trace = m.trace ++ m.attempt i ++ rest := by
  obtain ⟨k, m₁, c₁, c₂, hadvances, hends, -⟩ := runs_iff.1 h
  cases hadvances with
  | refl =>
      cases hends with
      | limit hreached =>
          rw [hlimit] at hreached
          cases hreached
      | stopped _ hstep =>
          exact ⟨#[], by rw [trace_of_step hi hstep, Array.append_empty]⟩
      | failed _ hstep =>
          exact ⟨#[], by rw [trace_of_step hi hstep, Array.append_empty]⟩
  | step _ hstep rest =>
      obtain ⟨middle, hmiddle⟩ := rest.exists_trace
      obtain ⟨last, hlast⟩ := hends.exists_trace
      refine ⟨middle ++ last, ?_⟩
      rw [hlast, hmiddle, trace_of_step hi hstep, Array.append_assoc]

/-! ## Two runs -/

/-- Two runs end alike: neither of them ends, or both end with the same result and what they leave
is related. -/
def EndsAlike
    (R : Machine → Console → Machine → Console → Prop)
    (m : Machine) (c : Console) (n : Machine) (d : Console) : Prop :=
  (∀ r m' c', m.Runs c r m' c' → ∃ n' d', n.Runs d r n' d' ∧ R m' c' n' d') ∧
  (∀ r n' d', n.Runs d r n' d' → ∃ m' c', m.Runs c r m' c' ∧ R m' c' n' d')

theorem EndsAlike.mono
    {R S : Machine → Console → Machine → Console → Prop}
    (h : EndsAlike R m c n d)
    (hRS : ∀ r m' c' n' d', m.Runs c r m' c' → R m' c' n' d' → S m' c' n' d') :
    EndsAlike S m c n d := by
  constructor
  · intro r m' c' hruns
    obtain ⟨n', d', hruns', hR⟩ := h.1 r m' c' hruns
    exact ⟨n', d', hruns', hRS r m' c' n' d' hruns hR⟩
  · intro r n' d' hruns
    obtain ⟨m', c', hruns', hR⟩ := h.2 r n' d' hruns
    exact ⟨m', c', hruns', hRS r m' c' n' d' hruns' hR⟩

/-- The way back needs no proof of its own, since a run has one result only. -/
theorem EndsAlike.of_forth
    {R : Machine → Console → Machine → Console → Prop}
    (hruns : ∀ r m' c', m.Runs c r m' c' → ∃ n' d', n.Runs d r n' d' ∧ R m' c' n' d')
    (hforever : m.RunsForever c → n.RunsForever d) :
    EndsAlike R m c n d := by
  refine ⟨hruns, ?_⟩
  intro r n' d' hends
  rcases runs_or_runsForever m c with ⟨r', m', c', hends'⟩ | hnever
  · obtain ⟨n'', d'', hends'', hR⟩ := hruns r' m' c' hends'
    obtain ⟨rfl, rfl, rfl⟩ := hends.unique hends''
    exact ⟨m', c', hends', hR⟩
  · exact absurd hends (hforever hnever).not_runs

theorem Advances.endsAlike_iff
    {R : Machine → Console → Machine → Console → Prop}
    (h : Advances k m c m₁ c₁) :
    EndsAlike R m c n d ↔ EndsAlike R m₁ c₁ n d := by
  simp only [EndsAlike, h.runs_iff]

/-- Related machines agree on whether the limit is reached.  A step of both comes to the same, up to
failures that are related by `F`, and leaves them related, unless what it comes to is exempted. -/
structure StepSimulation
    (exempt : StepResult → Prop)
    (F : Failure → Failure → Prop)
    (R : Machine → Console → Machine → Console → Prop) : Prop where
  limitReached
    {m n : Machine} {c d : Console}
    (h : R m c n d) :
    n.limitReached = m.limitReached
  step
    {m n m' : Machine} {c d c' : Console} {s : StepResult}
    (h : R m c n d)
    (hstep : m.step c = (s, m', c'))
    (hs : ¬ exempt s) :
    ∃ s' n' d', n.step d = (s', n', d') ∧ StepsUpTo F s s' ∧ R m' c' n' d'
  flush
    {m n : Machine} {c d : Console}
    (h : R m c n d) :
    R m c.flush n d.flush
  advanced : ¬ exempt .advanced

namespace StepSimulation

variable {exempt : StepResult → Prop} {F : Failure → Failure → Prop}
  {R : Machine → Console → Machine → Console → Prop}

theorem advances
    (h : StepSimulation exempt F R)
    (hR : R m c n d)
    (hadvances : Advances k m c m' c') :
    ∃ n' d', Advances k n d n' d' ∧ R m' c' n' d' := by
  induction hadvances generalizing n d with
  | refl m c =>
      exact ⟨n, d, .refl n d, hR⟩
  | step hlimit hstep _ ih =>
      obtain ⟨s', n₁, d₁, hstep', hs', hR₁⟩ := h.step hR hstep h.advanced
      cases hs'
      obtain ⟨n', d', hrest, hR'⟩ := ih hR₁
      exact ⟨n', d', .step (by rw [h.limitReached hR, hlimit]) hstep' hrest, hR'⟩

theorem ends
    (h : StepSimulation exempt F R)
    (hR : R m c n d)
    (hends : Ends m c r m' c')
    (hr : ¬ exempt r.lastStep) :
    ∃ r' n' d', Ends n d r' n' d' ∧ ResultsUpTo F r r' ∧ R m' c' n' d' := by
  have hlimit' := h.limitReached hR
  cases hends with
  | limit hlimit =>
      exact ⟨_, n, d, .limit (by rw [hlimit', hlimit]), .ok _, hR⟩
  | stopped hlimit hstep =>
      obtain ⟨s', n', d', hstep', hs', hR'⟩ := h.step hR hstep hr
      cases hs'
      exact ⟨_, n', d', .stopped (by rw [hlimit', hlimit]) hstep', .ok _, hR'⟩
  | failed hlimit hstep =>
      obtain ⟨s', n', d', hstep', hs', hR'⟩ := h.step hR hstep hr
      cases hs' with
      | failed hF =>
          exact ⟨_, n', d', .failed (by rw [hlimit', hlimit]) hstep', .error hF, hR'⟩

theorem runs
    (h : StepSimulation exempt F R)
    (hR : R m c n d)
    (hruns : m.Runs c r m' c')
    (hr : ¬ exempt r.lastStep) :
    ∃ r' n' d', n.Runs d r' n' d' ∧ ResultsUpTo F r r' ∧ R m' c' n' d' := by
  obtain ⟨k, m₁, c₁, c₂, hadvances, hends, rfl⟩ := runs_iff.1 hruns
  obtain ⟨n₁, d₁, hadvances', hR₁⟩ := h.advances hR hadvances
  obtain ⟨r', n', d₂, hends', hr', hR₂⟩ := h.ends hR₁ hends hr
  have hruns' := runs_iff.2 ⟨k, n₁, d₁, d₂, hadvances', hends', rfl⟩
  exact ⟨r', n', d₂.flush, hruns', hr', h.flush hR₂⟩

end StepSimulation

/-- Related machines agree on their program, on their position and on whether the limit is reached.
Executing an instruction on both comes to the same result and leaves them related, unless the result
is exempted. -/
structure Simulation
    (exempt : StepResult → Prop)
    (R : Machine → Console → Machine → Console → Prop) : Prop where
  program
    {m n : Machine} {c d : Console}
    (h : R m c n d) :
    n.program = m.program
  pc
    {m n : Machine} {c d : Console}
    (h : R m c n d) :
    n.pc = m.pc
  limitReached
    {m n : Machine} {c d : Console}
    (h : R m c n d) :
    n.limitReached = m.limitReached
  execute
    {m n : Machine} {c d c' : Console} {i : Instruction} {effect : Effect}
    (h : R m c n d)
    (hi : m.program[m.pc]? = some i)
    (heffect : i.execute m.stack c = (effect, c'))
    (hr : ¬ exempt (effect.result m.pc i)) :
    ∃ effect' d', i.execute n.stack d = (effect', d') ∧
      effect'.result m.pc i = effect.result m.pc i ∧
      R (m.after i effect) c' (n.after i effect') d'
  flush
    {m n : Machine} {c d : Console}
    (h : R m c n d) :
    R m c.flush n d.flush
  advanced : ¬ exempt .advanced

namespace Simulation

variable {exempt : StepResult → Prop} {R : Machine → Console → Machine → Console → Prop}

theorem step
    {s : StepResult}
    (h : Simulation exempt R)
    (hR : R m c n d)
    (hstep : m.step c = (s, m', c'))
    (hs : ¬ exempt s) :
    ∃ n' d', n.step d = (s, n', d') ∧ R m' c' n' d' := by
  obtain ⟨hi, rfl, rfl, rfl⟩ | ⟨i, effect, hi, heffect, rfl, rfl⟩ := effect_cases_of_step hstep
  · have hi' : n.program[n.pc]? = none := by rw [h.program hR, h.pc hR, hi]
    exact ⟨n, d, step_of_halted hi', hR⟩
  · have hi' : n.program[n.pc]? = some i := by rw [h.program hR, h.pc hR, hi]
    obtain ⟨effect', d', heffect', hresult, hR'⟩ := h.execute hR hi heffect hs
    refine ⟨n.after i effect', d', ?_, hR'⟩
    rw [step_of_execute hi' heffect', h.pc hR, hresult]

theorem attempts
    {results : List StepResult}
    (h : Simulation exempt R)
    (hR : R m c n d)
    (hattempts : Attempts results m c m' c')
    (hresults : ∀ s ∈ results, ¬ exempt s) :
    ∃ n' d', Attempts results n d n' d' ∧ R m' c' n' d' := by
  induction hattempts generalizing n d with
  | nil m c =>
      exact ⟨n, d, .nil n d, hR⟩
  | cons hstep _ ih =>
      obtain ⟨hs, hrest⟩ := List.forall_mem_cons.1 hresults
      obtain ⟨n₁, d₁, hstep', hR₁⟩ := h.step hR hstep hs
      obtain ⟨n', d', hattempts', hR'⟩ := ih hR₁ hrest
      exact ⟨n', d', .cons hstep' hattempts', hR'⟩

theorem stepSimulation
    (h : Simulation exempt R) :
    StepSimulation exempt Eq R where
  limitReached hR := h.limitReached hR
  step hR hstep hs := by
    obtain ⟨n', d', hstep', hR'⟩ := h.step hR hstep hs
    exact ⟨_, n', d', hstep', .refl _, hR'⟩
  flush hR := h.flush hR
  advanced := h.advanced

theorem advances
    (h : Simulation exempt R)
    (hR : R m c n d)
    (hadvances : Advances k m c m' c') :
    ∃ n' d', Advances k n d n' d' ∧ R m' c' n' d' :=
  h.stepSimulation.advances hR hadvances

theorem runs
    (h : Simulation exempt R)
    (hR : R m c n d)
    (hruns : m.Runs c r m' c')
    (hr : ¬ exempt r.lastStep) :
    ∃ n' d', n.Runs d r n' d' ∧ R m' c' n' d' := by
  obtain ⟨r', n', d', hruns', hresult, hR'⟩ := h.stepSimulation.runs hR hruns hr
  obtain rfl := hresult.eq
  exact ⟨n', d', hruns', hR'⟩

theorem runsForever
    (h : Simulation exempt R)
    (hR : R m c n d)
    (hforever : m.RunsForever c) :
    n.RunsForever d := by
  intro k
  obtain ⟨m', c', hadvances⟩ := hforever k
  obtain ⟨n', d', hadvances', -⟩ := h.advances hR hadvances
  exact ⟨n', d', hadvances'⟩

/-- Without exemptions the runs end alike. -/
theorem endsAlike
    (h : Simulation (fun _ => False) R)
    (hR : R m c n d) :
    EndsAlike R m c n d :=
  .of_forth (fun _ _ _ hruns => h.runs hR hruns id) (h.runsForever hR)

end Simulation

end Machine
end StackMachine
