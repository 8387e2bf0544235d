import StackMachine.Proofs.Execution.Streams

/-!
# Limits on steps

A limit cuts a run between two steps.  What has been executed up to the cut is what a run with a
higher limit executes, so that such a run can be taken up again at the cut; and a run that does not
come to its limit is the same with a higher one.

* `Machine.Advances.withLimit`: steps are the same under every limit that admits them.
* `Machine.exists_runs_of_limit`: a run with a limit ends.
* `Machine.run_cut_by_limit` compares the runs with two limits, the higher of which may be missing.
-/

namespace StackMachine
namespace Machine

variable {m m' m₁ : Machine} {c c' c₁ : Console} {k : Nat}

/-- The machine with another limit on its steps. -/
def withLimit (m : Machine) (limit : Option Nat) : Machine :=
  { m with stepLimit := limit }

theorem limitReached_eq_false_iff :
    m.limitReached = false ↔ ∀ limit ∈ m.stepLimit, m.steps < limit := by
  unfold limitReached
  split
  · next hlimit =>
      simp [hlimit]
  · next limit hlimit =>
      simp [hlimit]

theorem limitReached_eq_true_iff
    {limit : Nat}
    (h : m.stepLimit = some limit) :
    m.limitReached = true ↔ limit ≤ m.steps := by
  rw [limitReached, h]
  exact decide_eq_true_iff

theorem after_withLimit
    (m : Machine) (limit : Option Nat) (i : Instruction) (effect : Effect) :
    (m.withLimit limit).after i effect = (m.after i effect).withLimit limit := by
  cases effect <;> simp only [after, withLimit, record_eq]

/-- A step does not look at the limit. -/
theorem step_withLimit
    {r : StepResult}
    (h : m.step c = (r, m', c'))
    (limit : Option Nat) :
    (m.withLimit limit).step c = (r, m'.withLimit limit, c') := by
  obtain ⟨hi, rfl, rfl, rfl⟩ | ⟨i, effect, hi, heffect, rfl, rfl⟩ := effect_cases_of_step h
  · have hi' : (m'.withLimit limit).program[(m'.withLimit limit).pc]? = none := hi
    exact step_of_halted hi'
  · have hi' : (m.withLimit limit).program[(m.withLimit limit).pc]? = some i := hi
    rw [← after_withLimit]
    exact step_of_execute hi' heffect

/-! ## Executed steps -/

/-- The steps of a run stay within its limit, unless there are none. -/
theorem Advances.steps_le
    {limit : Nat}
    (h : Advances k m c m' c')
    (hlimit : m.stepLimit = some limit) :
    k = 0 ∨ m.steps + k ≤ limit := by
  induction h with
  | refl m c =>
      exact Or.inl rfl
  | step hbelow hstep rest ih =>
      obtain ⟨hsteps, -, hsame, -⟩ := step_advanced hstep
      have hlt := limitReached_eq_false_iff.1 hbelow limit hlimit
      have hrest := ih (hsame.trans hlimit)
      omega

/-- The same steps are executed under every limit that admits them. -/
theorem Advances.withLimit
    {limit : Option Nat}
    (h : Advances k m c m' c')
    (hadmits : ∀ l ∈ limit, k = 0 ∨ m.steps + k ≤ l) :
    Advances k (m.withLimit limit) c (m'.withLimit limit) c' := by
  induction h with
  | refl m c =>
      exact .refl _ c
  | @step k m m₁ m' c c₁ c' _ hstep rest ih =>
      have hsteps := (step_advanced hstep).1
      have hbelow : (m.withLimit limit).limitReached = false := by
        rw [limitReached_eq_false_iff]
        intro l hl
        have hle := hadmits l hl
        show m.steps < l
        omega
      refine .step hbelow (step_withLimit hstep limit) (ih ?_)
      intro l hl
      have hle := hadmits l hl
      omega

/-- A run is cut when the machine has come to its limit. -/
theorem runs_stepLimit_iff :
    m.Runs c (.ok .stepLimit) m' c' ↔
      ∃ (k : Nat) (c₁ : Console),
        Advances k m c m' c₁ ∧ m'.limitReached = true ∧ c' = c₁.flush := by
  rw [runs_iff]
  constructor
  · rintro ⟨k, m₁, c₁, c₂, hadvances, hends, rfl⟩
    cases hends with
    | limit hlimit =>
        exact ⟨k, c₁, hadvances, hlimit, rfl⟩
    | stopped _ hstep =>
        exact absurd rfl (ne_stepLimit_of_step hstep)
  · rintro ⟨k, c₁, hadvances, hlimit, rfl⟩
    exact ⟨k, m', c₁, c₁, hadvances, .limit hlimit, rfl⟩

/-- A run with a limit ends. -/
theorem exists_runs_of_limit
    {limit : Nat}
    (hlimit : m.stepLimit = some limit)
    (c : Console) :
    ∃ (r : RunResult) (m' : Machine) (c' : Console), m.Runs c r m' c' := by
  rcases runs_or_runsForever m c with hruns | hforever
  · exact hruns
  · -- One step more than the limit would be executed.
    obtain ⟨m', c', hadvances⟩ := hforever (limit + 1)
    have hle := hadvances.steps_le hlimit
    omega

/-! ## Two limits -/

section TwoLimits

variable {limit : Nat} {more : Option Nat}

theorem Advances.withMore
    (hle : ∀ n ∈ more, limit ≤ n)
    (h : Advances k (m.withLimit (some limit)) c m' c') :
    Advances k (m.withLimit more) c (m'.withLimit more) c' := by
  have hsteps := h.steps_le rfl
  have hadmits : ∀ n ∈ more, k = 0 ∨ (m.withLimit (some limit)).steps + k ≤ n := by
    intro n hn
    have hlimit := hle n hn
    omega
  exact h.withLimit hadmits

/-- The lower limit cuts the run with the higher one where that has counted as many steps. -/
theorem runs_stepLimit_iff_advances
    (hle : ∀ n ∈ more, limit ≤ n) :
    (∃ m' c', (m.withLimit (some limit)).Runs c (.ok .stepLimit) m' c') ↔
      ∃ k m' c', Advances k (m.withLimit more) c m' c' ∧ limit ≤ m'.steps := by
  constructor
  · rintro ⟨m', c', hruns⟩
    obtain ⟨k, c₁, hadvances, hlimit, -⟩ := runs_stepLimit_iff.1 hruns
    have hreached := (limitReached_eq_true_iff hadvances.counts.2.2.1).1 hlimit
    exact ⟨k, m'.withLimit more, c₁, hadvances.withMore hle, hreached⟩
  · rintro ⟨k, m', c', hadvances, hreached⟩
    have hsteps : m'.steps = m.steps + k := hadvances.counts.1
    -- The run with the lower limit executes what is missing at the start.
    have hk : (limit - m.steps) + (k - (limit - m.steps)) = k := by omega
    rw [← hk] at hadvances
    obtain ⟨m₁, c₁, hfirst, -⟩ := hadvances.split
    have hsteps₁ : m₁.steps = m.steps + (limit - m.steps) := hfirst.counts.1
    have hadmits : ∀ l ∈ some limit,
        limit - m.steps = 0 ∨ (m.withLimit more).steps + (limit - m.steps) ≤ l := by
      rintro l ⟨⟩
      show limit - m.steps = 0 ∨ m.steps + (limit - m.steps) ≤ limit
      omega
    have hcut : (m₁.withLimit (some limit)).limitReached = true := by
      rw [limitReached_eq_true_iff rfl]
      show limit ≤ m₁.steps
      omega
    exact ⟨_, _, runs_stepLimit_iff.2 ⟨_, c₁, hfirst.withLimit hadmits, hcut, rfl⟩⟩

theorem Ends.withMore
    {r : RunResult}
    (hle : ∀ n ∈ more, limit ≤ n)
    (h : Ends m c r m' c')
    (hlimit : m.stepLimit = some limit)
    (hr : r ≠ .ok .stepLimit) :
    Ends (m.withLimit more) c r (m'.withLimit more) c' := by
  have hbelow : m.limitReached = false → (m.withLimit more).limitReached = false := by
    intro h
    rw [limitReached_eq_false_iff] at h ⊢
    intro n hn
    exact Nat.lt_of_lt_of_le (h limit hlimit) (hle n hn)
  cases h with
  | limit _ =>
      exact absurd rfl hr
  | stopped hreached hstep =>
      exact .stopped (hbelow hreached) (step_withLimit hstep more)
  | failed hreached hstep =>
      exact .failed (hbelow hreached) (step_withLimit hstep more)

/-- A run that does not come to its limit is the same with a higher one. -/
theorem Runs.withMore
    {r : RunResult}
    (hle : ∀ n ∈ more, limit ≤ n)
    (h : (m.withLimit (some limit)).Runs c r m' c')
    (hr : r ≠ .ok .stepLimit) :
    (m.withLimit more).Runs c r (m'.withLimit more) c' := by
  obtain ⟨k, m₁, c₁, c₂, hadvances, hends, rfl⟩ := runs_iff.1 h
  have hlimit : m₁.stepLimit = some limit := hadvances.counts.2.2.1
  exact runs_iff.2
    ⟨k, _, c₁, c₂, hadvances.withMore hle, hends.withMore hle hlimit hr, rfl⟩

theorem steps_of_runs_stepLimit
    (h : (m.withLimit (some limit)).Runs c (.ok .stepLimit) m' c') :
    m'.steps = max limit m.steps := by
  obtain ⟨k, c₁, hadvances, hreached, -⟩ := runs_stepLimit_iff.1 h
  have hsteps : m'.steps = m.steps + k := hadvances.counts.1
  have hlower := (limitReached_eq_true_iff hadvances.counts.2.2.1).1 hreached
  have hupper : k = 0 ∨ m.steps + k ≤ limit := hadvances.steps_le rfl
  omega

/-- Where a run has been cut it can be taken up again, and then ends as it would have without the
cut.  The recorded calls are left out, as the flush at the cut is one of them. -/
theorem endsAlike_of_runs_stepLimit
    (hle : ∀ n ∈ more, limit ≤ n)
    (h : (m.withLimit (some limit)).Runs c (.ok .stepLimit) m' c') :
    EndsAlike (fun m₁ c₁ m₂ c₂ => m₂ = m₁ ∧ c₁.SameStreams c₂)
      (m.withLimit more) c (m'.withLimit more) c' := by
  obtain ⟨k, c₁, hadvances, -, rfl⟩ := runs_stepLimit_iff.1 h
  have hinserted : (m'.withLimit more).Inserted #[] #[] c₁ (m'.withLimit more) c₁.flush :=
    ⟨⟨rfl, rfl, rfl, rfl⟩, m'.trace, (Array.empty_append).symm, by simp [withLimit]⟩
  have halike := (simulation_inserted #[] #[]).endsAlike hinserted
  refine ((hadvances.withMore hle).endsAlike_iff).2 (halike.mono ?_)
  rintro r m₁ c₁ m₂ c₂ - ⟨hstreams, rest, htrace, rfl⟩
  refine ⟨?_, hstreams⟩
  rw [Array.append_empty, ← htrace]

/-- A run with the lower of two limits is cut if and only if the run with the higher one counts as
many steps at some moment.  It is then cut at that count, or at the start if that is beyond the
limit already, and can be taken up again with the higher limit.  A run with a limit ends; if it is
not cut, the run with the higher limit is the same. -/
theorem run_cut_by_limit
    (m : Machine) (c : Console)
    (hle : ∀ n ∈ more, limit ≤ n) :
    ((∃ m' c', (m.withLimit (some limit)).Runs c (.ok .stepLimit) m' c') ↔
      ∃ k m' c', Advances k (m.withLimit more) c m' c' ∧ limit ≤ m'.steps) ∧
    (∀ m' c', (m.withLimit (some limit)).Runs c (.ok .stepLimit) m' c' →
      m'.steps = max limit m.steps ∧
      EndsAlike (fun m₁ c₁ m₂ c₂ => m₂ = m₁ ∧ c₁.SameStreams c₂)
        (m.withLimit more) c (m'.withLimit more) c') ∧
    (∃ r m' c', (m.withLimit (some limit)).Runs c r m' c') ∧
    (∀ r m' c', (m.withLimit (some limit)).Runs c r m' c' → r ≠ .ok .stepLimit →
      (m.withLimit more).Runs c r (m'.withLimit more) c') := by
  refine ⟨runs_stepLimit_iff_advances hle, ?_, exists_runs_of_limit rfl c, ?_⟩
  · intro m' c' hruns
    exact ⟨steps_of_runs_stepLimit hruns, endsAlike_of_runs_stepLimit hle hruns⟩
  · intro r m' c' hruns hr
    exact hruns.withMore hle hr

/-- The limit is met exactly where the program ends, and hides that end until it is raised. -/
theorem run_cut_by_limit_at_end :
    let m : Machine := ⟨#[.readNumber, .printNumber 0], #[], 0, 4, none, true, #[]⟩
    let c : Console := .ofInput [0x37, 0x0A, 0x38]
    let m' : Machine :=
      ⟨m.program, #[7], 2, 6, some 6, true,
        #[⟨0, .readNumber, #[]⟩, ⟨1, .printNumber 0, #[7]⟩]⟩
    let c' : Console :=
      ⟨[0x38], 2, #[[0x37, 0x0A]], none, #[.flush, .readLine, .write [0x37, 0x0A], .flush]⟩
    (∀ n ∈ some 9, 6 ≤ n) ∧
    (m.withLimit (some 6)).Runs c (.ok .stepLimit) m' c' ∧
    (m.withLimit (some 9)).Runs c (.ok .programEnd) (m'.withLimit (some 9)) c' ∧
    (∃ k m₁ c₁, Advances k (m.withLimit (some 9)) c m₁ c₁ ∧ 6 ≤ m₁.steps) ∧
    m'.steps = max 6 m.steps ∧
    EndsAlike (fun m₁ c₁ m₂ c₂ => m₂ = m₁ ∧ c₁.SameStreams c₂)
      (m.withLimit (some 9)) c (m'.withLimit (some 9)) c' := by
  intro m c m' c'
  have hle : ∀ n ∈ some 9, 6 ≤ n := by decide
  have hcut : (m.withLimit (some 6)).Runs c (.ok .stepLimit) m' c' := ⟨9, by cbv⟩
  have hend : (m.withLimit (some 9)).Runs c (.ok .programEnd) (m'.withLimit (some 9)) c' :=
    ⟨9, by cbv⟩
  obtain ⟨hiff, hresume, -, -⟩ := run_cut_by_limit m c hle
  exact ⟨hle, hcut, hend, hiff.1 ⟨m', c', hcut⟩, hresume m' c' hcut⟩

end TwoLimits

end Machine
end StackMachine
