import StackMachine.Proofs.Execution.Branches
import StackMachine.Proofs.Execution.StepLimits

/-!
# Programs that only branch forward

A program whose branches all go to later positions is gone through once: every executed step leaves
fewer positions ahead, whether the instruction branches or not, and also where it branches past the
end of the program.

* `Program.ForwardOnly` is the condition on the program, and `Program.ahead` the number of positions
  ahead.
* `Machine.ahead_lt_of_step` is what a step does to that number, and `Machine.Advances.ahead_le` what
  follows for any number of steps.
* `Machine.forward_only_runs_end` is what follows for runs.
-/

namespace StackMachine

namespace Program

/-- Every branch of the program goes to a later position. -/
def ForwardOnly (p : Program) : Prop :=
  ∀ (k : Nat) (hk : k < p.length), ∀ t ∈ p[k].target?, k < t

instance (p : Program) : Decidable p.ForwardOnly :=
  inferInstanceAs (Decidable (∀ (k : Nat) (hk : k < p.length), ∀ t ∈ p[k].target?, k < t))

/-- How many positions of the program there are from a position on. -/
def ahead (p : Program) (pc : Nat) : Nat :=
  p.length - pc

theorem ForwardOnly.lt_target
    {p : Program} {i : Instruction} {k t : Nat}
    (h : p.ForwardOnly)
    (hi : p[k]? = some i)
    (ht : i.target? = some t) :
    k < t := by
  obtain ⟨hk, rfl⟩ := List.getElem?_eq_some_iff.1 hi
  exact h k hk t ht

end Program

namespace Machine

variable {p : Program} {m m' : Machine} {c c' : Console} {r : RunResult} {k : Nat}

/-- An executed step leaves fewer positions ahead. -/
theorem ahead_lt_of_step
    (hforward : p.ForwardOnly)
    (hp : m.program = p.toArray)
    (h : m.step c = (.advanced, m', c')) :
    p.ahead m'.pc < p.ahead m.pc := by
  obtain ⟨i, hi, hbranch⟩ := pc_of_step hp h
  have hinside : m.pc < p.length := (List.getElem?_eq_some_iff.1 hi).1
  have hlater : m.pc < m'.pc := by
    rcases hbranch with ⟨-, htarget⟩ | ⟨-, hnext⟩
    · exact hforward.lt_target hi htarget
    · omega
  unfold Program.ahead
  omega

/-- Executed steps use up one position ahead each, at least. -/
theorem Advances.ahead_le
    (hforward : p.ForwardOnly)
    (hp : m.program = p.toArray)
    (h : Advances k m c m' c') :
    k + p.ahead m'.pc ≤ p.ahead m.pc := by
  induction h with
  | refl m c =>
      exact Nat.le_of_eq (Nat.zero_add _)
  | step hlimit hstep rest ih =>
      have hfirst := ahead_lt_of_step hforward hp hstep
      have hrest := ih ((step_advanced hstep).2.1.trans hp)
      omega

/-- No more steps are executed than the program has instructions. -/
theorem Advances.le_length
    (hforward : p.ForwardOnly)
    (hp : m.program = p.toArray)
    (h : Advances k m c m' c') :
    k ≤ p.length := by
  have hahead := h.ahead_le hforward hp
  have hall : p.ahead m.pc ≤ p.length := Nat.sub_le _ _
  omega

/-- The end of a run counts no step. -/
theorem Ends.steps_eq
    (h : Ends m c r m' c') :
    m'.steps = m.steps := by
  cases h with
  | limit _ =>
      rfl
  | stopped _ hstep =>
      obtain ⟨trace, rfl⟩ := exists_trace_of_unexecuted hstep nofun
      rfl
  | failed _ hstep =>
      obtain ⟨trace, rfl⟩ := exists_trace_of_unexecuted hstep nofun
      rfl

/-- A run ends at its limit only if the limit is reached there. -/
theorem Ends.limitReached
    (h : Ends m c (.ok .stepLimit) m' c') :
    m.limitReached = true := by
  cases h with
  | limit hreached =>
      exact hreached
  | stopped _ hstep =>
      exact absurd rfl (ne_stepLimit_of_step hstep)

/-- **Forward-only programs always stop.**  From any position, stack, input and output a program
whose branches all go to later positions runs to an end, and no run of it executes more steps than it
has instructions.  If the steps that are left up to the limit exceed this number, or there is no
limit, no run ends at the limit. -/
theorem forward_only_runs_end
    (hforward : p.ForwardOnly)
    (hp : m.program = p.toArray)
    (hbudget : ∀ limit ∈ m.stepLimit, m.steps + p.length < limit)
    (c : Console) :
    (∃ (r : RunResult) (m' : Machine) (c' : Console), m.Runs c r m' c') ∧
    ∀ (r : RunResult) (m' : Machine) (c' : Console), m.Runs c r m' c' →
      r ≠ .ok .stepLimit ∧ m'.steps ≤ m.steps + p.length := by
  constructor
  · rcases runs_or_runsForever m c with hruns | hforever
    · exact hruns
    · obtain ⟨m', c', hadvances⟩ := hforever (p.length + 1)
      have hle := hadvances.le_length hforward hp
      omega
  · intro r m' c' hruns
    obtain ⟨k, m₁, c₁, c₂, hadvances, hends, -⟩ := runs_iff.1 hruns
    obtain ⟨hsteps, -, hlimit, -⟩ := hadvances.counts
    have hle := hadvances.le_length hforward hp
    refine ⟨?_, ?_⟩
    · rintro rfl
      have hreached : ¬ m₁.limitReached = false := by
        rw [hends.limitReached]
        nofun
      rw [limitReached_eq_false_iff, hlimit] at hreached
      apply hreached
      intro limit hmem
      have hbelow := hbudget limit hmem
      omega
    · rw [hends.steps_eq]
      omega

/-- Branches that are taken, one of them past the end, with one step to spare. -/
theorem forward_only_runs_end_past_length :
    let p : Program :=
      [.jumpIfGreater 0 1 3, .printText "low", .jump 9, .readNumber, .jumpIfEqual 0 0 7]
    let m : Machine := ⟨p.toArray, #[5, 8], 0, 40, some 46, false, #[]⟩
    let c : Console := .ofInput [0x31, 0x32, 0x0A]
    p.ForwardOnly ∧ (∀ limit ∈ m.stepLimit, m.steps + p.length < limit) ∧
      ∃ (m' : Machine) (c' : Console),
        m.Runs c (.ok .programEnd) m' c' ∧ m'.pc = 7 ∧ m'.steps = 43 ∧
        m'.steps ≤ m.steps + p.length := by
  intro p m c
  have hforward : p.ForwardOnly := by decide
  have hbudget : ∀ limit ∈ m.stepLimit, m.steps + p.length < limit := by decide
  obtain ⟨-, hall⟩ := forward_only_runs_end hforward rfl hbudget c
  have hruns : m.Runs c (.ok .programEnd) ⟨p.toArray, #[5, 8, 12], 7, 43, some 46, false, #[]⟩
      ⟨[], 3, #[], none, #[.flush, .readLine, .flush]⟩ := ⟨9, by cbv⟩
  exact ⟨hforward, hbudget, _, _, hruns, rfl, rfl, (hall _ _ _ hruns).2⟩

end Machine
end StackMachine
