import StackMachine.Proofs.Execution.Runs

/-!
# Points in a program

What a program does is put together from what its parts do.  A part leads from one point of the
program to another, where a point is a position, a stack and a console; how many steps the machine
has executed before, and what its trace holds, does not matter.

* `acceptNumber_of_parse` and `acceptByte_cons` are what a machine reads, `emit_of_budget_ne` and
  `emit_of_budget_eq` what it writes, as far as it depends on the console.
* `Program.Leads` says that every machine at one point comes to another in a number of steps.
* `Program.leads_of_done` is one step, `Program.Leads.trans` puts parts together, and
  `Program.Leads.rounds` repeats a part.
* `Program.Leads.runs_to_end`, `Program.Leads.runs_to_endOfInput` and `Program.Leads.runs_to_fault`
  are the ways to end a run at the point that a part leads to.
-/

namespace StackMachine

/-- A point of an execution: what decides how it goes on. -/
structure Program.Point where
  pc : Nat
  /-- The numbers on the stack, bottom first. -/
  stack : Stack
  console : Console

/-- The machine executes the program without a limit on its steps, and is at the point. -/
structure Machine.IsAt
    (m : Machine)
    (p : Program)
    (x : Program.Point) :
    Prop where
  program_eq : m.program = p.toArray
  stepLimit_eq : m.stepLimit = none
  pc_eq : m.pc = x.pc
  stack_eq : m.stack = x.stack

/-- A machine at the first point comes to the second one in `k` steps. -/
def Program.Leads (p : Program) (k : Nat) (x y : Program.Point) : Prop :=
  ∀ m : Machine, m.IsAt p x →
    ∃ m' : Machine, m.Advances k x.console m' y.console ∧ m'.IsAt p y

variable {m : Machine} {p : Program} {i : Instruction} {k l n pc : Nat} {stack : Stack}
  {c c' : Console} {x y z : Program.Point}

/-! ## Reading and writing -/

theorem acceptNumber_of_parse
    (stack : Stack)
    (hline : NumberLine.parse (firstLine c.input).1 = .ok n) :
    acceptNumber stack c = (.done (stack.push n) none, c.flush.readLine.2) := by
  have hread : c.flush.readLine = ((firstLine c.input).1, c.flush.readLine.2) := rfl
  rcases hcons : (firstLine c.input).1 with - | ⟨b, rest⟩
  · rw [hcons] at hline
    cases hline
  · rw [hcons] at hline hread
    rw [acceptNumber, hread]
    simp only [hline]

theorem acceptByte_cons
    {b : UInt8} {bytes : List UInt8}
    (stack : Stack)
    (hinput : c.input = b :: bytes) :
    ∃ c' : Console, acceptByte stack c = (.done (stack.push b.toNat) none, c') ∧
      c'.input = bytes ∧ c'.consumed = c.consumed + 1 ∧ c'.written = c.written ∧
      c'.budget = c.budget := by
  simp only [acceptByte, Console.readByte, Console.flush, hinput]
  exact ⟨_, rfl, rfl, rfl, rfl, rfl⟩

theorem emit_of_budget_ne
    (hopen : c.budget ≠ some 0)
    (stack : Stack) (bytes : List UInt8) :
    ∃ c' : Console, emit stack c (.ok bytes) = (.done stack none, c') ∧
      c'.written = c.written ++ bytes ∧ c'.input = c.input ∧ c'.consumed = c.consumed := by
  have hwritten := c.written_write bytes
  unfold emit
  unfold Console.write at hwritten ⊢
  split at hwritten
  · exact ⟨_, rfl, hwritten, rfl, rfl⟩
  · next hclosed =>
      exact absurd hclosed hopen
  · exact ⟨_, rfl, hwritten, rfl, rfl⟩

theorem emit_of_budget_eq
    (hclosed : c.budget = some 0)
    (stack : Stack) (bytes : List UInt8) :
    emit stack c (.ok bytes) = (.fault .outputClosed, c.refuse bytes) := by
  simp only [emit, Console.write, hclosed]

/-! ## Parts of a program -/

namespace Machine

theorem isAt_start
    (p : Program) (tracing : Bool) (c : Console) :
    (start p tracing none).IsAt p ⟨0, #[], c⟩ :=
  ⟨rfl, rfl, rfl, rfl⟩

theorem IsAt.limitReached
    (h : m.IsAt p x) :
    m.limitReached = false := by
  rw [Machine.limitReached, h.stepLimit_eq]

theorem IsAt.instruction_eq
    (h : m.IsAt p x) :
    m.program[m.pc]? = p[x.pc]? := by
  rw [h.program_eq, h.pc_eq]
  exact List.getElem?_toArray

end Machine

namespace Program

theorem Leads.refl
    (p : Program) (x : Program.Point) :
    p.Leads 0 x x :=
  fun m h => ⟨m, .refl m x.console, h⟩

theorem Leads.trans
    (h : p.Leads k x y)
    (rest : p.Leads l y z) :
    p.Leads (k + l) x z := by
  intro m hm
  obtain ⟨m₁, hfirst, hm₁⟩ := h m hm
  obtain ⟨m₂, hsecond, hm₂⟩ := rest m₁ hm₁
  exact ⟨m₂, hfirst.trans hsecond, hm₂⟩

/-- An instruction that is executed leads to the next one, or to the target of a branch. -/
theorem leads_of_done
    {stack' : Stack} {target : Option Nat}
    (hi : p[pc]? = some i)
    (h : i.execute stack c = (.done stack' target, c')) :
    p.Leads 1 ⟨pc, stack, c⟩ ⟨target.getD (pc + 1), stack', c'⟩ := by
  intro m hm
  have hexecute : i.execute m.stack c = (.done stack' target, c') := by rw [hm.stack_eq, h]
  have hstep := Machine.step_of_done (hm.instruction_eq.trans hi) hexecute
  refine ⟨_, .step hm.limitReached hstep (.refl _ _), ?_, ?_, ?_, rfl⟩
  · rw [← hm.program_eq]
    exact Machine.record_program
  · rw [← hm.stepLimit_eq]
    exact Machine.record_stepLimit
  · rw [hm.pc_eq]

/-- A part that leads on from each of `n` points is gone through `n` times. -/
theorem Leads.rounds
    {point : Nat → Point}
    (h : ∀ j < n, p.Leads k (point j) (point (j + 1))) :
    p.Leads (k * n) (point 0) (point n) := by
  induction n with
  | zero =>
      exact .refl p (point 0)
  | succ n ih =>
      have hbefore := ih fun j hj => h j (by omega)
      exact hbefore.trans (h n (by omega))

/-- A run that comes to a point where it ends leaves the machine at that point. -/
theorem Leads.runs_of_ends
    {r : RunResult}
    (h : p.Leads k x y)
    (hends : ∀ m₁ : Machine, m₁.IsAt p y →
      ∃ trace : Array Attempt, Machine.Ends m₁ y.console r { m₁ with trace := trace } c')
    (hm : m.IsAt p x) :
    ∃ m' : Machine, m.Runs x.console r m' c'.flush ∧
      m'.stack = y.stack ∧ m'.pc = y.pc ∧ m'.steps = m.steps + k := by
  obtain ⟨m₁, hadvances, hm₁⟩ := h m hm
  obtain ⟨trace, hend⟩ := hends m₁ hm₁
  exact ⟨_, Machine.runs_iff.2 ⟨k, m₁, y.console, c', hadvances, hend, rfl⟩, hm₁.stack_eq,
    hm₁.pc_eq, hadvances.counts.1⟩

/-- A run that comes past the last instruction ends there. -/
theorem Leads.runs_to_end
    (h : p.Leads k x ⟨pc, stack, c⟩)
    (hend : p.length ≤ pc)
    (hm : m.IsAt p x) :
    ∃ m' : Machine, m.Runs x.console (.ok .programEnd) m' c.flush ∧
      m'.stack = stack ∧ m'.pc = pc ∧ m'.steps = m.steps + k := by
  refine h.runs_of_ends ?_ hm
  intro m₁ hm₁
  have hi : m₁.program[m₁.pc]? = none :=
    hm₁.instruction_eq.trans (List.getElem?_eq_none hend)
  exact ⟨m₁.trace, .stopped hm₁.limitReached (Machine.step_of_halted hi)⟩

/-- A run that comes to an instruction that finds no input ends there, and the step does not
count. -/
theorem Leads.runs_to_endOfInput
    (h : p.Leads k x ⟨pc, stack, c⟩)
    (hi : p[pc]? = some i)
    (hnone : i.execute stack c = (.endOfInput, c'))
    (hm : m.IsAt p x) :
    ∃ m' : Machine, m.Runs x.console (.ok .endOfInput) m' c'.flush ∧
      m'.stack = stack ∧ m'.pc = pc ∧ m'.steps = m.steps + k := by
  refine h.runs_of_ends ?_ hm
  intro m₁ hm₁
  have hexecute : i.execute m₁.stack c = (.endOfInput, c') := by rw [hm₁.stack_eq, hnone]
  have hstep := Machine.step_of_endOfInput (hm₁.instruction_eq.trans hi) hexecute
  rw [Machine.record_eq] at hstep
  exact ⟨_, .stopped hm₁.limitReached hstep⟩

/-- A run that comes to an instruction with a fault fails there, and the step does not count. -/
theorem Leads.runs_to_fault
    {f : Fault}
    (h : p.Leads k x ⟨pc, stack, c⟩)
    (hi : p[pc]? = some i)
    (hfault : i.execute stack c = (.fault f, c'))
    (hm : m.IsAt p x) :
    ∃ m' : Machine, m.Runs x.console (.error ⟨pc, i, f⟩) m' c'.flush ∧
      m'.stack = stack ∧ m'.pc = pc ∧ m'.steps = m.steps + k := by
  refine h.runs_of_ends ?_ hm
  intro m₁ hm₁
  have hexecute : i.execute m₁.stack c = (.fault f, c') := by rw [hm₁.stack_eq, hfault]
  have hstep := Machine.step_of_fault (hm₁.instruction_eq.trans hi) hexecute
  rw [hm₁.pc_eq, Machine.record_eq] at hstep
  exact ⟨_, .failed hm₁.limitReached hstep⟩

end Program
end StackMachine
