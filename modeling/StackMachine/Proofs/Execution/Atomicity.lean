import StackMachine.Proofs.Execution.Steps

/-!
# Steps that are not executed

A step that fails, or that finds no input, leaves no trace of having been attempted but the recorded
one, and takes nothing but the line that it could not use.  A run that ends with a failure therefore
leaves the machine that its last executed step has left.

* `Console.Spared` and `Machine.Spared` say what such a step leaves.
* `Instruction.spared_of_execute` is proved instruction by instruction.
* `Machine.spared_of_step` and `Machine.failed_of_run` carry it over to steps and to runs, and
  `Machine.failures_are_atomic` puts the two together.
-/

namespace StackMachine

variable {i : Instruction} {stack : Stack} {c c' : Console} {effect : Effect}

/-- The output is as it was, and so is the input, but for the line that reading a number takes. -/
structure Console.Spared (i : Instruction) (c c' : Console) : Prop where
  writes : c'.writes = c.writes
  budget : c'.budget = c.budget
  input : c'.input = if i = .readNumber then (firstLine c.input).2 else c.input
  consumed : c'.consumed = c.consumed + if i = .readNumber then (firstLine c.input).1.length else 0

/-- The machine and the console are as they were before the next instruction was attempted, but for
the recorded attempt and a line that was read. -/
def Machine.Spared (m : Machine) (c : Console) (m' : Machine) (c' : Console) : Prop :=
  ∃ i : Instruction, m.program[m.pc]? = some i ∧
    m' = { m with
      trace := if m.tracing then m.trace.push ⟨m.pc, i, m.stack⟩ else m.trace } ∧
    c.Spared i c'

/-- The instruction was executed. -/
def Effect.IsDone : Effect → Prop
  | .done _ _ => True
  | .endOfInput | .fault _ => False

namespace Console

theorem Spared.refl
    (h : i ≠ .readNumber)
    (c : Console) :
    c.Spared i c :=
  ⟨rfl, rfl, (if_neg h).symm, by rw [if_neg h, Nat.add_zero]⟩

theorem spared_readLine
    (c : Console) :
    c.Spared .readNumber c.flush.readLine.2 :=
  ⟨rfl, rfl, rfl, rfl⟩

/-- A refused write takes no input and adds nothing to the output. -/
theorem spared_refuse
    (h : i ≠ .readNumber)
    (c : Console) (bytes : List UInt8) :
    c.Spared i (c.refuse bytes) :=
  have hsame := Spared.refl h c
  ⟨hsame.writes, hsame.budget, hsame.input, hsame.consumed⟩

theorem write_of_refused
    {bytes : List UInt8}
    (h : c.write bytes = (false, c')) :
    c' = c.refuse bytes := by
  unfold write at h
  split at h
  · cases h
  · cases h
    rfl
  · cases h

end Console

/-! ## Instructions -/

/-- Output that is not written is either not attempted or refused. -/
theorem spared_of_emit
    {bytes : Except Fault (List UInt8)}
    (hi : i ≠ .readNumber)
    (h : emit stack c bytes = (effect, c'))
    (hnot : ¬ effect.IsDone) :
    c.Spared i c' := by
  cases bytes with
  | error f =>
      cases h
      exact .refl hi c
  | ok bytes =>
      rcases hwrite : c.write bytes with ⟨accepted, c₁⟩
      cases accepted with
      | true =>
          simp only [emit, hwrite] at h
          cases h
          exact absurd trivial hnot
      | false =>
          simp only [emit, hwrite] at h
          cases h
          obtain rfl := Console.write_of_refused hwrite
          exact c.spared_refuse hi bytes

/-- A number is only read together with its line. -/
theorem eq_of_acceptNumber
    (h : acceptNumber stack c = (effect, c')) :
    c' = c.flush.readLine.2 := by
  rcases hread : c.flush.readLine with ⟨line, c₁⟩
  rw [acceptNumber, hread] at h
  cases line with
  | nil =>
      cases h
      rfl
  | cons b line =>
      simp only at h
      split at h <;> cases h <;> rfl

/-- A byte is taken, if there is one, after a flush. -/
theorem eq_of_acceptByte
    (h : acceptByte stack c = (effect, c')) :
    c' = { c with
      input := c.input.drop 1
      consumed := c.consumed + (c.input.take 1).length
      calls := (c.calls.push .flush).push .readByte } := by
  cases hinput : c.input with
  | nil =>
      simp only [acceptByte, Console.readByte, Console.flush, hinput] at h
      cases h
      simp
  | cons b rest =>
      simp only [acceptByte, Console.readByte, Console.flush, hinput] at h
      cases h
      rfl

theorem spared_of_acceptByte
    (h : acceptByte stack c = (effect, c'))
    (hnot : ¬ effect.IsDone) :
    c.Spared .readByte c' := by
  cases hinput : c.input with
  | nil =>
      simp only [acceptByte, Console.readByte, Console.flush, hinput] at h
      cases h
      refine ⟨rfl, rfl, ?_, rfl⟩
      rw [hinput]
      rfl
  | cons b rest =>
      simp only [acceptByte, Console.readByte, Console.flush, hinput] at h
      cases h
      exact absurd trivial hnot

/-- An instruction that is not executed spares the console. -/
theorem Instruction.spared_of_execute
    (h : i.execute stack c = (effect, c'))
    (hnot : ¬ effect.IsDone) :
    c.Spared i c' := by
  cases i with
  | printNumber p =>
      exact spared_of_emit (by simp) h hnot
  | printText text =>
      have hemit : emit stack c (.ok (textLine text)) = (effect, c') := h
      exact spared_of_emit (by simp) hemit hnot
  | printByte p =>
      exact spared_of_emit (by simp) h hnot
  | readNumber =>
      obtain rfl := eq_of_acceptNumber h
      exact c.spared_readLine
  | readByte =>
      exact spared_of_acceptByte h hnot
  | _ =>
      cases h
      exact .refl (by simp) c

/-! ## Steps and runs -/

namespace Machine

variable {m m' : Machine}

/-- A step that fails, or that finds no input, spares the machine and the console. -/
theorem spared_of_step
    {r : StepResult}
    (h : m.step c = (r, m', c'))
    (hr : (∃ e, r = .failed e) ∨ r = .stopped .endOfInput) :
    m.Spared c m' c' := by
  rcases step_cases m c with
    ⟨-, hstep⟩ | ⟨i, hi, ⟨stack, target, c₁, -, hstep⟩ | ⟨c₁, hexecute, hstep⟩ |
      ⟨f, c₁, hexecute, hstep⟩⟩
  · rw [hstep] at h
    cases h
    rcases hr with ⟨e, he⟩ | he <;> cases he
  · rw [hstep] at h
    cases h
    rcases hr with ⟨e, he⟩ | he <;> cases he
  · rw [hstep, record_eq] at h
    cases h
    exact ⟨i, hi, rfl, Instruction.spared_of_execute hexecute id⟩
  · rw [hstep, record_eq] at h
    cases h
    exact ⟨i, hi, rfl, Instruction.spared_of_execute hexecute id⟩

/-- A run that ends with a failure ends with a step that fails after some executed steps. -/
theorem failed_of_run
    {fuel : Nat} {e : Failure}
    (h : m.run fuel c = some (.error e, m', c')) :
    ∃ (n : Nat) (m₁ : Machine) (c₁ c₂ : Console),
      Advances n m c m₁ c₁ ∧ m₁.step c₁ = (.failed e, m', c₂) ∧ c' = c₂.flush := by
  simp only [run, Option.map_eq_some_iff] at h
  obtain ⟨⟨r, m₂, c₂⟩, hloop, heq⟩ := h
  cases heq
  obtain ⟨n, m₁, c₁, -, hadvances, hends⟩ := loop_eq_some_iff.1 hloop
  cases hends with
  | failed hlimit hstep =>
      exact ⟨n, m₁, c₁, c₂, hadvances, hstep, rfl⟩

/-- A step that fails, or that finds no input, spares the machine and the console.  A run that fails
leaves what its last executed step has left, except for what the failed step does not spare. -/
theorem failures_are_atomic
    (m : Machine) (c : Console) :
    (∀ (r : StepResult) (m' : Machine) (c' : Console),
      m.step c = (r, m', c') → (∃ e, r = .failed e) ∨ r = .stopped .endOfInput →
        m.Spared c m' c') ∧
    (∀ (fuel : Nat) (e : Failure) (m' : Machine) (c' : Console),
      m.run fuel c = some (.error e, m', c') →
        ∃ (n : Nat) (m₁ : Machine) (c₁ c₂ : Console),
          Advances n m c m₁ c₁ ∧ m₁.steps = m.steps + n ∧
          m₁.step c₁ = (.failed e, m', c₂) ∧ m₁.Spared c₁ m' c₂ ∧ c' = c₂.flush) := by
  constructor
  · intro r m' c' h hr
    exact spared_of_step h hr
  · intro fuel e m' c' h
    obtain ⟨n, m₁, c₁, c₂, hadvances, hstep, hflush⟩ := failed_of_run h
    have hsteps := hadvances.counts.1
    have hspared := spared_of_step hstep (Or.inl ⟨e, rfl⟩)
    exact ⟨n, m₁, c₁, c₂, hadvances, hsteps, hstep, hspared, hflush⟩

/-- A number is pushed and written, and then a line is read that holds no number, or the number is
written to an output that has been closed. -/
theorem failures_are_atomic_badLine :
    let m : Machine := ⟨#[.push 7, .printNumber 0, .readNumber], #[], 0, 0, none, true, #[]⟩
    let c : Console := .ofInput [0x31, 0x61, 0x0A, 0x35]
    let e : Failure :=
      ⟨2, .readNumber, .badLine [0x31, 0x61, 0x0A] (.notANumber [0x31, 0x61])⟩
    let m₁ : Machine :=
      { m with stack := #[7], pc := 1, steps := 1, trace := #[⟨0, .push 7, #[]⟩] }
    let m₂ : Machine := { m₁ with trace := m₁.trace.push ⟨1, .printNumber 0, #[7]⟩ }
    let m₃ : Machine :=
      { m₂ with pc := 2, steps := 2, trace := m₂.trace.push ⟨2, .readNumber, #[7]⟩ }
    let c₃ : Console :=
      ⟨[0x35], 3, #[[0x37, 0x0A]], none, #[.write [0x37, 0x0A], .flush, .readLine, .flush]⟩
    let closed : Console := { c with budget := some 0 }
    let refused : Console := { closed with calls := #[.refusedWrite [0x37, 0x0A]] }
    (m₁.step closed = (.failed ⟨1, .printNumber 0, .outputClosed⟩, m₂, refused) ∧
      m₁.Spared closed m₂ refused) ∧
    m.run 9 c = some (.error e, m₃, c₃) ∧
      ∃ (n : Nat) (m' : Machine) (c' c'' : Console),
        Advances n m c m' c' ∧ m'.steps = m.steps + n ∧
        m'.step c' = (.failed e, m₃, c'') ∧ m'.Spared c' m₃ c'' ∧ c₃ = c''.flush := by
  intro m c e m₁ m₂ m₃ c₃ closed refused
  have hstep : m₁.step closed = (.failed ⟨1, .printNumber 0, .outputClosed⟩, m₂, refused) := rfl
  have hrun : m.run 9 c = some (.error e, m₃, c₃) := rfl
  exact ⟨⟨hstep, (failures_are_atomic m₁ closed).1 _ m₂ refused hstep (Or.inl ⟨_, rfl⟩)⟩,
    hrun, (failures_are_atomic m c).2 9 e m₃ c₃ hrun⟩

end Machine
end StackMachine
