import Mathlib.Data.List.Forall2
import StackMachine.Proofs.Execution.Runs
import StackMachine.Proofs.Execution.Slots

/-!
# The order of operands

The summands of an addition may be exchanged, and so may the numbers that are compared for
equality: the machine does the same, except for what it says of a fault.

* `Instruction.UpToOrder` relates instructions, `Fault.UpToOrder` the faults that they may have, and
  `Machine.UpToOrder` the machines that have executed the same steps.
* `addSlots_upToOrder` and `compareSlots_upToOrder` are the two places where operands are looked up
  in the other order.
* `Instruction.UpToOrder.execute` is what follows for an instruction, `Machine.UpToOrder.step` for a
  step, and `Machine.run_up_to_operand_order` for runs.
-/

namespace StackMachine

/-- The instructions are the same, except that the summands of an addition or the numbers compared
for equality may be exchanged. -/
inductive Instruction.UpToOrder : Instruction → Instruction → Prop
  | same
      (i : Instruction) :
      UpToOrder i i
  | add
      (a b : Word) :
      UpToOrder (.add a b) (.add b a)
  | jumpIfEqual
      (a b t : Word) :
      UpToOrder (.jumpIfEqual a b t) (.jumpIfEqual b a t)

/-- The faults are the same, except that they may name the operands in the other order, or another
one of two operands that are out of range. -/
inductive Fault.UpToOrder : Fault → Fault → Prop
  | same
      (f : Fault) :
      UpToOrder f f
  | offsetOutOfRange
      (p q depth : Nat) :
      UpToOrder (.offsetOutOfRange p depth) (.offsetOutOfRange q depth)
  | sameSlot
      (a b depth : Nat) :
      UpToOrder (.sameSlot a b depth) (.sameSlot b a depth)
  | addOverflow
      (x y : Int) :
      UpToOrder (.addOverflow x y) (.addOverflow y x)

/-- The effects are the same, or faults up to the order of operands. -/
inductive Effect.UpToOrder : Effect → Effect → Prop
  | same
      (effect : Effect) :
      UpToOrder effect effect
  | fault
      {f f' : Fault}
      (h : f.UpToOrder f') :
      UpToOrder (.fault f) (.fault f')

/-- The failures are at the same position and of the same family. -/
structure Failure.UpToOrder (e e' : Failure) : Prop where
  pc : e'.pc = e.pc
  instruction : e.instruction.UpToOrder e'.instruction
  family : e'.fault.family = e.fault.family
  fault : e.fault.UpToOrder e'.fault

/-- The attempts are at the same position, on the same stack. -/
structure Attempt.UpToOrder (a a' : Attempt) : Prop where
  pc : a'.pc = a.pc
  instruction : a.instruction.UpToOrder a'.instruction
  stack : a'.stack = a.stack

/-- The machines are the same, except for the order of operands in their programs, and in the
instructions that their traces show. -/
structure Machine.UpToOrder (m n : Machine) : Prop where
  program : List.Forall₂ Instruction.UpToOrder m.program.toList n.program.toList
  stack : n.stack = m.stack
  pc : n.pc = m.pc
  steps : n.steps = m.steps
  stepLimit : n.stepLimit = m.stepLimit
  tracing : n.tracing = m.tracing
  trace : List.Forall₂ Attempt.UpToOrder m.trace.toList n.trace.toList

/-! ## The relations -/

theorem Instruction.UpToOrder.symm
    {i j : Instruction}
    (h : i.UpToOrder j) :
    j.UpToOrder i := by
  cases h with
  | same i => exact .same i
  | add a b => exact .add b a
  | jumpIfEqual a b t => exact .jumpIfEqual b a t

theorem Fault.UpToOrder.symm
    {f f' : Fault}
    (h : f.UpToOrder f') :
    f'.UpToOrder f := by
  cases h with
  | same f => exact .same f
  | offsetOutOfRange p q depth => exact .offsetOutOfRange q p depth
  | sameSlot a b depth => exact .sameSlot b a depth
  | addOverflow x y => exact .addOverflow y x

theorem Fault.UpToOrder.family
    {f f' : Fault}
    (h : f.UpToOrder f') :
    f'.family = f.family := by
  cases h <;> rfl

theorem Attempt.UpToOrder.symm
    {a a' : Attempt}
    (h : a.UpToOrder a') :
    a'.UpToOrder a :=
  ⟨h.pc.symm, h.instruction.symm, h.stack.symm⟩

theorem Failure.UpToOrder.symm
    {e e' : Failure}
    (h : e.UpToOrder e') :
    e'.UpToOrder e :=
  ⟨h.pc.symm, h.instruction.symm, h.family.symm, h.fault.symm⟩

/-! ## Operations on slots -/

variable {stack : Stack} {a : Word}

theorem error_of_slot
    {f : Fault}
    (h : slot stack a = .error f) :
    f = .offsetOutOfRange a.toNat stack.size := by
  rw [slot] at h
  split at h
  · cases h
  · cases h
    rfl

theorem error_of_peek
    {f : Fault}
    (h : peek stack a = .error f) :
    f = .offsetOutOfRange a.toNat stack.size := by
  cases hslot : slot stack a with
  | error f' =>
      rw [peek, hslot] at h
      cases h
      exact error_of_slot hslot
  | ok k =>
      rw [peek, hslot] at h
      cases h

/-- Two look-ups may be exchanged if what is done with their results is the same up to the order of
operands. -/
theorem resultsUpTo_of_lookups
    {α β : Type} {x y : Except Fault α} {f g : α → α → Except Fault β} {p q depth : Nat}
    (hx : ∀ e, x = .error e → e = .offsetOutOfRange p depth)
    (hy : ∀ e, y = .error e → e = .offsetOutOfRange q depth)
    (hfg : ∀ u v, ResultsUpTo Fault.UpToOrder (f u v) (g v u)) :
    ResultsUpTo Fault.UpToOrder
      (x >>= fun u => y >>= fun v => f u v)
      (y >>= fun v => x >>= fun u => g v u) := by
  cases x with
  | error e =>
      obtain rfl := hx e rfl
      cases y with
      | error e' =>
          obtain rfl := hy e' rfl
          exact .error (.offsetOutOfRange p q depth)
      | ok v =>
          exact .error (.same _)
  | ok u =>
      cases y with
      | error e' =>
          exact .error (.same _)
      | ok v =>
          exact hfg u v

/-- The summands of an addition may be exchanged. -/
theorem addSlots_upToOrder
    (stack : Stack) (a b : Word) :
    ResultsUpTo Fault.UpToOrder (addSlots stack a b) (addSlots stack b a) := by
  refine resultsUpTo_of_lookups (fun _ => error_of_slot) (fun _ => error_of_slot) fun i j => ?_
  by_cases hsame : i = j
  · rw [if_pos hsame, if_pos hsame.symm]
    exact .error (.sameSlot _ _ _)
  · rw [if_neg hsame, if_neg (Ne.symm hsame)]
    simp only [Int.add_comm stack[j] stack[i], TopFirst.eraseTwo_comm stack j i]
    split
    · exact .ok _
    · exact .error (.addOverflow _ _)

/-- The numbers compared for equality may be exchanged. -/
theorem compareSlots_upToOrder
    (stack : Stack) (a b : Word) :
    ResultsUpTo Fault.UpToOrder (compareSlots stack a b fun x y => x == y)
      (compareSlots stack b a fun x y => x == y) := by
  refine resultsUpTo_of_lookups (fun _ => error_of_peek) (fun _ => error_of_peek) fun x y => ?_
  have hcomm : (y == x) = (x == y) := BEq.comm
  show ResultsUpTo Fault.UpToOrder (.ok (x == y)) (.ok (y == x))
  rw [hcomm]
  exact .ok _

/-! ## Instructions -/

theorem Effect.ofStack_upToOrder
    {r r' : Except Fault Stack}
    (h : ResultsUpTo Fault.UpToOrder r r') :
    (Effect.ofStack r).UpToOrder (Effect.ofStack r') := by
  cases h with
  | ok stack => exact .same _
  | error hf => exact .fault hf

theorem Effect.ofCondition_upToOrder
    {r r' : Except Fault Bool}
    (h : ResultsUpTo Fault.UpToOrder r r')
    (stack : Stack) (t : Word) :
    (Effect.ofCondition stack t r).UpToOrder (Effect.ofCondition stack t r') := by
  cases h with
  | ok holds => exact .same _
  | error hf => exact .fault hf

/-- Exchanging operands changes what an instruction does only in what it says of a fault. -/
theorem Instruction.UpToOrder.execute
    {i j : Instruction} {stack : Stack} {c c' : Console} {effect : Effect}
    (h : i.UpToOrder j)
    (heffect : i.execute stack c = (effect, c')) :
    ∃ effect' : Effect, j.execute stack c = (effect', c') ∧ effect.UpToOrder effect' := by
  cases h with
  | same i =>
      exact ⟨effect, heffect, .same effect⟩
  | add a b =>
      cases heffect
      exact ⟨_, rfl, Effect.ofStack_upToOrder (addSlots_upToOrder stack a b)⟩
  | jumpIfEqual a b t =>
      cases heffect
      exact ⟨_, rfl, Effect.ofCondition_upToOrder (compareSlots_upToOrder stack a b) stack t⟩

/-! ## Programs -/

/-- Related lists are related at every position. -/
theorem exists_getElem?_of_forall₂
    {α : Type} {R : α → α → Prop} {l l' : List α} {k : Nat} {x : α}
    (h : List.Forall₂ R l l')
    (hx : l[k]? = some x) :
    ∃ y : α, l'[k]? = some y ∧ R x y := by
  induction h generalizing k with
  | nil =>
      cases hx
  | @cons a b l l' hab _ ih =>
      cases k with
      | zero =>
          cases hx
          exact ⟨b, rfl, hab⟩
      | succ k =>
          exact ih hx

namespace Machine

variable {m m' n : Machine} {c c' : Console} {i j : Instruction} {effect effect' : Effect}

/-! ## Machines -/

theorem UpToOrder.symm
    (h : m.UpToOrder n) :
    n.UpToOrder m where
  program := (h.program.imp fun _ _ => Instruction.UpToOrder.symm).flip
  stack := h.stack.symm
  pc := h.pc.symm
  steps := h.steps.symm
  stepLimit := h.stepLimit.symm
  tracing := h.tracing.symm
  trace := (h.trace.imp fun _ _ => Attempt.UpToOrder.symm).flip

theorem UpToOrder.limitReached
    (h : m.UpToOrder n) :
    n.limitReached = m.limitReached := by
  rw [Machine.limitReached, Machine.limitReached, h.stepLimit, h.steps]

theorem UpToOrder.halted
    (h : m.UpToOrder n)
    (hm : m.program[m.pc]? = none) :
    n.program[n.pc]? = none := by
  rw [← Array.getElem?_toList, List.getElem?_eq_none_iff] at hm ⊢
  rwa [h.pc, ← h.program.length_eq]

/-- The next instructions are the same up to the order of operands. -/
theorem UpToOrder.next
    (h : m.UpToOrder n)
    (hi : m.program[m.pc]? = some i) :
    ∃ j : Instruction, n.program[n.pc]? = some j ∧ i.UpToOrder j := by
  rw [← Array.getElem?_toList] at hi ⊢
  rw [h.pc]
  exact exists_getElem?_of_forall₂ h.program hi

theorem UpToOrder.record
    (h : m.UpToOrder n)
    (hij : i.UpToOrder j) :
    (m.record i).UpToOrder (n.record j) := by
  have hattempt : Attempt.UpToOrder ⟨m.pc, i, m.stack⟩ ⟨n.pc, j, n.stack⟩ :=
    ⟨h.pc, hij, h.stack⟩
  rw [record_eq, record_eq]
  refine ⟨h.program, h.stack, h.pc, h.steps, h.stepLimit, h.tracing, ?_⟩
  rw [h.tracing]
  cases m.tracing with
  | true =>
      simp only [↓reduceIte, Array.toList_push]
      exact List.rel_append h.trace (.cons hattempt .nil)
  | false =>
      exact h.trace

theorem UpToOrder.after
    (h : m.UpToOrder n)
    (hij : i.UpToOrder j)
    (heffect : effect.UpToOrder effect') :
    (m.after i effect).UpToOrder (n.after j effect') := by
  have hrecord := h.record hij
  cases heffect with
  | same effect =>
      cases effect with
      | done stack target =>
          refine ⟨hrecord.program, rfl, ?_, ?_, hrecord.stepLimit, hrecord.tracing, hrecord.trace⟩
          · simp only [Machine.after, h.pc]
          · simp only [Machine.after, h.steps]
      | endOfInput =>
          exact hrecord
      | fault f =>
          exact hrecord
  | fault _ =>
      exact hrecord

/-! ## Steps and runs -/

/-- What effects up to the order of operands come to. -/
theorem stepsUpTo_result
    (h : m.UpToOrder n)
    (hij : i.UpToOrder j)
    (heffect : effect.UpToOrder effect') :
    StepsUpTo Failure.UpToOrder (effect.result m.pc i) (effect'.result n.pc j) := by
  have hfailed : ∀ f f' : Fault, f.UpToOrder f' →
      StepsUpTo Failure.UpToOrder (.failed ⟨m.pc, i, f⟩) (.failed ⟨n.pc, j, f'⟩) :=
    fun f f' hf => .failed ⟨h.pc, hij, hf.family, hf⟩
  cases heffect with
  | same effect =>
      cases effect with
      | done stack target => exact .advanced
      | endOfInput => exact .stopped .endOfInput
      | fault f => exact hfailed f f (.same f)
  | fault hf =>
      exact hfailed _ _ hf

/-- Exchanging operands changes what a step does only in what it says of a failure. -/
theorem UpToOrder.step
    {s : StepResult}
    (h : m.UpToOrder n)
    (hstep : m.step c = (s, m', c')) :
    ∃ (s' : StepResult) (n' : Machine),
      n.step c = (s', n', c') ∧ StepsUpTo Failure.UpToOrder s s' ∧ m'.UpToOrder n' := by
  obtain ⟨hm, rfl, rfl, rfl⟩ | ⟨i, effect, hi, heffect, rfl, rfl⟩ := effect_cases_of_step hstep
  · exact ⟨_, n, step_of_halted (h.halted hm), .stopped .programEnd, h⟩
  · obtain ⟨j, hj, hij⟩ := h.next hi
    obtain ⟨effect', heffect', horder⟩ := hij.execute heffect
    rw [← h.stack] at heffect'
    exact ⟨_, _, step_of_execute hj heffect', stepsUpTo_result h hij horder, h.after hij horder⟩

theorem simulation_upToOrder :
    StepSimulation (fun _ => False) Failure.UpToOrder fun m c n d => m.UpToOrder n ∧ d = c where
  limitReached h := h.1.limitReached
  step h hstep _ := by
    obtain ⟨horder, rfl⟩ := h
    obtain ⟨s', n', hstep', hs', horder'⟩ := horder.step hstep
    exact ⟨s', n', _, hstep', hs', horder', rfl⟩
  flush h := ⟨h.1, congrArg Console.flush h.2⟩
  advanced := id

/-- A machine with one program is the machine with the other one, up to the order of operands. -/
theorem upToOrder_of_programs
    {p q : Program}
    (hpq : List.Forall₂ Instruction.UpToOrder p q)
    (hm : m.program = p.toArray)
    (hn : n = { m with program := q.toArray }) :
    m.UpToOrder n := by
  subst hn
  refine ⟨?_, rfl, rfl, rfl, rfl, rfl, ?_⟩
  · rw [hm]
    exact hpq
  · exact List.forall₂_same.2 fun a _ => ⟨rfl, .same _, rfl⟩

/-- **The order of the operands of additions and of comparisons for equality does not matter to a
program.**  Let two machines differ only in their programs, and these only in that order.  On any
console each number of executed steps leads both to the same stack, position and count of steps, and
to the same console; and their runs end with the same reason to stop, or with failures of the same
family at the same position, and leave the same console. -/
theorem run_up_to_operand_order
    {p q : Program} {m n : Machine}
    (hpq : List.Forall₂ Instruction.UpToOrder p q)
    (hm : m.program = p.toArray)
    (hn : n = { m with program := q.toArray })
    (c : Console) :
    (∀ (k : Nat) (m' : Machine) (c' : Console), Advances k m c m' c' →
      ∃ n' : Machine, Advances k n c n' c' ∧ m'.UpToOrder n') ∧
    (∀ (k : Nat) (n' : Machine) (c' : Console), Advances k n c n' c' →
      ∃ m' : Machine, Advances k m c m' c' ∧ m'.UpToOrder n') ∧
    (∀ (r : RunResult) (m' : Machine) (c' : Console), m.Runs c r m' c' →
      ∃ (r' : RunResult) (n' : Machine),
        n.Runs c r' n' c' ∧ ResultsUpTo Failure.UpToOrder r r' ∧ m'.UpToOrder n') ∧
    (∀ (r' : RunResult) (n' : Machine) (c' : Console), n.Runs c r' n' c' →
      ∃ (r : RunResult) (m' : Machine),
        m.Runs c r m' c' ∧ ResultsUpTo Failure.UpToOrder r r' ∧ m'.UpToOrder n') := by
  have horder : m.UpToOrder n := upToOrder_of_programs hpq hm hn
  refine ⟨?_, ?_, ?_, ?_⟩
  · intro k m' c' hadvances
    obtain ⟨n', d', hadvances', horder', rfl⟩ :=
      simulation_upToOrder.advances ⟨horder, rfl⟩ hadvances
    exact ⟨n', hadvances', horder'⟩
  · intro k n' c' hadvances
    obtain ⟨m', d', hadvances', horder', rfl⟩ :=
      simulation_upToOrder.advances ⟨horder.symm, rfl⟩ hadvances
    exact ⟨m', hadvances', horder'.symm⟩
  · intro r m' c' hruns
    obtain ⟨r', n', d', hruns', hr', horder', rfl⟩ :=
      simulation_upToOrder.runs ⟨horder, rfl⟩ hruns id
    exact ⟨r', n', hruns', hr', horder'⟩
  · intro r' n' c' hruns
    obtain ⟨r, m', d', hruns', hr', horder', rfl⟩ :=
      simulation_upToOrder.runs ⟨horder.symm, rfl⟩ hruns id
    exact ⟨r, m', hruns', hr'.symm fun _ _ => Failure.UpToOrder.symm, horder'.symm⟩

/-- The sum is the same, and so is the failure after it, whose operands are both out of range. -/
theorem run_up_to_operand_order_sum :
    let p : Program := [.push 1, .push 2, .add 0 1, .add 7 5]
    let q : Program := [.push 1, .push 2, .add 1 0, .add 5 7]
    let m : Machine := .start p false (some 9)
    let n : Machine := .start q false (some 9)
    let c : Console := .ofInput []
    List.Forall₂ Instruction.UpToOrder p q ∧ m.program = p.toArray ∧
      n = { m with program := q.toArray } ∧
      ∃ (e' : Failure) (n' : Machine),
        n.Runs c (.error e') n' c.flush ∧ n'.stack = #[3] ∧ n'.pc = 3 ∧ n'.steps = 3 ∧
        e'.pc = 3 ∧ e'.fault.family = .bounds := by
  intro p q m n c
  have hpq : List.Forall₂ Instruction.UpToOrder p q :=
    .cons (.same _) (.cons (.same _) (.cons (.add 0 1) (.cons (.add 7 5) .nil)))
  have hruns : m.Runs c (.error ⟨3, .add 7 5, .offsetOutOfRange 7 1⟩)
      ⟨p.toArray, #[3], 3, 3, some 9, false, #[]⟩ c.flush := ⟨9, by decide +kernel⟩
  obtain ⟨-, -, hforth, -⟩ := run_up_to_operand_order hpq (m := m) (n := n) rfl rfl c
  obtain ⟨r', n', hruns', hr', horder⟩ := hforth _ _ _ hruns
  refine ⟨hpq, rfl, rfl, ?_⟩
  cases hr' with
  | @error _ e' he =>
      exact ⟨e', n', hruns', horder.stack, horder.pc, horder.steps, he.pc, he.family⟩

end Machine
end StackMachine
