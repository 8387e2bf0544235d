import StackMachine.Proofs.Execution.Runs
import StackMachine.Proofs.Execution.StackChanges

/-!
# More numbers under a stack

Operands count from the top, so that numbers under a stack are out of reach: as long as no operand
is out of bounds, a machine does the same with them as without them, and they stay where they are.

* `slot_append` moves a slot up by what is put under the stack, and `peek_append`,
  `addSlots_append`, `decrementSlot_append` and `incrementSlot_append` are the operations on slots.
* `Instruction.execute_append` is the rule for one instruction.
* `Machine.Framed` relates two machines, the second of which has more numbers under its stack, and
  `Machine.simulation_framed` carries the rule over to runs.
* `Machine.run_on_base` puts steps and runs together.
-/

namespace StackMachine

/-- The result is no fault of an operand that is out of bounds. -/
def InBounds {α : Type} (x : Except Fault α) : Prop :=
  ∀ f : Fault, x = .error f → f.family ≠ .bounds

/-- The step failed as an operand was out of bounds. -/
def StepResult.IsOutOfBounds : StepResult → Prop
  | failed e => e.fault.family = .bounds
  | advanced | stopped _ => False

instance : DecidablePred StepResult.IsOutOfBounds
  | .failed e => inferInstanceAs (Decidable (e.fault.family = .bounds))
  | .advanced | .stopped _ => inferInstanceAs (Decidable False)

/-- The effect with more numbers under the stack. -/
def Effect.onBase (base : Stack) : Effect → Effect
  | done stack target => .done (base ++ stack) target
  | endOfInput => .endOfInput
  | fault f => .fault f

/-- The attempt with more numbers under the stack. -/
def Attempt.onBase (base : Stack) (a : Attempt) : Attempt :=
  { a with stack := base ++ a.stack }

variable {α β : Type} {base stack : Stack} {p : Word} {c c' : Console} {i : Instruction}

/-! ## Slots -/

/-- The slot above the base. -/
def aboveBase (base : Stack) (k : Fin stack.size) : Fin (base ++ stack).size :=
  ⟨base.size + k, by rw [Array.size_append]; omega⟩

theorem slot_append
    {k : Fin stack.size}
    (h : slot stack p = .ok k)
    (base : Stack) :
    slot (base ++ stack) p = .ok (aboveBase base k) := by
  unfold slot at h
  split at h
  · next hlt =>
      cases h
      have hlt' : p.toNat < (base ++ stack).size := by
        rw [Array.size_append]
        omega
      rw [slot, dif_pos hlt']
      simp only [aboveBase, Except.ok.injEq, Fin.mk.injEq, Array.size_append]
      omega
  · cases h

theorem getElem_aboveBase
    (k : Fin stack.size)
    (h : k.val < stack.size)
    (h' : (aboveBase base k).val < (base ++ stack).size) :
    (base ++ stack)[(aboveBase base k).val] = stack[k.val] := by
  simp [aboveBase]

theorem set_aboveBase
    (k : Fin stack.size) (n : Int) :
    (base ++ stack).set (aboveBase base k) n (aboveBase base k).isLt =
      base ++ stack.set k n k.isLt := by
  have hindex : base.size + k.val - base.size = k := by omega
  simp only [aboveBase]
  rw [Array.set_append_right _ (Nat.le_add_right _ _)]
  simp only [hindex]

theorem eraseTwo_append
    {j k : Nat}
    (hne : j ≠ k)
    (base stack : Stack) :
    eraseTwo (base ++ stack) (base.size + j) (base.size + k) = base ++ eraseTwo stack j k := by
  have hlength : base.toList.length = base.size := Array.length_toList
  -- The second index is one less than the larger one, and still above the base as the two differ.
  have hmin : min (base.size + j) (base.size + k) = base.size + min j k := by omega
  have hmax : max (base.size + j) (base.size + k) - 1 = base.size + (max j k - 1) := by omega
  have hlow : base.size + min j k - base.toList.length = min j k := by omega
  have hhigh : base.size + (max j k - 1) - base.toList.length = max j k - 1 := by omega
  apply Array.toList_inj.1
  rw [toList_eraseTwo, hmin, hmax, Array.toList_append, Array.toList_append, toList_eraseTwo,
    List.eraseIdx_append_of_length_le (by omega), hlow,
    List.eraseIdx_append_of_length_le (by omega), hhigh]

/-! ## Operations on slots -/

theorem InBounds.of_bind
    {x : Except Fault α} {f : α → Except Fault β}
    (h : InBounds (x >>= f)) :
    InBounds x := by
  rintro fault rfl
  exact h fault rfl

theorem InBounds.of_bind_ok
    {x : Except Fault α} {f : α → Except Fault β} {a : α}
    (h : InBounds (x >>= f))
    (hx : x = .ok a) :
    InBounds (f a) := by
  subst hx
  exact h

theorem InBounds.exists_slot
    (h : InBounds (slot stack p)) :
    ∃ k : Fin stack.size, slot stack p = .ok k := by
  unfold slot at h ⊢
  split
  · exact ⟨_, rfl⟩
  · next hle =>
      rw [dif_neg hle] at h
      exact absurd rfl (h _ rfl)

theorem peek_append
    (h : InBounds (peek stack p))
    (base : Stack) :
    peek (base ++ stack) p = peek stack p := by
  obtain ⟨k, hk⟩ := h.of_bind.exists_slot
  rw [peek, peek, slot_append hk, hk]
  simp only [bind, Except.bind, Fin.getElem_fin, getElem_aboveBase k k.isLt]

theorem byteAt_append
    (h : InBounds (byteAt stack p))
    (base : Stack) :
    byteAt (base ++ stack) p = byteAt stack p := by
  rw [byteAt, byteAt, peek_append h.of_bind]

theorem compareSlots_append
    {a b : Word} {holds : Int → Int → Bool}
    (h : InBounds (compareSlots stack a b holds))
    (base : Stack) :
    compareSlots (base ++ stack) a b holds = compareSlots stack a b holds := by
  rw [compareSlots, compareSlots, peek_append h.of_bind]
  cases hx : peek stack a with
  | error f =>
      rfl
  | ok x =>
      rw [peek_append (h.of_bind_ok hx).of_bind]

theorem addSlots_append
    {a b : Word}
    (h : InBounds (addSlots stack a b))
    (base : Stack) :
    addSlots (base ++ stack) a b = (base ++ ·) <$> addSlots stack a b := by
  obtain ⟨j, hj⟩ := h.of_bind.exists_slot
  have hrest := h.of_bind_ok hj
  obtain ⟨k, hk⟩ := hrest.of_bind.exists_slot
  have hsum := hrest.of_bind_ok hk
  have hsame : aboveBase base j = aboveBase base k ↔ j = k := by
    simp [aboveBase, Fin.ext_iff]
  rw [addSlots, addSlots, slot_append hj, slot_append hk, hj, hk]
  simp only [bind, Except.bind, Fin.getElem_fin, getElem_aboveBase j j.isLt,
    getElem_aboveBase k k.isLt, hsame]
  by_cases hne : j = k
  · rw [if_pos hne] at hsum
    exact absurd rfl (hsum _ rfl)
  · rw [if_neg hne, if_neg hne]
    simp only [aboveBase]
    rw [eraseTwo_append (mt Fin.ext hne)]
    split
    · exact congrArg Except.ok Array.push_append
    · rfl

theorem decrementSlot_append
    (h : InBounds (decrementSlot stack p))
    (base : Stack) :
    decrementSlot (base ++ stack) p = (base ++ ·) <$> decrementSlot stack p := by
  obtain ⟨k, hk⟩ := h.of_bind.exists_slot
  rw [decrementSlot, decrementSlot, slot_append hk, hk]
  simp only [bind, Except.bind, Fin.getElem_fin, getElem_aboveBase k k.isLt, set_aboveBase]
  split
  · rfl
  · rfl

theorem incrementSlot_append
    (h : InBounds (incrementSlot stack p))
    (base : Stack) :
    incrementSlot (base ++ stack) p = (base ++ ·) <$> incrementSlot stack p := by
  obtain ⟨k, hk⟩ := h.of_bind.exists_slot
  rw [incrementSlot, incrementSlot, slot_append hk, hk]
  simp only [bind, Except.bind, Fin.getElem_fin, getElem_aboveBase k k.isLt, set_aboveBase]
  split
  · rfl
  · rfl

/-! ## Instructions -/

theorem Effect.ofStack_onBase
    (base : Stack) (x : Except Fault Stack) :
    ofStack ((base ++ ·) <$> x) = (ofStack x).onBase base := by
  cases x <;> rfl

theorem Effect.ofCondition_onBase
    (base stack : Stack) (target : Word) (x : Except Fault Bool) :
    ofCondition (base ++ stack) target x = (ofCondition stack target x).onBase base := by
  rcases x with f | - | - <;> rfl

theorem emit_append
    (base stack : Stack) (c : Console) (bytes : Except Fault (List UInt8)) :
    emit (base ++ stack) c bytes =
      ((emit stack c bytes).1.onBase base, (emit stack c bytes).2) := by
  cases bytes with
  | error f =>
      rfl
  | ok bytes =>
      rw [emit, emit]
      rcases c.write bytes with ⟨- | -, c'⟩
      · rfl
      · rfl

theorem acceptNumber_append
    (base stack : Stack) (c : Console) :
    acceptNumber (base ++ stack) c =
      ((acceptNumber stack c).1.onBase base, (acceptNumber stack c).2) := by
  rw [acceptNumber, acceptNumber]
  rcases c.flush.readLine with ⟨- | ⟨b, line⟩, c'⟩
  · rfl
  · simp only
    split
    · simp only [Effect.onBase, Array.push_append]
    · rfl

theorem acceptByte_append
    (base stack : Stack) (c : Console) :
    acceptByte (base ++ stack) c =
      ((acceptByte stack c).1.onBase base, (acceptByte stack c).2) := by
  rw [acceptByte, acceptByte]
  rcases c.flush.readByte with ⟨- | b, c'⟩
  · rfl
  · simp only [Effect.onBase, Array.push_append]

theorem inBounds_of_ofStack
    {x : Except Fault Stack}
    (h : ∀ f : Fault, Effect.ofStack x = .fault f → f.family ≠ .bounds) :
    InBounds x := by
  rintro f rfl
  exact h f rfl

theorem inBounds_of_ofCondition
    {target : Word} {x : Except Fault Bool}
    (h : ∀ f : Fault, Effect.ofCondition stack target x = .fault f → f.family ≠ .bounds) :
    InBounds x := by
  rintro f rfl
  exact h f rfl

theorem inBounds_of_emit
    {bytes : Except Fault (List UInt8)}
    (h : ∀ f : Fault, (emit stack c bytes).1 = .fault f → f.family ≠ .bounds) :
    InBounds bytes := by
  rintro f rfl
  exact h f rfl

/-- An instruction whose operands are not out of bounds does the same with more numbers under the
stack, and leaves them there. -/
theorem Instruction.execute_append
    (h : ∀ f : Fault, (i.execute stack c).1 = .fault f → f.family ≠ .bounds)
    (base : Stack) :
    i.execute (base ++ stack) c =
      ((i.execute stack c).1.onBase base, (i.execute stack c).2) := by
  cases i with
  | push w =>
      simp only [execute, Effect.onBase, Array.push_append]
  | printNumber p =>
      have hpeek : InBounds (peek stack p) := (inBounds_of_emit h).of_bind
      rw [execute, execute, peek_append hpeek, emit_append]
  | readNumber =>
      exact acceptNumber_append base stack c
  | printText text =>
      exact emit_append base stack c (.ok (textLine text))
  | copy p =>
      have hpush : InBounds (stack.push <$> peek stack p) := inBounds_of_ofStack h
      rw [execute, execute, peek_append hpush.of_bind]
      rcases peek stack p with f | n
      · rfl
      · simp only [Functor.map, Except.map, Effect.ofStack, Effect.onBase, Array.push_append]
  | add a b =>
      rw [execute, execute, addSlots_append (inBounds_of_ofStack h), Effect.ofStack_onBase]
  | jumpIfGreater a b t =>
      rw [execute, execute, compareSlots_append (inBounds_of_ofCondition h),
        Effect.ofCondition_onBase]
  | jumpIfEqual a b t =>
      rw [execute, execute, compareSlots_append (inBounds_of_ofCondition h),
        Effect.ofCondition_onBase]
  | jump t =>
      rfl
  | decrement p =>
      rw [execute, execute, decrementSlot_append (inBounds_of_ofStack h), Effect.ofStack_onBase]
  | increment p =>
      rw [execute, execute, incrementSlot_append (inBounds_of_ofStack h), Effect.ofStack_onBase]
  | readByte =>
      exact acceptByte_append base stack c
  | printByte p =>
      have hbyte : InBounds (byteAt stack p) := (inBounds_of_emit h).of_bind
      rw [execute, execute, byteAt_append hbyte, emit_append]

/-! ## Steps and runs -/

namespace Machine

variable {m m' n : Machine} {earlier : Array Attempt}

/-- The machine with more numbers under its stack. -/
def onBase (base : Stack) (m : Machine) : Machine :=
  { m with stack := base ++ m.stack }

/-- The second machine has more numbers under its stack, and under the stacks of the attempts that
its trace has after the earlier ones. -/
def Framed (base : Stack) (earlier : Array Attempt) (m n : Machine) : Prop :=
  ∃ rest : Array Attempt, m.trace = earlier ++ rest ∧
    n = { m with
      stack := base ++ m.stack
      trace := earlier ++ rest.map (Attempt.onBase base) }

theorem framed_onBase
    (base : Stack) (m : Machine) :
    m.Framed base m.trace (m.onBase base) :=
  ⟨#[], Array.append_empty.symm, by rw [Array.map_empty, Array.append_empty, onBase]⟩

theorem Framed.after
    (h : m.Framed base earlier n)
    (i : Instruction) (effect : Effect) :
    (m.after i effect).Framed base earlier (n.after i (effect.onBase base)) := by
  obtain ⟨rest, htrace, rfl⟩ := h
  refine ⟨if m.tracing then rest.push ⟨m.pc, i, m.stack⟩ else rest, ?_, ?_⟩
  · cases effect <;> simp only [Machine.after, record_eq, htrace] <;> split <;> simp
  · cases effect <;> simp only [Machine.after, record_eq, Effect.onBase] <;> split <;>
      simp [Attempt.onBase]

/-- Until an operand is out of bounds, numbers under the stack do not matter. -/
theorem simulation_framed
    (base : Stack) (earlier : Array Attempt) :
    Simulation StepResult.IsOutOfBounds fun m c n d => m.Framed base earlier n ∧ d = c where
  program := by
    rintro m n c d ⟨⟨rest, -, rfl⟩, -⟩
    rfl
  pc := by
    rintro m n c d ⟨⟨rest, -, rfl⟩, -⟩
    rfl
  limitReached := by
    rintro m n c d ⟨⟨rest, -, rfl⟩, -⟩
    rfl
  execute := by
    rintro m n c d c' i effect ⟨hframed, rfl⟩ hi heffect hr
    obtain ⟨rest, -, hn⟩ := id hframed
    have hbounds : ∀ f : Fault, (i.execute m.stack d).1 = .fault f → f.family ≠ .bounds := by
      intro f hf hfamily
      rw [heffect] at hf
      obtain rfl : effect = .fault f := hf
      exact hr hfamily
    have hexecute := Instruction.execute_append hbounds base
    rw [heffect] at hexecute
    refine ⟨effect.onBase base, c', ?_, ?_, hframed.after i effect, rfl⟩
    · rw [hn]
      exact hexecute
    · cases effect <;> rfl
  flush := by
    rintro m n c d ⟨hframed, rfl⟩
    exact ⟨hframed, rfl⟩
  advanced := id

/-- Until an operand is out of bounds, a machine with more numbers under its stack attempts the same
steps with the same results, executes the same steps up to its limit, and runs to the same end or
does not end either.  It does the same with the console, and the stacks differ in those numbers
only. -/
theorem run_on_base
    (base : Stack) (m : Machine) (c : Console) :
    (∀ results m' c', Attempts results m c m' c' → (∀ s ∈ results, ¬ s.IsOutOfBounds) →
      ∃ n', Attempts results (m.onBase base) c n' c' ∧ m'.Framed base m.trace n') ∧
    (∀ k m' c', Advances k m c m' c' →
      ∃ n', Advances k (m.onBase base) c n' c' ∧ m'.Framed base m.trace n') ∧
    (∀ r m' c', m.Runs c r m' c' → ¬ r.lastStep.IsOutOfBounds →
      ∃ n', (m.onBase base).Runs c r n' c' ∧ m'.Framed base m.trace n') ∧
    (m.RunsForever c → (m.onBase base).RunsForever c) := by
  have hsimulation := simulation_framed base m.trace
  have hframed := framed_onBase base m
  refine ⟨?_, ?_, ?_, ?_⟩
  · intro results m' c' hattempts hresults
    obtain ⟨n', d', hattempts', hframed', rfl⟩ :=
      hsimulation.attempts ⟨hframed, rfl⟩ hattempts hresults
    exact ⟨n', hattempts', hframed'⟩
  · intro k m' c' hadvances
    obtain ⟨n', d', hadvances', hframed', rfl⟩ :=
      hsimulation.advances ⟨hframed, rfl⟩ hadvances
    exact ⟨n', hadvances', hframed'⟩
  · intro r m' c' hruns hr
    obtain ⟨n', d', hruns', hframed', rfl⟩ := hsimulation.runs ⟨hframed, rfl⟩ hruns hr
    exact ⟨n', hruns', hframed'⟩
  · intro hforever
    exact hsimulation.runsForever ⟨hframed, rfl⟩ hforever

/-- Two numbers are added, which moves the slots, and zero cannot be decreased, neither by a run nor
by another attempt. -/
theorem run_on_base_underflow :
    let m : Machine := ⟨#[.add 0 1, .decrement 1], #[0, 3, 4], 0, 7, some 9, false, #[]⟩
    let m' : Machine := { m with stack := #[0, 7], pc := 1, steps := 8 }
    let c : Console := .ofInput []
    let e : Failure := ⟨1, .decrement 1, .decrementUnderflow⟩
    let results : List StepResult := [.advanced, .failed e, .failed e]
    m.Runs c (.error e) m' c.flush ∧ ¬ (StepResult.failed e).IsOutOfBounds ∧
    (∃ n', (m.onBase #[5, 6]).Runs c (.error e) n' c.flush ∧ m'.Framed #[5, 6] #[] n') ∧
    Attempts results m c m' c ∧ (∀ s ∈ results, ¬ s.IsOutOfBounds) ∧
    (∃ n', Attempts results (m.onBase #[5, 6]) c n' c ∧ m'.Framed #[5, 6] #[] n') := by
  intro m m' c e results
  have hruns : m.Runs c (.error e) m' c.flush := ⟨9, by decide +kernel⟩
  have hfails : ¬ (StepResult.failed e).IsOutOfBounds := by decide
  have hadd : m.step c = (.advanced, m', c) := by decide +kernel
  have hdecrement : m'.step c = (.failed e, m', c) := rfl
  have hattempts : Attempts results m c m' c :=
    .cons hadd (.cons hdecrement (.cons hdecrement (.nil m' c)))
  have hresults : ∀ s ∈ results, ¬ s.IsOutOfBounds := by decide
  obtain ⟨hattempts', -, hruns', -⟩ := run_on_base #[5, 6] m c
  exact ⟨hruns, hfails, hruns' _ m' _ hruns hfails, hattempts, hresults,
    hattempts' results m' c hattempts hresults⟩

end Machine
end StackMachine
