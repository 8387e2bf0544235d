import StackMachine.Session
import StackMachine.Proofs.Execution.Atomicity
import StackMachine.Proofs.Execution.Runs

/-!
# Histories of machines

The history of a machine lists the steps that it attempts, each with what it comes to.  A run has
the history of its executed steps, and of the one step more that fails or finds no input, if there
is one.  What is written can be told from the history: an executed instruction that writes makes one
write, and no other attempt makes any.

* `Machine.History` is a sequence of attempts with their results, and `Machine.history` computes the
  one of a run.
* `Machine.history_of_loop` says which results the history of a run has.
* `Attempt.output?` is what an attempt writes if it is executed, and `Machine.History.writes` are
  the writes of a history.
-/

namespace StackMachine

variable {i : Instruction} {stack stack' : Stack} {c c' : Console} {target : Option Nat}

/-! ## Instructions that write -/

/-- The instruction makes a write when it is executed. -/
def Instruction.writes : Instruction → Bool
  | printNumber _ | printText _ | printByte _ => true
  | push _ | readNumber | copy _ | add _ _ | jumpIfGreater _ _ _ | jumpIfEqual _ _ _ | jump _
  | decrement _ | increment _ | readByte => false

/-- The bytes that the attempted instruction writes if it is executed. -/
def Attempt.output? (a : Attempt) : Option (List UInt8) :=
  match a.instruction with
  | .printNumber p => (numberLine <$> peek a.stack p).toOption
  | .printText text => some (textLine text)
  | .printByte p => ((fun b => [b]) <$> byteAt a.stack p).toOption
  | _ => none

theorem Console.writes_of_accepted
    {bytes : List UInt8}
    (h : c.write bytes = (true, c')) :
    c'.writes = c.writes.push bytes := by
  unfold write at h
  split at h <;> cases h <;> rfl

/-- An executed instruction makes the write that its attempt tells, if it writes at all. -/
theorem Instruction.writes_of_execute
    (h : i.execute stack c = (.done stack' target, c'))
    (pc : Nat) :
    (Attempt.output? ⟨pc, i, stack⟩).isSome = i.writes ∧
      c'.writes.toList = c.writes.toList ++ (Attempt.output? ⟨pc, i, stack⟩).toList := by
  cases i with
  | printNumber p =>
      obtain ⟨-, written, hbytes, hwrite⟩ := accepted_of_emit h
      simp [Attempt.output?, writes, hbytes, Console.writes_of_accepted hwrite, Except.toOption]
  | printText text =>
      have hemit : emit stack c (.ok (textLine text)) = (.done stack' target, c') := h
      obtain ⟨-, written, hbytes, hwrite⟩ := accepted_of_emit hemit
      cases hbytes
      simp [Attempt.output?, writes, Console.writes_of_accepted hwrite]
  | printByte p =>
      obtain ⟨-, written, hbytes, hwrite⟩ := accepted_of_emit h
      simp [Attempt.output?, writes, hbytes, Console.writes_of_accepted hwrite, Except.toOption]
  | readNumber =>
      obtain rfl := eq_of_acceptNumber h
      simp [Attempt.output?, writes, Console.readLine, Console.flush]
  | readByte =>
      obtain rfl := eq_of_acceptByte h
      simp [Attempt.output?, writes]
  | _ =>
      obtain rfl : c = c' := congrArg Prod.snd h
      simp [Attempt.output?, writes]

/-! ## Histories -/

/-- The attempts that are executed. -/
def executed (log : List (Attempt × StepResult)) : List Attempt :=
  (log.filter fun x => x.2 = .advanced).map Prod.fst

theorem executed_cons
    (a : Attempt) (s : StepResult) (log : List (Attempt × StepResult)) :
    executed ((a, s) :: log) = (if s = .advanced then [a] else []) ++ executed log := by
  by_cases h : s = .advanced
  · simp [executed, h]
  · simp [executed, h]

/-- The result of the attempt that ends a run, if it is an attempt that does. -/
def RunResult.unexecuted : RunResult → List StepResult
  | .ok .programEnd | .ok .stepLimit => []
  | .ok .endOfInput => [.stopped .endOfInput]
  | .error e => [.failed e]

namespace Machine

variable {m m' : Machine} {a : Attempt} {s : StepResult} {log : List (Attempt × StepResult)}

/-- What the machine attempts next, if it is not past the end of its program. -/
def next? (m : Machine) : Option Attempt :=
  m.program[m.pc]?.map fun i => ⟨m.pc, i, m.stack⟩

/-- Attempts one after the other, each with what it comes to.  The limit on steps is not looked at,
and an attempt that is not executed does not end them. -/
inductive History : List (Attempt × StepResult) → Machine → Console → Machine → Console → Prop
  | nil
      (m : Machine) (c : Console) :
      History [] m c m c
  | cons
      {a : Attempt} {s : StepResult} {log : List (Attempt × StepResult)}
      {m m₁ m' : Machine} {c c₁ c' : Console}
      (ha : m.next? = some a)
      (hstep : m.step c = (s, m₁, c₁))
      (rest : History log m₁ c₁ m' c') :
      History ((a, s) :: log) m c m' c'

/-- The history of a run. -/
def history : Nat → Machine → Console → List (Attempt × StepResult)
  | 0, _, _ => []
  | fuel + 1, m, c =>
      if m.limitReached then
        []
      else
        match m.next?, m.step c with
        | none, _ => []
        | some a, (.advanced, m', c') => (a, .advanced) :: history fuel m' c'
        | some a, (s, _, _) => [(a, s)]

theorem next?_eq_none_iff :
    m.next? = none ↔ m.program[m.pc]? = none := by
  rw [next?, Option.map_eq_none_iff]

/-- An attempt executes the instruction at the position on the stack. -/
theorem exists_execute_of_step
    (ha : m.next? = some a)
    (hstep : m.step c = (s, m', c')) :
    ∃ (i : Instruction) (effect : Effect),
      m.program[m.pc]? = some i ∧ a = ⟨m.pc, i, m.stack⟩ ∧
      i.execute m.stack c = (effect, c') ∧
      s = effect.result m.pc i ∧ m' = m.after i effect := by
  obtain ⟨i, hi, rfl⟩ := Option.map_eq_some_iff.1 ha
  rcases heffect : i.execute m.stack c with ⟨effect, c₁⟩
  rw [step_of_execute hi heffect] at hstep
  cases hstep
  exact ⟨i, effect, hi, rfl, heffect, rfl, rfl⟩

theorem History.single
    (ha : m.next? = some a)
    (hstep : m.step c = (s, m', c')) :
    History [(a, s)] m c m' c' :=
  .cons ha hstep (.nil m' c')

/-- Only the end of the input stops an attempt. -/
theorem eq_endOfInput_of_step
    {reason : Stop}
    (ha : m.next? = some a)
    (hstep : m.step c = (.stopped reason, m', c')) :
    reason = .endOfInput := by
  obtain ⟨i, effect, -, -, -, hresult, -⟩ := exists_execute_of_step ha hstep
  cases effect with
  | done stack target =>
      cases hresult
  | endOfInput =>
      cases hresult
      rfl
  | fault f =>
      cases hresult

/-- A run attempts its executed steps, and at most one more. -/
theorem history_of_loop
    {fuel : Nat} {r : RunResult}
    (h : loop fuel m c = some (r, m', c')) :
    History (m.history fuel c) m c m' c' ∧
      ∃ k : Nat, (m.history fuel c).map Prod.snd = List.replicate k .advanced ++ r.unexecuted := by
  induction fuel generalizing m c with
  | zero =>
      simp [loop] at h
  | succ fuel ih =>
      rw [loop] at h
      rw [history]
      split at h
      · next hlimit =>
          cases h
          rw [if_pos hlimit]
          exact ⟨.nil _ _, 0, rfl⟩
      · next hlimit =>
          rw [if_neg hlimit]
          cases hnext : m.next? with
          | none =>
              rw [step_of_halted (next?_eq_none_iff.1 hnext)] at h
              cases h
              exact ⟨.nil _ _, 0, rfl⟩
          | some a =>
              rcases hstep : m.step c with ⟨s, m₁, c₁⟩
              rw [hstep] at h
              cases s with
              | advanced =>
                  obtain ⟨hhistory, k, hresults⟩ := ih h
                  refine ⟨.cons hnext hstep hhistory, k + 1, ?_⟩
                  rw [List.map_cons, hresults, List.replicate_succ, List.cons_append]
              | stopped reason =>
                  cases h
                  obtain rfl := eq_endOfInput_of_step hnext hstep
                  exact ⟨.single hnext hstep, 0, rfl⟩
              | failed e =>
                  cases h
                  exact ⟨.single hnext hstep, 0, rfl⟩

/-- Executed steps have a history in which every attempt is executed. -/
theorem Advances.exists_history
    {k : Nat}
    (h : Advances k m c m' c') :
    ∃ log : List (Attempt × StepResult),
      History log m c m' c' ∧ log.map Prod.snd = List.replicate k .advanced := by
  induction h with
  | refl m c =>
      exact ⟨[], .nil m c, rfl⟩
  | @step k m m₁ m' c c₁ c' _ hstep _ ih =>
      obtain ⟨log, hlog, hresults⟩ := ih
      cases hnext : m.next? with
      | none =>
          rw [step_of_halted (next?_eq_none_iff.1 hnext)] at hstep
          cases hstep
      | some a =>
          refine ⟨(a, .advanced) :: log, .cons hnext hstep hlog, ?_⟩
          rw [List.map_cons, hresults, List.replicate_succ]

/-- A run has a history, after which the output is flushed. -/
theorem Runs.exists_history
    {r : RunResult}
    (h : m.Runs c r m' c') :
    ∃ (log : List (Attempt × StepResult)) (c₁ : Console) (k : Nat),
      History log m c m' c₁ ∧ c' = c₁.flush ∧
      log.map Prod.snd = List.replicate k .advanced ++ r.unexecuted := by
  obtain ⟨fuel, hrun⟩ := h
  obtain ⟨c₁, hloop, hflush⟩ := run_eq_some_iff.1 hrun
  obtain ⟨hhistory, k, hresults⟩ := history_of_loop hloop
  exact ⟨m.history fuel c, c₁, k, hhistory, hflush, hresults⟩

/-! ## Writes -/

/-- An attempt that is executed makes its write, and one that is not makes none. -/
theorem writes_of_step
    (ha : m.next? = some a)
    (hstep : m.step c = (s, m', c')) :
    (s = .advanced → a.output?.isSome = a.instruction.writes) ∧
      c'.writes.toList = c.writes.toList ++ if s = .advanced then a.output?.toList else [] := by
  obtain ⟨i, effect, -, rfl, hexecute, rfl, -⟩ := exists_execute_of_step ha hstep
  cases effect with
  | done stack target =>
      obtain ⟨hwrites, houtput⟩ := Instruction.writes_of_execute hexecute m.pc
      exact ⟨fun _ => hwrites, houtput⟩
  | endOfInput =>
      have hspared := Instruction.spared_of_execute hexecute id
      exact ⟨nofun, by simp [Effect.result, hspared.writes]⟩
  | fault f =>
      have hspared := Instruction.spared_of_execute hexecute id
      exact ⟨nofun, by simp [Effect.result, hspared.writes]⟩

theorem writes_of_unexecuted
    (hstep : m.step c = (s, m', c'))
    (hs : s ≠ .advanced) :
    c'.writes = c.writes := by
  cases hnext : m.next? with
  | none =>
      rw [step_of_halted (next?_eq_none_iff.1 hnext)] at hstep
      cases hstep
      rfl
  | some a =>
      have hwrites := (writes_of_step hnext hstep).2
      rw [if_neg hs, List.append_nil] at hwrites
      exact Array.toList_inj.1 hwrites

theorem Ends.writes
    {r : RunResult}
    (h : Ends m c r m' c') :
    c'.writes = c.writes := by
  cases h with
  | limit _ =>
      rfl
  | stopped _ hstep =>
      exact writes_of_unexecuted hstep nofun
  | failed _ hstep =>
      exact writes_of_unexecuted hstep nofun

theorem History.isSome_output?
    (h : History log m c m' c') :
    ∀ a ∈ executed log, a.output?.isSome = a.instruction.writes := by
  induction h with
  | nil m c =>
      simp [executed]
  | @cons a s log m m₁ m' c c₁ c' ha hstep _ ih =>
      rw [executed_cons]
      intro b hb
      rcases List.mem_append.1 hb with hb | hb
      · split at hb
        · next hs =>
            obtain rfl := List.mem_singleton.1 hb
            exact (writes_of_step ha hstep).1 hs
        · cases hb
      · exact ih b hb

/-- The writes of a history, in order. -/
theorem History.writes
    (h : History log m c m' c') :
    c'.writes.toList = c.writes.toList ++ (executed log).filterMap Attempt.output? := by
  induction h with
  | nil m c =>
      simp [executed]
  | @cons a s log m m₁ m' c c₁ c' ha hstep _ ih =>
      rw [ih, (writes_of_step ha hstep).2, executed_cons, List.filterMap_append, List.append_assoc]
      by_cases hs : s = .advanced
      · rw [if_pos hs, if_pos hs]
        cases houtput : a.output? <;> simp [houtput]
      · rw [if_neg hs, if_neg hs]
        rfl

/-- Every executed instruction that writes accounts for one write. -/
theorem History.size_writes
    (h : History log m c m' c') :
    c'.writes.size = c.writes.size + (executed log).countP fun a => a.instruction.writes := by
  have hcount : (executed log).countP (fun a => a.output?.isSome) =
      (executed log).countP fun a => a.instruction.writes := by
    apply List.countP_congr
    intro a ha
    rw [h.isSome_output? a ha]
  rw [← Array.length_toList, h.writes, List.length_append, Array.length_toList,
    List.length_filterMap_eq_countP, hcount]

theorem Advances.writes_prefix
    {k : Nat}
    (h : Advances k m c m' c') :
    c.writes.toList <+: c'.writes.toList := by
  obtain ⟨log, hlog, -⟩ := h.exists_history
  exact ⟨_, hlog.writes.symm⟩

end Machine

/-! ## Operations of sessions -/

namespace Session

variable {fuel : Nat} {s : Session}

/-- The console that a run within the session is given. -/
def runConsole (s : Session) : Console :=
  match s.supply with
  | .block bytes => { s.console with input := bytes }
  | _ => s.console

/-- The attempts that an operation makes. -/
def history (fuel : Nat) (s : Session) : Operation → List (Attempt × StepResult)
  | .step => (s.machine.next?.map fun a => (a, (s.machine.step s.console).1)).toList
  | .run =>
      if s.supply = .textOnly ∨ s.outputIsText then [] else s.machine.history fuel s.runConsole
  | .setTracing _ | .setStack _ | .setPosition _ | .setLimit _ | .feed _ => []

theorem run_of_refused
    (h : s.supply = .textOnly ∨ s.outputIsText) :
    s.run fuel = some (.noByteStream, s) :=
  if_pos h

theorem run_of_accepted
    (h : ¬ (s.supply = .textOnly ∨ s.outputIsText)) :
    s.run fuel =
      (s.machine.run fuel s.runConsole).map fun x =>
        (.ran x.1, { s with machine := x.2.1, console := x.2.2 }) :=
  if_neg h

/-- The outcomes of a run within a session. -/
theorem run_cases
    {s' : Session} {report : Report}
    (h : s.run fuel = some (report, s')) :
    ((s.supply = .textOnly ∨ s.outputIsText) ∧ report = .noByteStream ∧ s' = s) ∨
      (¬ (s.supply = .textOnly ∨ s.outputIsText) ∧
        ∃ r m' c', s.machine.run fuel s.runConsole = some (r, m', c') ∧
          report = .ran r ∧ s' = { s with machine := m', console := c' }) := by
  by_cases hrefused : s.supply = .textOnly ∨ s.outputIsText
  · rw [run_of_refused hrefused] at h
    cases h
    exact Or.inl ⟨hrefused, rfl, rfl⟩
  · rw [run_of_accepted hrefused] at h
    obtain ⟨⟨r, m', c'⟩, hrun, hresult⟩ := Option.map_eq_some_iff.1 h
    cases hresult
    exact Or.inr ⟨hrefused, r, m', c', hrun, rfl, rfl⟩

theorem performAll_cons
    (fuel : Nat) (s : Session) (op : Operation) (ops : List Operation) :
    s.performAll fuel (op :: ops) =
      (s.perform fuel op).bind fun x => (x.2.performAll fuel ops).map (x :: ·) := by
  rw [performAll]
  cases s.perform fuel op with
  | none =>
      rfl
  | some x =>
      simp only [Option.bind_eq_bind, Option.bind_some]
      cases x.2.performAll fuel ops <;> rfl

end Session
end StackMachine
