import StackMachine.Proofs.Execution.History

/-!
# Traces

A machine that keeps a trace does what it would do without one, and the trace is the list of what it
attempted in the meantime.

* `Machine.untraced` forgets the trace; steps, runs and operations commute with it
  (`Machine.step_untraced`, `Machine.loop_untraced`, `Session.perform_untraced`).
* `Session.performAll_untraced`: operations that only switch the trace on or off can be left out.
* `Machine.History.trace` and `Session.trace_of_performAll`: the trace is what was attempted while
  it was kept.
* `Session.tracing_only_observes` compares two sessions and says what their traces are.
-/

namespace StackMachine

/-- The operation switches the trace on or off. -/
def Operation.setsTracing : Operation → Bool
  | setTracing _ => true
  | step | run | setStack _ | setPosition _ | setLimit _ | feed _ => false

namespace Machine

variable {m m' : Machine} {c c' : Console} {log : List (Attempt × StepResult)}

/-! ## Machines without a trace -/

/-- The machine with an empty trace that is not kept. -/
def untraced (m : Machine) : Machine :=
  { m with tracing := false, trace := #[] }

theorem after_untraced
    (m : Machine) (i : Instruction) (effect : Effect) :
    m.untraced.after i effect = (m.after i effect).untraced := by
  cases effect <;> simp [after, untraced, record_eq]

/-- A step does not look at the trace. -/
theorem step_untraced
    (m : Machine) (c : Console) :
    m.untraced.step c = ((m.step c).1, (m.step c).2.1.untraced, (m.step c).2.2) := by
  cases hi : m.program[m.pc]? with
  | none =>
      have hi' : m.untraced.program[m.untraced.pc]? = none := hi
      rw [step_of_halted hi, step_of_halted hi']
  | some i =>
      have hi' : m.untraced.program[m.untraced.pc]? = some i := hi
      rcases heffect : i.execute m.stack c with ⟨effect, c'⟩
      rw [step_of_execute hi heffect, step_of_execute hi' heffect, after_untraced]
      rfl

theorem loop_untraced
    (fuel : Nat) (m : Machine) (c : Console) :
    loop fuel m.untraced c = (loop fuel m c).map fun x => (x.1, x.2.1.untraced, x.2.2) := by
  induction fuel generalizing m c with
  | zero =>
      rfl
  | succ fuel ih =>
      have hlimit : m.untraced.limitReached = m.limitReached := rfl
      rw [loop, loop, hlimit, step_untraced]
      split
      · rfl
      · rcases m.step c with ⟨- | reason | e, m', c'⟩
        · exact ih m' c'
        · rfl
        · rfl

theorem run_untraced
    (fuel : Nat) (m : Machine) (c : Console) :
    m.untraced.run fuel c = (m.run fuel c).map fun x => (x.1, x.2.1.untraced, x.2.2) := by
  rw [run, run, loop_untraced, Option.map_map, Option.map_map]
  rfl

/-! ## Traces of histories -/

/-- A history leaves the setting alone, and its attempts are in the trace if the trace is kept. -/
theorem History.trace
    (h : History log m c m' c') :
    m'.tracing = m.tracing ∧
      m'.trace.toList = m.trace.toList ++ if m.tracing then log.map Prod.fst else [] := by
  induction h with
  | nil m c =>
      simp
  | @cons a s log m m₁ m' c c₁ c' ha hstep _ ih =>
      obtain ⟨i, effect, hi, rfl, -, -, hafter⟩ := exists_execute_of_step ha hstep
      obtain ⟨hsame, htrace⟩ := ih
      have htracing : m₁.tracing = m.tracing := by
        rw [hafter]
        cases effect <;> simp [after]
      refine ⟨hsame.trans htracing, ?_⟩
      rw [htrace, trace_of_step hi hstep, htracing, attempt]
      split <;> simp

end Machine

namespace Session

variable {fuel : Nat} {s s' : Session} {report : Report} {op : Operation}

/-! ## Sessions without a trace -/

/-- The session without a trace. -/
def untraced (s : Session) : Session :=
  { s with machine := s.machine.untraced }

/-- Operations that do not switch the trace do the same without it. -/
theorem perform_untraced
    (hop : op.setsTracing = false) :
    s.untraced.perform fuel op = (s.perform fuel op).map fun x => (x.1, x.2.untraced) := by
  cases op with
  | step =>
      simp only [perform, untraced, Machine.step_untraced, Option.map_some]
  | run =>
      by_cases hrefused : s.supply = .textOnly ∨ s.outputIsText
      · have hrefused' : s.untraced.supply = .textOnly ∨ s.untraced.outputIsText := hrefused
        rw [perform, perform, run_of_refused hrefused, run_of_refused hrefused']
        rfl
      · have haccepted' : ¬ (s.untraced.supply = .textOnly ∨ s.untraced.outputIsText) := hrefused
        have hrun := Machine.run_untraced fuel s.machine s.runConsole
        rw [perform, perform, run_of_accepted hrefused, run_of_accepted haccepted', untraced]
        simp only [runConsole] at hrun ⊢
        rw [hrun, Option.map_map, Option.map_map]
        rfl
  | setTracing on =>
      cases hop
  | feed bytes =>
      obtain ⟨m, c, supply, text⟩ := s
      cases supply <;> rfl
  | _ =>
      rfl

/-- What operations report and leave, traces and the operations that switch them apart. -/
def observed (ops : List Operation) (reports : List (Report × Session)) : List (Report × Session) :=
  ((ops.zip reports).filter fun x => !x.1.setsTracing).map fun x => (x.2.1, x.2.2.untraced)

theorem observed_cons
    (op : Operation) (ops : List Operation)
    (x : Report × Session) (reports : List (Report × Session)) :
    observed (op :: ops) (x :: reports) =
      if op.setsTracing then observed ops reports
      else (x.1, x.2.untraced) :: observed ops reports := by
  cases hop : op.setsTracing <;> simp [observed, hop]

/-- Operations that switch the trace can be left out. -/
theorem performAll_untraced
    (fuel : Nat) (s : Session) (ops : List Operation) :
    (s.performAll fuel ops).map (observed ops) =
      s.untraced.performAll fuel (ops.filter fun op => !op.setsTracing) := by
  induction ops generalizing s with
  | nil =>
      rfl
  | cons op ops ih =>
      rw [performAll_cons, Option.map_bind]
      cases hop : op.setsTracing with
      | true =>
          obtain ⟨on, rfl⟩ : ∃ on, op = .setTracing on := by
            cases op <;> simp [Operation.setsTracing] at hop
            exact ⟨_, rfl⟩
          let s₁ : Session := { s with machine := { s.machine with tracing := on } }
          have hperform : s.perform fuel (.setTracing on) = some (.silent, s₁) := rfl
          have huntraced : s₁.untraced = s.untraced := rfl
          rw [hperform, Option.bind_some, List.filter_cons_of_neg (by simp [hop]), ← huntraced,
            ← ih]
          simp [Function.comp_def, observed_cons, hop]
      | false =>
          rw [List.filter_cons_of_pos (by simp [hop]), performAll_cons, perform_untraced hop]
          cases s.perform fuel op with
          | none =>
              rfl
          | some x =>
              simp [Function.comp_def, observed_cons, hop, ← ih]

/-! ## Traces of sessions -/

/-- The attempts that are made while the trace is kept. -/
def tracedAttempts (fuel : Nat) (s : Session) : List Operation → List Attempt
  | [] => []
  | op :: ops =>
      (if s.machine.tracing then (s.history fuel op).map Prod.fst else []) ++
        match s.perform fuel op with
        | none => []
        | some (_, s') => s'.tracedAttempts fuel ops

/-- The session after the operations with the given reports. -/
def final (s : Session) (reports : List (Report × Session)) : Session :=
  (reports.getLast?.map Prod.snd).getD s

theorem final_cons
    (s : Session) (x : Report × Session) (reports : List (Report × Session)) :
    s.final (x :: reports) = x.2.final reports := by
  rw [final, final, List.getLast?_cons]
  cases reports.getLast? <;> rfl

theorem trace_of_perform
    (h : s.perform fuel op = some (report, s')) :
    s'.machine.trace.toList = s.machine.trace.toList ++
      if s.machine.tracing then (s.history fuel op).map Prod.fst else [] := by
  cases op with
  | step =>
      rcases hstep : s.machine.step s.console with ⟨result, m', c'⟩
      rw [perform, hstep] at h
      cases h
      rw [history, hstep]
      cases hnext : s.machine.next? with
      | none =>
          rw [Machine.step_of_halted (Machine.next?_eq_none_iff.1 hnext)] at hstep
          cases hstep
          simp
      | some a =>
          exact (Machine.History.single hnext hstep).trace.2
  | run =>
      rcases run_cases h with ⟨hrefused, rfl, rfl⟩ | ⟨haccepted, r, m', c', hrun, rfl, rfl⟩
      · simp [history, hrefused]
      · obtain ⟨c₁, hloop, -⟩ := Machine.run_eq_some_iff.1 hrun
        rw [history, if_neg haccepted]
        exact (Machine.history_of_loop hloop).1.trace.2
  | feed bytes =>
      rw [perform] at h
      split at h
      · cases h
        simp [history]
      · cases h
        simp [history]
  | _ =>
      cases h
      simp [history]

theorem trace_of_performAll
    {ops : List Operation} {reports : List (Report × Session)}
    (h : s.performAll fuel ops = some reports) :
    (s.final reports).machine.trace.toList =
      s.machine.trace.toList ++ s.tracedAttempts fuel ops := by
  induction ops generalizing s reports with
  | nil =>
      cases h
      simp [final, tracedAttempts]
  | cons op ops ih =>
      rw [performAll_cons] at h
      obtain ⟨⟨report, s₁⟩, hperform, hrest⟩ := Option.bind_eq_some_iff.1 h
      obtain ⟨others, hothers, rfl⟩ := Option.map_eq_some_iff.1 hrest
      rw [final_cons, ih hothers, trace_of_perform hperform, tracedAttempts, hperform,
        List.append_assoc]

/-- Two sessions that differ in their traces, driven by operations that differ in where the trace is
switched on or off, report the same and leave the same, traces apart.  The trace is what was
attempted while it was kept; and a run attempts the steps that it executes, and one more if it does
not stop at the end of the program or at the limit. -/
theorem tracing_only_observes
    (s t : Session)
    (hst : t.untraced = s.untraced) :
    (∀ fuel ops ops',
      (ops'.filter fun op => !op.setsTracing) = (ops.filter fun op => !op.setsTracing) →
      (t.performAll fuel ops').map (observed ops') = (s.performAll fuel ops).map (observed ops)) ∧
    (∀ fuel ops reports, s.performAll fuel ops = some reports →
      (s.final reports).machine.trace.toList =
        s.machine.trace.toList ++ s.tracedAttempts fuel ops ∧
      (s.final reports).machine.traceText =
        "\n".intercalate
          ((s.machine.trace.toList ++ s.tracedAttempts fuel ops).map Attempt.line)) ∧
    (∀ fuel (m : Machine) c r m' c', m.run fuel c = some (r, m', c') →
      ∃ c₁ k, m.History (m.history fuel c) c m' c₁ ∧ c' = c₁.flush ∧
        (m.history fuel c).map Prod.snd = List.replicate k .advanced ++ r.unexecuted) := by
  refine ⟨?_, ?_, ?_⟩
  · intro fuel ops ops' hops
    rw [performAll_untraced, performAll_untraced, hst, hops]
  · intro fuel ops reports h
    have htrace := trace_of_performAll h
    exact ⟨htrace, by rw [Machine.traceText, htrace]⟩
  · intro fuel m c r m' c' h
    obtain ⟨c₁, hloop, hflush⟩ := Machine.run_eq_some_iff.1 h
    obtain ⟨hhistory, k, hresults⟩ := Machine.history_of_loop hloop
    exact ⟨c₁, k, hhistory, hflush, hresults⟩

/-- A number is missing twice, the second time without a trace, and is there in the end. -/
theorem tracing_only_observes_missing_number :
    let m : Machine := .start [.readByte, .printNumber 1] true none
    let s : Session := ⟨m, .ofInput [7], .shared, false⟩
    let t : Session := ⟨{ m with tracing := false }, .ofInput [7], .shared, false⟩
    let ops : List Operation :=
      [.run, .setTracing false, .step, .feed [8], .setPosition 0, .setTracing true, .run]
    let ops' : List Operation :=
      [.run, .step, .setTracing true, .feed [8], .setPosition 0, .setTracing false, .run]
    let attempts : List Attempt :=
      [⟨0, .readByte, #[]⟩, ⟨1, .printNumber 1, #[7]⟩, ⟨0, .readByte, #[7]⟩,
        ⟨1, .printNumber 1, #[7, 8]⟩]
    let e : Failure := ⟨1, .printNumber 1, .offsetOutOfRange 1 1⟩
    t.untraced = s.untraced ∧
    (ops'.filter fun op => !op.setsTracing) = (ops.filter fun op => !op.setsTracing) ∧
    (t.performAll 9 ops').map (observed ops') = (s.performAll 9 ops).map (observed ops) ∧
    (∃ reports, s.performAll 9 ops = some reports ∧
      (s.final reports).machine.trace.toList = attempts ∧
      (s.final reports).machine.traceText = "\n".intercalate (attempts.map Attempt.line)) ∧
    ∃ m' c' c₁ k, m.run 9 s.console = some (.error e, m', c') ∧
      m.History (m.history 9 s.console) s.console m' c₁ ∧
      (m.history 9 s.console).map Prod.snd = List.replicate k .advanced ++ [.failed e] := by
  intro m s t ops ops' attempts e
  have huntraced : t.untraced = s.untraced := rfl
  have hops : (ops'.filter fun op => !op.setsTracing) = (ops.filter fun op => !op.setsTracing) :=
    rfl
  have hends : (s.performAll 9 ops).isSome = true := rfl
  obtain ⟨reports, hreports⟩ := Option.isSome_iff_exists.1 hends
  obtain ⟨hsame, htrace, hhistory⟩ := tracing_only_observes s t huntraced
  obtain ⟨hattempts, htext⟩ := htrace 9 ops reports hreports
  have hrun : m.run 9 s.console = some (.error e, _, _) := rfl
  obtain ⟨c₁, k, hlog, -, hresults⟩ := hhistory 9 m s.console _ _ _ hrun
  exact ⟨huntraced, hops, hsame 9 ops ops' hops, ⟨reports, hreports, hattempts, htext⟩,
    _, _, c₁, k, hrun, hlog, hresults⟩

end Session
end StackMachine
