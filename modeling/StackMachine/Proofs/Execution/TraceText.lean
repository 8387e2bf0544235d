import StackMachine.Proofs.Execution.Tracing
import StackMachine.Proofs.Text.Instruction

/-!
# The text of a trace

The text of a trace tells all that was attempted: every line is an attempt, and the attempt is found
again in it.  The text of an instruction is of no help to confuse lines, as it is shown in quotes on
one line.

* `delimited_renderStack` and `Attempt.line_inj`: a stack and an attempt are found again in what is
  shown of them.
* `Machine.traceText_inj`: the text of a trace tells the trace.
* `Session.attempts` are the attempts of a sequence of operations, with or without a trace, and
  `Session.trace_text_tells_attempts` is what two texts say about two sequences.
-/

namespace StackMachine

open Text

/-! ## Positions and stacks -/

theorem toList_zeroPadded
    (width n : Nat) :
    (zeroPadded width n).toList =
      List.replicate (width - (Nat.toDigits 10 n).length) '0' ++ Nat.toDigits 10 n :=
  String.toList_ofList

/-- A number is found again, however many zeros there are before it. -/
theorem delimited_zeroPadded
    (width : Nat) :
    Delimited EndsNumeral fun n => (zeroPadded width n).toList := by
  refine .of_reader (fun s => some (readNumeral s)) ?_
  intro n s hs
  have hread := readNumeral_append 0 (width - (Nat.toDigits 10 n).length) n hs
  rw [List.replicate_zero, List.nil_append, ← toList_zeroPadded] at hread
  exact congrArg some hread

theorem lineFeed_notMem_zeroPadded
    (width n : Nat) :
    '\n' ∉ (zeroPadded width n).toList := by
  simp [toList_zeroPadded]

/-- A numeral does not begin with a bracket. -/
theorem exists_cons_integer
    (n : Int) :
    ∃ c cs, (toString n).toList = c :: cs ∧ c ≠ ']' := by
  rw [toList_integer]
  split
  · exact ⟨'-', _, rfl, by decide⟩
  · obtain ⟨c, cs, hcs, hdigit⟩ := exists_cons_decimal n.natAbs
    refine ⟨c, cs, hcs, ?_⟩
    rintro rfl
    cases hdigit

theorem toList_renderStack
    (stack : Stack) :
    (renderStack stack).toList =
      '[' :: ((',' :: [' ']).intercalate (stack.toList.map fun n => (toString n).toList) ++
        [']']) := by
  simp [renderStack, Function.comp_def]

/-- A stack is found again, whatever follows it. -/
theorem delimited_renderStack :
    Delimited Anything fun stack : Stack => (renderStack stack).toList := by
  have hnumbers : Delimited Anything fun ns : List Int =>
      (',' :: [' ']).intercalate (ns.map fun n => (toString n).toList) ++ [']'] :=
    delimited_integer.intercalate exists_cons_integer (by decide) (by simp) (by simp)
  intro stack stack' s t hs ht heq
  simp only [toList_renderStack, List.cons_append, List.cons.injEq, true_and] at heq
  obtain ⟨hstack, hst⟩ := hnumbers _ _ s t hs ht heq
  exact ⟨Array.toList_inj.1 hstack, hst⟩

theorem lineFeed_notMem_renderStack
    (stack : Stack) :
    '\n' ∉ (renderStack stack).toList := by
  have hnumbers : '\n' ∉ (", ".intercalate (stack.toList.map toString)).toList := by
    apply notMem_intercalate
    · decide
    · intro text htext
      obtain ⟨n, -, rfl⟩ := List.mem_map.1 htext
      exact lineFeed_notMem_integer n
  rw [renderStack, String.toList_append, String.toList_append, List.mem_append, List.mem_append]
  exact not_or.2 ⟨not_or.2 ⟨by decide, hnumbers⟩, by decide⟩

/-! ## Attempts -/

namespace Attempt

theorem toList_line
    (a : Attempt) :
    a.line.toList =
      (zeroPadded 4 a.pc).toList ++
        ':' :: ' ' :: (a.instruction.render.toList ++
          (" stack=".toList ++ (renderStack a.stack).toList)) := by
  simp [line]

/-- An attempt is found again in its line. -/
theorem line_inj
    {a b : Attempt} :
    a.line = b.line ↔ a = b := by
  constructor
  · intro h
    have hlist := congrArg String.toList h
    simp only [toList_line] at hlist
    obtain ⟨hpc, hlist⟩ := delimited_zeroPadded 4 _ _ _ _ (by simp) (by simp) hlist
    simp only [List.cons.injEq, true_and] at hlist
    obtain ⟨hinstruction, hlist⟩ :=
      Instruction.delimited_render _ _ _ _ trivial trivial hlist
    have hstack := (delimited_renderStack _ _ [] [] trivial trivial
      (by simpa using List.append_cancel_left hlist)).1
    cases a
    cases b
    rw [Attempt.mk.injEq]
    exact ⟨hpc, hinstruction, hstack⟩
  · rintro rfl
    rfl

theorem lineFeed_notMem_line
    (a : Attempt) :
    '\n' ∉ a.line.toList := by
  simp [toList_line, lineFeed_notMem_zeroPadded, Instruction.lineFeed_notMem_render,
    lineFeed_notMem_renderStack]

theorem line_ne_empty
    (a : Attempt) :
    a.line ≠ "" := by
  intro h
  have hlist := congrArg String.toList h
  simp [toList_line] at hlist

end Attempt

/-! ## Traces -/

/-- The lines of the text of a trace; an empty text has one line, which is none of an attempt. -/
theorem linesOf_intercalate_line
    (log : List Attempt) :
    linesOf ("\n".intercalate (log.map Attempt.line)) =
      if log = [] then [""] else log.map Attempt.line := by
  split
  · next hlog =>
      subst hlog
      have hempty : linesOf ("\n".intercalate [""]) = [""] :=
        linesOf_intercalate (by simp) (by simp)
      exact hempty
  · next hlog =>
      refine linesOf_intercalate (by simpa using hlog) ?_
      intro line hline
      obtain ⟨a, -, rfl⟩ := List.mem_map.1 hline
      exact a.lineFeed_notMem_line

theorem intercalate_line_inj
    {log log' : List Attempt} :
    "\n".intercalate (log.map Attempt.line) = "\n".intercalate (log'.map Attempt.line) ↔
      log = log' := by
  constructor
  · intro h
    have hlines := congrArg linesOf h
    rw [linesOf_intercalate_line, linesOf_intercalate_line] at hlines
    cases log with
    | nil =>
        cases log' with
        | nil =>
            rfl
        | cons a log' =>
            exact absurd (List.cons.inj hlines).1.symm a.line_ne_empty
    | cons a log =>
        cases log' with
        | nil =>
            exact absurd (List.cons.inj hlines).1 a.line_ne_empty
        | cons b log' =>
            exact List.map_injective_iff.2 (fun _ _ => Attempt.line_inj.1) hlines
  · rintro rfl
    rfl

namespace Machine

variable {m m' : Machine}

/-- The text of a trace tells the trace. -/
theorem traceText_inj :
    m.traceText = m'.traceText ↔ m.trace = m'.trace := by
  rw [traceText, traceText, intercalate_line_inj, Array.toList_inj]

/-- The text of a trace is empty only if the trace is. -/
theorem traceText_eq_empty_iff :
    m.traceText = "" ↔ m.trace = #[] := by
  have hempty : "\n".intercalate (([] : List Attempt).map Attempt.line) = "" := rfl
  rw [traceText, ← hempty, intercalate_line_inj, Array.toList_eq_nil_iff]

end Machine

/-! ## Sessions -/

namespace Session

variable {fuel fuel' : Nat} {s s' t : Session} {report : Report} {op : Operation}
  {ops ops' : List Operation} {reports reports' : List (Report × Session)}

/-- The attempts that operations make, whether a trace is kept or not. -/
def attempts (fuel : Nat) (s : Session) : List Operation → List Attempt
  | [] => []
  | op :: ops =>
      (s.history fuel op).map Prod.fst ++
        match s.perform fuel op with
        | none => []
        | some (_, s') => s'.attempts fuel ops

/-- The session keeps a trace, which is empty, and the operations do not switch it off. -/
structure TracedFromStart (s : Session) (ops : List Operation) : Prop where
  tracing_eq : s.machine.tracing = true
  trace_eq : s.machine.trace = #[]
  kept : Operation.setTracing false ∉ ops

/-- Only the operation that switches it off ends a trace. -/
theorem tracing_of_perform
    (h : s.perform fuel op = some (report, s'))
    (hop : Operation.setTracing false ≠ op)
    (htracing : s.machine.tracing = true) :
    s'.machine.tracing = true := by
  cases op with
  | step =>
      rcases hstep : s.machine.step s.console with ⟨result, m', c'⟩
      rw [perform, hstep] at h
      cases h
      cases hnext : s.machine.next? with
      | none =>
          rw [Machine.step_of_halted (Machine.next?_eq_none_iff.1 hnext)] at hstep
          cases hstep
          exact htracing
      | some a =>
          exact (Machine.History.single hnext hstep).trace.1.trans htracing
  | run =>
      rcases run_cases h with ⟨-, -, rfl⟩ | ⟨-, r, m', c', hrun, -, rfl⟩
      · exact htracing
      · obtain ⟨c₁, hloop, -⟩ := Machine.run_eq_some_iff.1 hrun
        exact (Machine.history_of_loop hloop).1.trace.1.trans htracing
  | setTracing on =>
      cases h
      cases on with
      | true =>
          rfl
      | false =>
          exact absurd rfl hop
  | feed bytes =>
      rw [perform] at h
      split at h
      · cases h
        exact htracing
      · cases h
        exact htracing
  | _ =>
      cases h
      exact htracing

/-- While a trace is kept, all that is attempted is traced. -/
theorem tracedAttempts_eq_attempts
    (htracing : s.machine.tracing = true)
    (hkept : Operation.setTracing false ∉ ops) :
    s.tracedAttempts fuel ops = s.attempts fuel ops := by
  induction ops generalizing s with
  | nil =>
      rfl
  | cons op ops ih =>
      rw [tracedAttempts, attempts, if_pos htracing]
      cases hperform : s.perform fuel op with
      | none =>
          rfl
      | some x =>
          have htracing' :=
            tracing_of_perform hperform (List.ne_of_not_mem_cons hkept) htracing
          simp only [ih htracing' (List.not_mem_of_not_mem_cons hkept)]

/-- A trace that is kept from the start is the list of all attempts. -/
theorem TracedFromStart.trace_eq_attempts
    (h : s.TracedFromStart ops)
    (hops : s.performAll fuel ops = some reports) :
    (s.final reports).machine.trace = (s.attempts fuel ops).toArray := by
  have htrace := trace_of_performAll hops
  rw [h.trace_eq, tracedAttempts_eq_attempts h.tracing_eq h.kept] at htrace
  exact Array.toList_inj.1 htrace

/-- **The text of a trace is lossless.**  Where two sessions keep a trace from the start, the texts
of their traces are equal if and only if they attempt the same steps: as many of them, each at the
same position and on the same stack.  The text is empty if and only if nothing is attempted. -/
theorem trace_text_tells_attempts
    (hs : s.TracedFromStart ops)
    (ht : t.TracedFromStart ops')
    (hops : s.performAll fuel ops = some reports)
    (hops' : t.performAll fuel' ops' = some reports') :
    ((s.final reports).machine.traceText = (t.final reports').machine.traceText ↔
      s.attempts fuel ops = t.attempts fuel' ops') ∧
    ((s.final reports).machine.traceText = "" ↔ s.attempts fuel ops = []) := by
  rw [Machine.traceText_inj, Machine.traceText_eq_empty_iff, hs.trace_eq_attempts hops,
    ht.trace_eq_attempts hops']
  exact ⟨by simp, by simp⟩

/-- A text that looks like the line of the next attempt, and an attempt that finds no input. -/
theorem trace_text_tells_attempts_quoted :
    let p : Program := [.printText "\n0001: In() stack=[]", .readNumber]
    let s : Session := ⟨.start p true none, .ofInput [], .shared, false⟩
    let t : Session := ⟨{ s.machine with stack := #[3] }, .ofInput [], .shared, false⟩
    s.TracedFromStart [.step, .step] ∧ t.TracedFromStart [.step, .run] ∧
      ∃ reports reports',
        s.performAll 9 [.step, .step] = some reports ∧
        t.performAll 9 [.step, .run] = some reports' ∧
        s.attempts 9 [.step, .step] =
          [⟨0, .printText "\n0001: In() stack=[]", #[]⟩, ⟨1, .readNumber, #[]⟩] ∧
        (s.final reports).machine.traceText ≠ (t.final reports').machine.traceText ∧
        (s.final reports).machine.traceText ≠ "" := by
  intro p s t
  have hs : s.TracedFromStart [.step, .step] := ⟨rfl, rfl, by decide⟩
  have ht : t.TracedFromStart [.step, .run] := ⟨rfl, rfl, by decide⟩
  have hends : (s.performAll 9 [.step, .step]).isSome = true := rfl
  have hends' : (t.performAll 9 [.step, .run]).isSome = true := rfl
  obtain ⟨reports, hreports⟩ := Option.isSome_iff_exists.1 hends
  obtain ⟨reports', hreports'⟩ := Option.isSome_iff_exists.1 hends'
  have hattempts : s.attempts 9 [.step, .step] =
      [⟨0, .printText "\n0001: In() stack=[]", #[]⟩, ⟨1, .readNumber, #[]⟩] := rfl
  have hattempts' : t.attempts 9 [.step, .run] =
      [⟨0, .printText "\n0001: In() stack=[]", #[3]⟩, ⟨1, .readNumber, #[3]⟩] := rfl
  obtain ⟨htexts, hempty⟩ := trace_text_tells_attempts hs ht hreports hreports'
  rw [hattempts, hattempts'] at htexts
  rw [hattempts] at hempty
  refine ⟨hs, ht, reports, reports', hreports, hreports', hattempts, ?_, ?_⟩
  · intro h
    exact absurd (htexts.1 h) (by decide)
  · intro h
    cases hempty.1 h

end Session
end StackMachine
