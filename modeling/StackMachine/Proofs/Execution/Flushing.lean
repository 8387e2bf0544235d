import Mathlib.Data.List.Forall2
import StackMachine.Proofs.Execution.History

/-!
# Output is flushed in time

What a machine has written is passed on before it waits for input, and at the end of every run,
whatever ends it.

* `FlushedReads`: in a list of calls, every read comes right after a flush.
* `Exchange` lists the calls that an instruction can make, and `Instruction.calls_of_execute` says
  that there are no others.
* `Machine.History.calls` carries it over to histories, and so to runs.
* `Session.reads_and_runs_flush` is the record of a session, operation by operation.
-/

namespace StackMachine

/-- The call waits for input. -/
def StreamCall.isRead : StreamCall → Bool
  | readLine | readByte => true
  | write _ | refusedWrite _ | flush => false

/-- Every read in the list comes right after a flush in the list. -/
def FlushedReads (calls : List StreamCall) : Prop :=
  ∀ (before : List StreamCall) (call : StreamCall) (after : List StreamCall),
    calls = before ++ call :: after → call.isRead → before.getLast? = some .flush

/-- The reads come right after flushes, and there are no other flushes. -/
structure Paired (calls : List StreamCall) : Prop where
  reads : FlushedReads calls
  count : calls.count .flush = calls.countP StreamCall.isRead

/-- The calls that one instruction can make. -/
inductive Exchange : List StreamCall → Prop
  | silent :
      Exchange []
  | write
      (bytes : List UInt8) :
      Exchange [.write bytes]
  | refusedWrite
      (bytes : List UInt8) :
      Exchange [.refusedWrite bytes]
  | readLine :
      Exchange [.flush, .readLine]
  | readByte :
      Exchange [.flush, .readByte]

variable {first rest added : List StreamCall}

/-! ## Lists of calls -/

theorem flushedReads_nil :
    FlushedReads [] := by
  intro before call after h
  simp at h

theorem FlushedReads.concat
    {call : StreamCall}
    (h : FlushedReads first)
    (hcall : call.isRead → first.getLast? = some .flush) :
    FlushedReads (first ++ [call]) := by
  intro before read after heq hread
  rcases List.eq_nil_or_concat' after with rfl | ⟨after, last, rfl⟩
  · obtain ⟨rfl, rfl⟩ := List.append_singleton_inj.1 heq
    exact hcall hread
  · rw [← List.cons_append, ← List.append_assoc] at heq
    obtain ⟨hfirst, -⟩ := List.append_singleton_inj.1 heq
    exact h before read after hfirst hread

theorem FlushedReads.append
    (h : FlushedReads first)
    (hrest : FlushedReads rest) :
    FlushedReads (first ++ rest) := by
  intro before call after heq hcall
  rcases List.append_eq_append_iff.1 heq with ⟨tail, hbefore, htail⟩ | ⟨tail, hfirst, htail⟩
  · -- The read is in the second list.
    have hlast := hrest tail call after htail hcall
    rw [hbefore, List.getLast?_append, hlast]
    rfl
  · cases tail with
    | nil =>
        have hlast := hrest [] call after (by simpa using htail.symm) hcall
        cases hlast
    | cons next tail =>
        obtain ⟨rfl, htail⟩ := List.cons.inj htail
        exact h before call tail hfirst hcall

theorem Paired.append
    (h : Paired first)
    (hrest : Paired rest) :
    Paired (first ++ rest) := by
  refine ⟨h.reads.append hrest.reads, ?_⟩
  rw [List.count_append, List.countP_append, h.count, hrest.count]

theorem Exchange.paired
    (h : Exchange added) :
    Paired added := by
  have hflush : FlushedReads [.flush] := flushedReads_nil.concat (by simp [StreamCall.isRead])
  cases h with
  | silent =>
      exact ⟨flushedReads_nil, rfl⟩
  | write bytes | refusedWrite bytes =>
      exact ⟨flushedReads_nil.concat (by simp [StreamCall.isRead]), rfl⟩
  | readLine =>
      exact ⟨hflush.concat fun _ => rfl, rfl⟩
  | readByte =>
      exact ⟨hflush.concat fun _ => rfl, rfl⟩

/-! ## Instructions -/

variable {i : Instruction} {stack : Stack} {c c' : Console} {effect : Effect}

theorem calls_of_write
    (c : Console) (bytes : List UInt8) :
    ∃ added, Exchange added ∧ (c.write bytes).2.calls.toList = c.calls.toList ++ added := by
  unfold Console.write
  split
  · exact ⟨_, .write bytes, by simp [Console.accept]⟩
  · exact ⟨_, .refusedWrite bytes, by simp [Console.refuse]⟩
  · exact ⟨_, .write bytes, by simp [Console.accept]⟩

theorem calls_of_emit
    {bytes : Except Fault (List UInt8)}
    (h : emit stack c bytes = (effect, c')) :
    ∃ added, Exchange added ∧ c'.calls.toList = c.calls.toList ++ added := by
  rcases console_of_emit h with rfl | ⟨written, rfl⟩
  · exact ⟨[], .silent, by simp⟩
  · exact calls_of_write c written

/-- An instruction makes no calls, or a write that may be refused, or a read after a flush. -/
theorem Instruction.calls_of_execute
    (h : i.execute stack c = (effect, c')) :
    ∃ added, Exchange added ∧ c'.calls.toList = c.calls.toList ++ added := by
  cases i with
  | printNumber p =>
      exact calls_of_emit h
  | printText text =>
      have hemit : emit stack c (.ok (textLine text)) = (effect, c') := h
      exact calls_of_emit hemit
  | printByte p =>
      exact calls_of_emit h
  | readNumber =>
      obtain rfl := eq_of_acceptNumber h
      exact ⟨_, .readLine, by simp [Console.readLine, Console.flush]⟩
  | readByte =>
      obtain rfl := eq_of_acceptByte h
      exact ⟨_, .readByte, by simp⟩
  | _ =>
      obtain rfl : c = c' := congrArg Prod.snd h
      exact ⟨[], .silent, by simp⟩

/-! ## Histories and runs -/

namespace Machine

variable {m m' : Machine} {log : List (Attempt × StepResult)}

theorem calls_of_step
    {s : StepResult}
    (hstep : m.step c = (s, m', c')) :
    ∃ added, Exchange added ∧ c'.calls.toList = c.calls.toList ++ added := by
  obtain ⟨-, -, -, rfl⟩ | ⟨i, effect, -, hexecute, -, -⟩ := effect_cases_of_step hstep
  · exact ⟨[], .silent, by simp⟩
  · exact Instruction.calls_of_execute hexecute

/-- In the calls of a history, reads come right after flushes. -/
theorem History.calls
    (h : History log m c m' c') :
    ∃ added, Paired added ∧ c'.calls.toList = c.calls.toList ++ added := by
  induction h with
  | nil m c =>
      exact ⟨[], Exchange.silent.paired, by simp⟩
  | cons _ hstep _ ih =>
      obtain ⟨first, hfirst, hcalls⟩ := calls_of_step hstep
      obtain ⟨rest, hrest, hcalls'⟩ := ih
      exact ⟨first ++ rest, hfirst.paired.append hrest, by rw [hcalls', hcalls, List.append_assoc]⟩

/-- A run makes one more flush at its end. -/
theorem Runs.calls
    {r : RunResult}
    (h : m.Runs c r m' c') :
    ∃ added, Paired added ∧ c'.calls.toList = c.calls.toList ++ (added ++ [.flush]) := by
  obtain ⟨log, c₁, k, hhistory, rfl, -⟩ := h.exists_history
  obtain ⟨added, hadded, hcalls⟩ := hhistory.calls
  refine ⟨added, hadded, ?_⟩
  rw [Console.flush, Array.toList_push, hcalls, List.append_assoc]

end Machine

/-! ## Sessions -/

/-- What the calls of an operation with the given report are like.  A run that is not refused ends
with a flush, which is the one that it makes besides those before its reads. -/
def Operation.Flushes (op : Operation) (report : Report) (calls : List StreamCall) : Prop :=
  FlushedReads calls ∧
    match op, report with
    | .step, .stepped _ => calls.count .flush = calls.countP StreamCall.isRead
    | .run, .ran _ =>
        calls.getLast? = some .flush ∧
          calls.count .flush = calls.countP StreamCall.isRead + 1
    | .run, .noByteStream | .setTracing _, .silent | .setStack _, .silent | .setPosition _, .silent
    | .setLimit _, .silent | .feed _, .silent => calls = []
    | _, _ => False

namespace Session

variable {fuel : Nat} {s s' : Session} {report : Report} {op : Operation}

theorem calls_runConsole
    (s : Session) :
    s.runConsole.calls = s.console.calls := by
  rw [runConsole]
  split <;> rfl

theorem calls_of_perform
    (h : s.perform fuel op = some (report, s')) :
    ∃ added, op.Flushes report added ∧
      s'.console.calls.toList = s.console.calls.toList ++ added := by
  cases op with
  | step =>
      rcases hstep : s.machine.step s.console with ⟨result, m', c'⟩
      rw [perform, hstep] at h
      cases h
      obtain ⟨added, hadded, hcalls⟩ := Machine.calls_of_step hstep
      exact ⟨added, ⟨hadded.paired.reads, hadded.paired.count⟩, hcalls⟩
  | run =>
      rcases run_cases h with ⟨-, rfl, rfl⟩ | ⟨-, r, m', c', hrun, rfl, rfl⟩
      · exact ⟨[], ⟨flushedReads_nil, rfl⟩, by simp⟩
      · have hruns : s.machine.Runs s.runConsole r m' c' := ⟨fuel, hrun⟩
        obtain ⟨added, hadded, hcalls⟩ := hruns.calls
        rw [calls_runConsole] at hcalls
        have hreads : FlushedReads (added ++ [.flush]) :=
          hadded.reads.concat (by simp [StreamCall.isRead])
        refine ⟨added ++ [.flush], ⟨hreads, ?_, ?_⟩, hcalls⟩
        · simp
        · simp [hadded.count, StreamCall.isRead]
  | feed bytes =>
      rw [perform] at h
      split at h
      · cases h
        exact ⟨[], ⟨flushedReads_nil, rfl⟩, by simp⟩
      · cases h
        exact ⟨[], ⟨flushedReads_nil, rfl⟩, by simp [Console.feed]⟩
  | _ =>
      cases h
      exact ⟨[], ⟨flushedReads_nil, rfl⟩, by simp⟩

/-- The calls of a session come in segments, one for each operation. -/
theorem calls_of_performAll
    {ops : List Operation} {reports : List (Report × Session)}
    (h : s.performAll fuel ops = some reports) :
    ∃ segments : List (List StreamCall),
      segments.length = ops.length ∧
      List.Forall₂ (fun x calls => x.1.Flushes x.2.1 calls) (ops.zip reports) segments ∧
      FlushedReads segments.flatten ∧
      ∀ j x, reports[j]? = some x →
        x.2.console.calls.toList =
          s.console.calls.toList ++ (segments.take (j + 1)).flatten := by
  induction ops generalizing s reports with
  | nil =>
      cases h
      exact ⟨[], rfl, .nil, flushedReads_nil, by simp⟩
  | cons op ops ih =>
      rw [performAll_cons] at h
      obtain ⟨⟨report, s₁⟩, hperform, hrest⟩ := Option.bind_eq_some_iff.1 h
      obtain ⟨others, hothers, rfl⟩ := Option.map_eq_some_iff.1 hrest
      obtain ⟨first, hfirst, hcalls⟩ := calls_of_perform hperform
      obtain ⟨segments, hlength, hsegments, hreads, hcalls'⟩ := ih hothers
      have hreads' : FlushedReads (first :: segments).flatten :=
        hfirst.1.append hreads
      refine ⟨first :: segments, by simp [hlength], .cons hfirst hsegments, hreads', ?_⟩
      intro j x hx
      cases j with
      | zero =>
          cases hx
          simpa using hcalls
      | succ j =>
          rw [hcalls' j x hx, hcalls, List.take_succ_cons, List.flatten_cons, List.append_assoc]

/-- In the calls that a session records, every read comes right after a flush, and every run that
is not refused ends with a flush and makes one more of them than it makes reads.  In a run that does
not end, reads come right after flushes up to any moment. -/
theorem reads_and_runs_flush
    (s : Session) :
    (∀ fuel ops reports, s.performAll fuel ops = some reports →
      ∃ segments : List (List StreamCall),
        segments.length = ops.length ∧
        List.Forall₂ (fun x calls => x.1.Flushes x.2.1 calls) (ops.zip reports) segments ∧
        FlushedReads segments.flatten ∧
        ∀ j x, reports[j]? = some x →
          x.2.console.calls.toList =
            s.console.calls.toList ++ (segments.take (j + 1)).flatten) ∧
    (∀ k m' c', s.machine.Advances k s.runConsole m' c' →
      ∃ calls, FlushedReads calls ∧ c'.calls.toList = s.console.calls.toList ++ calls) := by
  refine ⟨fun fuel ops reports h => calls_of_performAll h, ?_⟩
  intro k m' c' h
  obtain ⟨log, hlog, -⟩ := h.exists_history
  obtain ⟨added, hadded, hcalls⟩ := hlog.calls
  rw [calls_runConsole] at hcalls
  exact ⟨added, hadded.reads, hcalls⟩

/-- The output refuses the second write, the limit is met at once, and then there is no input. -/
theorem reads_and_runs_flush_closed_output :
    let s : Session :=
      ⟨.start [.readByte, .printByte 0, .jump 0] false none,
        { Console.ofInput [0x41, 0x42] with budget := some 1 }, .shared, false⟩
    let ops : List Operation := [.run, .setLimit (some 0), .run, .setPosition 0, .step]
    let calls : List StreamCall :=
      [.flush, .readByte, .write [0x41], .flush, .readByte, .refusedWrite [0x42], .flush, .flush,
        .flush, .readByte]
    (∃ reports segments, s.performAll 9 ops = some reports ∧
      segments.length = ops.length ∧
      List.Forall₂ (fun x calls => x.1.Flushes x.2.1 calls) (ops.zip reports) segments ∧
      FlushedReads segments.flatten ∧ segments.flatten = calls) ∧
    ∃ m' c', s.machine.Advances 4 s.runConsole m' c' ∧
      FlushedReads c'.calls.toList ∧ c'.calls.toList = calls.take 5 := by
  intro s ops calls
  obtain ⟨hsession, hrun⟩ := reads_and_runs_flush s
  constructor
  · have hlast : ((s.performAll 9 ops).bind fun reports =>
        reports[4]?.map fun x => x.2.console.calls.toList) = some calls := rfl
    obtain ⟨reports, hreports, hlast'⟩ := Option.bind_eq_some_iff.1 hlast
    obtain ⟨x, hx, hcalls⟩ := Option.map_eq_some_iff.1 hlast'
    obtain ⟨segments, hlength, hsegments, hreads, hrecord⟩ := hsession 9 ops reports hreports
    have hflatten : segments.flatten = calls := by
      rw [← hcalls, hrecord 4 x hx, List.take_of_length_le (by simp [hlength, ops])]
      rfl
    exact ⟨reports, segments, hreports, hlength, hsegments, hreads, hflatten⟩
  · have hadvances : s.machine.Advances 4 s.runConsole _ _ :=
      .step rfl rfl (.step rfl rfl (.step rfl rfl (.step rfl rfl (.refl _ _))))
    obtain ⟨made, hreads, hmade⟩ := hrun 4 _ _ hadvances
    have hmade_eq : made = calls.take 5 := hmade.symm
    rw [hmade_eq] at hreads
    exact ⟨_, _, hadvances, hreads, rfl⟩

end Session

end StackMachine
