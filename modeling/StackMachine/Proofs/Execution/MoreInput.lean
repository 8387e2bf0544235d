import StackMachine.Proofs.Execution.Atomicity
import StackMachine.Proofs.Execution.Lines
import StackMachine.Proofs.Execution.Streams

/-!
# Input that goes on

A run depends on the input that it consumes and on nothing after it, as long as no number is read
from a line that could go on.  A run that stops at the end of its input has consumed nothing with
its last step, so that it can be taken up again when there is more.

* `Instruction.execute_eq_endOfInput_iff`: only an instruction that reads notices the end of the
  input.
* `Machine.simulation_fed`: up to the end of the input, bytes after it do not matter.
* `Machine.run_with_more_input` compares a run with the run on a longer input.
-/

namespace StackMachine

variable {i : Instruction} {stack : Stack} {c c' : Console} {effect : Effect}

/-! ## Reading -/

theorem emit_ne_endOfInput
    (stack : Stack) (c : Console) (bytes : Except Fault (List UInt8)) :
    (emit stack c bytes).1 ≠ .endOfInput := by
  rcases emit_cases stack c bytes with
    ⟨f, -, hemit⟩ | ⟨written, c', -, ⟨-, hemit⟩ | ⟨-, hemit⟩⟩
  · simp [hemit]
  · simp [hemit]
  · simp [hemit]

theorem Effect.ofStack_ne_endOfInput
    (result : Except Fault Stack) :
    Effect.ofStack result ≠ .endOfInput := by
  cases result <;> simp [Effect.ofStack]

theorem Effect.ofCondition_ne_endOfInput
    (stack : Stack) (target : Word) (result : Except Fault Bool) :
    Effect.ofCondition stack target result ≠ .endOfInput := by
  rcases result with f | - | - <;> simp [Effect.ofCondition]

theorem acceptNumber_eq_endOfInput_iff :
    (acceptNumber stack c).1 = .endOfInput ↔ c.input = [] := by
  have hline : c.flush.readLine.1 = [] ↔ c.input = [] := by
    rw [TopFirst.readLine_eq]
    exact TopFirst.take_lineLength_eq_nil
  rw [← hline, acceptNumber]
  rcases hread : c.flush.readLine with ⟨line, c'⟩
  cases line with
  | nil =>
      simp
  | cons b line =>
      simp only [reduceCtorEq, iff_false]
      split <;> simp

theorem acceptByte_eq_endOfInput_iff :
    (acceptByte stack c).1 = .endOfInput ↔ c.input = [] := by
  cases hinput : c.input with
  | nil =>
      simp [acceptByte, Console.readByte, Console.flush, hinput]
  | cons b rest =>
      simp [acceptByte, Console.readByte, Console.flush, hinput]

/-- Only an instruction that reads notices the end of the input. -/
theorem Instruction.execute_eq_endOfInput_iff :
    (i.execute stack c).1 = .endOfInput ↔
      (i = .readNumber ∨ i = .readByte) ∧ c.input = [] := by
  cases i with
  | readNumber =>
      simpa [Instruction.execute] using acceptNumber_eq_endOfInput_iff
  | readByte =>
      simpa [Instruction.execute] using acceptByte_eq_endOfInput_iff
  | _ =>
      simp [Instruction.execute, emit_ne_endOfInput, Effect.ofStack_ne_endOfInput,
        Effect.ofCondition_ne_endOfInput]

theorem input_of_write
    (c : Console) (bytes : List UInt8) :
    (c.write bytes).2.input = c.input := by
  unfold Console.write
  split <;> rfl

theorem input_of_emit
    {bytes : Except Fault (List UInt8)}
    (h : emit stack c bytes = (effect, c')) :
    c'.input = c.input := by
  rcases console_of_emit h with rfl | ⟨written, rfl⟩
  · rfl
  · exact input_of_write c written

/-- What is left of the input is the end of what there was. -/
theorem Instruction.input_suffix_of_execute
    (h : i.execute stack c = (effect, c')) :
    c'.input <:+ c.input := by
  cases i with
  | printNumber p =>
      exact input_of_emit h ▸ List.suffix_rfl
  | printText text =>
      have hemit : emit stack c (.ok (textLine text)) = (effect, c') := h
      exact input_of_emit hemit ▸ List.suffix_rfl
  | printByte p =>
      exact input_of_emit h ▸ List.suffix_rfl
  | readNumber =>
      obtain rfl := eq_of_acceptNumber h
      rw [TopFirst.readLine_eq]
      exact List.drop_suffix _ _
  | readByte =>
      obtain rfl := eq_of_acceptByte h
      exact List.drop_suffix 1 c.input
  | _ =>
      cases h
      exact List.suffix_refl _

namespace Machine

variable {m m' : Machine} {more : List UInt8}

/-! ## Runs on a longer input -/

/-- No number is read from a line that could go on: the input is empty or ends with a line feed, or
the program reads no numbers. -/
def NoOpenLine (m : Machine) (input : List UInt8) : Prop :=
  input = [] ∨ input.getLast? = some lineFeed ∨ .readNumber ∉ m.program

theorem NoOpenLine.of_suffix
    {input rest : List UInt8}
    (h : m.NoOpenLine input)
    (hrest : rest <:+ input) :
    m.NoOpenLine rest := by
  obtain ⟨before, rfl⟩ := hrest
  rcases h with hnil | hlast | hprogram
  · exact Or.inl (List.append_eq_nil_iff.1 hnil).2
  · rcases List.eq_nil_or_concat' rest with rfl | ⟨rest, b, rfl⟩
    · exact Or.inl rfl
    · refine Or.inr (Or.inl ?_)
      rw [← List.append_assoc] at hlast
      simpa using hlast
  · exact Or.inr (Or.inr hprogram)

/-- The second console has the input of the first one, and more after it. -/
def Fed (more : List UInt8) (m : Machine) (c : Console) (n : Machine) (d : Console) : Prop :=
  n = m ∧ d = c.feed more ∧ m.NoOpenLine c.input

theorem program_after
    (m : Machine) (i : Instruction) (effect : Effect) :
    (m.after i effect).program = m.program := by
  cases effect <;> simp [after]

theorem execute_feed
    (hclosed : m.NoOpenLine c.input)
    (hi : i ∈ m.program)
    (h : i.execute m.stack c = (effect, c'))
    (heffect : effect ≠ .endOfInput) :
    i.execute m.stack (c.feed more) = (effect, c'.feed more) := by
  have hinput : i = .readNumber ∨ i = .readByte → c.input ≠ [] := by
    intro hreads hnil
    apply heffect
    rw [← Instruction.execute_eq_endOfInput_iff.2 ⟨hreads, hnil⟩, h]
  have hline : i = .readNumber → lineFeed ∈ c.input := by
    rintro rfl
    rcases hclosed with hnil | hlast | hprogram
    · exact absurd hnil (hinput (Or.inl rfl))
    · exact List.mem_of_getLast? hlast
    · exact absurd hi hprogram
  have halike : Alike (fun c d => d = c.feed more)
      (i.execute m.stack c) (i.execute m.stack (c.feed more)) :=
    Instruction.execute_congr rfl (fun bytes => c.write_feed more bytes)
      (fun hi => c.flush.readLine_feed (hline hi) more)
      (fun hi => c.flush.readByte_feed (hinput (Or.inr hi)) more)
  obtain ⟨effect', c₁, d₁, hc, hd, rfl⟩ := halike.exists_eq
  rw [h] at hc
  cases hc
  exact hd

/-- Until the end of the input is noticed, bytes after it do not matter. -/
theorem simulation_fed
    (more : List UInt8) :
    Simulation (· = .stopped .endOfInput) (Fed more) where
  program := by
    rintro m n c d ⟨rfl, -, -⟩
    rfl
  pc := by
    rintro m n c d ⟨rfl, -, -⟩
    rfl
  limitReached := by
    rintro m n c d ⟨rfl, -, -⟩
    rfl
  execute := by
    rintro m n c d c' i effect ⟨rfl, rfl, hclosed⟩ hi heffect hr
    have hne : effect ≠ .endOfInput := by
      rintro rfl
      exact hr rfl
    have hmem : i ∈ n.program := Array.mem_of_getElem? hi
    refine ⟨effect, c'.feed more, execute_feed hclosed hmem heffect hne, rfl, rfl, rfl, ?_⟩
    have hrest := hclosed.of_suffix (Instruction.input_suffix_of_execute heffect)
    rwa [NoOpenLine, program_after]
  flush := by
    rintro m n c d ⟨rfl, rfl, hclosed⟩
    exact ⟨rfl, rfl, hclosed⟩
  advanced := by
    simp

/-! ## Taking a run up again -/

/-- A run that stops at the end of its input stops before an instruction that reads, which has left
no mark but its attempt. -/
theorem endOfInput_of_ends
    (h : Ends m c (.ok .endOfInput) m' c') :
    m.limitReached = false ∧ c.SameStreams c' ∧
      ∃ i : Instruction, m.program[m.pc]? = some i ∧ (i = .readNumber ∨ i = .readByte) ∧
        m' = { m with trace := m.trace ++ m.attempt i } := by
  cases h with
  | stopped hlimit hstep =>
      obtain ⟨i, hi, hm', hspared⟩ := spared_of_step hstep (Or.inr rfl)
      rcases heffect : i.execute m.stack c with ⟨effect, c₁⟩
      have hstep' := step_of_execute hi heffect
      rw [hstep] at hstep'
      have hend : effect = .endOfInput := by
        cases effect <;> simp [Effect.result] at hstep' ⊢
      have heffect' : (i.execute m.stack c).1 = .endOfInput := by rw [heffect, hend]
      obtain ⟨hreads, hnil⟩ := Instruction.execute_eq_endOfInput_iff.1 heffect'
      have hfirst : firstLine c.input = ([], []) := by rw [hnil]; rfl
      refine ⟨hlimit, ⟨?_, ?_, hspared.writes, hspared.budget⟩, i, hi, hreads, ?_⟩
      · rw [hspared.input, hfirst, hnil, ite_self]
      · rw [hspared.consumed, hfirst, List.length_nil, ite_self, Nat.add_zero]
      · rw [hm', ← record_eq_append, record_eq]

/-- What two runs leave, one on the whole input, the other taken up again where it had stopped: the
second trace has the attempt at which `stopped` had found no input a second time. -/
def RepeatsRead
    (stopped single : Machine) (c : Console) (resumed : Machine) (d : Console) : Prop :=
  c.SameStreams d ∧
    ∃ (i : Instruction) (before again rest : Array Attempt),
      stopped.program[stopped.pc]? = some i ∧ (i = .readNumber ∨ i = .readByte) ∧
      again = stopped.attempt i ∧ stopped.trace = before ++ again ∧
      single.trace = before ++ again ++ rest ∧
      resumed = { single with trace := before ++ again ++ again ++ rest }

/-- A run on the input `c.input` that ends otherwise than at the end of its input is the same when
the input goes on.  If it stops at the end of the input, it can be taken up again with more input,
and then ends as the run that had that input from the start. -/
theorem run_with_more_input
    (hclosed : m.NoOpenLine c.input)
    (more : List UInt8) :
    (∀ r m' c', m.Runs c r m' c' → r ≠ .ok .endOfInput →
      m.Runs (c.feed more) r m' (c'.feed more)) ∧
    (∀ m' c', m.Runs c (.ok .endOfInput) m' c' →
      EndsAlike m'.RepeatsRead m (c.feed more) m' (c'.feed more)) := by
  have hfed : m.Fed more c m (c.feed more) := ⟨rfl, rfl, hclosed⟩
  constructor
  · intro r m' c' hruns hr
    have hspared : r.lastStep ≠ .stopped .endOfInput := by
      rcases r with e | reason
      · simp [RunResult.lastStep]
      · simpa [RunResult.lastStep] using hr
    obtain ⟨n', d', hruns', rfl, rfl, -⟩ := (simulation_fed more).runs hfed hruns hspared
    exact hruns'
  · intro m' c' hruns
    obtain ⟨k, m₁, c₁, c₂, hadvances, hends, rfl⟩ := runs_iff.1 hruns
    obtain ⟨n₁, d₁, hadvances', hn, hd, -⟩ := (simulation_fed more).advances hfed hadvances
    rw [hn, hd] at hadvances'
    obtain ⟨hlimit, hstreams, i, hi, hreads, rfl⟩ := endOfInput_of_ends hends
    let stopped : Machine := { m₁ with trace := m₁.trace ++ m₁.attempt i }
    have hinserted : m₁.Inserted m₁.trace (m₁.attempt i) (c₁.feed more)
        stopped (c₂.flush.feed more) := by
      refine ⟨⟨?_, hstreams.consumed, hstreams.writes, hstreams.budget⟩, #[], by simp, ?_⟩
      · show c₂.input ++ more = c₁.input ++ more
        rw [hstreams.input]
      · rw [Array.append_empty]
    have halike := (simulation_inserted m₁.trace (m₁.attempt i)).endsAlike hinserted
    refine hadvances'.endsAlike_iff.2 (halike.mono ?_)
    rintro r single d₁ resumed d₂ hruns₁ ⟨hstreams', rest, htrace, rfl⟩
    -- The run on the whole input attempts the same instruction first.
    obtain ⟨after, hafter⟩ := hruns₁.exists_trace hlimit hi
    have hrest : rest = m₁.attempt i ++ after := by
      rw [htrace, Array.append_assoc] at hafter
      exact (Array.append_right_inj _).1 hafter
    refine ⟨hstreams', i, m₁.trace, m₁.attempt i, after, hi, hreads, rfl, rfl, hafter, ?_⟩
    rw [hrest, ← Array.append_assoc]

/-- A byte, a number and the end of the input, and then another byte and another number. -/
theorem run_with_more_input_twice :
    let m : Machine :=
      ⟨#[.readByte, .readNumber, .printNumber 0, .jump 0], #[], 0, 0, none, true, #[]⟩
    let c : Console := .ofInput [0x41, 0x37, 0x0A]
    let a : Array Attempt :=
      #[⟨0, .readByte, #[]⟩, ⟨1, .readNumber, #[65]⟩, ⟨2, .printNumber 0, #[65, 7]⟩,
        ⟨3, .jump 0, #[65, 7]⟩]
    let m' : Machine :=
      { m with stack := #[65, 7], steps := 4, trace := a.push ⟨0, .readByte, #[65, 7]⟩ }
    let c' : Console :=
      ⟨[], 3, #[[0x37, 0x0A]], none,
        #[.flush, .readByte, .flush, .readLine, .write [0x37, 0x0A], .flush, .readByte, .flush]⟩
    let limited : Machine := { m with stepLimit := some 3 }
    let cut : Machine := { limited with stack := #[65, 7], pc := 3, steps := 3, trace := a.pop }
    m.NoOpenLine c.input ∧ m.Runs c (.ok .endOfInput) m' c' ∧
      EndsAlike m'.RepeatsRead m (c.feed [0x42, 0x38, 0x0A]) m' (c'.feed [0x42, 0x38, 0x0A]) ∧
    limited.NoOpenLine c.input ∧
      ∃ d, limited.Runs c (.ok .stepLimit) cut d ∧
        limited.Runs (c.feed [0x42]) (.ok .stepLimit) cut (d.feed [0x42]) := by
  intro m c a m' c' limited cut
  have hclosed : m.NoOpenLine c.input := Or.inr (Or.inl rfl)
  have hclosed' : limited.NoOpenLine c.input := Or.inr (Or.inl rfl)
  have hruns : m.Runs c (.ok .endOfInput) m' c' := ⟨9, by cbv⟩
  have hcut : limited.Runs c (.ok .stepLimit) cut
      ⟨[], 3, #[[0x37, 0x0A]], none,
        #[.flush, .readByte, .flush, .readLine, .write [0x37, 0x0A], .flush]⟩ := ⟨9, by cbv⟩
  exact ⟨hclosed, hruns, (run_with_more_input hclosed _).2 m' c' hruns, hclosed', _, hcut,
    (run_with_more_input hclosed' _).1 _ cut _ hcut (by simp)⟩

end Machine
end StackMachine
