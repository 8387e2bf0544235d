import StackMachine.Proofs.Execution.ProgramPoints
import StackMachine.Samples

/-!
# The echo sample copies its input

The loop of the echo sample keeps all that it has read on the stack: a round reads a byte, puts it on
top of the earlier ones, writes the top of the stack and goes back.

* `Sample.Copied` is the invariant of the loop and `Sample.copyHead` the point at its head.
* `Sample.leads_copy_round` is one round, and `Sample.leads_copy_rounds` all of them.
* `Sample.echo_copies_input` is what a run does with any input.
-/

namespace StackMachine

variable {c c₀ : Console} {b : UInt8} {copied rest : List UInt8}

/-! ## Bytes on the stack -/

/-- The bytes as the numbers of a stack, the first at the bottom. -/
def byteStack (bytes : List UInt8) : Stack :=
  (bytes.map fun b => (b.toNat : Int)).toArray

theorem push_byteStack
    (bytes : List UInt8) (b : UInt8) :
    (byteStack bytes).push b.toNat = byteStack (bytes ++ [b]) := by
  simp [byteStack]

/-- The byte on top of the stack can be written. -/
theorem byteAt_byteStack
    (bytes : List UInt8) (b : UInt8) :
    byteAt (byteStack (bytes ++ [b])) 0 = .ok b := by
  have hpeek : peek (byteStack (bytes ++ [b])) 0 = .ok (b.toNat : Int) := by
    simp [← push_byteStack, peek, slot, bind, Except.bind, pure, Except.pure]
  have hlarge : ¬ 255 < (b.toNat : Int) := by
    have hlt := b.toNat_lt
    omega
  have hsmall : ¬ (b.toNat : Int) < 0 := by omega
  simp only [byteAt, hpeek, bind, Except.bind, if_neg hlarge, if_neg hsmall, Int.toNat_natCast,
    UInt8.ofNat_toNat]
  rfl

namespace Sample

/-! ## The loop -/

/-- Since the console `c₀`, the bytes `copied` have been taken from the input and written. -/
structure Copied (c₀ : Console) (copied : List UInt8) (c : Console) : Prop where
  input_eq : c₀.input = copied ++ c.input
  consumed_eq : c.consumed = c₀.consumed + copied.length
  written_eq : c.written = c₀.written ++ copied
  budget_eq : c.budget = none

/-- The head of the loop when the bytes `copied` have been read. -/
def copyHead (copied : List UInt8) (c : Console) : Program.Point :=
  ⟨0, byteStack copied, c⟩

/-- A round copies the next byte of the input. -/
theorem leads_copy_round
    (h : Copied c₀ copied c)
    (hinput : c.input = b :: rest) :
    ∃ c' : Console,
      echo.program.Leads 3 (copyHead copied c) (copyHead (copied ++ [b]) c') ∧
        Copied c₀ (copied ++ [b]) c' ∧ c'.input = rest := by
  obtain ⟨c₁, haccept, hinput₁, hconsumed₁, hwritten₁, hbudget₁⟩ :=
    acceptByte_cons (byteStack copied) hinput
  rw [push_byteStack] at haccept
  have hopen : c₁.budget = none := hbudget₁.trans h.budget_eq
  have hprint : (Instruction.printByte 0).execute (byteStack (copied ++ [b])) c₁ =
      (.done (byteStack (copied ++ [b])) none, c₁.accept [b]) := by
    rw [Instruction.execute, byteAt_byteStack]
    exact emit_of_open hopen _ _
  have hread : echo.program.Leads 1 (copyHead copied c) ⟨1, byteStack (copied ++ [b]), c₁⟩ :=
    Program.leads_of_done (i := .readByte) rfl haccept
  have hwrite : echo.program.Leads 1 ⟨1, byteStack (copied ++ [b]), c₁⟩
      ⟨2, byteStack (copied ++ [b]), c₁.accept [b]⟩ :=
    Program.leads_of_done rfl hprint
  have hback : echo.program.Leads 1 ⟨2, byteStack (copied ++ [b]), c₁.accept [b]⟩
      (copyHead (copied ++ [b]) (c₁.accept [b])) :=
    Program.leads_of_done (i := .jump 0) rfl rfl
  refine ⟨c₁.accept [b], (hread.trans hwrite).trans hback, ⟨?_, ?_, ?_, hopen⟩, hinput₁⟩
  · show c₀.input = copied ++ [b] ++ c₁.input
    rw [h.input_eq, hinput, hinput₁, List.append_assoc, List.singleton_append]
  · show c₁.consumed = c₀.consumed + (copied ++ [b]).length
    rw [hconsumed₁, h.consumed_eq, List.length_append, Nat.add_assoc, List.length_singleton]
  · rw [written_accept, hwritten₁, h.written_eq, List.append_assoc]

/-- The rounds copy all that is left of the input. -/
theorem leads_copy_rounds
    (h : Copied c₀ copied c) :
    ∃ c' : Console,
      echo.program.Leads (3 * c.input.length) (copyHead copied c) (copyHead c₀.input c') ∧
        Copied c₀ c₀.input c' := by
  induction hinput : c.input generalizing copied c with
  | nil =>
      have hall : c₀.input = copied := by
        rw [h.input_eq, hinput, List.append_nil]
      rw [hall]
      exact ⟨c, .refl _ _, h⟩
  | cons b rest ih =>
      obtain ⟨c₁, hround, hcopied, hrest⟩ := leads_copy_round h hinput
      obtain ⟨c', hrounds, hfinal⟩ := ih hcopied hrest
      rw [List.length_cons, Nat.mul_succ, Nat.add_comm]
      exact ⟨c', hround.trans hrounds, hfinal⟩

/-! ## Runs -/

/-- **The echo sample copies any input.**  If its output accepts every write, a run from the start
ends where the input does.  By then it has read all of the input and written the same bytes, has them
on the stack in order, and is at its first instruction, with three steps executed for each byte. -/
theorem echo_copies_input
    (hopen : c.budget = none)
    (tracing : Bool) :
    ∃ (m' : Machine) (c' : Console),
      (Machine.start echo.program tracing none).Runs c (.ok .endOfInput) m' c' ∧
      c'.written = c.written ++ c.input ∧
      c'.input = [] ∧ c'.consumed = c.consumed + c.input.length ∧
      m'.stack.toList = c.input.map (fun b => (b.toNat : Int)) ∧
      m'.pc = 0 ∧ m'.steps = 3 * c.input.length := by
  have hbegin : Copied c [] c :=
    ⟨rfl, rfl, (List.append_nil _).symm, hopen⟩
  obtain ⟨c₁, hrounds, hcopied⟩ := leads_copy_rounds hbegin
  have hend : c₁.input = [] := by
    simpa using hcopied.input_eq
  have hnone : Instruction.readByte.execute (byteStack c.input) c₁ =
      (.endOfInput, c₁.flush.readByte.2) := by
    simp only [Instruction.execute, acceptByte, Console.readByte, Console.flush, hend]
  obtain ⟨m', hruns, hstack, hpc, hsteps⟩ :=
    hrounds.runs_to_endOfInput rfl hnone (Machine.isAt_start echo.program tracing c)
  have hlast : c₁.flush.readByte.2.flush.input = [] ∧
      c₁.flush.readByte.2.flush.consumed = c₁.consumed ∧
      c₁.flush.readByte.2.flush.written = c₁.written := by
    simp [Console.readByte, Console.flush, Console.written, hend]
  refine ⟨m', _, hruns, hlast.2.2.trans hcopied.written_eq, hlast.1,
    hlast.2.1.trans hcopied.consumed_eq, ?_, hpc, ?_⟩
  · rw [hstack, byteStack]
  · rw [hsteps]
    exact Nat.zero_add _

/-- A zero byte, line feeds and the largest byte, with a trace. -/
theorem echo_copies_input_binary :
    let c : Console := .ofInput [0x00, 0x0A, 0xFF, 0x0A]
    c.budget = none ∧
      ∃ (m' : Machine) (c' : Console),
        (Machine.start echo.program true none).Runs c (.ok .endOfInput) m' c' ∧
        c'.written = [0x00, 0x0A, 0xFF, 0x0A] ∧ c'.consumed = 4 ∧
        m'.stack.toList = [0, 10, 255, 10] ∧ m'.steps = 12 := by
  intro c
  obtain ⟨m', c', hruns, hwritten, -, hconsumed, hstack, -, hsteps⟩ :=
    echo_copies_input (c := c) rfl true
  exact ⟨rfl, m', c', hruns, hwritten, hconsumed, hstack, hsteps⟩

end Sample
end StackMachine
