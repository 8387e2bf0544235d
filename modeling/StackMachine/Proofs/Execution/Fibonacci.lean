import Mathlib.Data.Nat.Fib.Basic
import StackMachine.Proofs.Execution.Lines
import StackMachine.Proofs.Execution.ProgramPoints
import StackMachine.Proofs.Execution.StackChanges
import StackMachine.Samples

/-!
# The numbers of the sum sample

The loop of the sum sample keeps its last two sums on the stack, and a round replaces the lower one
by the sum of both.  These are the Fibonacci numbers: after `k` rounds the sums are the `k`-th one
and the next.  The last one that fits in a word is the 93rd, so that 92 rounds can be made and the
93rd fails.

* `fib_le_maximum_iff` says which Fibonacci numbers are words.
* `Sample.loopHead` is the point at the head of the loop after `k` rounds, `Sample.leads_to_loop` is
  the way there from the start, and `Sample.leads_round` is one round.
* `Sample.sum_computes_fibonacci` is what a run does with every number of rounds.
-/

namespace StackMachine

open TopFirst

variable {c c' : Console} {n k : Nat} {r x y : Int}

/-! ## Fibonacci numbers that are words -/

theorem fib_le_maximum_iff :
    Nat.fib n ≤ Word.maximum ↔ n ≤ 93 := by
  have hlast : Nat.fib 93 ≤ Word.maximum := by decide +kernel
  have hnext : Word.maximum < Nat.fib 94 := by decide +kernel
  constructor
  · intro h
    refine Nat.le_of_not_lt fun hn => ?_
    have hmono : Nat.fib 94 ≤ Nat.fib n := Nat.fib_mono hn
    exact absurd (hnext.trans_le hmono) (Nat.not_lt_of_le h)
  · intro h
    exact (Nat.fib_mono h).trans hlast

/-! ## The printed line -/

theorem numberLine_of_le
    (h : n ≤ Word.maximum) :
    numberLine (n : Int) = lineOf (toString n) := by
  have hn : (UInt64.ofNat n).toNat = n :=
    UInt64.toNat_ofNat_of_lt' (Nat.lt_succ_of_le h)
  rw [← hn]
  exact numberLine_eq _

namespace Sample

/-! ## The instructions of the loop -/

/-- With rounds left, the loop goes on. -/
theorem leads_stay
    (hr : r ≠ 0) :
    sum.program.Leads 1 ⟨4, #[0, r, x, y], c⟩ ⟨5, #[0, r, x, y], c⟩ := by
  have hcompare : compareSlots #[0, r, x, y] 2 3 (fun a b => a == b) = .ok (r == 0) := rfl
  have hstay : (Instruction.jumpIfEqual 2 3 9).execute #[0, r, x, y] c =
      (.done #[0, r, x, y] none, c) := by
    rw [Instruction.execute, hcompare, beq_false_of_ne hr]
    rfl
  exact Program.leads_of_done rfl hstay

/-- Without rounds left, it is left. -/
theorem leads_leave :
    sum.program.Leads 1 ⟨4, #[0, 0, x, y], c⟩ ⟨9, #[0, 0, x, y], c⟩ := by
  have hleave : (Instruction.jumpIfEqual 2 3 9).execute #[0, 0, x, y] c =
      (.done #[0, 0, x, y] (some 9), c) := rfl
  exact Program.leads_of_done rfl hleave

theorem leads_copy :
    sum.program.Leads 1 ⟨5, #[0, r, x, y], c⟩ ⟨6, #[0, r, x, y, y], c⟩ := by
  have hcopy : (Instruction.copy 0).execute #[0, r, x, y] c =
      (.done #[0, r, x, y, y] none, c) := rfl
  exact Program.leads_of_done rfl hcopy

theorem execute_add :
    (Instruction.add 1 2).execute #[0, r, x, y, y] c =
      if y + x ≤ Word.maximum then (.done #[0, r, y, y + x] none, c)
      else (.fault (.addOverflow y x), c) := by
  have hhigh : slot #[0, r, x, y, y] 1 = .ok ⟨3, by simp⟩ := rfl
  have hlow : slot #[0, r, x, y, y] 2 = .ok ⟨2, by simp⟩ := rfl
  have herase : eraseTwo #[0, r, x, y, y] 3 2 = #[0, r, y] :=
    Array.toList_inj.1 (toList_eraseTwo _ 3 2)
  have hsum : addSlots #[0, r, x, y, y] 1 2 =
      if y + x ≤ Word.maximum then .ok ((eraseTwo #[0, r, x, y, y] 3 2).push (y + x))
      else .error (.addOverflow y x) := by
    rw [addSlots, hhigh, hlow]
    rfl
  rw [Instruction.execute, hsum, herase]
  split <;> rfl

theorem leads_add
    (hfits : y + x ≤ Word.maximum) :
    sum.program.Leads 1 ⟨6, #[0, r, x, y, y], c⟩ ⟨7, #[0, r, y, y + x], c⟩ :=
  Program.leads_of_done rfl (execute_add.trans (if_pos hfits))

theorem leads_decrement
    (hr : r ≠ 0) :
    sum.program.Leads 1 ⟨7, #[0, r, x, y], c⟩ ⟨8, #[0, r - 1, x, y], c⟩ := by
  have hresult : decrementSlot #[0, r, x, y] 2 =
      if r = 0 then .error .decrementUnderflow else .ok #[0, r - 1, x, y] := rfl
  have hdecrement : (Instruction.decrement 2).execute #[0, r, x, y] c =
      (.done #[0, r - 1, x, y] none, c) := by
    rw [Instruction.execute, hresult, if_neg hr]
    rfl
  exact Program.leads_of_done rfl hdecrement

theorem leads_back
    (stack : Stack) :
    sum.program.Leads 1 ⟨8, stack, c⟩ ⟨4, stack, c⟩ :=
  Program.leads_of_done (i := .jump 4) rfl rfl

theorem execute_print :
    (Instruction.printNumber 0).execute #[0, 0, x, y] c =
      emit #[0, 0, x, y] c (.ok (numberLine y)) :=
  rfl

/-! ## The parts of the program -/

/-- The head of the loop after `k` of `n` rounds. -/
def loopHead (n : Nat) (c : Console) (k : Nat) : Program.Point :=
  ⟨4, #[0, n - k, Nat.fib k, Nat.fib (k + 1)], c⟩

/-- Before the loop, the number of rounds is read. -/
theorem leads_to_loop
    (hline : NumberLine.parse (firstLine c.input).1 = .ok n) :
    sum.program.Leads 4 ⟨0, #[], c⟩ (loopHead n c.flush.readLine.2 0) := by
  have hzero : sum.program.Leads 1 ⟨0, #[], c⟩ ⟨1, #[0], c⟩ :=
    Program.leads_of_done (i := .push 0) rfl rfl
  have hnumber : sum.program.Leads 1 ⟨1, #[0], c⟩ ⟨2, #[0, n], c.flush.readLine.2⟩ :=
    Program.leads_of_done (i := .readNumber) rfl (acceptNumber_of_parse #[0] hline)
  have hfirst : sum.program.Leads 1 ⟨2, #[0, n], c.flush.readLine.2⟩
      ⟨3, #[0, n, 0], c.flush.readLine.2⟩ :=
    Program.leads_of_done (i := .push 0) rfl rfl
  have hsecond : sum.program.Leads 1 ⟨3, #[0, n, 0], c.flush.readLine.2⟩
      ⟨4, #[0, n, 0, 1], c.flush.readLine.2⟩ :=
    Program.leads_of_done (i := .push 1) rfl rfl
  have hhead : loopHead n c.flush.readLine.2 0 = ⟨4, #[0, n, 0, 1], c.flush.readLine.2⟩ := by
    simp [loopHead]
  rw [hhead]
  exact ((hzero.trans hnumber).trans hfirst).trans hsecond

/-- The first steps of a round do not depend on what the sum comes to. -/
theorem leads_to_add
    (hk : k < n) :
    sum.program.Leads 2 (loopHead n c k)
      ⟨6, #[0, n - k, Nat.fib k, Nat.fib (k + 1), Nat.fib (k + 1)], c⟩ :=
  (leads_stay (by omega)).trans leads_copy

/-- A round adds the two sums, which are neighbours, and leaves one round less. -/
theorem leads_round
    (hk : k < n)
    (hfits : Nat.fib (k + 2) ≤ Word.maximum) :
    sum.program.Leads 5 (loopHead n c k) (loopHead n c (k + 1)) := by
  have hnext : (Nat.fib (k + 1) : Int) + Nat.fib k = Nat.fib (k + 2) := by
    rw [Nat.fib_add_two, Nat.cast_add, add_comm]
  have hsum : (Nat.fib (k + 1) : Int) + Nat.fib k ≤ Word.maximum := by
    rw [hnext]
    exact Int.ofNat_le.2 hfits
  have hadd := ((leads_to_add (c := c) hk).trans (leads_add hsum)).trans
    (leads_decrement (by omega))
  have hhead : loopHead n c (k + 1) =
      ⟨4, #[0, n - k - 1, Nat.fib (k + 1), Nat.fib (k + 1) + Nat.fib k], c⟩ := by
    simp [loopHead, hnext, sub_sub]
  rw [hhead]
  exact hadd.trans (leads_back _)

/-- Up to 92 rounds all sums are words. -/
theorem leads_rounds
    (hk : k ≤ n)
    (hlast : k ≤ 92) :
    sum.program.Leads (5 * k) (loopHead n c 0) (loopHead n c k) := by
  apply Program.Leads.rounds
  intro j hj
  exact leads_round (by omega) (fib_le_maximum_iff.2 (by omega))

/-- The sum of the 93rd round is no word. -/
theorem execute_add_overflow :
    (Instruction.add 1 2).execute #[0, r, Nat.fib 92, Nat.fib 93, Nat.fib 93] c =
      (.fault (.addOverflow (Nat.fib 93) (Nat.fib 92)), c) := by
  have hlarge : ¬ (Nat.fib 93 : Int) + Nat.fib 92 ≤ Word.maximum := by
    have hnext : (Nat.fib 93 : Int) + Nat.fib 92 = Nat.fib 94 := by
      rw [Nat.fib_add_two (n := 92), Nat.cast_add, add_comm]
    rw [hnext, Int.ofNat_le, fib_le_maximum_iff]
    decide
  exact execute_add.trans (if_neg hlarge)

/-- After the rounds, the last sum is to be printed. -/
theorem leads_to_print
    (hn : n ≤ 92) :
    sum.program.Leads (5 * n + 1) (loopHead n c 0)
      ⟨9, #[0, 0, Nat.fib n, Nat.fib (n + 1)], c⟩ := by
  have hhead : loopHead n c n = ⟨4, #[0, 0, Nat.fib n, Nat.fib (n + 1)], c⟩ := by
    simp [loopHead]
  have hrounds := leads_rounds (c := c) (Nat.le_refl n) hn
  rw [hhead] at hrounds
  exact hrounds.trans leads_leave

/-- The step that prints. -/
theorem leads_print
    (hn : n ≤ 92)
    (hopen : c.budget ≠ some 0) :
    ∃ c' : Console,
      sum.program.Leads 1 ⟨9, #[0, 0, Nat.fib n, Nat.fib (n + 1)], c⟩
        ⟨10, #[0, 0, Nat.fib n, Nat.fib (n + 1)], c'⟩ ∧
      c'.written = c.written ++ lineOf (toString (Nat.fib (n + 1))) ∧
      c'.input = c.input ∧ c'.consumed = c.consumed := by
  have hfits : Nat.fib (n + 1) ≤ Word.maximum := fib_le_maximum_iff.2 (by omega)
  obtain ⟨c', hemit, hconsole⟩ := emit_of_budget_ne hopen
    #[0, 0, Nat.fib n, Nat.fib (n + 1)] (numberLine (Nat.fib (n + 1)))
  rw [numberLine_of_le hfits] at hconsole
  exact ⟨c', Program.leads_of_done rfl (execute_print.trans hemit), hconsole⟩

/-! ## Runs -/

/-- **The sum sample computes Fibonacci numbers.**  A run of it that reads a number `n` from the
first line of its input comes to an end, and reads nothing but this line.  If `n` is at most 92, and
the output accepts a write, it comes to the end of the program and has written the Fibonacci number
after the `n`-th one on a line.  If `n` is larger, the 93rd round fails, as the sum does not fit in
a word, and nothing is written. -/
theorem sum_computes_fibonacci
    (hline : NumberLine.parse (firstLine c.input).1 = .ok n)
    (tracing : Bool) :
    ∃ (result : RunResult) (m' : Machine) (c' : Console),
      (Machine.start sum.program tracing none).Runs c result m' c' ∧
      c'.input = (firstLine c.input).2 ∧
      c'.consumed = c.consumed + (firstLine c.input).1.length ∧
      (n ≤ 92 → c.budget ≠ some 0 →
        result = .ok .programEnd ∧
        c'.written = c.written ++ lineOf (toString (Nat.fib (n + 1))) ∧
        m'.stack = (#[0, 0, Nat.fib n, Nat.fib (n + 1)] : Array Int) ∧ m'.pc = 10 ∧
        m'.steps = 5 * n + 6) ∧
      (93 ≤ n →
        (∃ f : Fault, result = .error ⟨6, .add 1 2, f⟩ ∧ f.family = .arithmetic ∧
          f = .addOverflow (Nat.fib 93) (Nat.fib 92)) ∧
        c'.written = c.written ∧
        m'.stack = (#[0, n - 92, Nat.fib 92, Nat.fib 93, Nat.fib 93] : Array Int) ∧ m'.pc = 6 ∧
        m'.steps = 466) := by
  have hstart := Machine.isAt_start sum.program tracing c
  have hloop := leads_to_loop hline
  by_cases hn : n ≤ 92
  · have hlast := hloop.trans (leads_to_print hn)
    have hsmall : ¬ 93 ≤ n := by omega
    by_cases hclosed : c.budget = some 0
    · -- The rounds are made all the same, but the last sum cannot be printed.
      have hrefused := execute_print.trans (emit_of_budget_eq (c := c.flush.readLine.2) hclosed
        #[0, 0, Nat.fib n, Nat.fib (n + 1)] (numberLine (Nat.fib (n + 1))))
      obtain ⟨m', hruns, -⟩ := hlast.runs_to_fault rfl hrefused hstart
      exact ⟨_, m', _, hruns, rfl, rfl, fun _ hopen => absurd hclosed hopen,
        fun hlarge => absurd hlarge hsmall⟩
    · obtain ⟨c₁, hprint, hwritten, hinput, hconsumed⟩ :=
        leads_print (c := c.flush.readLine.2) hn hclosed
      obtain ⟨m', hruns, hstack, hpc, hsteps⟩ :=
        (hlast.trans hprint).runs_to_end (by decide) hstart
      have hzero : (Machine.start sum.program tracing none).steps = 0 := rfl
      refine ⟨_, m', c₁.flush, hruns, hinput, hconsumed, ?_, fun hlarge => absurd hlarge hsmall⟩
      intro _ _
      exact ⟨rfl, hwritten, hstack, hpc, by omega⟩
  · have hrounds := hloop.trans (leads_rounds (n := n) (k := 92) (by omega) (by omega))
    have hlast := hrounds.trans (leads_to_add (by omega))
    obtain ⟨m', hruns, hstack, hpc, hsteps⟩ := hlast.runs_to_fault rfl execute_add_overflow hstart
    refine ⟨_, m', c.flush.readLine.2.flush, hruns, rfl, rfl, fun hsmall => absurd hsmall hn, ?_⟩
    intro _
    exact ⟨⟨_, rfl, rfl, rfl⟩, rfl, hstack, hpc, hsteps⟩

/-- A number with a sign, zeros and a carriage return, and a line that is not read; and the least
number that is too large. -/
theorem sum_computes_fibonacci_signed :
    let c : Console := .ofInput [0x2B, 0x30, 0x30, 0x37, 0x0D, 0x0A, 0x38]
    let d : Console := .ofInput [0x39, 0x33]
    NumberLine.parse (firstLine c.input).1 = .ok 7 ∧
      NumberLine.parse (firstLine d.input).1 = .ok 93 ∧
      (∃ (m' : Machine) (c' : Console),
        (Machine.start sum.program true none).Runs c (.ok .programEnd) m' c' ∧
        c'.input = [0x38] ∧ c'.written = [0x32, 0x31, 0x0A] ∧
        m'.stack = #[0, 0, 13, 21] ∧ m'.steps = 41) ∧
      ∃ (e : Failure) (m' : Machine) (d' : Console),
        (Machine.start sum.program false none).Runs d (.error e) m' d' ∧
        e.message = "pc 6 (Add(a=1, b=2)): Add overflow: " ++
          "12200160415121876738 + 7540113804746346429 exceeds 64 bits" ∧
        d'.written = [] ∧ m'.steps = 466 := by
  intro c d
  have hline : NumberLine.parse (firstLine c.input).1 = .ok 7 := by rfl
  have hline' : NumberLine.parse (firstLine d.input).1 = .ok 93 := by rfl
  obtain ⟨result, m', c', hruns, hinput, -, hsmall, -⟩ := sum_computes_fibonacci hline true
  obtain ⟨rfl, hwritten, hstack, -, hsteps⟩ := hsmall (by decide) (by decide)
  obtain ⟨result', n', d', hruns', -, -, -, hlarge⟩ := sum_computes_fibonacci hline' false
  obtain ⟨⟨f, rfl, -, rfl⟩, hwritten', -, -, hsteps'⟩ := hlarge (by decide)
  exact ⟨hline, hline', ⟨m', c', hruns, hinput, hwritten, hstack, hsteps⟩,
    _, n', d', hruns', by decide +kernel, hwritten', hsteps'⟩

end Sample
end StackMachine
