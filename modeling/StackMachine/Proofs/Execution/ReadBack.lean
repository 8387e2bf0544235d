import Mathlib.Data.List.Basic
import StackMachine.Proofs.Execution.History
import StackMachine.Proofs.Execution.ProgramPoints
import StackMachine.Proofs.Execution.Reachable

/-!
# Reading back what was written

Numbers that a machine writes, on lines and as bytes, are read back by a program that reads lines
and bytes in the same order: a numeral is read as the number that it was written for, and every read
takes exactly the bytes of one write, whatever these bytes are.

* `parse_numberLine` and `firstLine_numberLine` read one line back.
* `Reading` lists instructions that read, with the numbers that they find and the bytes that they
  use up; `Reading.advances` is what they do to a machine.
* `Machine.History.reading`: the writes of a history can be read.
* `Machine.written_numbers_read_back` puts the two together.
-/

namespace StackMachine

variable {stack : Stack} {d : Console} {bytes : List UInt8} {n : Nat}

/-! ## Lines -/

/-- The bytes of a number in decimal. -/
def numeralBytes (n : Nat) : List UInt8 :=
  (Nat.toDigits 10 n).map fun c => UInt8.ofNat c.toNat

theorem numberLine_natCast
    (n : Nat) :
    numberLine n = numeralBytes n ++ [lineFeed] :=
  rfl

/-- The digits of a number are ASCII, so that they are the bytes that stand for them. -/
theorem toNat_digitByte
    {c : Char}
    (hc : c ∈ Nat.toDigits 10 n) :
    0x30 ≤ c.toNat ∧ c.toNat ≤ 0x39 ∧ (UInt8.ofNat c.toNat).toNat = c.toNat := by
  have hdigit : c.isDigit = true := Nat.isDigit_of_mem_toDigits (by decide) (by decide) hc
  have hlow : 0x30 ≤ c.toNat := by
    simpa [Char.isDigit, UInt32.le_iff_toNat_le] using (Bool.and_eq_true_iff.1 hdigit).1
  have hhigh : c.toNat ≤ 0x39 := by
    simpa [Char.isDigit, UInt32.le_iff_toNat_le] using (Bool.and_eq_true_iff.1 hdigit).2
  refine ⟨hlow, hhigh, ?_⟩
  rw [UInt8.toNat_ofNat']
  omega

theorem isDigit_of_mem_numeralBytes
    {b : UInt8}
    (hb : b ∈ numeralBytes n) :
    0x30 ≤ b.toNat ∧ b.toNat ≤ 0x39 := by
  obtain ⟨c, hc, rfl⟩ := List.mem_map.1 hb
  obtain ⟨hlow, hhigh, hbyte⟩ := toNat_digitByte hc
  omega

theorem ne_of_mem_numeralBytes
    {b x : UInt8}
    (hb : b ∈ numeralBytes n)
    (hx : x.toNat < 0x30) :
    b ≠ x := by
  rintro rfl
  have hdigit := isDigit_of_mem_numeralBytes hb
  omega

/-- The digits of a number stand for the number. -/
theorem positional_numeralBytes
    (n : Nat) :
    Text.positional 10 ((numeralBytes n).map fun b => b.toNat - 0x30) = n := by
  have hdigits : Nat.ofDigitChars 10 (Nat.toDigits 10 n) 0 = n := Nat.ofDigitChars_ten_toDigits
  rw [Nat.ofDigitChars_eq_foldl] at hdigits
  rw [Text.positional, numeralBytes, List.map_map, List.foldl_map]
  refine Eq.trans (List.foldl_ext _ _ 0 ?_) hdigits
  intro value c hc
  obtain ⟨-, -, hbyte⟩ := toNat_digitByte hc
  simp only [Function.comp_apply, hbyte]
  rw [Nat.mul_comm]
  rfl

theorem text_numberLine
    (n : Nat) :
    NumberLine.text (numberLine n) = numeralBytes n := by
  have hlast : (numeralBytes n).getLast? ≠ some carriageReturn := by
    intro hlast
    exact ne_of_mem_numeralBytes (List.mem_of_getLast? hlast) (by decide) rfl
  simp [NumberLine.text, numberLine_natCast, hlast]

theorem unsigned_numeralBytes
    (n : Nat) :
    NumberLine.unsigned (numeralBytes n) = numeralBytes n := by
  unfold NumberLine.unsigned
  split
  · next rest hplus =>
      have hmem : 0x2B ∈ numeralBytes n := by
        rw [hplus]
        exact List.mem_cons_self
      exact absurd rfl (ne_of_mem_numeralBytes hmem (by decide))
  · rfl

/-- A word is read from the line that is written for it. -/
theorem parse_numberLine
    (hn : n ≤ Word.maximum) :
    NumberLine.parse (numberLine n) = .ok n := by
  have hmaximum := Word.maximum_eq
  have hne : (numeralBytes n).isEmpty = false := by
    simp [numeralBytes, Nat.toDigits_ne_nil]
  have hall : (numeralBytes n).all NumberLine.isDigit = true := by
    rw [List.all_eq_true]
    intro b hb
    obtain ⟨hlow, hhigh⟩ := isDigit_of_mem_numeralBytes hb
    simpa [NumberLine.isDigit, UInt8.le_iff_toNat_le] using ⟨hlow, hhigh⟩
  have hlength : (numeralBytes n).length ≤ 20 := by
    rw [numeralBytes, List.length_map, Nat.length_toDigits_le_iff (by decide) (by decide)]
    omega
  have hshort : ¬ Text.maxDecimalDigits < (numeralBytes n).length := by
    rw [Text.maxDecimalDigits]
    omega
  simp only [NumberLine.parse, text_numberLine, unsigned_numeralBytes, hne, hall, hshort,
    positional_numeralBytes, hn, Bool.not_true, Bool.or_self, Bool.false_eq_true, ↓reduceIte]

/-- The first line of what starts with a number's line is that line. -/
theorem firstLine_numberLine
    (n : Nat) (rest : List UInt8) :
    firstLine (numberLine n ++ rest) = (numberLine n, rest) := by
  have hall : ∀ b ∈ numeralBytes n, (b != lineFeed) = true := by
    intro b hb
    rw [bne_iff_ne]
    exact ne_of_mem_numeralBytes hb (by decide)
  simp [firstLine, numberLine_natCast, List.append_assoc, List.takeWhile_append_of_pos hall,
    List.dropWhile_append_of_pos hall]

/-! ## Reads -/

theorem acceptNumber_numberLine
    (stack : Stack)
    (hn : n ≤ Word.maximum)
    (hinput : d.input = numberLine n ++ bytes) :
    ∃ d' : Console, acceptNumber stack d = (.done (stack.push n) none, d') ∧
      d'.input = bytes ∧ d'.consumed = d.consumed + (numberLine n).length := by
  have hread : d.flush.readLine = (numberLine n, d.flush.readLine.2) := by
    simp [Console.readLine, Console.flush, hinput, firstLine_numberLine]
  obtain ⟨b, line, hline⟩ : ∃ b line, numberLine n = b :: line :=
    List.exists_cons_of_ne_nil (by simp [numberLine_natCast])
  refine ⟨d.flush.readLine.2, ?_, ?_, ?_⟩
  · rw [acceptNumber, hread, hline]
    simp only [← hline, parse_numberLine hn]
  · simp [Console.readLine, Console.flush, hinput, firstLine_numberLine]
  · simp [Console.readLine, Console.flush, hinput, firstLine_numberLine]

/-- The instructions read the numbers from the bytes, and use the bytes up. -/
inductive Reading : List Instruction → List Int → List UInt8 → Prop
  | nil :
      Reading [] [] []
  | number
      {n : Nat} {is : List Instruction} {ns : List Int} {bytes : List UInt8}
      (hn : n ≤ Word.maximum)
      (rest : Reading is ns bytes) :
      Reading (.readNumber :: is) (n :: ns) (numberLine n ++ bytes)
  | byte
      {is : List Instruction} {ns : List Int} {bytes : List UInt8}
      (b : UInt8)
      (rest : Reading is ns bytes) :
      Reading (.readByte :: is) (b.toNat :: ns) (b :: bytes)

namespace Machine

variable {m m' : Machine} {c c' : Console} {i : Instruction} {is : List Instruction}

/-- Executing an instruction that pushes a number, on a machine without a limit. -/
theorem step_of_push
    {before : List Instruction} {x : Int} {d₁ : Console}
    (hprogram : m.program.toList = before ++ i :: is)
    (hpc : m.pc = before.length)
    (hlimit : m.stepLimit = none)
    (h : i.execute m.stack d = (.done (m.stack.push x) none, d₁)) :
    m.limitReached = false ∧
      ∃ m₁ : Machine, m.step d = (.advanced, m₁, d₁) ∧
        m₁.program.toList = (before ++ [i]) ++ is ∧ m₁.pc = (before ++ [i]).length ∧
        m₁.stepLimit = none ∧ m₁.stack = m.stack.push x := by
  have hi : m.program[m.pc]? = some i := by
    rw [← Array.getElem?_toList, hprogram, hpc]
    simp
  refine ⟨by simp [limitReached, hlimit], _, step_of_done hi h, ?_, ?_, ?_, rfl⟩
  · simp [hprogram]
  · simp [hpc]
  · simp [hlimit]

/-- A machine that comes to instructions that read finds the numbers, and nothing is left. -/
theorem advances_of_reading
    {before : List Instruction} {ns : List Int}
    (h : Reading is ns bytes)
    (hprogram : m.program.toList = before ++ is)
    (hpc : m.pc = before.length)
    (hlimit : m.stepLimit = none)
    (hinput : d.input = bytes) :
    ∃ (m' : Machine) (d' : Console),
      Advances is.length m d m' d' ∧ m'.pc = (before ++ is).length ∧
      m'.stack.toList = m.stack.toList ++ ns ∧
      d'.input = [] ∧ d'.consumed = d.consumed + bytes.length := by
  induction h generalizing before m d with
  | nil =>
      exact ⟨m, d, .refl m d, by simpa using hpc, by simp, hinput, rfl⟩
  | @number n is ns bytes hn _ ih =>
      obtain ⟨d₁, hexecute, hinput₁, hconsumed₁⟩ :=
        acceptNumber_numberLine m.stack hn hinput
      obtain ⟨hbelow, m₁, hstep, hprogram₁, hpc₁, hlimit₁, hstack₁⟩ :=
        step_of_push (i := .readNumber) hprogram hpc hlimit hexecute
      obtain ⟨m', d', hadvances, hpc', hstack', hinput', hconsumed'⟩ :=
        ih hprogram₁ hpc₁ hlimit₁ hinput₁
      refine ⟨m', d', .step hbelow hstep hadvances, ?_, ?_, hinput', ?_⟩
      · simpa using hpc'
      · simp [hstack', hstack₁]
      · rw [hconsumed', hconsumed₁, List.length_append, Nat.add_assoc]
  | @byte is ns bytes b _ ih =>
      obtain ⟨d₁, hexecute, hinput₁, hconsumed₁, -⟩ := acceptByte_cons m.stack hinput
      obtain ⟨hbelow, m₁, hstep, hprogram₁, hpc₁, hlimit₁, hstack₁⟩ :=
        step_of_push (i := .readByte) hprogram hpc hlimit hexecute
      obtain ⟨m', d', hadvances, hpc', hstack', hinput', hconsumed'⟩ :=
        ih hprogram₁ hpc₁ hlimit₁ hinput₁
      refine ⟨m', d', .step hbelow hstep hadvances, ?_, ?_, hinput', ?_⟩
      · simpa using hpc'
      · simp [hstack', hstack₁]
      · rw [hconsumed', hconsumed₁, List.length_cons, Nat.add_assoc, Nat.add_comm 1]

end Machine

/-! ## Writes that are read back -/

/-- The instruction that reads back the number that the instruction writes. -/
def Instruction.readBack? : Instruction → Option Instruction
  | printNumber _ => some readNumber
  | printByte _ => some readByte
  | _ => none

/-- The number that executing the attempted instruction writes, on a line or as a byte. -/
def Attempt.number? (a : Attempt) : Option Int :=
  match a.instruction with
  | .printNumber p | .printByte p => (peek a.stack p).toOption
  | _ => none

/-- The numbers that the executed attempts write are read back from the input: a fresh machine with
an instruction that reads for each one that writes runs to the end of its program, has these numbers
on its stack, and has used up the input. -/
def ReadsBack (attempts : List Attempt) (input : List UInt8) : Prop :=
  ∀ (tracing : Bool) (d : Console), d.input = input →
    ∃ (m : Machine) (d' : Console),
      (Machine.start (attempts.filterMap fun a => a.instruction.readBack?) tracing none).Runs d
        (.ok .programEnd) m d' ∧
      m.stack = (attempts.filterMap Attempt.number?).toArray ∧
      d'.input = [] ∧ d'.consumed = d.consumed + input.length

theorem readsBack_of_reading
    {attempts : List Attempt}
    (h : Reading (attempts.filterMap fun a => a.instruction.readBack?)
      (attempts.filterMap Attempt.number?) bytes) :
    ReadsBack attempts bytes := by
  intro tracing d hinput
  let reader := Machine.start (attempts.filterMap fun a => a.instruction.readBack?) tracing none
  have hprogram : reader.program.toList =
      [] ++ attempts.filterMap fun a => a.instruction.readBack? := rfl
  obtain ⟨m, d', hadvances, hpc, hstack, hinput', hconsumed⟩ :=
    Machine.advances_of_reading h hprogram rfl rfl hinput
  obtain ⟨-, hsame, hlimit, -⟩ := hadvances.counts
  have hbelow : m.limitReached = false := by
    rw [Machine.limitReached, hlimit]
    rfl
  have hend : m.program[m.pc]? = none := by
    rw [hsame, ← Array.getElem?_toList, hprogram, hpc]
    exact List.getElem?_eq_none (Nat.le_refl _)
  refine ⟨m, d'.flush, ?_, Array.toList_inj.1 hstack, hinput', hconsumed⟩
  exact Machine.runs_iff.2
    ⟨_, m, d', d', hadvances, .stopped hbelow (Machine.step_of_halted hend), rfl⟩

/-- A byte is written for a number that it stands for. -/
theorem peek_of_byteAt
    {p : Word} {b : UInt8}
    (h : byteAt stack p = .ok b) :
    peek stack p = .ok (b.toNat : Int) := by
  obtain ⟨x, hx, hbyte⟩ := ok_of_bind h
  split at hbyte
  · cases hbyte
  · next hle =>
      split at hbyte
      · cases hbyte
      · next hnonneg =>
          cases hbyte
          have hnat : (UInt8.ofNat x.toNat).toNat = x.toNat := by
            rw [UInt8.toNat_ofNat']
            omega
          rw [hx, hnat, Int.toNat_of_nonneg (by omega)]

/-- What an executed attempt writes is read back before what follows it. -/
theorem reading_of_attempt
    {a : Attempt} {is : List Instruction} {ns : List Int}
    (hstack : ∀ x ∈ a.stack, IsWord x)
    (hdone : a.output?.isSome = a.instruction.writes)
    (htext : ∀ text, a.instruction ≠ .printText text)
    (h : Reading is ns bytes) :
    Reading (a.instruction.readBack?.toList ++ is) (a.number?.toList ++ ns)
      (a.output?.toList.flatten ++ bytes) := by
  obtain ⟨pc, i, stack⟩ := a
  cases i with
  | printNumber p =>
      cases hpeek : peek stack p with
      | error f =>
          simp [Attempt.output?, Instruction.writes, hpeek, Functor.map, Except.map,
            Except.toOption] at hdone
      | ok x =>
          obtain ⟨hnonneg, hlt⟩ := hstack x (mem_of_peek hpeek)
          obtain ⟨n, rfl⟩ := Int.eq_ofNat_of_zero_le hnonneg
          have hmaximum := Word.maximum_eq
          have hn : n ≤ Word.maximum := by omega
          simpa [Attempt.output?, Attempt.number?, Instruction.readBack?, hpeek, Functor.map,
            Except.map, Except.toOption] using Reading.number hn h
  | printByte p =>
      cases hbyte : byteAt stack p with
      | error f =>
          simp [Attempt.output?, Instruction.writes, hbyte, Functor.map, Except.map,
            Except.toOption] at hdone
      | ok b =>
          simpa [Attempt.output?, Attempt.number?, Instruction.readBack?, hbyte,
            peek_of_byteAt hbyte, Functor.map, Except.map, Except.toOption] using Reading.byte b h
  | printText text =>
      exact absurd rfl (htext text)
  | _ =>
      simpa [Attempt.output?, Attempt.number?, Instruction.readBack?] using h

namespace Machine

variable {m m' : Machine} {c c' : Console} {log : List (Attempt × StepResult)}

/-- What a history writes can be read. -/
theorem History.reading
    (h : History log m c m' c')
    (hstack : ∀ x ∈ m.stack, IsWord x)
    (htext : ∀ a ∈ executed log, ∀ text, a.instruction ≠ .printText text) :
    Reading ((executed log).filterMap fun a => a.instruction.readBack?)
      ((executed log).filterMap Attempt.number?)
      ((executed log).filterMap Attempt.output?).flatten := by
  induction h with
  | nil m c =>
      exact .nil
  | @cons a s log m m₁ m' c c₁ c' ha hstep _ ih =>
      rw [executed_cons] at htext ⊢
      obtain ⟨instructions, hreaches, -⟩ := reaches_of_step hstep
      have hrest := ih (hreaches.accounted.isWord hstack)
        fun b hb => htext b (List.mem_append_right _ hb)
      by_cases hs : s = .advanced
      · rw [if_pos hs] at htext ⊢
        obtain ⟨i, -, -, rfl, -⟩ := exists_execute_of_step ha hstep
        have hdone := (writes_of_step ha hstep).1 hs
        have hattempt := reading_of_attempt hstack hdone
          (htext _ (List.mem_append_left _ List.mem_cons_self)) hrest
        simpa [List.filterMap_eq_flatMap_toList] using hattempt
      · rw [if_neg hs]
        exact hrest

/-- Whatever a machine on a stack of words writes by numbers, on lines and as bytes, is read back.
Executed steps have a history, and so has a run, whatever it ends with. -/
theorem written_numbers_read_back
    (m : Machine) (c : Console)
    (hstack : ∀ x ∈ m.stack, IsWord x) :
    (∀ log m' c', History log m c m' c' →
      (∀ a ∈ executed log, ∀ text, a.instruction ≠ .printText text) →
      ∃ output, c'.written = c.written ++ output ∧ ReadsBack (executed log) output) ∧
    (∀ k m' c', Advances k m c m' c' →
      ∃ log, History log m c m' c' ∧ log.map Prod.snd = List.replicate k .advanced) ∧
    (∀ r m' c', m.Runs c r m' c' →
      ∃ log c₁ k, History log m c m' c₁ ∧ c' = c₁.flush ∧ c'.written = c₁.written ∧
        log.map Prod.snd = List.replicate k .advanced ++ r.unexecuted) := by
  refine ⟨?_, fun k m' c' h => h.exists_history, ?_⟩
  · intro log m' c' h htext
    refine ⟨_, ?_, readsBack_of_reading (h.reading hstack htext)⟩
    rw [Console.written, h.writes, List.flatten_append, Console.written]
  · intro r m' c' h
    obtain ⟨log, c₁, k, hhistory, rfl, hresults⟩ := h.exists_history
    exact ⟨log, c₁, k, hhistory, rfl, rfl, hresults⟩

/-- A line feed and a plus sign are written as bytes between numerals, and then the largest word
is not written as a byte. -/
theorem written_numbers_read_back_mixed :
    let full : Int := 0xFFFFFFFFFFFFFFFF
    let m : Machine :=
      ⟨#[.printByte 1, .printNumber 2, .printByte 0, .printNumber 1, .printByte 2],
        #[full, 10, 43], 0, 0, none, false, #[]⟩
    let c : Console := .ofInput []
    let attempts : List Attempt :=
      [⟨0, .printByte 1, m.stack⟩, ⟨1, .printNumber 2, m.stack⟩, ⟨2, .printByte 0, m.stack⟩,
        ⟨3, .printNumber 1, m.stack⟩]
    let log : List (Attempt × StepResult) := attempts.map fun a => (a, .advanced)
    let output : List UInt8 := 10 :: numberLine full ++ [43, 0x31, 0x30, 10]
    (∀ x ∈ m.stack, IsWord x) ∧
    (∀ a ∈ executed log, ∀ text, a.instruction ≠ .printText text) ∧
    ∃ m' c',
      History log m c m' c' ∧ c'.written = output ∧
      m.Runs c (.error ⟨4, .printByte 2, .byteOverflow full⟩) m' c'.flush ∧
      ReadsBack attempts output := by
  intro full m c attempts log output
  let m' : Machine := { m with pc := 4, steps := 4 }
  let writes : List (List UInt8) := [[10], numberLine full, [43], [0x31, 0x30, 10]]
  let c' : Console := ⟨[], 0, writes.toArray, none, (writes.map .write).toArray⟩
  have hstack : ∀ x ∈ m.stack, IsWord x := by simp [m, full, IsWord]
  have htext : ∀ a ∈ executed log, ∀ text, a.instruction ≠ .printText text := by
    simp [executed, log, attempts]
  have hlog : History log m c m' c' :=
    .cons rfl rfl (.cons rfl rfl (.cons rfl rfl (.cons rfl rfl (.nil m' c'))))
  obtain ⟨hwritten, -, -⟩ := written_numbers_read_back m c hstack
  obtain ⟨read, houtput, hread⟩ := hwritten log m' c' hlog htext
  have hread_eq : read = output := houtput.symm
  rw [hread_eq] at hread
  exact ⟨hstack, htext, m', c', hlog, rfl, ⟨9, rfl⟩, hread⟩

end Machine
end StackMachine
