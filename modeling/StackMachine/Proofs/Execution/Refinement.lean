import StackMachine.Proofs.Execution.Lines
import StackMachine.Proofs.Execution.Slots
import StackMachine.Proofs.Execution.Steps

/-!
# Steps follow the table

A step of a machine on a stack of words has the outcome that the table gives for the stack read from
the top.  An outcome is matched with a step in three parts: an offset that names no element, two
summands that are one element or a result that does not fit, and the thirteen instructions when
nothing stands in their way.

* `TopFirst.Outcome.Follows` relates an outcome to a step.
* `TopFirst.execute_of_stray`, `TopFirst.Misfit.execute_eq` and `TopFirst.follows_perform` are the
  three parts, and `TopFirst.follows_execute` puts them together.
-/

namespace StackMachine
namespace TopFirst

namespace Outcome

/-- How a step with the outcome ends. -/
def result (m : Machine) (i : Instruction) : Outcome → StepResult
  | next _ _ _ _ => .advanced
  | endOfInput => .stopped .endOfInput
  | failed f _ => .failed ⟨m.pc, i, f⟩

/-- The machine that a step with the outcome leaves. -/
def machine (m : Machine) (i : Instruction) : Outcome → Machine
  | next s pc _ _ =>
      { m.record i with
        stack := bottomFirst s
        pc := pc
        steps := m.steps + 1 }
  | endOfInput | failed _ _ => m.record i

/-- The input that a step with the outcome leaves. -/
def rest : Outcome → List UInt8
  | next _ _ _ rest | failed _ rest => rest
  | endOfInput => []

/-- The bytes that a step with the outcome writes. -/
def output : Outcome → List UInt8
  | next _ _ output _ => output
  | endOfInput | failed _ _ => []

/-- A step of the machine, which executes the instruction `i`, has the outcome. -/
def Follows (m : Machine) (c : Console) (i : Instruction) (o : Outcome) : Prop :=
  ∃ c' : Console, m.step c = (o.result m i, o.machine m i, c') ∧
    c'.input = o.rest ∧ c'.written = c.written ++ o.output

end Outcome

variable {m : Machine} {c c' : Console} {i : Instruction} {s : List Word}

/-! ## Effects as outcomes -/

theorem follows_next
    {target : Option Nat} {rest output : List UInt8}
    (hi : m.program[m.pc]? = some i)
    (h : i.execute m.stack c = (.done (bottomFirst s) target, c'))
    (hinput : c'.input = rest)
    (houtput : c'.written = c.written ++ output) :
    (Outcome.next s (target.getD (m.pc + 1)) output rest).Follows m c i :=
  ⟨c', Machine.step_of_done hi h, hinput, houtput⟩

/-- An effect on nothing but the stack and the position. -/
theorem follows_next_silent
    {target : Option Nat}
    (hi : m.program[m.pc]? = some i)
    (h : i.execute m.stack c = (.done (bottomFirst s) target, c)) :
    (Outcome.next s (target.getD (m.pc + 1)) [] c.input).Follows m c i :=
  follows_next hi h rfl (List.append_nil _).symm

theorem follows_failed
    {f : Fault} {rest : List UInt8}
    (hi : m.program[m.pc]? = some i)
    (h : i.execute m.stack c = (.fault f, c'))
    (hinput : c'.input = rest)
    (houtput : c'.written = c.written) :
    (Outcome.failed f rest).Follows m c i :=
  ⟨c', Machine.step_of_fault hi h, hinput, by rw [houtput, Outcome.output, List.append_nil]⟩

theorem follows_endOfInput
    (hi : m.program[m.pc]? = some i)
    (h : i.execute m.stack c = (.endOfInput, c'))
    (hinput : c'.input = [])
    (houtput : c'.written = c.written) :
    Outcome.endOfInput.Follows m c i :=
  ⟨c', Machine.step_of_endOfInput hi h, hinput, by rw [houtput, Outcome.output, List.append_nil]⟩

/-! ## Offsets that name no element -/

theorem strayOffset_one
    {p q : Word}
    (hoffsets : offsets i = [p])
    (h : strayOffset s i = some q) :
    q = p ∧ s.length ≤ p.toNat := by
  simp only [strayOffset, hoffsets, List.find?_cons, List.find?_nil] at h
  split at h
  · next hle =>
      cases h
      exact ⟨rfl, of_decide_eq_true hle⟩
  · cases h

/-- Of two offsets the first one that names no element is reported. -/
theorem strayOffset_two
    {a b q : Word}
    (hoffsets : offsets i = [a, b])
    (h : strayOffset s i = some q) :
    (q = a ∧ s.length ≤ a.toNat) ∨
      (q = b ∧ a.toNat < s.length ∧ s.length ≤ b.toNat) := by
  simp only [strayOffset, hoffsets, List.find?_cons, List.find?_nil] at h
  split at h
  · next hle =>
      cases h
      exact Or.inl ⟨rfl, of_decide_eq_true hle⟩
  · next hlt =>
      split at h
      · next hle =>
          cases h
          exact Or.inr ⟨rfl, Nat.lt_of_not_le (of_decide_eq_false hlt), of_decide_eq_true hle⟩
      · cases h

theorem lt_of_strayOffset_eq_none
    (h : strayOffset s i = none) :
    ∀ p ∈ offsets i, p.toNat < s.length := by
  intro p hp
  have hlt := List.find?_eq_none.1 h p hp
  simpa using hlt

theorem lt_of_offsets_one
    {p : Word}
    (hoffsets : offsets i = [p])
    (hlt : ∀ q ∈ offsets i, q.toNat < s.length) :
    p.toNat < s.length :=
  hlt p (by simp [hoffsets])

theorem lt_of_offsets_two
    {a b : Word}
    (hoffsets : offsets i = [a, b])
    (hlt : ∀ q ∈ offsets i, q.toNat < s.length) :
    a.toNat < s.length ∧ b.toNat < s.length :=
  ⟨hlt a (by simp [hoffsets]), hlt b (by simp [hoffsets])⟩

theorem compareSlots_of_stray
    {a b q : Word}
    (hoffsets : offsets i = [a, b])
    (h : strayOffset s i = some q)
    (holds : Int → Int → Bool) :
    compareSlots (bottomFirst s) a b holds =
      .error (.offsetOutOfRange q.toNat s.length) := by
  -- The second slot is only looked up if the first one is there.
  rcases strayOffset_two hoffsets h with ⟨rfl, ha⟩ | ⟨rfl, ha, hb⟩
  · rw [compareSlots, peek_of_le ha]
    rfl
  · rw [compareSlots, peek_bottomFirst ha, peek_of_le hb]
    rfl

theorem addSlots_of_stray
    {a b q : Word}
    (h : strayOffset s (.add a b) = some q) :
    addSlots (bottomFirst s) a b = .error (.offsetOutOfRange q.toNat s.length) := by
  rcases strayOffset_two rfl h with ⟨rfl, ha⟩ | ⟨rfl, ha, hb⟩
  · rw [addSlots, slot_of_le ha]
    rfl
  · rw [addSlots, slot_bottomFirst ha, slot_of_le hb]
    rfl

/-- No instruction does anything when an offset names no element. -/
theorem execute_of_stray
    {q : Word}
    (h : strayOffset s i = some q)
    (c : Console) :
    i.execute (bottomFirst s) c = (.fault (.offsetOutOfRange q.toNat s.length), c) := by
  cases i with
  | push w =>
      cases h
  | printNumber p =>
      obtain ⟨rfl, hle⟩ := strayOffset_one rfl h
      rw [Instruction.execute, peek_of_le hle]
      rfl
  | readNumber =>
      cases h
  | printText text =>
      cases h
  | copy p =>
      obtain ⟨rfl, hle⟩ := strayOffset_one rfl h
      rw [Instruction.execute, peek_of_le hle]
      rfl
  | add a b =>
      rw [Instruction.execute, addSlots_of_stray h]
      rfl
  | jumpIfGreater a b t =>
      rw [Instruction.execute, compareSlots_of_stray rfl h]
      rfl
  | jumpIfEqual a b t =>
      rw [Instruction.execute, compareSlots_of_stray rfl h]
      rfl
  | jump t =>
      cases h
  | decrement p =>
      obtain ⟨rfl, hle⟩ := strayOffset_one rfl h
      rw [Instruction.execute, decrementSlot, slot_of_le hle]
      rfl
  | increment p =>
      obtain ⟨rfl, hle⟩ := strayOffset_one rfl h
      rw [Instruction.execute, incrementSlot, slot_of_le hle]
      rfl
  | readByte =>
      cases h
  | printByte p =>
      obtain ⟨rfl, hle⟩ := strayOffset_one rfl h
      rw [Instruction.execute, byteAt, peek_of_le hle]
      rfl

/-! ## Results that do not fit -/

/-- Why an instruction whose offsets name elements cannot be executed. -/
inductive Misfit (s : List Word) : Instruction → Fault → Prop
  | same
      {a b : Word}
      (h : a = b) :
      Misfit s (.add a b) (.sameSlot a.toNat b.toNat s.length)
  | sum
      {a b : Word}
      (hne : a ≠ b)
      (h : 2 ^ 64 ≤ (element s a).toNat + (element s b).toNat) :
      Misfit s (.add a b) (.addOverflow (element s a).toNat (element s b).toNat)
  | zero
      {p : Word}
      (h : element s p = 0) :
      Misfit s (.decrement p) .decrementUnderflow
  | maximum
      {p : Word}
      (h : (element s p).toNat = 2 ^ 64 - 1) :
      Misfit s (.increment p) .incrementOverflow
  | large
      {p : Word}
      (h : 255 < (element s p).toNat) :
      Misfit s (.printByte p) (.byteOverflow (element s p).toNat)

/-- The two ways in which looking for a misfit ends. -/
theorem misfit_cases
    (s : List Word) (i : Instruction) :
    (misfit s i = none ∧ ¬ SameElement i ∧ ¬ Overflows s i) ∨
      ∃ f : Fault, misfit s i = some f ∧ Misfit s i f := by
  cases i with
  | add a b =>
      by_cases hsame : a = b
      · exact Or.inr ⟨_, if_pos hsame, .same hsame⟩
      · by_cases hsum : 2 ^ 64 ≤ (element s a).toNat + (element s b).toNat
        · exact Or.inr ⟨_, by rw [misfit, if_neg hsame, if_pos hsum], .sum hsame hsum⟩
        · exact Or.inl ⟨by rw [misfit, if_neg hsame, if_neg hsum], hsame, hsum⟩
  | decrement p =>
      by_cases hzero : element s p = 0
      · exact Or.inr ⟨_, if_pos hzero, .zero hzero⟩
      · exact Or.inl ⟨if_neg hzero, id, hzero⟩
  | increment p =>
      by_cases hmaximum : (element s p).toNat = 2 ^ 64 - 1
      · exact Or.inr ⟨_, if_pos hmaximum, .maximum hmaximum⟩
      · exact Or.inl ⟨if_neg hmaximum, id, hmaximum⟩
  | printByte p =>
      by_cases hlarge : 255 < (element s p).toNat
      · exact Or.inr ⟨_, if_pos hlarge, .large hlarge⟩
      · exact Or.inl ⟨if_neg hlarge, id, hlarge⟩
  | _ =>
      exact Or.inl ⟨rfl, id, id⟩

/-- A misfit is noticed before anything is done. -/
theorem Misfit.execute_eq
    {f : Fault}
    (h : Misfit s i f)
    (hlt : ∀ p ∈ offsets i, p.toNat < s.length)
    (c : Console) :
    i.execute (bottomFirst s) c = (.fault f, c) := by
  cases h with
  | @same a b h =>
      obtain ⟨ha, hb⟩ := lt_of_offsets_two rfl hlt
      rw [Instruction.execute, addSlots_bottomFirst ha hb, if_pos h]
      rfl
  | @sum a b hne h =>
      obtain ⟨ha, hb⟩ := lt_of_offsets_two rfl hlt
      rw [Instruction.execute, addSlots_bottomFirst ha hb, if_neg hne, if_pos h]
      rfl
  | @zero p h =>
      have hp : p.toNat < s.length := lt_of_offsets_one rfl hlt
      rw [Instruction.execute, decrementSlot_bottomFirst hp, if_pos h]
      rfl
  | @maximum p h =>
      have hp : p.toNat < s.length := lt_of_offsets_one rfl hlt
      rw [Instruction.execute, incrementSlot_bottomFirst hp, if_pos h]
      rfl
  | @large p h =>
      have hp : p.toNat < s.length := lt_of_offsets_one rfl hlt
      have hlarge : (255 : Int) < (element s p).toNat := by omega
      rw [Instruction.execute, byteAt, peek_bottomFirst hp]
      simp only [bind, Except.bind, if_pos hlarge]
      rfl

/-! ## Instructions without an obstacle -/

/-- An effect on nothing but the output and the position. -/
theorem follows_next_emit
    {bytes : List UInt8}
    (hi : m.program[m.pc]? = some i)
    (hopen : c.budget = none)
    (h : i.execute m.stack c = emit (bottomFirst s) c (.ok bytes)) :
    (Outcome.next s (m.pc + 1) bytes c.input).Follows m c i := by
  rw [emit_of_open hopen] at h
  exact follows_next hi h rfl (written_accept c bytes)

/-- An effect on nothing but the position, which depends on a condition. -/
theorem follows_next_condition
    {taken : Bool} {target : Word}
    (hi : m.program[m.pc]? = some i)
    (h : i.execute m.stack c = (.ofCondition (bottomFirst s) target (.ok taken), c)) :
    (Outcome.next s (if taken then target.toNat else m.pc + 1) [] c.input).Follows m c i := by
  cases taken with
  | true =>
      have hdone : i.execute m.stack c = (.done (bottomFirst s) (some target.toNat), c) := h
      exact follows_next_silent hi hdone
  | false =>
      have hdone : i.execute m.stack c = (.done (bottomFirst s) none, c) := h
      exact follows_next_silent hi hdone

theorem follows_readNumber
    (hi : m.program[m.pc]? = some .readNumber)
    (hs : m.stack = bottomFirst s) :
    (perform m.pc s c.input .readNumber).Follows m c .readNumber := by
  have hread := readLine_eq c.flush
  have hflush : c.flush.input = c.input := rfl
  rw [hflush] at hread
  by_cases hinput : c.input = []
  · have heffect : Instruction.readNumber.execute m.stack c =
        (.endOfInput, c.flush.readLine.2) := by
      rw [Instruction.execute, acceptNumber, hread, take_lineLength_eq_nil.2 hinput]
    rw [perform, if_pos hinput]
    refine follows_endOfInput hi heffect ?_ ?_
    · rw [hread, hinput]
      rfl
    · rw [hread]
      rfl
  · obtain ⟨b, line, hline⟩ :=
      List.exists_cons_of_ne_nil (mt take_lineLength_eq_nil.1 hinput)
    rw [perform, if_neg hinput]
    simp only
    cases hword : lineWord (c.input.take (lineLength c.input)) with
    | error rejection =>
        have heffect : Instruction.readNumber.execute m.stack c =
            (.fault (.badLine (c.input.take (lineLength c.input)) rejection),
              c.flush.readLine.2) := by
          rw [hline] at hread hword ⊢
          simp only [Instruction.execute, acceptNumber, hread, parse_eq, hword, Except.map]
        refine follows_failed hi heffect ?_ ?_
        · rw [hread]
        · rw [hread]
          rfl
    | ok w =>
        have heffect : Instruction.readNumber.execute m.stack c =
            (.done (bottomFirst (w :: s)) none, c.flush.readLine.2) := by
          rw [hline] at hread hword
          simp only [Instruction.execute, acceptNumber, hread, parse_eq, hword, Except.map, hs,
            push_bottomFirst]
        refine follows_next hi heffect ?_ ?_
        · rw [hread]
        · rw [hread, List.append_nil]
          rfl

theorem follows_readByte
    (hi : m.program[m.pc]? = some .readByte)
    (hs : m.stack = bottomFirst s) :
    (perform m.pc s c.input .readByte).Follows m c .readByte := by
  cases hinput : c.input with
  | nil =>
      have hread : c.flush.readByte =
          (none, { c.flush with calls := c.flush.calls.push .readByte }) := by
        simp only [Console.readByte, Console.flush, hinput]
      have heffect : Instruction.readByte.execute m.stack c =
          (.endOfInput, c.flush.readByte.2) := by
        rw [Instruction.execute, acceptByte, hread]
      refine follows_endOfInput hi heffect ?_ ?_
      · rw [hread]
        exact hinput
      · rw [hread]
        rfl
  | cons b rest =>
      have hread : c.flush.readByte =
          (some b,
            { c.flush with
              input := rest
              consumed := c.consumed + 1
              calls := c.flush.calls.push .readByte }) := by
        simp only [Console.readByte, Console.flush, hinput]
      have hb : (b.toUInt64.toNat : Int) = b.toNat := by
        rw [UInt8.toNat_toUInt64]
      have heffect : Instruction.readByte.execute m.stack c =
          (.done (bottomFirst (b.toUInt64 :: s)) none, c.flush.readByte.2) := by
        rw [Instruction.execute, acceptByte, hread, hs, ← push_bottomFirst, hb]
      refine follows_next hi heffect ?_ ?_
      · rw [hread]
      · rw [hread, List.append_nil]
        rfl

theorem follows_perform
    (hi : m.program[m.pc]? = some i)
    (hs : m.stack = bottomFirst s)
    (hopen : c.budget = none)
    (hlt : ∀ p ∈ offsets i, p.toNat < s.length)
    (hdistinct : ¬ SameElement i)
    (hfits : ¬ Overflows s i) :
    (perform m.pc s c.input i).Follows m c i := by
  cases i with
  | push w =>
      have heffect : (Instruction.push w).execute m.stack c =
          (.done (bottomFirst (w :: s)) none, c) := by
        rw [Instruction.execute, hs, push_bottomFirst]
      exact follows_next_silent hi heffect
  | printNumber p =>
      have hp : p.toNat < s.length := lt_of_offsets_one rfl hlt
      apply follows_next_emit hi hopen
      rw [Instruction.execute, hs, peek_bottomFirst hp, ← numberLine_eq]
      rfl
  | readNumber =>
      exact follows_readNumber hi hs
  | printText text =>
      apply follows_next_emit hi hopen
      rw [Instruction.execute, hs, textLine_eq]
  | copy p =>
      have hp : p.toNat < s.length := lt_of_offsets_one rfl hlt
      have heffect : (Instruction.copy p).execute m.stack c =
          (.done (bottomFirst (element s p :: s)) none, c) := by
        rw [Instruction.execute, hs, peek_bottomFirst hp, ← push_bottomFirst]
        rfl
      exact follows_next_silent hi heffect
  | add a b =>
      obtain ⟨ha, hb⟩ := lt_of_offsets_two rfl hlt
      have hne : ¬ a = b := hdistinct
      have hsum : ¬ 2 ^ 64 ≤ (element s a).toNat + (element s b).toNat := hfits
      have heffect : (Instruction.add a b).execute m.stack c =
          (.done (bottomFirst ((element s a + element s b) :: without s a b)) none, c) := by
        rw [Instruction.execute, hs, addSlots_bottomFirst ha hb, if_neg hne, if_neg hsum]
        rfl
      exact follows_next_silent hi heffect
  | jumpIfGreater a b t =>
      obtain ⟨ha, hb⟩ := lt_of_offsets_two rfl hlt
      have heffect : (Instruction.jumpIfGreater a b t).execute m.stack c =
          (.ofCondition (bottomFirst s) t (.ok (decide (element s b < element s a))), c) := by
        rw [Instruction.execute, hs, compareSlots_bottomFirst ha hb]
        simp only [Int.ofNat_lt, UInt64.lt_iff_toNat_lt]
      simpa only [perform, decide_eq_true_eq] using follows_next_condition hi heffect
  | jumpIfEqual a b t =>
      obtain ⟨ha, hb⟩ := lt_of_offsets_two rfl hlt
      have heffect : (Instruction.jumpIfEqual a b t).execute m.stack c =
          (.ofCondition (bottomFirst s) t (.ok (decide (element s a = element s b))), c) := by
        rw [Instruction.execute, hs, compareSlots_bottomFirst ha hb]
        simp only [← UInt64.toNat_inj, ← Int.natCast_inj, beq_eq_decide]
      simpa only [perform, decide_eq_true_eq] using follows_next_condition hi heffect
  | jump t =>
      have heffect : (Instruction.jump t).execute m.stack c =
          (.done (bottomFirst s) (some t.toNat), c) := by
        rw [Instruction.execute, hs]
      exact follows_next_silent hi heffect
  | decrement p =>
      have hp : p.toNat < s.length := lt_of_offsets_one rfl hlt
      have hzero : ¬ element s p = 0 := hfits
      have heffect : (Instruction.decrement p).execute m.stack c =
          (.done (bottomFirst (s.set p.toNat (element s p - 1))) none, c) := by
        rw [Instruction.execute, hs, decrementSlot_bottomFirst hp, if_neg hzero]
        rfl
      exact follows_next_silent hi heffect
  | increment p =>
      have hp : p.toNat < s.length := lt_of_offsets_one rfl hlt
      have hmaximum : ¬ (element s p).toNat = 2 ^ 64 - 1 := hfits
      have heffect : (Instruction.increment p).execute m.stack c =
          (.done (bottomFirst (s.set p.toNat (element s p + 1))) none, c) := by
        rw [Instruction.execute, hs, incrementSlot_bottomFirst hp, if_neg hmaximum]
        rfl
      exact follows_next_silent hi heffect
  | readByte =>
      exact follows_readByte hi hs
  | printByte p =>
      have hp : p.toNat < s.length := lt_of_offsets_one rfl hlt
      have hsmall : ¬ 255 < (element s p).toNat := hfits
      have hsmall' : ¬ (255 : Int) < (element s p).toNat := by omega
      have hnonneg : ¬ ((element s p).toNat : Int) < 0 := by omega
      apply follows_next_emit hi hopen
      rw [Instruction.execute, hs, byteAt, peek_bottomFirst hp]
      simp only [bind, Except.bind, if_neg hsmall', if_neg hnonneg]
      rfl

/-- A step has the outcome that the table gives for the stack read from the top. -/
theorem follows_execute
    (hi : m.program[m.pc]? = some i)
    (hs : m.stack = bottomFirst s)
    (hopen : c.budget = none) :
    (execute m.pc s c.input i).Follows m c i := by
  cases hstray : strayOffset s i with
  | some p =>
      simp only [execute, hstray]
      refine follows_failed hi ?_ rfl rfl
      rw [hs]
      exact execute_of_stray hstray c
  | none =>
      have hlt := lt_of_strayOffset_eq_none hstray
      rcases misfit_cases s i with ⟨hmisfit, hdistinct, hfits⟩ | ⟨f, hmisfit, hf⟩
      · simp only [execute, hstray, hmisfit]
        exact follows_perform hi hs hopen hlt hdistinct hfits
      · simp only [execute, hstray, hmisfit]
        refine follows_failed hi ?_ rfl rfl
        rw [hs]
        exact hf.execute_eq hlt c

end TopFirst
end StackMachine
