import StackMachine.Proofs.Execution.Runs
import StackMachine.Proofs.Execution.StackChanges
import StackMachine.Proofs.Listing.Rows

/-!
# Branches

Where a run goes after a step can be read off the listing of its program: to the next row, or to a
row that is marked.

* `Branches` lists the ways to branch, and `Instruction.branch_of_execute` says that an executed
  instruction goes to its target then, and otherwise has none.
* `Machine.pc_of_step` is what follows for a step, `Machine.pc_mem_of_step` for the positions that a
  step can reach.
* `Machine.run_follows_marks` is what follows for a run from the first instruction.
-/

namespace StackMachine

/-- The instruction branches: it always does, or it compares two numbers of the stack and the
comparison holds. -/
inductive Branches (stack : Stack) : Instruction → Prop
  | jump
      (t : Word) :
      Branches stack (.jump t)
  | greater
      {a b t : Word} {x y : Int}
      (hx : peek stack a = .ok x)
      (hy : peek stack b = .ok y)
      (hlt : y < x) :
      Branches stack (.jumpIfGreater a b t)
  | equal
      {a b t : Word} {x : Int}
      (hx : peek stack a = .ok x)
      (hy : peek stack b = .ok x) :
      Branches stack (.jumpIfEqual a b t)

variable {i : Instruction} {stack stack' : Stack} {c c' : Console} {target : Option Nat}

/-! ## Instructions -/

theorem target_of_emit
    {bytes : Except Fault (List UInt8)}
    (h : emit stack c bytes = (.done stack' target, c')) :
    target = none := by
  rcases emit_cases stack c bytes with
    ⟨f, -, hemit⟩ | ⟨written, c₁, -, ⟨-, hemit⟩ | ⟨-, hemit⟩⟩
  · rw [hemit] at h
    cases h
  · rw [hemit] at h
    cases h
    rfl
  · rw [hemit] at h
    cases h

theorem target_of_acceptNumber
    (h : acceptNumber stack c = (.done stack' target, c')) :
    target = none := by
  unfold acceptNumber at h
  split at h
  · cases h
  · split at h
    · cases h
      rfl
    · cases h

theorem target_of_acceptByte
    (h : acceptByte stack c = (.done stack' target, c')) :
    target = none := by
  unfold acceptByte at h
  split at h
  · cases h
  · cases h
    rfl

theorem Effect.target_of_ofStack
    {result : Except Fault Stack}
    (h : Effect.ofStack result = .done stack' target) :
    target = none := by
  cases result with
  | error f =>
      cases h
  | ok stack =>
      cases h
      rfl

/-- A comparison that is executed has found both of its numbers. -/
theorem Effect.target_of_ofCondition
    {a b t : Word} {holds : Int → Int → Bool}
    (h : Effect.ofCondition stack t (compareSlots stack a b holds) = .done stack' target) :
    ∃ x y : Int, peek stack a = .ok x ∧ peek stack b = .ok y ∧
      target = if holds x y then some t.toNat else none := by
  cases hcompare : compareSlots stack a b holds with
  | error f =>
      rw [hcompare] at h
      cases h
  | ok held =>
      obtain ⟨x, hx, hrest⟩ := ok_of_bind hcompare
      obtain ⟨y, hy, heq⟩ := ok_of_bind hrest
      refine ⟨x, y, hx, hy, ?_⟩
      cases heq
      rw [hcompare] at h
      cases hholds : holds x y with
      | true =>
          rw [hholds] at h
          cases h
          rfl
      | false =>
          rw [hholds] at h
          cases h
          rfl

/-- An executed instruction that branches goes to its target, and one that does not has none. -/
theorem Instruction.branch_of_execute
    (h : i.execute stack c = (.done stack' target, c')) :
    (Branches stack i ∧ target = i.target?) ∨ (¬ Branches stack i ∧ target = none) := by
  cases i with
  | push w =>
      cases h
      exact Or.inr ⟨nofun, rfl⟩
  | printNumber p =>
      exact Or.inr ⟨nofun, target_of_emit h⟩
  | readNumber =>
      exact Or.inr ⟨nofun, target_of_acceptNumber h⟩
  | printText s =>
      have hemit : emit stack c (.ok (textLine s)) = (.done stack' target, c') := h
      exact Or.inr ⟨nofun, target_of_emit hemit⟩
  | copy p =>
      exact Or.inr ⟨nofun, Effect.target_of_ofStack (Prod.mk.inj h).1⟩
  | add a b =>
      exact Or.inr ⟨nofun, Effect.target_of_ofStack (Prod.mk.inj h).1⟩
  | jumpIfGreater a b t =>
      obtain ⟨x, y, hx, hy, htarget⟩ := Effect.target_of_ofCondition (Prod.mk.inj h).1
      by_cases hlt : y < x
      · rw [if_pos (decide_eq_true hlt)] at htarget
        exact Or.inl ⟨.greater hx hy hlt, htarget⟩
      · rw [if_neg (by simpa using hlt)] at htarget
        refine Or.inr ⟨?_, htarget⟩
        intro hbranches
        cases hbranches with
        | greater hx' hy' hlt' =>
            rw [hx] at hx'
            rw [hy] at hy'
            cases hx'
            cases hy'
            exact hlt hlt'
  | jumpIfEqual a b t =>
      obtain ⟨x, y, hx, hy, htarget⟩ := Effect.target_of_ofCondition (Prod.mk.inj h).1
      by_cases heq : x = y
      · rw [if_pos (beq_iff_eq.2 heq)] at htarget
        exact Or.inl ⟨.equal hx (heq ▸ hy), htarget⟩
      · rw [if_neg (by simpa using heq)] at htarget
        refine Or.inr ⟨?_, htarget⟩
        intro hbranches
        cases hbranches with
        | equal hx' hy' =>
            rw [hx] at hx'
            rw [hy, ← hx'] at hy'
            cases hy'
            exact heq rfl
  | jump t =>
      cases h
      exact Or.inl ⟨.jump t, rfl⟩
  | decrement p =>
      exact Or.inr ⟨nofun, Effect.target_of_ofStack (Prod.mk.inj h).1⟩
  | increment p =>
      exact Or.inr ⟨nofun, Effect.target_of_ofStack (Prod.mk.inj h).1⟩
  | readByte =>
      exact Or.inr ⟨nofun, target_of_acceptByte h⟩
  | printByte p =>
      exact Or.inr ⟨nofun, target_of_emit h⟩

/-- An instruction that branches has a target. -/
theorem Branches.exists_target
    (h : Branches stack i) :
    ∃ t : Nat, i.target? = some t := by
  cases h <;> exact ⟨_, rfl⟩

namespace Machine

variable {p : Program} {m m' m₁ : Machine} {c₁ : Console} {n : Nat}

/-! ## Steps -/

/-- An executed step goes to the target of an instruction that branches, and to the next instruction
otherwise. -/
theorem pc_of_step
    (hp : m.program = p.toArray)
    (h : m.step c = (.advanced, m', c')) :
    ∃ i : Instruction, p[m.pc]? = some i ∧
      ((Branches m.stack i ∧ i.target? = some m'.pc) ∨
        (¬ Branches m.stack i ∧ m'.pc = m.pc + 1)) := by
  obtain ⟨i, stack, target, hi, hexecute, rfl⟩ := exists_done_of_step h
  rw [hp, List.getElem?_toArray] at hi
  refine ⟨i, hi, ?_⟩
  rcases Instruction.branch_of_execute hexecute with ⟨hbranches, rfl⟩ | ⟨hstays, rfl⟩
  · obtain ⟨t, ht⟩ := hbranches.exists_target
    refine Or.inl ⟨hbranches, ?_⟩
    rw [ht, Option.getD_some]
  · exact Or.inr ⟨hstays, rfl⟩

/-- An executed step of a program goes to a target, or to the next instruction or the end. -/
theorem pc_mem_of_step
    (hp : m.program = p.toArray)
    (h : m.step c = (.advanced, m', c')) :
    m'.pc ∈ p.targets ∨ (m'.pc = m.pc + 1 ∧ m'.pc ≤ p.length) := by
  obtain ⟨i, hi, ⟨-, htarget⟩ | ⟨-, hnext⟩⟩ := pc_of_step hp h
  · exact Or.inl (Program.mem_targets.2 ⟨i, List.mem_of_getElem? hi, htarget⟩)
  · have hlt : m.pc < p.length := (List.getElem?_eq_some_iff.1 hi).1
    exact Or.inr ⟨hnext, by omega⟩

/-! ## Runs -/

/-- **A run from the first instruction goes where the listing of its program shows.**  Wherever
executed steps have led it, the next executed step goes to the target of an instruction that
branches, which is a target of the program, and to the next instruction otherwise; any other step
stays.  A later position whose line is not marked, or the end of the program if it is no target, has
been reached from the position before it.  No position is reached beyond the end of the program,
except for targets. -/
theorem run_follows_marks
    {p : Program} {m m₁ : Machine} {c c₁ : Console} {n : Nat}
    (hp : m.program = p.toArray)
    (hpc : m.pc = 0)
    (h : Advances n m c m₁ c₁) :
    (∀ (s : StepResult) (m₂ : Machine) (c₂ : Console), m₁.step c₁ = (s, m₂, c₂) →
      (s = .advanced → ∃ i : Instruction, p[m₁.pc]? = some i ∧
        ((Branches m₁.stack i ∧ i.target? = some m₂.pc ∧ m₂.pc ∈ p.targets) ∨
          (¬ Branches m₁.stack i ∧ m₂.pc = m₁.pc + 1))) ∧
      (s ≠ .advanced → m₂.pc = m₁.pc)) ∧
    (0 < m₁.pc →
      (m₁.pc < p.length ∧ ¬ Listing.Marks p m₁.pc ∨ m₁.pc = p.length ∧ m₁.pc ∉ p.targets) →
      ∃ (k : Nat) (m₀ : Machine) (c₀ : Console),
        n = k + 1 ∧ Advances k m c m₀ c₀ ∧ m₀.step c₀ = (.advanced, m₁, c₁) ∧
          m₀.pc + 1 = m₁.pc) ∧
    (m₁.pc ≤ p.length ∨ m₁.pc ∈ p.targets) := by
  refine ⟨?_, ?_, ?_⟩
  · intro s m₂ c₂ hstep
    refine ⟨?_, ?_⟩
    · rintro rfl
      obtain ⟨i, hi, hbranch⟩ := pc_of_step (h.counts.2.1.trans hp) hstep
      refine ⟨i, hi, hbranch.imp_left ?_⟩
      rintro ⟨hbranches, htarget⟩
      exact ⟨hbranches, htarget, Program.mem_targets.2 ⟨i, List.mem_of_getElem? hi, htarget⟩⟩
    · intro hs
      obtain ⟨trace, rfl⟩ := exists_trace_of_unexecuted hstep hs
      rfl
  · intro hpos hunmarked
    have huntargeted : m₁.pc ∉ p.targets := by
      rcases hunmarked with ⟨hlt, hmark⟩ | ⟨-, htarget⟩
      · exact fun htarget => hmark (Listing.marks_iff.2 ⟨hlt, htarget⟩)
      · exact htarget
    rcases h.last_cases with ⟨-, rfl, -⟩ | ⟨k, m₀, c₀, hn, hbefore, hlast⟩
    · omega
    · obtain htarget | ⟨hnext, -⟩ := pc_mem_of_step (hbefore.counts.2.1.trans hp) hlast
      · exact absurd htarget huntargeted
      · exact ⟨k, m₀, c₀, hn, hbefore, hlast, hnext.symm⟩
  · rcases h.last_cases with ⟨-, rfl, -⟩ | ⟨k, m₀, c₀, -, hbefore, hlast⟩
    · omega
    · obtain htarget | ⟨-, hle⟩ := pc_mem_of_step (hbefore.counts.2.1.trans hp) hlast
      · exact Or.inr htarget
      · exact Or.inl hle

/-- The second row is not marked, and its branch goes to the last one, which is. -/
theorem run_follows_marks_skipping :
    let p : Program := [.push 4, .jumpIfEqual 0 0 3, .increment 0, .jump 3]
    let m : Machine := .start p false none
    let c : Console := .ofInput []
    ¬ Listing.Marks p 1 ∧ Listing.Marks p 3 ∧
      ∃ (m₁ : Machine) (c₁ : Console),
        Advances 1 m c m₁ c₁ ∧ m₁.pc = 1 ∧
        (∃ (m₀ : Machine) (c₀ : Console),
          m₀.step c₀ = (.advanced, m₁, c₁) ∧ m₀.pc + 1 = m₁.pc) ∧
        ∃ (m₂ : Machine) (c₂ : Console),
          m₁.step c₁ = (.advanced, m₂, c₂) ∧ Branches m₁.stack (.jumpIfEqual 0 0 3) ∧
          m₂.pc = 3 ∧ 3 ∈ p.targets := by
  intro p m c
  have hmark : ¬ Listing.Marks p 1 := by
    rw [Listing.marks_iff, Program.mem_targets]
    decide
  have hmark' : Listing.Marks p 3 := by
    rw [Listing.marks_iff, Program.mem_targets]
    decide
  have hadvances : Advances 1 m c ⟨p.toArray, #[4], 1, 1, none, false, #[]⟩ c :=
    .step rfl rfl (.refl _ _)
  obtain ⟨hsteps, hbefore, -⟩ := run_follows_marks rfl rfl hadvances
  obtain ⟨k, m₀, c₀, -, -, hlast, hnext⟩ := hbefore (by decide) (Or.inl ⟨by decide, hmark⟩)
  refine ⟨hmark, hmark', _, _, hadvances, rfl, ⟨m₀, c₀, hlast, hnext⟩, _, _, rfl, ?_⟩
  obtain ⟨i, hi, hbranch⟩ := (hsteps _ _ _ rfl).1 rfl
  cases hi
  rcases hbranch with ⟨hbranches, -, htarget⟩ | ⟨-, hnext'⟩
  · exact ⟨hbranches, rfl, htarget⟩
  · exact absurd hnext' (by decide)

end Machine
end StackMachine
