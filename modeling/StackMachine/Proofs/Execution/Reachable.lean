import StackMachine.Session
import StackMachine.Proofs.Execution.Runs
import StackMachine.Proofs.Execution.StackChanges

/-!
# Machines that can be reached

Whatever is done with a machine, short of replacing its stack, its numbers stay words, and its depth
and its count of steps can be told from the instructions that were executed.

* `Machine.Event` is one thing that happens to a machine, and `Machine.Reaches` a sequence of them,
  each with the instructions that are executed.
* `Machine.Accounted` is the account of the depth and of the steps, which every event keeps.
* `Machine.Advances.reaches`, `Machine.Runs.reaches` and `Session.reaches_of_perform`: steps, runs
  and the operations of a session are sequences of events.
* `Machine.reachable_stacks` puts them together.
-/

namespace StackMachine
namespace Machine

/-- One thing that happens to a machine, on any streams, with the instructions that are executed. -/
inductive Event : Machine → List Instruction → Machine → Prop
  | executed
      {m m' : Machine} {c c' : Console} {i : Instruction}
      (hi : m.program[m.pc]? = some i)
      (hstep : m.step c = (.advanced, m', c')) :
      Event m [i] m'
  | attempted
      {m m' : Machine} {c c' : Console} {s : StepResult}
      (hstep : m.step c = (s, m', c'))
      (hs : s ≠ .advanced) :
      Event m [] m'
  | setTracing
      (m : Machine) (on : Bool) :
      Event m [] { m with tracing := on }
  | setPosition
      (m : Machine) (pc : Nat) :
      Event m [] { m with pc := pc }
  | setLimit
      (m : Machine) (limit : Option Nat) :
      Event m [] { m with stepLimit := limit }

/-- Events lead from the first machine to the second one, and the instructions in the list are
executed on the way. -/
inductive Reaches : Machine → List Instruction → Machine → Prop
  | refl
      (m : Machine) :
      Reaches m [] m
  | next
      {m m₁ m' : Machine} {first rest : List Instruction}
      (event : Event m first m₁)
      (hrest : Reaches m₁ rest m') :
      Reaches m (first ++ rest) m'

/-- The stack keeps its words, the executed instructions are counted, and they account for the
change of the depth. -/
structure Accounted (m : Machine) (executed : List Instruction) (m' : Machine) : Prop where
  isWord : (∀ n ∈ m.stack, IsWord n) → ∀ n ∈ m'.stack, IsWord n
  steps : m'.steps = m.steps + executed.length
  size : m'.stack.size + executed.countP Instruction.shrinks =
    m.stack.size + executed.countP Instruction.grows

variable {m m' m₁ : Machine} {c c' : Console} {first rest executed : List Instruction}

/-! ## The account -/

theorem Accounted.of_eq
    (hstack : m'.stack = m.stack)
    (hsteps : m'.steps = m.steps) :
    Accounted m [] m' := by
  refine ⟨?_, ?_, ?_⟩
  · rw [hstack]
    exact id
  · rw [hsteps, List.length_nil, Nat.add_zero]
  · rw [hstack, List.countP_nil, List.countP_nil]

theorem Accounted.trans
    (h : Accounted m first m₁)
    (hrest : Accounted m₁ rest m') :
    Accounted m (first ++ rest) m' := by
  have hsteps := h.steps
  have hsize := h.size
  have hsteps' := hrest.steps
  have hsize' := hrest.size
  refine ⟨hrest.isWord ∘ h.isWord, ?_, ?_⟩
  · rw [List.length_append]
    omega
  · rw [List.countP_append, List.countP_append]
    omega

theorem accounted_of_executed
    {i : Instruction}
    (hi : m.program[m.pc]? = some i)
    (hstep : m.step c = (.advanced, m', c')) :
    Accounted m [i] m' := by
  obtain ⟨j, stack, target, hj, hexecute, rfl⟩ := exists_done_of_step hstep
  rw [hi] at hj
  cases hj
  have hchanges := Instruction.changes_of_execute hexecute
  refine ⟨hchanges.isWord, rfl, ?_⟩
  rw [List.countP_singleton, List.countP_singleton]
  exact hchanges.size

theorem accounted_of_attempted
    {s : StepResult}
    (hstep : m.step c = (s, m', c'))
    (hs : s ≠ .advanced) :
    Accounted m [] m' := by
  obtain ⟨trace, rfl⟩ := exists_trace_of_unexecuted hstep hs
  exact .of_eq rfl rfl

theorem Event.accounted
    (h : Event m executed m') :
    Accounted m executed m' := by
  cases h with
  | executed hi hstep =>
      exact accounted_of_executed hi hstep
  | attempted hstep hs =>
      exact accounted_of_attempted hstep hs
  | setTracing on =>
      exact .of_eq rfl rfl
  | setPosition pc =>
      exact .of_eq rfl rfl
  | setLimit limit =>
      exact .of_eq rfl rfl

theorem Reaches.accounted
    (h : Reaches m executed m') :
    Accounted m executed m' := by
  induction h with
  | refl m =>
      exact .of_eq rfl rfl
  | next event _ ih =>
      exact event.accounted.trans ih

/-- An instruction makes the stack deeper by one at most. -/
theorem Accounted.size_le_steps
    (h : Accounted m executed m')
    (hle : m.stack.size ≤ m.steps) :
    m'.stack.size ≤ m'.steps := by
  have hsteps := h.steps
  have hsize := h.size
  have hgrows : executed.countP Instruction.grows ≤ executed.length := List.countP_le_length
  omega

/-! ## Steps and runs -/

theorem Reaches.trans
    (h : Reaches m first m₁)
    (hrest : Reaches m₁ rest m') :
    Reaches m (first ++ rest) m' := by
  induction h with
  | refl m =>
      exact hrest
  | next event _ ih =>
      rw [List.append_assoc]
      exact .next event (ih hrest)

theorem Event.reaches
    (h : Event m executed m') :
    Reaches m executed m' := by
  have hnext := Reaches.next h (.refl m')
  rwa [List.append_nil] at hnext

theorem reaches_of_step
    {s : StepResult}
    (hstep : m.step c = (s, m', c')) :
    ∃ executed, Reaches m executed m' ∧ executed.length = if s = .advanced then 1 else 0 := by
  by_cases hs : s = .advanced
  · obtain rfl := hs
    cases hi : m.program[m.pc]? with
    | none =>
        rw [step_of_halted hi] at hstep
        cases hstep
    | some i =>
        exact ⟨[i], (Event.executed hi hstep).reaches, rfl⟩
  · exact ⟨[], (Event.attempted hstep hs).reaches, (if_neg hs).symm⟩

theorem Advances.reaches
    {k : Nat}
    (h : Advances k m c m' c') :
    ∃ executed, Reaches m executed m' ∧ executed.length = k := by
  induction h with
  | refl m c =>
      exact ⟨[], .refl m, rfl⟩
  | step _ hstep _ ih =>
      obtain ⟨first, hfirst, hone⟩ := reaches_of_step hstep
      obtain ⟨rest, hrest, hcount⟩ := ih
      refine ⟨first ++ rest, hfirst.trans hrest, ?_⟩
      rw [List.length_append, hone, hcount, if_pos rfl, Nat.add_comm]

theorem Ends.reaches
    {r : RunResult}
    (h : Ends m c r m' c') :
    ∃ executed, Reaches m executed m' := by
  cases h with
  | limit _ =>
      exact ⟨[], .refl m⟩
  | stopped _ hstep =>
      obtain ⟨executed, hreaches, -⟩ := reaches_of_step hstep
      exact ⟨executed, hreaches⟩
  | failed _ hstep =>
      obtain ⟨executed, hreaches, -⟩ := reaches_of_step hstep
      exact ⟨executed, hreaches⟩

theorem Runs.reaches
    {r : RunResult}
    (h : m.Runs c r m' c') :
    ∃ executed, Reaches m executed m' := by
  obtain ⟨k, m₁, c₁, c₂, hadvances, hends, -⟩ := runs_iff.1 h
  obtain ⟨first, hfirst, -⟩ := hadvances.reaches
  obtain ⟨rest, hrest⟩ := hends.reaches
  exact ⟨first ++ rest, hfirst.trans hrest⟩

end Machine

/-! ## Sessions -/

namespace Session

variable {fuel : Nat} {s s' : Session} {report : Report}

theorem reaches_of_run
    (h : s.run fuel = some (report, s')) :
    ∃ executed, s.machine.Reaches executed s'.machine := by
  rw [run] at h
  split at h
  · cases h
    exact ⟨[], .refl s.machine⟩
  · obtain ⟨⟨r, m', c'⟩, hrun, hresult⟩ := Option.map_eq_some_iff.1 h
    cases hresult
    have hruns : s.machine.Runs _ r m' c' := ⟨fuel, hrun⟩
    exact hruns.reaches

theorem reaches_of_perform
    {op : Operation}
    (h : s.perform fuel op = some (report, s'))
    (hop : ∀ stack, op ≠ .setStack stack) :
    ∃ executed, s.machine.Reaches executed s'.machine := by
  cases op with
  | step =>
      rcases hstep : s.machine.step s.console with ⟨result, m', c'⟩
      rw [perform, hstep] at h
      cases h
      obtain ⟨executed, hreaches, -⟩ := Machine.reaches_of_step hstep
      exact ⟨executed, hreaches⟩
  | run =>
      exact reaches_of_run h
  | setTracing on =>
      cases h
      exact ⟨[], (Machine.Event.setTracing s.machine on).reaches⟩
  | setStack stack =>
      exact absurd rfl (hop stack)
  | setPosition pc =>
      cases h
      exact ⟨[], (Machine.Event.setPosition s.machine pc).reaches⟩
  | setLimit limit =>
      cases h
      exact ⟨[], (Machine.Event.setLimit s.machine limit).reaches⟩
  | feed bytes =>
      rw [perform] at h
      split at h
      · cases h
        exact ⟨[], .refl s.machine⟩
      · cases h
        exact ⟨[], .refl s.machine⟩

theorem reaches_of_performAll
    {ops : List Operation} {reports : List (Report × Session)}
    (h : s.performAll fuel ops = some reports)
    (hops : ∀ stack, .setStack stack ∉ ops) :
    ∀ x ∈ reports, ∃ executed, s.machine.Reaches executed x.2.machine := by
  induction ops generalizing s reports with
  | nil =>
      cases h
      simp
  | cons op ops ih =>
      simp only [performAll, Option.bind_eq_bind, Option.bind_eq_some_iff] at h
      obtain ⟨⟨report, s₁⟩, hperform, others, hothers, hreports⟩ := h
      cases hreports
      have hop : ∀ stack, op ≠ .setStack stack := by
        rintro stack rfl
        exact hops stack List.mem_cons_self
      have hrest : ∀ stack, .setStack stack ∉ ops :=
        fun stack hmem => hops stack (List.mem_cons_of_mem op hmem)
      obtain ⟨first, hfirst⟩ := reaches_of_perform hperform hop
      intro x hx
      rcases List.mem_cons.1 hx with rfl | hx
      · exact ⟨first, hfirst⟩
      · obtain ⟨rest, hreaches⟩ := ih hothers hrest x hx
        exact ⟨first ++ rest, hfirst.trans hreaches⟩

end Session

namespace Machine

/-- Whatever is executed, attempted or set, the numbers on a stack of words are words, the executed
instructions are counted, and the depth has grown by those that push less those that add; if there
were at least as many steps as numbers, as at the start of a program, there still are.  Steps, runs
up to any moment, whole runs and operations of sessions do nothing else. -/
theorem reachable_stacks
    (m : Machine)
    (hstack : ∀ n ∈ m.stack, IsWord n) :
    (∀ executed m', m.Reaches executed m' →
      (∀ n ∈ m'.stack, IsWord n) ∧
      m'.steps = m.steps + executed.length ∧
      m'.stack.size + executed.countP Instruction.shrinks =
        m.stack.size + executed.countP Instruction.grows ∧
      (m.stack.size ≤ m.steps → m'.stack.size ≤ m'.steps)) ∧
    (∀ executed m₁ c, m.Reaches executed m₁ →
      (∀ k m' c', Advances k m₁ c m' c' →
        ∃ more, m.Reaches (executed ++ more) m' ∧ more.length = k) ∧
      (∀ r m' c', m₁.Runs c r m' c' → ∃ more, m.Reaches (executed ++ more) m')) ∧
    (∀ fuel (s : Session) ops reports, s.machine = m → (∀ stack, .setStack stack ∉ ops) →
      s.performAll fuel ops = some reports →
      ∀ x ∈ reports, ∃ executed, m.Reaches executed x.2.machine) := by
  refine ⟨?_, ?_, ?_⟩
  · intro executed m' hreaches
    have haccounted := hreaches.accounted
    exact ⟨haccounted.isWord hstack, haccounted.steps, haccounted.size,
      haccounted.size_le_steps⟩
  · intro executed m₁ c hreaches
    constructor
    · intro k m' c' hadvances
      obtain ⟨more, hmore, hcount⟩ := hadvances.reaches
      exact ⟨more, hreaches.trans hmore, hcount⟩
    · intro r m' c' hruns
      obtain ⟨more, hmore⟩ := hruns.reaches
      exact ⟨more, hreaches.trans hmore⟩
  · rintro fuel s ops reports rfl hops hperform
    exact Session.reaches_of_performAll hperform hops

/-- The largest word is pushed and cannot be increased; a byte is missing, comes and is read, and
cannot be added to it. -/
theorem reachable_stacks_of_maximum :
    let s : Session :=
      ⟨start [.push 0xFFFFFFFFFFFFFFFF, .increment 0, .readByte, .add 0 1] true none,
        .ofInput [], .shared, false⟩
    let ops : List Operation := [.run, .setPosition 2, .run, .feed [1], .setLimit (some 9), .run]
    let full : Int := 0xFFFFFFFFFFFFFFFF
    let m' : Machine :=
      { s.machine with
        stack := #[full, 1]
        pc := 3
        steps := 2
        stepLimit := some 9
        trace := #[⟨0, .push 0xFFFFFFFFFFFFFFFF, #[]⟩, ⟨1, .increment 0, #[full]⟩,
          ⟨2, .readByte, #[full]⟩, ⟨2, .readByte, #[full]⟩, ⟨3, .add 0 1, #[full, 1]⟩] }
    (∀ n ∈ s.machine.stack, IsWord n) ∧
    (∀ stack, .setStack stack ∉ ops) ∧
    ∃ reports executed,
      s.performAll 9 ops = some reports ∧
      (reports.getLast?.map fun x => x.2.machine) = some m' ∧
      s.machine.Reaches executed m' ∧
      (∀ n ∈ m'.stack, IsWord n) ∧
      m'.steps = s.machine.steps + executed.length ∧
      m'.stack.size + executed.countP Instruction.shrinks =
        s.machine.stack.size + executed.countP Instruction.grows ∧
      m'.stack.size ≤ m'.steps := by
  intro s ops full m'
  have hstack : ∀ n ∈ s.machine.stack, IsWord n :=
    fun n hn => absurd hn (Array.not_mem_empty n)
  have hops : ∀ stack, .setStack stack ∉ ops := by
    intro stack
    simp [ops]
  have hlast : ((s.performAll 9 ops).bind fun reports =>
      reports.getLast?.map fun x => x.2.machine) = some m' := by rfl
  obtain ⟨reports, hperform, hm'⟩ := Option.bind_eq_some_iff.1 hlast
  obtain ⟨x, hx, hmachine⟩ := Option.map_eq_some_iff.1 hm'
  obtain ⟨haccount, -, hsession⟩ := reachable_stacks s.machine hstack
  obtain ⟨executed, hreaches⟩ :=
    hsession 9 s ops reports rfl hops hperform x (List.mem_of_getLast? hx)
  rw [hmachine] at hreaches
  obtain ⟨hword, hsteps, hsize, hdepth⟩ := haccount executed m' hreaches
  exact ⟨hstack, hops, reports, executed, hperform, hm', hreaches, hword, hsteps, hsize,
    hdepth (Nat.zero_le _)⟩

end Machine
end StackMachine
