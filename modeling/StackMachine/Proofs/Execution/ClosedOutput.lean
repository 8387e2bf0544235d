import StackMachine.Proofs.Execution.History
import StackMachine.Proofs.Execution.Streams

/-!
# Output that is closed

A run whose output is closed after some number of writes is compared with the run whose output
accepts everything.  The two go side by side until the first of them makes a write that is one too
many.  There the second one fails, and leaves what the first one had at that moment and the refused
write.

* `Console.ClosesAt` relates the consoles, and `Instruction.execute_closing` says that an
  instruction does the same on both unless its write is the one that is refused.
* `Machine.step_closing` and `Machine.Advances.closing` carry it over to steps and to runs.
* `Machine.run_on_closing_output` compares the runs.
-/

namespace StackMachine

variable {total : Nat} {i : Instruction} {stack : Stack} {c c' d : Console}

namespace Console

/-- The output of the first console accepts every write, and that of the second one as many as make
`total` in all.  There is no other difference. -/
structure ClosesAt (total : Nat) (c d : Console) : Prop where
  opened : c.budget = none
  le : c.writes.size ≤ total
  eq : d = { c with budget := some (total - c.writes.size) }

theorem closesAt_budget
    (h : c.budget = none)
    (n : Nat) :
    c.ClosesAt (c.writes.size + n) { c with budget := some n } :=
  ⟨h, Nat.le_add_right _ n, by rw [Nat.add_sub_cancel_left]⟩

/-! ## Calls on both consoles -/

theorem ClosesAt.flush
    (h : c.ClosesAt total d) :
    c.flush.ClosesAt total d.flush := by
  obtain ⟨hopen, hle, rfl⟩ := h
  exact ⟨hopen, hle, rfl⟩

theorem ClosesAt.readLine
    (h : c.ClosesAt total d) :
    Alike (ClosesAt total) c.readLine d.readLine := by
  obtain ⟨hopen, hle, rfl⟩ := h
  exact ⟨rfl, hopen, hle, rfl⟩

theorem ClosesAt.readByte
    (h : c.ClosesAt total d) :
    Alike (ClosesAt total) c.readByte d.readByte := by
  obtain ⟨hopen, hle, rfl⟩ := h
  obtain ⟨input, consumed, writes, budget, calls⟩ := c
  cases input with
  | nil =>
      exact ⟨rfl, hopen, hle, rfl⟩
  | cons b rest =>
      exact ⟨rfl, hopen, hle, rfl⟩

theorem ClosesAt.write
    (h : c.ClosesAt total d)
    (hroom : c.writes.size < total)
    (bytes : List UInt8) :
    Alike (ClosesAt total) (c.write bytes) (d.write bytes) := by
  obtain ⟨hopen, -, rfl⟩ := h
  obtain ⟨room, hsucc⟩ := Nat.exists_eq_succ_of_ne_zero (Nat.sub_ne_zero_of_lt hroom)
  have hsize : (c.accept bytes).writes.size = c.writes.size + 1 := Array.size_push _
  have hle : (c.accept bytes).writes.size ≤ total := by omega
  have hleft : total - (c.accept bytes).writes.size = room := by omega
  simp only [Console.write, hopen, hsucc]
  refine ⟨rfl, hopen, hle, ?_⟩
  rw [hleft]
  rfl

theorem ClosesAt.write_refused
    (h : c.ClosesAt total d)
    (hfull : c.writes.size = total)
    (bytes : List UInt8) :
    c.write bytes = (true, c.accept bytes) ∧ d.write bytes = (false, d.refuse bytes) := by
  obtain ⟨hopen, -, rfl⟩ := h
  simp [Console.write, hopen, hfull]

end Console

open Console (ClosesAt)

/-! ## One instruction on both consoles -/

/-- The instruction writes the bytes to the first console, which makes one write more than `total`,
and the second console refuses them. -/
structure Instruction.Overruns
    (total : Nat) (i : Instruction) (bytes : List UInt8) (stack : Stack) (c d : Console) :
    Prop where
  full : c.writes.size = total
  executed : i.execute stack c = (.done stack none, c.accept bytes)
  refused : i.execute stack d = (.fault .outputClosed, d.refuse bytes)

/-- An instruction that emits bytes does the same on both consoles or overruns the second one. -/
theorem emit_closing
    {bytes : Except Fault (List UInt8)}
    (h : c.ClosesAt total d)
    (hi : ∀ c, i.execute stack c = emit stack c bytes) :
    Alike (ClosesAt total) (i.execute stack c) (i.execute stack d) ∨
      ∃ bytes, i.Overruns total bytes stack c d := by
  rw [hi, hi]
  rcases Nat.lt_or_eq_of_le h.le with hroom | hfull
  · exact Or.inl (emit_congr h (h.write hroom) bytes)
  · cases bytes with
    | error f =>
        exact Or.inl ⟨rfl, h⟩
    | ok bytes =>
        obtain ⟨haccepted, hrefused⟩ := h.write_refused hfull bytes
        refine Or.inr ⟨bytes, hfull, ?_, ?_⟩
        · rw [hi, emit, haccepted]
        · rw [hi, emit, hrefused]

/-- An instruction does the same on both consoles, unless it makes the write that is refused. -/
theorem Instruction.execute_closing
    (h : c.ClosesAt total d)
    (i : Instruction) (stack : Stack) :
    Alike (ClosesAt total) (i.execute stack c) (i.execute stack d) ∨
      ∃ bytes, i.Overruns total bytes stack c d := by
  cases i with
  | printNumber p =>
      exact emit_closing h fun _ => rfl
  | printText text =>
      have hemit : ∀ c, (Instruction.printText text).execute stack c =
          emit stack c (.ok (textLine text)) := fun _ => rfl
      exact emit_closing h hemit
  | printByte p =>
      exact emit_closing h fun _ => rfl
  | readNumber =>
      exact Or.inl (acceptNumber_congr h.flush.readLine)
  | readByte =>
      exact Or.inl (acceptByte_congr h.flush.readByte)
  | _ =>
      exact Or.inl ⟨rfl, h⟩

namespace Machine

variable {k : Nat} {m m' : Machine} {r : RunResult} {bytes : List UInt8}

/-! ## Steps on both consoles -/

/-- The next instruction writes the bytes, which is write number `total + 1`, and the second console
refuses them. -/
structure Overruns
    (total : Nat) (i : Instruction) (bytes : List UInt8) (m : Machine) (c d : Console) :
    Prop where
  next : m.program[m.pc]? = some i
  full : c.writes.size = total
  executed : ∃ m', m.step c = (.advanced, m', c.accept bytes)
  refused : m.step d = (.failed ⟨m.pc, i, .outputClosed⟩, m.record i, d.refuse bytes)

theorem Overruns.size_accept
    (h : m.Overruns total i bytes c d) :
    (c.accept bytes).writes.size = total + 1 := by
  rw [← h.full]
  exact Array.size_push bytes

theorem overruns_of_execute
    (hi : m.program[m.pc]? = some i)
    (h : i.Overruns total bytes m.stack c d) :
    m.Overruns total i bytes c d :=
  ⟨hi, h.full, ⟨_, step_of_execute hi h.executed⟩, step_of_fault hi h.refused⟩

/-- A step comes to the same with both consoles, unless it makes the write that is refused. -/
theorem step_closing
    {s : StepResult}
    (h : c.ClosesAt total d)
    (hstep : m.step c = (s, m', c')) :
    (∃ d', m.step d = (s, m', d') ∧ c'.ClosesAt total d') ∨
      ∃ i bytes, m.Overruns total i bytes c d := by
  cases hi : m.program[m.pc]? with
  | none =>
      rw [step_of_halted hi] at hstep
      cases hstep
      exact Or.inl ⟨d, step_of_halted hi, h⟩
  | some i =>
      rcases Instruction.execute_closing h i m.stack with halike | ⟨bytes, hoverruns⟩
      · obtain ⟨effect, c₁, d₁, hc, hd, hclose⟩ := halike.exists_eq
        rw [step_of_execute hi hc] at hstep
        cases hstep
        exact Or.inl ⟨d₁, step_of_execute hi hd, hclose⟩
      · exact Or.inr ⟨i, bytes, overruns_of_execute hi hoverruns⟩

/-! ## Executed steps on both consoles -/

/-- The runs come side by side to `m₁`, whose next instruction writes the bytes, which is write
number `total + 1`. -/
structure PartsAt
    (total : Nat) (m : Machine) (c d : Console)
    (i : Instruction) (bytes : List UInt8) (m₁ : Machine) (c₁ d₁ : Console) : Prop where
  advances : ∃ k, Advances k m c m₁ c₁ ∧ Advances k m d m₁ d₁
  closes : c₁.ClosesAt total d₁
  running : m₁.limitReached = false
  overruns : m₁.Overruns total i bytes c₁ d₁

/-- Executed steps are the same with both consoles, unless one of them makes the write that is
refused. -/
theorem Advances.closing
    (h : Advances k m c m' c')
    (hclose : c.ClosesAt total d) :
    (∃ d', Advances k m d m' d' ∧ c'.ClosesAt total d') ∨
      ∃ i bytes m₁ c₁ d₁, m.PartsAt total c d i bytes m₁ c₁ d₁ := by
  induction h generalizing d with
  | refl m c =>
      exact Or.inl ⟨d, .refl m d, hclose⟩
  | step hlimit hstep _ ih =>
      -- Either the runs are still side by side after this step, or it is the one that parts them.
      rcases step_closing hclose hstep with ⟨d₁, hstep', hclose₁⟩ | ⟨i, bytes, hoverruns⟩
      · rcases ih hclose₁ with ⟨d', hadvances, hclose'⟩ | ⟨i, bytes, m₂, c₂, d₂, hparts⟩
        · exact Or.inl ⟨d', .step hlimit hstep' hadvances, hclose'⟩
        · obtain ⟨⟨l, hc, hd⟩, hclose₂, hrunning, hoverruns⟩ := hparts
          exact Or.inr ⟨i, bytes, m₂, c₂, d₂,
            ⟨l + 1, .step hlimit hstep hc, .step hlimit hstep' hd⟩, hclose₂, hrunning, hoverruns⟩
      · exact Or.inr ⟨i, bytes, _, _, d, ⟨0, .refl _ _, .refl _ d⟩, hclose, hlimit, hoverruns⟩

/-- Where the runs part, the second one fails. -/
theorem PartsAt.runs
    {m₁ : Machine} {c₁ d₁ : Console}
    (h : m.PartsAt total c d i bytes m₁ c₁ d₁) :
    m.Runs d (.error ⟨m₁.pc, i, .outputClosed⟩) (m₁.record i) (d₁.refuse bytes).flush := by
  obtain ⟨k, -, hadvances⟩ := h.advances
  exact runs_iff.2 ⟨k, m₁, d₁, d₁.refuse bytes, hadvances,
    .failed h.running h.overruns.refused, rfl⟩

/-! ## The writes of a run -/

/-- The run comes to the console, at some moment or at its end. -/
def Meets (m : Machine) (c c' : Console) : Prop :=
  (∃ k m', Advances k m c m' c') ∨ ∃ r m', m.Runs c r m' c'

/-- There are at most `total` writes at any moment of the run. -/
def WritesAtMost (m : Machine) (c : Console) (total : Nat) : Prop :=
  ∀ c', m.Meets c c' → c'.writes.size ≤ total

/-- Whatever a run has written was written by executed steps. -/
theorem Meets.exists_advances
    (h : m.Meets c c') :
    ∃ k m₁ c₁, Advances k m c m₁ c₁ ∧ c'.writes = c₁.writes := by
  rcases h with ⟨k, m', hadvances⟩ | ⟨r, m', hruns⟩
  · exact ⟨k, m', c', hadvances, rfl⟩
  · obtain ⟨k, m₁, c₁, c₂, hadvances, hends, rfl⟩ := runs_iff.1 hruns
    exact ⟨k, m₁, c₁, hadvances, hends.writes⟩

/-- Of two moments of a run, the writes at one begin with the writes at the other. -/
theorem Advances.writes_comparable
    {l : Nat} {m₁ : Machine} {c₁ : Console}
    (h : Advances k m c m' c')
    (h₁ : Advances l m c m₁ c₁) :
    c₁.writes.toList <+: c'.writes.toList ∨ c'.writes.toList <+: c₁.writes.toList := by
  rcases Nat.le_total l k with hle | hle
  · obtain ⟨more, rfl⟩ := Nat.exists_eq_add_of_le hle
    obtain ⟨m₂, c₂, hfirst, hrest⟩ := h.split
    obtain ⟨rfl, rfl⟩ := h₁.unique hfirst
    exact Or.inl hrest.writes_prefix
  · obtain ⟨more, rfl⟩ := Nat.exists_eq_add_of_le hle
    obtain ⟨m₂, c₂, hfirst, hrest⟩ := h₁.split
    obtain ⟨rfl, rfl⟩ := h.unique hfirst
    exact Or.inr hrest.writes_prefix

/-- Where the runs part, the first one has made the first `total` of its writes. -/
theorem PartsAt.writes
    {m₁ : Machine} {c₁ d₁ : Console}
    (h : m.PartsAt total c d i bytes m₁ c₁ d₁)
    (hmeets : m.Meets c c')
    (hmore : total ≤ c'.writes.size) :
    d₁.writes.toList = c'.writes.toList.take total := by
  obtain ⟨l, hadvances, -⟩ := h.advances
  obtain ⟨k, m₂, c₂, hadvances', hwrites⟩ := hmeets.exists_advances
  have hd : d₁.writes = c₁.writes := by rw [h.closes.eq]
  have hlength : c₁.writes.toList.length = total := h.overruns.full
  rw [hwrites] at hmore ⊢
  rw [hd]
  rcases hadvances'.writes_comparable hadvances with hfirst | hfirst
  · rw [List.prefix_iff_eq_take.1 hfirst, hlength]
  · -- A moment before that one has not had more writes, so that it has had the same.
    have heq := hfirst.eq_of_length_le (by rw [hlength]; exact hmore)
    rw [heq, ← hlength, List.take_length]

/-- A run that ends makes the most writes at its end. -/
theorem Runs.writesAtMost_iff
    (h : m.Runs c r m' c') :
    m.WritesAtMost c total ↔ c'.writes.size ≤ total := by
  constructor
  · intro hmost
    exact hmost c' (Or.inr ⟨r, m', h⟩)
  · intro hle c₁ hmeets
    obtain ⟨k, m₂, c₂, hadvances, hwrites⟩ := hmeets.exists_advances
    have hrest : m₂.Meets c₂ c' := Or.inr ⟨r, m', hadvances.runs_iff.1 h⟩
    obtain ⟨l, m₃, c₃, hadvances', hwrites'⟩ := hrest.exists_advances
    have hprefix : c₂.writes.size ≤ c₃.writes.size := hadvances'.writes_prefix.length_le
    rw [hwrites]
    rw [hwrites'] at hle
    exact Nat.le_trans hprefix hle

/-! ## Both runs -/

/-- Steps that make at most `total` writes do not part the runs. -/
theorem WritesAtMost.advances
    (h : m.WritesAtMost c total)
    (hclose : c.ClosesAt total d)
    (hadvances : Advances k m c m' c') :
    ∃ d', Advances k m d m' d' ∧ c'.ClosesAt total d' := by
  rcases hadvances.closing hclose with hsame | ⟨i, bytes, m₁, c₁, d₁, hparts⟩
  · exact hsame
  · obtain ⟨l, hadvances₁, -⟩ := hparts.advances
    obtain ⟨m₂, hstep⟩ := hparts.overruns.executed
    have hbeyond := hadvances₁.trans (.step hparts.running hstep (.refl m₂ _))
    have hle := h _ (Or.inl ⟨_, m₂, hbeyond⟩)
    have hsize := hparts.overruns.size_accept
    omega

theorem Ends.closing
    (h : Ends m c r m' c')
    (hclose : c.ClosesAt total d) :
    ∃ d', Ends m d r m' d' ∧ c'.ClosesAt total d' := by
  -- A step that is not executed makes no write that could be refused.
  have hsame : ∀ {s}, m.step c = (s, m', c') → s ≠ .advanced →
      ∃ d', m.step d = (s, m', d') ∧ c'.ClosesAt total d' := by
    intro s hstep hs
    refine (step_closing hclose hstep).resolve_right ?_
    rintro ⟨i, bytes, hoverruns⟩
    obtain ⟨m₂, hstep'⟩ := hoverruns.executed
    rw [hstep] at hstep'
    cases hstep'
    exact hs rfl
  cases h with
  | limit hlimit =>
      exact ⟨d, .limit hlimit, hclose⟩
  | stopped hlimit hstep =>
      obtain ⟨d', hstep', hclose'⟩ := hsame hstep nofun
      exact ⟨d', .stopped hlimit hstep', hclose'⟩
  | failed hlimit hstep =>
      obtain ⟨d', hstep', hclose'⟩ := hsame hstep nofun
      exact ⟨d', .failed hlimit hstep', hclose'⟩

theorem WritesAtMost.endsAlike
    (h : m.WritesAtMost c total)
    (hclose : c.ClosesAt total d) :
    EndsAlike (fun m₁ c₁ m₂ c₂ => m₂ = m₁ ∧ c₁.ClosesAt total c₂) m c m d := by
  apply EndsAlike.of_forth
  · intro r m' c' hruns
    obtain ⟨k, m₁, c₁, c₂, hadvances, hends, rfl⟩ := runs_iff.1 hruns
    obtain ⟨d₁, hadvances', hclose₁⟩ := h.advances hclose hadvances
    obtain ⟨d₂, hends', hclose₂⟩ := hends.closing hclose₁
    exact ⟨m', d₂.flush, runs_iff.2 ⟨k, m₁, d₁, d₂, hadvances', hends', rfl⟩, rfl, hclose₂.flush⟩
  · intro hforever k
    obtain ⟨m', c', hadvances⟩ := hforever k
    obtain ⟨d', hadvances', -⟩ := h.advances hclose hadvances
    exact ⟨m', d', hadvances'⟩

theorem exists_partsAt
    (h : ¬ m.WritesAtMost c total)
    (hclose : c.ClosesAt total d) :
    ∃ i bytes m₁ c₁ d₁, m.PartsAt total c d i bytes m₁ c₁ d₁ := by
  simp only [WritesAtMost, Classical.not_forall, Nat.not_le] at h
  obtain ⟨c', hmeets, hmore⟩ := h
  obtain ⟨k, m₂, c₂, hadvances, hwrites⟩ := hmeets.exists_advances
  rcases hadvances.closing hclose with ⟨d₂, -, hclose₂⟩ | hparts
  · -- A console whose output closes has not had so many writes.
    have hle := hclose₂.le
    rw [hwrites] at hmore
    omega
  · exact hparts

/-- The run of a machine whose output is closed after `n` writes.  If the run with an output that
accepts everything makes no more than these, the runs are the same.  Otherwise the run fails at the
instruction that makes the next one, and what it leaves is what the other run had just before that
step: the first `n` writes, the input and the machine, but for the recorded attempt and the write
that was refused.  Executed instructions that write make one write each, and nothing else makes
any. -/
theorem run_on_closing_output
    (m : Machine) (n : Nat)
    (hopen : c.budget = none) :
    let total := c.writes.size + n
    let closing : Console := { c with budget := some n }
    (m.WritesAtMost c total →
      (∀ k m' c', Advances k m c m' c' →
        ∃ d', Advances k m closing m' d' ∧ c'.ClosesAt total d') ∧
      EndsAlike (fun m₁ c₁ m₂ c₂ => m₂ = m₁ ∧ c₁.ClosesAt total c₂) m c m closing) ∧
    (¬ m.WritesAtMost c total →
      ∃ i bytes m₁ c₁ d₁,
        m.PartsAt total c closing i bytes m₁ c₁ d₁ ∧
        m.Runs closing (.error ⟨m₁.pc, i, .outputClosed⟩) (m₁.record i)
          (d₁.refuse bytes).flush ∧
        ∀ c', m.Meets c c' → total ≤ c'.writes.size →
          d₁.writes.toList = c'.writes.toList.take total) ∧
    (∀ r m' c', m.Runs c r m' c' → (m.WritesAtMost c total ↔ c'.writes.size ≤ total)) ∧
    ∀ log d m' d', History log m d m' d' →
      d'.writes.size = d.writes.size + (executed log).countP fun a => a.instruction.writes := by
  intro total closing
  have hclose : c.ClosesAt total closing := Console.closesAt_budget hopen n
  refine ⟨?_, ?_, fun r m' c' hruns => hruns.writesAtMost_iff, fun log d m' d' h => h.size_writes⟩
  · intro hmost
    exact ⟨fun k m' c' hadvances => hmost.advances hclose hadvances, hmost.endsAlike hclose⟩
  · intro hmore
    obtain ⟨i, bytes, m₁, c₁, d₁, hparts⟩ := exists_partsAt hmore hclose
    exact ⟨i, bytes, m₁, c₁, d₁, hparts, hparts.runs,
      fun c' hmeets hsize => hparts.writes hmeets hsize⟩

/-- There has been a write before, and the run makes four more.  The output that accepts three of
them refuses the last one. -/
theorem run_on_closing_output_refused_number :
    let m : Machine :=
      ⟨#[.readByte, .printByte 0, .printNumber 0, .jump 0], #[], 0, 0, none, true, #[]⟩
    let c : Console := { Console.ofInput [0x41, 0x42] with writes := #[[0x21]] }
    let a : Array Attempt :=
      #[⟨0, .readByte, #[]⟩, ⟨1, .printByte 0, #[65]⟩, ⟨2, .printNumber 0, #[65]⟩,
        ⟨3, .jump 0, #[65]⟩, ⟨0, .readByte, #[65]⟩, ⟨1, .printByte 0, #[65, 66]⟩,
        ⟨2, .printNumber 0, #[65, 66]⟩]
    let m' : Machine := { m with stack := #[65, 66], pc := 2, steps := 6, trace := a }
    let d' : Console :=
      ⟨[], 2, #[[0x21], [0x41], [0x36, 0x35, 0x0A], [0x42]], some 0,
        #[.flush, .readByte, .write [0x41], .write [0x36, 0x35, 0x0A], .flush, .readByte,
          .write [0x42], .refusedWrite [0x36, 0x36, 0x0A], .flush]⟩
    c.budget = none ∧
    (m.WritesAtMost c 5 ∧
      EndsAlike (fun m₁ c₁ m₂ c₂ => m₂ = m₁ ∧ c₁.ClosesAt 5 c₂) m c m
        { c with budget := some 4 }) ∧
    ¬ m.WritesAtMost c 4 ∧
    ∃ m₁ c₁ d₁,
      m.PartsAt 4 c { c with budget := some 3 } (.printNumber 0) [0x36, 0x36, 0x0A] m₁ c₁ d₁ ∧
      m.Runs { c with budget := some 3 } (.error ⟨2, .printNumber 0, .outputClosed⟩) m' d' ∧
      m₁.record (.printNumber 0) = m' ∧ (d₁.refuse [0x36, 0x36, 0x0A]).flush = d' := by
  intro m c a m' d'
  obtain ⟨c', hruns, hsize⟩ : ∃ c' : Console,
      m.Runs c (.ok .endOfInput)
        ⟨m.program, #[65, 66], 0, 8, none, true,
          a ++ #[⟨3, .jump 0, #[65, 66]⟩, ⟨0, .readByte, #[65, 66]⟩]⟩ c' ∧
      c'.writes.size = 5 := ⟨_, ⟨12, rfl⟩, rfl⟩
  have hfails : m.Runs { c with budget := some 3 }
      (.error ⟨2, .printNumber 0, .outputClosed⟩) m' d' := ⟨12, rfl⟩
  obtain ⟨hfew, -, hmost, -⟩ := run_on_closing_output (c := c) m 4 rfl
  obtain ⟨-, hmany, hmost', -⟩ := run_on_closing_output (c := c) m 3 rfl
  have hfour : m.WritesAtMost c 5 := (hmost _ _ _ hruns).2 (Nat.le_of_eq hsize)
  have hthree : ¬ m.WritesAtMost c 4 := by
    intro h
    have hle : c'.writes.size ≤ 4 := (hmost' _ _ _ hruns).1 h
    omega
  obtain ⟨i, bytes, m₁, c₁, d₁, hparts, hfails', -⟩ := hmany hthree
  obtain ⟨herror, hm, hd⟩ := hfails'.unique hfails
  obtain rfl : i = .printNumber 0 := congrArg Failure.instruction (Except.error.inj herror)
  obtain rfl : bytes = [0x36, 0x36, 0x0A] := by
    have hcall : (d₁.refuse bytes).flush.calls.pop.back? = d'.calls.pop.back? := by rw [hd]
    simpa [Console.flush, Console.refuse, d'] using hcall
  exact ⟨rfl, ⟨hfour, (hfew hfour).2⟩, hthree, m₁, c₁, d₁, hparts, hfails, hm, hd⟩

end Machine
end StackMachine
