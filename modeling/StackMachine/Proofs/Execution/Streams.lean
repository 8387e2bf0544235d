import StackMachine.Proofs.Execution.Runs

/-!
# Instructions and their streams

An instruction knows its console only through the answers to the calls that it makes.  Two consoles
that give the same answers are therefore as good as each other.

* `Instruction.execute_congr` is that statement for one instruction and any relation of consoles.
* `Console.SameStreams` relates consoles that differ in nothing but the calls recorded so far.
* `Console.write_feed`, `Console.readLine_feed` and `Console.readByte_feed` are the calls on a
  console whose input goes on after what it had.
* `Machine.simulation_inserted`: recorded calls and earlier attempts in the trace do not matter.
-/

namespace StackMachine

variable {α : Type} {Q : Console → Console → Prop}
variable {i : Instruction} {stack : Stack} {c d : Console}

/-- Two calls have the same answer and leave related consoles. -/
def Alike (Q : Console → Console → Prop) (x y : α × Console) : Prop :=
  y.1 = x.1 ∧ Q x.2 y.2

theorem Alike.exists_eq
    {x y : α × Console}
    (h : Alike Q x y) :
    ∃ (answer : α) (c' d' : Console), x = (answer, c') ∧ y = (answer, d') ∧ Q c' d' := by
  obtain ⟨answer, c'⟩ := x
  obtain ⟨answer', d'⟩ := y
  obtain ⟨rfl, hQ⟩ := h
  exact ⟨_, c', d', rfl, rfl, hQ⟩

/-! ## One instruction on two consoles -/

theorem emit_congr
    (hQ : Q c d)
    (hwrite : ∀ bytes, Alike Q (c.write bytes) (d.write bytes))
    (bytes : Except Fault (List UInt8)) :
    Alike Q (emit stack c bytes) (emit stack d bytes) := by
  cases bytes with
  | error f =>
      exact ⟨rfl, hQ⟩
  | ok bytes =>
      obtain ⟨accepted, c', d', hc, hd, hQ'⟩ := (hwrite bytes).exists_eq
      cases accepted with
      | true =>
          simp only [emit, hc, hd]
          exact ⟨rfl, hQ'⟩
      | false =>
          simp only [emit, hc, hd]
          exact ⟨rfl, hQ'⟩

theorem acceptNumber_congr
    (hread : Alike Q c.flush.readLine d.flush.readLine) :
    Alike Q (acceptNumber stack c) (acceptNumber stack d) := by
  obtain ⟨line, c', d', hc, hd, hQ⟩ := hread.exists_eq
  rw [acceptNumber, acceptNumber, hc, hd]
  cases line with
  | nil =>
      exact ⟨rfl, hQ⟩
  | cons b line =>
      simp only
      split
      · exact ⟨rfl, hQ⟩
      · exact ⟨rfl, hQ⟩

theorem acceptByte_congr
    (hread : Alike Q c.flush.readByte d.flush.readByte) :
    Alike Q (acceptByte stack c) (acceptByte stack d) := by
  obtain ⟨b, c', d', hc, hd, hQ⟩ := hread.exists_eq
  rw [acceptByte, acceptByte, hc, hd]
  cases b with
  | none =>
      exact ⟨rfl, hQ⟩
  | some b =>
      exact ⟨rfl, hQ⟩

/-- An instruction does the same on two consoles that give the same answers to its calls. -/
theorem Instruction.execute_congr
    (hQ : Q c d)
    (hwrite : ∀ bytes, Alike Q (c.write bytes) (d.write bytes))
    (hline : i = .readNumber → Alike Q c.flush.readLine d.flush.readLine)
    (hbyte : i = .readByte → Alike Q c.flush.readByte d.flush.readByte) :
    Alike Q (i.execute stack c) (i.execute stack d) := by
  cases i with
  | printNumber p =>
      exact emit_congr hQ hwrite _
  | printText text =>
      exact emit_congr hQ hwrite _
  | printByte p =>
      exact emit_congr hQ hwrite _
  | readNumber =>
      exact acceptNumber_congr (hline rfl)
  | readByte =>
      exact acceptByte_congr (hbyte rfl)
  | _ =>
      exact ⟨rfl, hQ⟩

namespace Console

/-! ## Consoles that differ in the recorded calls -/

/-- The consoles have the same input left and have consumed as much, and they have accepted the same
writes and will accept as many.  The calls recorded so far may differ. -/
structure SameStreams (c d : Console) : Prop where
  input : d.input = c.input
  consumed : d.consumed = c.consumed
  writes : d.writes = c.writes
  budget : d.budget = c.budget

theorem SameStreams.exists_calls
    (h : c.SameStreams d) :
    ∃ calls : Array StreamCall, d = { c with calls := calls } := by
  obtain ⟨input, consumed, writes, budget, calls⟩ := d
  obtain ⟨rfl, rfl, rfl, rfl⟩ := h
  exact ⟨calls, rfl⟩

theorem SameStreams.flush
    (h : c.SameStreams d) :
    c.flush.SameStreams d.flush :=
  ⟨h.input, h.consumed, h.writes, h.budget⟩

theorem SameStreams.write
    (h : c.SameStreams d)
    (bytes : List UInt8) :
    Alike SameStreams (c.write bytes) (d.write bytes) := by
  obtain ⟨calls, rfl⟩ := h.exists_calls
  obtain ⟨input, consumed, writes, budget, calls'⟩ := c
  rcases budget with - | - | budget
  · exact ⟨rfl, rfl, rfl, rfl, rfl⟩
  · exact ⟨rfl, rfl, rfl, rfl, rfl⟩
  · exact ⟨rfl, rfl, rfl, rfl, rfl⟩

theorem SameStreams.readLine
    (h : c.SameStreams d) :
    Alike SameStreams c.readLine d.readLine := by
  obtain ⟨calls, rfl⟩ := h.exists_calls
  exact ⟨rfl, rfl, rfl, rfl, rfl⟩

theorem SameStreams.readByte
    (h : c.SameStreams d) :
    Alike SameStreams c.readByte d.readByte := by
  obtain ⟨calls, rfl⟩ := h.exists_calls
  obtain ⟨input, consumed, writes, budget, calls'⟩ := c
  cases input with
  | nil =>
      exact ⟨rfl, rfl, rfl, rfl, rfl⟩
  | cons b rest =>
      exact ⟨rfl, rfl, rfl, rfl, rfl⟩

theorem SameStreams.execute
    (h : c.SameStreams d) :
    Alike SameStreams (i.execute stack c) (i.execute stack d) :=
  Instruction.execute_congr h h.write (fun _ => h.flush.readLine) (fun _ => h.flush.readByte)

/-! ## Consoles whose input goes on -/

theorem write_feed
    (c : Console) (more bytes : List UInt8) :
    Alike (fun c d => d = c.feed more) (c.write bytes) ((c.feed more).write bytes) := by
  obtain ⟨input, consumed, writes, budget, calls⟩ := c
  rcases budget with - | - | budget
  · exact ⟨rfl, rfl⟩
  · exact ⟨rfl, rfl⟩
  · exact ⟨rfl, rfl⟩

/-- A line that has its end is not changed by what follows it. -/
theorem readLine_feed
    (h : lineFeed ∈ c.input)
    (more : List UInt8) :
    Alike (fun c d => d = c.feed more) c.readLine (c.feed more).readLine := by
  have hline : firstLine (c.input ++ more) =
      ((firstLine c.input).1, (firstLine c.input).2 ++ more) := by
    obtain ⟨before, after, hinput, hbefore⟩ := List.eq_append_cons_of_mem h
    have hall : ∀ b ∈ before, (b != lineFeed) = true := by
      intro b hb
      rw [bne_iff_ne]
      rintro rfl
      exact hbefore hb
    simp [firstLine, hinput, List.takeWhile_append_of_pos hall, List.dropWhile_append_of_pos hall]
  simp only [Console.readLine, feed, hline]
  exact ⟨rfl, rfl⟩

theorem readByte_feed
    (h : c.input ≠ [])
    (more : List UInt8) :
    Alike (fun c d => d = c.feed more) c.readByte (c.feed more).readByte := by
  obtain ⟨b, rest, hinput⟩ := List.exists_cons_of_ne_nil h
  simp only [Console.readByte, feed, hinput, List.cons_append]
  exact ⟨rfl, rfl⟩

end Console

/-! ## Machines whose earlier attempts differ -/

namespace Machine

/-- The machines agree, but the trace of the second one has `extra` after the attempts `before`, and
its console has other calls recorded. -/
def Inserted
    (before extra : Array Attempt)
    (m : Machine) (c : Console) (n : Machine) (d : Console) : Prop :=
  c.SameStreams d ∧
    ∃ rest : Array Attempt, m.trace = before ++ rest ∧
      n = { m with trace := before ++ extra ++ rest }

theorem Inserted.after
    {before extra : Array Attempt} {m n : Machine} {c' d' : Console}
    (h : m.Inserted before extra c n d)
    (hstreams : c'.SameStreams d')
    (i : Instruction) (effect : Effect) :
    (m.after i effect).Inserted before extra c' (n.after i effect) d' := by
  obtain ⟨-, rest, htrace, rfl⟩ := h
  refine ⟨hstreams, if m.tracing then rest.push ⟨m.pc, i, m.stack⟩ else rest, ?_, ?_⟩
  · cases effect <;> simp only [Machine.after, record_eq, htrace] <;> split <;> simp
  · cases effect <;> simp only [Machine.after, record_eq] <;> split <;> simp

theorem simulation_inserted
    (before extra : Array Attempt) :
    Simulation (fun _ => False) (Inserted before extra) where
  program h := by
    obtain ⟨-, rest, -, rfl⟩ := h
    rfl
  pc h := by
    obtain ⟨-, rest, -, rfl⟩ := h
    rfl
  limitReached h := by
    obtain ⟨-, rest, -, rfl⟩ := h
    rfl
  execute h hi heffect _ := by
    obtain ⟨hstreams, rest, -, rfl⟩ := id h
    obtain ⟨effect, c', d', hc, hd, hstreams'⟩ := hstreams.execute.exists_eq
    rw [heffect] at hc
    cases hc
    exact ⟨_, d', hd, rfl, h.after hstreams' _ _⟩
  flush h := ⟨h.1.flush, h.2⟩
  advanced := id

end Machine
end StackMachine
