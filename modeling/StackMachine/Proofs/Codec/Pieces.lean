import Mathlib.Data.List.Induction
import Mathlib.Data.Nat.Find
import StackMachine.Proofs.Codec.FormatErrors

/-!
# Taking instructions one by one

Instructions may be taken from a source one at a time, and after a fault too: a byte that is no tag
is skipped, a text that is not well-formed is skipped with its record, and a record that is cut off
is the last.  So any source is cut into pieces until it ends, and no byte is lost.

* `ByteSource.Piece` says which bytes are taken for what is reported.
* `ByteSource.returns_iff`: the first attempts give the instructions of a program exactly if the
  source begins with its records.
* `ByteSource.calls_split_source`: the pieces, their number, and what they have to do with reading
  the source as a program.
-/

namespace StackMachine

open Program (Fits encode decode)

/-! ## Faults -/

theorem Opcode.lt_of_ofTag?_eq_none
    {t : UInt8}
    (h : ofTag? t = none) :
    12 < t.toNat := by
  have htags : ∀ n < 13, ofTag? (UInt8.ofNat n) ≠ none := by
    decide
  by_contra hle
  have hsome := htags t.toNat (by omega)
  rw [UInt8.ofNat_toNat] at hsome
  exact hsome h

namespace RecordReader

variable {α β : Type}

/-- The only faults that the reader finds are truncations. -/
def OnlyTruncates (reader : RecordReader α) : Prop :=
  ∀ (s s' : ByteSource) (e : RecordFault), reader s = .error e s' → e.kind = .truncation

namespace OnlyTruncates

theorem pure
    (a : α) :
    OnlyTruncates (Pure.pure a) := by
  intro s s' e h
  cases h

theorem bind
    {reader : RecordReader α} {next : α → RecordReader β}
    (hreader : OnlyTruncates reader)
    (hnext : ∀ a, OnlyTruncates (next a)) :
    OnlyTruncates (reader >>= next) := by
  intro s s' e h
  rcases bind_eq_error.1 h with hread | ⟨a, s₁, -, h⟩
  · exact hreader s s' e hread
  · exact hnext a s₁ s' e h

end OnlyTruncates

theorem onlyTruncates_readWord
    (part : RecordPart) :
    OnlyTruncates (readWord part) := by
  refine .bind ?_ fun _ => .pure _
  intro s s' e h
  obtain ⟨-, rfl, -⟩ := readPart_eq_error.1 h
  rfl

theorem onlyTruncates_readUnary
    (o : Opcode) (make : Word → Instruction) :
    OnlyTruncates (readUnary o make) :=
  (onlyTruncates_readWord _).bind fun _ => .pure _

theorem onlyTruncates_readBranch
    (o : Opcode) (make : Word → Word → Word → Instruction) :
    OnlyTruncates (readBranch o make) :=
  (onlyTruncates_readWord _).bind fun _ => (onlyTruncates_readWord _).bind fun _ =>
    (onlyTruncates_readWord _).bind fun _ => .pure _

/-- All that can be wrong with operands, if none is a text, is that they are cut off. -/
theorem onlyTruncates_readOperands
    {o : Opcode}
    (ho : o ≠ .printText) :
    OnlyTruncates (readOperands o) := by
  cases o with
  | printText => exact absurd rfl ho
  | readNumber | readByte => exact .pure _
  | add => exact (onlyTruncates_readWord _).bind fun _ => (onlyTruncates_readWord _).bind fun _ =>
      .pure _
  | jumpIfGreater | jumpIfEqual => exact onlyTruncates_readBranch _ _
  | push | printNumber | copy | jump | decrement | increment | printByte =>
      exact onlyTruncates_readUnary _ _

/-- A text that is not cut off is at fault for its bytes, all of which are read. -/
theorem invalidText_of_readText
    {o : Opcode} {s s' : ByteSource} {e : RecordFault}
    (h : readText o s = .error e s')
    (he : e.kind ≠ .truncation) :
    ∃ (body : List UInt8) (f : Utf8.Fault),
      e = .invalidText o f ∧ body.length < 2 ^ 64 ∧ Utf8.decode body = .error f ∧
      s.Delivers (Word.toBytes (UInt64.ofNat body.length) ++ body) s' := by
  rw [readText] at h
  rcases bind_eq_error.1 h with hsize | ⟨size, s₁, hsize, h⟩
  · exact absurd (onlyTruncates_readWord _ _ _ _ hsize) he
  rcases bind_eq_error.1 h with hbody | ⟨body, s₂, hbody, h⟩
  · obtain ⟨-, rfl, -⟩ := readPart_eq_error.1 hbody
    exact absurd rfl he
  obtain ⟨-, hdelivers₁⟩ := (inverts_readWord _).faithful _ _ _ hsize
  obtain ⟨hlength, hdelivers₂⟩ := (inverts_readPart _ _).faithful _ _ _ hbody
  cases hdecode : Utf8.decode body with
  | ok cs =>
      rw [hdecode] at h
      cases h
  | error f =>
      rw [hdecode] at h
      cases h
      refine ⟨body, f, rfl, ?_, hdecode, ?_⟩
      · rw [hlength]
        exact size.toNat_lt
      · rw [hlength, UInt64.ofNat_toNat]
        exact hdelivers₁.trans hdelivers₂

/-- Operands that are not cut off are at fault only as the bytes of a text. -/
theorem invalidText_of_readOperands
    {o : Opcode} {s s' : ByteSource} {e : RecordFault}
    (h : readOperands o s = .error e s')
    (he : e.kind ≠ .truncation) :
    o = .printText ∧
    ∃ (body : List UInt8) (f : Utf8.Fault),
      e = .invalidText .printText f ∧ body.length < 2 ^ 64 ∧ Utf8.decode body = .error f ∧
      s.Delivers (Word.toBytes (UInt64.ofNat body.length) ++ body) s' := by
  by_cases ho : o = .printText
  · subst ho
    refine ⟨rfl, ?_⟩
    rcases bind_eq_error.1 h with htext | ⟨text, s₁, -, h⟩
    · exact invalidText_of_readText htext he
    · cases h
  · exact absurd (onlyTruncates_readOperands ho _ _ _ h) he

end RecordReader

namespace ByteSource

/-! ## One attempt -/

/-- The bytes `taken` are what one attempt to take an instruction takes for what it reports, where
`left` is all that the source still holds. -/
inductive Piece (left : List UInt8) :
    Except FormatError (Option Instruction) → List UInt8 → Prop
  /-- The record of the instruction. -/
  | record
      {i : Instruction}
      (hfits : i.Fits) :
      Piece left (.ok (some i)) i.encode
  /-- One byte that is no tag. -/
  | unknownTag
      {tag : UInt8}
      (htag : 12 < tag.toNat) :
      Piece left (.error ⟨0, .unknownTag tag⟩) [tag]
  /-- Everything. -/
  | truncated
      {part : RecordPart} {got size : Nat}
      (hgot : got < size) :
      Piece left (.error ⟨0, .truncated part got size⟩) left
  /-- The whole record of a text, whose bytes are those of no characters. -/
  | invalidText
      {body : List UInt8} {fault : Utf8.Fault}
      (hsize : body.length < 2 ^ 64)
      (hbody : ∀ cs : List Char, Utf8.encode cs ≠ body) :
      Piece left (.error ⟨0, .invalidText .printText fault⟩)
        (Opcode.printText.tag :: (Word.toBytes (UInt64.ofNat body.length) ++ body))

theorem Piece.ne_nil
    {left taken : List UInt8} {result : Except FormatError (Option Instruction)}
    (h : Piece left result taken)
    (hleft : left ≠ []) :
    taken ≠ [] := by
  cases h with
  | record hfits => simp [Instruction.encode]
  | unknownTag htag => simp
  | truncated hgot => exact hleft
  | invalidText hsize hbody => simp

/-- An attempt takes a piece of a source that has not ended. -/
theorem exists_piece
    {s : ByteSource}
    (hne : s.bytes ≠ []) :
    ∃ taken : List UInt8,
      s.Delivers taken s.takeInstruction.2 ∧ Piece s.bytes s.takeInstruction.1 taken := by
  cases h : readRecord s with
  | ok i? s' =>
      rw [takeInstruction_of_ok h]
      cases i? with
      | none =>
          exact absurd (bytes_eq_nil_of_readRecord h) hne
      | some i =>
          obtain ⟨hfits, hdelivers⟩ := delivers_of_readRecord h
          exact ⟨i.encode, hdelivers, .record hfits⟩
  | error fault s' =>
      rw [takeInstruction_of_fault h]
      by_cases hkind : fault.kind = .truncation
      · obtain ⟨part, got, size, rfl⟩ := RecordFault.exists_truncated hkind
        obtain ⟨hgot, hdelivers, -⟩ := (incremental_readRecord hne).cutOff h
        exact ⟨s.bytes, hdelivers, .truncated hgot⟩
      · obtain ⟨tag, bs, hbytes⟩ := List.exists_cons_of_ne_nil hne
        obtain ⟨s₁, hdelivers₁, -, hread⟩ := readRecord_of_cons hbytes
        rw [hread] at h
        cases ho : Opcode.ofTag? tag with
        | none =>
            rw [ho] at h
            cases h
            exact ⟨[tag], hdelivers₁, .unknownTag (Opcode.lt_of_ofTag?_eq_none ho)⟩
        | some o =>
            rw [ho] at h
            obtain ⟨rfl, body, f, rfl, hsize, hdecode, hdelivers₂⟩ :=
              RecordReader.invalidText_of_readOperands (RecordReader.map_eq_error.1 h) hkind
            rw [← Opcode.tag_of_ofTag? ho] at hdelivers₁
            exact ⟨_, hdelivers₁.trans hdelivers₂,
              .invalidText hsize (Utf8.encode_ne_of_decode_error hdecode)⟩

theorem takeInstruction_eq_none_iff
    {s : ByteSource} :
    s.takeInstruction.1 = .ok none ↔ s.bytes = [] := by
  constructor
  · intro h
    by_contra hne
    obtain ⟨taken, -, hpiece⟩ := exists_piece hne
    rw [h] at hpiece
    cases hpiece
  · intro hnil
    obtain ⟨s', hread, -⟩ := readRecord_of_nil hnil
    rw [takeInstruction_of_ok hread]

/-- Every attempt takes bytes from the front of the source. -/
theorem exists_delivers_takeInstruction
    (s : ByteSource) :
    ∃ taken : List UInt8, s.Delivers taken s.takeInstruction.2 := by
  obtain ⟨-, taken, hdelivers, -⟩ := takeInstruction_congr (s := s) (t := s) rfl
  exact ⟨taken, hdelivers⟩

/-! ## Many attempts -/

/-- The source after `n` attempts to take an instruction, whatever they have reported. -/
def afterCalls (s : ByteSource) : Nat → ByteSource
  | 0 => s
  | n + 1 => (s.afterCalls n).takeInstruction.2

/-- What attempt number `n` reports. -/
def call (s : ByteSource) (n : Nat) : Except FormatError (Option Instruction) :=
  (s.afterCalls n).takeInstruction.1

/-- The bytes that attempt number `n` takes. -/
def segment (s : ByteSource) (n : Nat) : List UInt8 :=
  (s.afterCalls n).bytes.take ((s.afterCalls (n + 1)).position - (s.afterCalls n).position)

/-- The bytes that the first `n` attempts take. -/
def segments (s : ByteSource) (n : Nat) : List UInt8 :=
  (List.range n).flatMap s.segment

theorem delivers_segment
    (s : ByteSource) (n : Nat) :
    (s.afterCalls n).Delivers (s.segment n) (s.afterCalls (n + 1)) := by
  obtain ⟨taken, hdelivers⟩ := exists_delivers_takeInstruction (s.afterCalls n)
  have heq : s.segment n = taken := hdelivers.eq_take
  rw [heq]
  exact hdelivers

/-- No attempt loses a byte. -/
theorem delivers_segments
    (s : ByteSource) (n : Nat) :
    s.Delivers (s.segments n) (s.afterCalls n) := by
  induction n with
  | zero =>
      exact .refl s
  | succ n ih =>
      have hsucc : s.segments (n + 1) = s.segments n ++ s.segment n := by
        simp [segments, List.range_succ]
      rw [hsucc]
      exact ih.trans (s.delivers_segment n)

theorem call_eq_none_iff
    {s : ByteSource} {n : Nat} :
    s.call n = .ok none ↔ (s.afterCalls n).bytes = [] :=
  takeInstruction_eq_none_iff

theorem piece_call
    {s : ByteSource} {n : Nat}
    (hne : (s.afterCalls n).bytes ≠ []) :
    Piece (s.afterCalls n).bytes (s.call n) (s.segment n) := by
  obtain ⟨taken, hdelivers, hpiece⟩ := exists_piece hne
  rw [(s.delivers_segment n).unique hdelivers]
  exact hpiece

/-! ## The end of the source -/

theorem afterCalls_nil_or_length_le
    (s : ByteSource) (n : Nat) :
    (s.afterCalls n).bytes = [] ∨ (s.afterCalls n).bytes.length + n ≤ s.bytes.length := by
  induction n with
  | zero =>
      exact Or.inr (Nat.le_refl _)
  | succ n ih =>
      have hbytes := (s.delivers_segment n).bytes_eq
      by_cases hne : (s.afterCalls n).bytes = []
      · rw [hne] at hbytes
        exact Or.inl (List.append_eq_nil_iff.1 hbytes.symm).2
      · -- An attempt takes at least one byte.
        have hpos := List.length_pos_iff.2 ((piece_call hne).ne_nil hne)
        have hlength := congrArg List.length hbytes
        rw [List.length_append] at hlength
        have hle := ih.resolve_left hne
        exact Or.inr (by omega)

theorem afterCalls_nil_of_le
    {s : ByteSource} {m n : Nat}
    (hle : m ≤ n)
    (h : (s.afterCalls m).bytes = []) :
    (s.afterCalls n).bytes = [] := by
  induction hle with
  | refl =>
      exact h
  | @step n _ ih =>
      have hbytes := (s.delivers_segment n).bytes_eq
      rw [ih] at hbytes
      exact (List.append_eq_nil_iff.1 hbytes.symm).2

/-- A source ends after as many attempts as it has bytes, at the latest. -/
theorem exists_end
    (s : ByteSource) :
    ∃ n : Nat, n ≤ s.bytes.length ∧ ∀ k : Nat, (s.afterCalls k).bytes = [] ↔ n ≤ k := by
  classical
  have hlast : (s.afterCalls s.bytes.length).bytes = [] := by
    rcases s.afterCalls_nil_or_length_le s.bytes.length with h | h
    · exact h
    · exact List.length_eq_zero_iff.1 (by omega)
  have hex : ∃ n : Nat, (s.afterCalls n).bytes = [] := ⟨_, hlast⟩
  refine ⟨Nat.find hex, Nat.find_min' hex hlast, ?_⟩
  intro k
  constructor
  · exact fun h => Nat.find_min' hex h
  · exact fun hle => afterCalls_nil_of_le hle (Nat.find_spec hex)

/-! ## Attempts and programs -/

/-- The first attempts give the instructions of the program. -/
def Returns (s : ByteSource) (p : Program) : Prop :=
  (List.range p.length).map s.call = p.map fun i => .ok (some i)

theorem returns_append_singleton
    {s : ByteSource} {p : Program} {i : Instruction} :
    s.Returns (p ++ [i]) ↔ s.Returns p ∧ s.call p.length = .ok (some i) := by
  unfold Returns
  simp only [List.length_append, List.length_singleton, List.range_succ, List.map_append,
    List.map_singleton]
  constructor
  · intro h
    obtain ⟨hinit, hlast⟩ := List.append_inj' h rfl
    exact ⟨hinit, List.singleton_inj.1 hlast⟩
  · rintro ⟨hinit, hlast⟩
    rw [hinit, hlast]

/-- An attempt that gives an instruction takes its record. -/
theorem delivers_of_takeInstruction
    {s : ByteSource} {i : Instruction}
    (h : s.takeInstruction.1 = .ok (some i)) :
    i.Fits ∧ s.Delivers i.encode s.takeInstruction.2 := by
  cases hread : readRecord s with
  | ok i? s' =>
      rw [takeInstruction_of_ok hread] at h ⊢
      cases h
      exact delivers_of_readRecord hread
  | error fault s' =>
      rw [takeInstruction_of_fault hread] at h
      cases h

/-- The attempts go through the records of a program. -/
theorem returns_of_bytes_eq
    {s : ByteSource} {p : Program} {rest : List UInt8}
    (hfits : ∀ i ∈ p, i.Fits)
    (hbytes : s.bytes = encode p ++ rest) :
    s.Returns p ∧ s.Delivers (encode p) (s.afterCalls p.length) := by
  -- The last instruction is taken where the others have left the source.
  induction p using List.reverseRecOn generalizing rest with
  | nil =>
      exact ⟨rfl, .refl s⟩
  | append_singleton p i ih =>
      rw [Program.encode_append, Program.encode_cons, Program.encode_nil, List.append_nil] at hbytes ⊢
      rw [List.append_assoc] at hbytes
      obtain ⟨hreturns, hdelivers⟩ := ih (fun j hj => hfits j (by simp [hj])) hbytes
      obtain ⟨s', hread, hrecord⟩ :=
        readRecord_of_encode (hfits i (by simp)) (hdelivers.bytes_eq_of_append hbytes)
      have htake := takeInstruction_of_ok hread
      refine ⟨returns_append_singleton.2 ⟨hreturns, by rw [call, htake]⟩, hdelivers.trans ?_⟩
      rw [List.length_append, List.length_singleton, afterCalls, htake]
      exact hrecord

/-- The attempts that give instructions take their records. -/
theorem delivers_of_returns
    {s : ByteSource} {p : Program}
    (h : s.Returns p) :
    (∀ i ∈ p, i.Fits) ∧ s.Delivers (encode p) (s.afterCalls p.length) := by
  induction p using List.reverseRecOn with
  | nil =>
      exact ⟨by simp, .refl s⟩
  | append_singleton p i ih =>
      obtain ⟨hreturns, hcall⟩ := returns_append_singleton.1 h
      obtain ⟨hfits, hdelivers⟩ := ih hreturns
      obtain ⟨hfit, hrecord⟩ := delivers_of_takeInstruction hcall
      constructor
      · intro j hj
        rcases List.mem_append.1 hj with hj | hj
        · exact hfits j hj
        · rw [List.mem_singleton.1 hj]
          exact hfit
      · rw [Program.encode_append, Program.encode_cons, Program.encode_nil, List.append_nil,
          List.length_append, List.length_singleton]
        exact hdelivers.trans hrecord

/-- The first attempts give the instructions of a program exactly if the source begins with the
records of the program. -/
theorem returns_iff
    {s : ByteSource} {p : Program} :
    s.Returns p ↔ Fits p ∧ encode p <+: s.bytes := by
  constructor
  · intro h
    obtain ⟨hfits, hdelivers⟩ := delivers_of_returns h
    exact ⟨Program.fits_iff.2 hfits, _, hdelivers.bytes_eq.symm⟩
  · rintro ⟨hfits, rest, hbytes⟩
    exact (returns_of_bytes_eq (Program.fits_iff.1 hfits) hbytes.symm).1

/-- The bytes of the attempts that give the instructions of a program are its records. -/
theorem Returns.segments_eq
    {s : ByteSource} {p : Program}
    (h : s.Returns p) :
    s.segments p.length = encode p :=
  (s.delivers_segments p.length).unique (delivers_of_returns h).2

/-- The source is a program exactly if it ends after giving the instructions of the program. -/
theorem decode_bytes_eq_ok_iff
    {s : ByteSource} {p : Program} :
    decode s.bytes = .ok p ↔ s.Returns p ∧ (s.afterCalls p.length).bytes = [] := by
  constructor
  · intro h
    obtain ⟨hfits, hbytes⟩ := Program.bytes_eq_of_decodeSource h
    have hall : s.bytes = encode p ++ [] := by
      rw [List.append_nil]
      exact hbytes
    obtain ⟨hreturns, hdelivers⟩ := returns_of_bytes_eq (Program.fits_iff.1 hfits) hall
    exact ⟨hreturns, hdelivers.bytes_eq_of_append hall⟩
  · rintro ⟨hreturns, hnil⟩
    obtain ⟨hfits, hdelivers⟩ := delivers_of_returns hreturns
    have hbytes := hdelivers.bytes_eq
    rw [hnil, List.append_nil] at hbytes
    exact Program.decodeSource_of_bytes_eq (Program.fits_iff.2 hfits) hbytes

/-- The source is no program, for a fault at some offset, exactly if an attempt finds this fault
there, after attempts that have given instructions. -/
theorem decode_bytes_eq_error_iff
    {s : ByteSource} {offset : Nat} {fault : RecordFault} :
    decode s.bytes = .error ⟨offset, fault⟩ ↔
      ∃ p : Program,
        s.Returns p ∧ s.call p.length = .error ⟨0, fault⟩ ∧
        offset = (s.segments p.length).length := by
  rw [Program.decode_eq_error_iff]
  constructor
  · rintro ⟨p, rest, hfits, hbytes, rfl, htake⟩
    obtain ⟨hreturns, hdelivers⟩ := returns_of_bytes_eq (Program.fits_iff.1 hfits) hbytes
    have hrest : (s.afterCalls p.length).bytes = (ofBytes rest).bytes :=
      hdelivers.bytes_eq_of_append hbytes
    refine ⟨p, hreturns, ?_, by rw [hreturns.segments_eq]⟩
    rw [call, (takeInstruction_congr hrest).1, htake]
  · rintro ⟨p, hreturns, hcall, rfl⟩
    obtain ⟨hfits, hdelivers⟩ := delivers_of_returns hreturns
    refine ⟨p, (s.afterCalls p.length).bytes, Program.fits_iff.2 hfits, hdelivers.bytes_eq,
      by rw [hreturns.segments_eq], ?_⟩
    have hbytes : (ofBytes (s.afterCalls p.length).bytes).bytes = (s.afterCalls p.length).bytes :=
      rfl
    rw [(takeInstruction_congr hbytes).1]
    exact hcall

theorem Returns.exists_call
    {s : ByteSource} {p : Program} {k : Nat}
    (h : s.Returns p)
    (hk : k < p.length) :
    ∃ i : Instruction, s.call k = .ok (some i) := by
  have hmap := congrArg (fun results => results[k]?) h
  simp only [List.getElem?_map, List.getElem?_range hk, List.getElem?_eq_getElem hk,
    Option.map_some, Option.some.injEq] at hmap
  exact ⟨p[k], hmap⟩

/-- There is no instruction where the source has ended. -/
theorem Returns.length_le
    {s : ByteSource} {p : Program} {n : Nat}
    (h : s.Returns p)
    (hn : s.call n = .ok none) :
    p.length ≤ n := by
  by_contra hlt
  obtain ⟨i, hcall⟩ := h.exists_call (not_le.1 hlt)
  rw [hn] at hcall
  cases hcall

/-- Reading the source as a program fails exactly if some attempt does. -/
theorem decode_bytes_fails_iff
    (s : ByteSource) :
    (∃ e : FormatError, decode s.bytes = .error e) ↔
      ∃ (k : Nat) (e : FormatError), s.call k = .error e := by
  constructor
  · rintro ⟨⟨offset, fault⟩, h⟩
    obtain ⟨p, -, hcall, -⟩ := decode_bytes_eq_error_iff.1 h
    exact ⟨p.length, ⟨0, fault⟩, hcall⟩
  · rintro ⟨k, e, hcall⟩
    cases h : decode s.bytes with
    | error e' =>
        exact ⟨e', rfl⟩
    | ok p =>
        obtain ⟨hreturns, hnil⟩ := decode_bytes_eq_ok_iff.1 h
        by_cases hk : k < p.length
        · obtain ⟨i, hcall'⟩ := hreturns.exists_call hk
          rw [hcall] at hcall'
          cases hcall'
        · rw [call_eq_none_iff.2 (afterCalls_nil_of_le (not_lt.1 hk) hnil)] at hcall
          cases hcall

/-- **Taking instructions one by one loses nothing.**  However often it is tried, also after faults,
the attempts cut the source into pieces: the source has ended after at most as many attempts as it
has bytes, and there is no instruction from then on; the pieces in order are its bytes; and each
piece is the record of the instruction that is given, or one byte that is no tag, or all that is
left, cut off, or the record of a text that is not well-formed.

Up to the first fault the attempts agree with reading the source as a program.  If there is none,
they give the instructions of the program.  If there is one, the instructions before it are the
program of the pieces before it, and reading fails for the same fault, at the offset where these
pieces end. -/
theorem calls_split_source
    (s : ByteSource) :
    ∃ n : Nat,
      n ≤ s.bytes.length ∧
      (∀ k : Nat, s.call k = .ok none ↔ n ≤ k) ∧
      (∀ k : Nat, s.segments k ++ (s.afterCalls k).bytes = s.bytes) ∧
      s.segments n = s.bytes ∧
      (∀ k : Nat, k < n → Piece (s.afterCalls k).bytes (s.call k) (s.segment k)) ∧
      (∀ p : Program, decode s.bytes = .ok p ↔ p.length = n ∧ s.Returns p) ∧
      (∀ (offset : Nat) (fault : RecordFault),
        decode s.bytes = .error ⟨offset, fault⟩ ↔
          ∃ p : Program,
            s.Returns p ∧ decode (s.segments p.length) = .ok p ∧
            s.call p.length = .error ⟨0, fault⟩ ∧
            offset = (s.segments p.length).length) ∧
      ((∃ e : FormatError, decode s.bytes = .error e) ↔
        ∃ (k : Nat) (e : FormatError), s.call k = .error e) := by
  obtain ⟨n, hle, hend⟩ := s.exists_end
  have hbytes : ∀ k : Nat, s.segments k ++ (s.afterCalls k).bytes = s.bytes :=
    fun k => (s.delivers_segments k).bytes_eq.symm
  have hnone : ∀ k : Nat, s.call k = .ok none ↔ n ≤ k :=
    fun k => call_eq_none_iff.trans (hend k)
  refine ⟨n, hle, hnone, hbytes, ?_, ?_, ?_, ?_, s.decode_bytes_fails_iff⟩
  · have h := hbytes n
    rwa [(hend n).2 le_rfl, List.append_nil] at h
  · intro k hk
    exact piece_call fun hnil => not_le.2 hk ((hend k).1 hnil)
  · intro p
    rw [decode_bytes_eq_ok_iff, hend]
    constructor
    · rintro ⟨hreturns, hlength⟩
      exact ⟨le_antisymm (hreturns.length_le ((hnone n).2 le_rfl)) hlength, hreturns⟩
    · rintro ⟨rfl, hreturns⟩
      exact ⟨hreturns, le_rfl⟩
  · intro offset fault
    rw [decode_bytes_eq_error_iff]
    constructor
    · rintro ⟨p, hreturns, hcall, hoffset⟩
      have hfits := (returns_iff.1 hreturns).1
      refine ⟨p, hreturns, ?_, hcall, hoffset⟩
      rw [hreturns.segments_eq]
      exact Program.decodeSource_of_bytes_eq hfits rfl
    · rintro ⟨p, hreturns, -, hcall, hoffset⟩
      exact ⟨p, hreturns, hcall, hoffset⟩

/-- A byte that is no tag, a record, a record that is cut off, and the end. -/
example :
    (List.range 4).map (ofBytes [0x0D, 2, 0, 1]).segment = [[0x0D], [2], [0, 1], []] := by
  cbv

end ByteSource

end StackMachine
