import Mathlib.Order.Bounds.Defs
import StackMachine.Proofs.Codec.MoreBytes
import StackMachine.Proofs.Codec.RoundTrip

/-!
# Where bytes stop being a program

Bytes that are no program are the records of some instructions, and then bytes that begin with no
record.  What is wrong with these bytes is what is wrong with the whole, and the offset of the error
is where they begin.

* `ByteSource.decoding_depends_on_bytes`: how a source delivers its bytes does not show.
* `Program.decode_eq_error_iff` finds the records before the fault, and
  `Program.decode_error_points_at_record` says what this means for the message.
* `Program.decode_cut`: a program that is cut off between two records is the program of the records
  before the cut, and one that is cut off inside a record is truncated there.
-/

namespace StackMachine

/-! ## Delivery -/

namespace Program

/-- What is read depends on a source only through its bytes and its position. -/
theorem decodeFrom_congr
    {s t : ByteSource}
    (done : List Instruction)
    (hbytes : t.bytes = s.bytes)
    (hposition : t.position = s.position) :
    decodeFrom done t = decodeFrom done s := by
  fun_induction decodeFrom done s generalizing t with
  | case1 done s fault s' hread =>
      obtain ⟨used, t', hread', -⟩ := readRecord_fault_congr hbytes hread
      rw [decodeFrom_of_fault done hread', hposition]
  | case2 done s s' hread =>
      exact decodeFrom_of_nil done (hbytes.trans (bytes_eq_nil_of_readRecord hread))
  | case3 done s i s' hread ih =>
      obtain ⟨used, t', hread', hs, ht⟩ := readRecord_congr hbytes hread
      rw [decodeFrom_of_record done hread']
      apply ih
      · apply ht.bytes_eq_of_append
        rw [hbytes, hs.bytes_eq]
      · rw [ht.position_eq, hs.position_eq, hposition]

end Program

namespace ByteSource

theorem takeInstruction_of_ok
    {s s' : ByteSource} {i? : Option Instruction}
    (h : readRecord s = .ok i? s') :
    s.takeInstruction = (.ok i?, s') := by
  simp only [takeInstruction, h]

theorem takeInstruction_of_fault
    {s s' : ByteSource} {fault : RecordFault}
    (h : readRecord s = .error fault s') :
    s.takeInstruction = (.error ⟨0, fault⟩, s') := by
  simp only [takeInstruction, h]

/-- Where two sources hold the same bytes, taking an instruction gives the same and takes the same
bytes. -/
theorem takeInstruction_congr
    {s t : ByteSource}
    (hbytes : t.bytes = s.bytes) :
    t.takeInstruction.1 = s.takeInstruction.1 ∧
    ∃ used : List UInt8,
      s.Delivers used s.takeInstruction.2 ∧ t.Delivers used t.takeInstruction.2 := by
  cases h : readRecord s with
  | ok i? s' =>
      obtain ⟨used, t', h', hs, ht⟩ := readRecord_congr hbytes h
      rw [takeInstruction_of_ok h, takeInstruction_of_ok h']
      exact ⟨rfl, used, hs, ht⟩
  | error fault s' =>
      obtain ⟨used, t', h', hs, ht⟩ := readRecord_fault_congr hbytes h
      rw [takeInstruction_of_fault h, takeInstruction_of_fault h']
      exact ⟨rfl, used, hs, ht⟩

/-- **How a source delivers its bytes does not show.**  Whatever it gives to each read, reading the
program gives what the block of its bytes gives, in errors too; and taking one instruction gives what
it gives with that block, and takes as many bytes. -/
theorem decoding_depends_on_bytes
    (s : ByteSource) :
    Program.decodeSource s = Program.decode s.bytes ∧
    s.takeInstruction.1 = (ofBytes s.bytes).takeInstruction.1 ∧
    s.takeInstruction.2.bytes = (ofBytes s.bytes).takeInstruction.2.bytes ∧
    s.takeInstruction.2.position =
      s.position + (ofBytes s.bytes).takeInstruction.2.position := by
  have hbytes : s.bytes = (ofBytes s.bytes).bytes := rfl
  obtain ⟨hresult, used, hplain, hdelivers⟩ := takeInstruction_congr hbytes
  refine ⟨Program.decodeFrom_congr [] rfl rfl, hresult, ?_, ?_⟩
  · exact hdelivers.bytes_eq_of_append hplain.bytes_eq
  · rw [hdelivers.position_eq, hplain.position_eq]
    simp [ofBytes]

end ByteSource

/-! ## The first record at fault -/

/-- The error is of the given kind, at the given offset, and its message gives the offset and the
detail. -/
structure FormatError.Says
    (e : FormatError)
    (kind : FaultKind)
    (offset : Nat)
    (detail : String) :
    Prop where
  kind_eq : e.fault.kind = kind
  offset_eq : e.offset = offset
  message_eq : e.message = "byte " ++ toString offset ++ ": " ++ detail

namespace FormatError

theorem says_iff
    {e : FormatError} {kind : FaultKind} {offset : Nat} {detail : String} :
    e.Says kind offset detail ↔
      e.fault.kind = kind ∧ e.offset = offset ∧ e.fault.detail = detail := by
  constructor
  · rintro ⟨hkind, rfl, hmessage⟩
    exact ⟨hkind, rfl, (String.append_right_inj _).1 hmessage⟩
  · rintro ⟨hkind, rfl, rfl⟩
    exact ⟨hkind, rfl, rfl⟩

end FormatError

namespace Program

/-- Reading fails at a record that comes after records of instructions. -/
theorem exists_fault_of_decodeFrom
    {done : List Instruction} {s : ByteSource} {e : FormatError}
    (h : decodeFrom done s = .error e) :
    ∃ (p : Program) (s₁ s' : ByteSource),
      (∀ i ∈ p, i.Fits) ∧ s.Delivers (encode p) s₁ ∧
      readRecord s₁ = .error e.fault s' ∧ e.offset = s₁.position := by
  fun_induction decodeFrom done s with
  | case1 done s fault s' hread =>
      cases h
      exact ⟨[], s, s', by simp, .refl s, hread, rfl⟩
  | case2 done s s' hread =>
      cases h
  | case3 done s i s' hread ih =>
      obtain ⟨p, s₁, s₂, hfits, hdelivers, hfault, hoffset⟩ := ih h
      obtain ⟨hfit, hrecord⟩ := delivers_of_readRecord hread
      refine ⟨i :: p, s₁, s₂, ?_, hrecord.trans hdelivers, hfault, hoffset⟩
      intro j hj
      rcases List.mem_cons.1 hj with rfl | hj
      · exact hfit
      · exact hfits j hj

/-- A block of bytes is no program, for a fault at some offset, exactly if it is as many bytes of
records and then bytes in which taking an instruction finds that fault. -/
theorem decode_eq_error_iff
    {bs : List UInt8} {offset : Nat} {fault : RecordFault} :
    decode bs = .error ⟨offset, fault⟩ ↔
      ∃ (p : Program) (rest : List UInt8),
        Fits p ∧ bs = encode p ++ rest ∧ offset = (encode p).length ∧
        (ByteSource.ofBytes rest).takeInstruction.1 = .error ⟨0, fault⟩ := by
  constructor
  · intro h
    obtain ⟨p, s₁, s', hfits, hdelivers, hfault, hoffset⟩ := exists_fault_of_decodeFrom h
    refine ⟨p, s₁.bytes, fits_iff.2 hfits, hdelivers.bytes_eq, ?_, ?_⟩
    · have hposition := hdelivers.position_eq
      simp only [ByteSource.fromHere, Nat.zero_add] at hposition
      exact hoffset.trans hposition
    · have hbytes : (ByteSource.ofBytes s₁.bytes).bytes = s₁.bytes := rfl
      rw [(ByteSource.takeInstruction_congr hbytes).1, ByteSource.takeInstruction_of_fault hfault]
  · rintro ⟨p, rest, hfits, rfl, rfl, htake⟩
    obtain ⟨s₁, hdelivers, hdecode⟩ :=
      decodeFrom_encode_append (s := (ByteSource.ofBytes (encode p ++ rest)).fromHere) []
        (fits_iff.1 hfits) rfl
    have hbytes : s₁.bytes = (ByteSource.ofBytes rest).bytes :=
      hdelivers.bytes_eq_of_append rfl
    have hposition : s₁.position = (encode p).length := by
      rw [hdelivers.position_eq]
      exact Nat.zero_add _
    rw [← (ByteSource.takeInstruction_congr hbytes).1] at htake
    cases h : readRecord s₁ with
    | ok i? s' =>
        rw [ByteSource.takeInstruction_of_ok h] at htake
        cases htake
    | error fault' s' =>
        rw [ByteSource.takeInstruction_of_fault h] at htake
        cases htake
        rw [decode, decodeSource, hdecode, decodeFrom_of_fault _ h, hposition]

/-- Nothing is at fault where a source has ended. -/
theorem ne_nil_of_takeInstruction
    {bs : List UInt8} {e : FormatError}
    (h : (ByteSource.ofBytes bs).takeInstruction.1 = .error e) :
    bs ≠ [] := by
  rintro rfl
  cases h

/-- **The error of a program points exactly at its first malformed record.**  Reading a block of
bytes fails with a certain kind of error, offset and message exactly if the block is the records of
some instructions, as many bytes as the offset says, and then bytes in which taking one instruction
fails with the same kind and the same message, but for the offset, which is zero there. -/
theorem decode_error_points_at_record
    (bs : List UInt8) (kind : FaultKind) (offset : Nat) (detail : String) :
    (∃ e : FormatError, decode bs = .error e ∧ e.Says kind offset detail) ↔
      ∃ (p : Program) (rest : List UInt8),
        Fits p ∧ rest ≠ [] ∧ bs = encode p ++ rest ∧ offset = (encode p).length ∧
        ∃ e : FormatError,
          (ByteSource.ofBytes rest).takeInstruction.1 = .error e ∧ e.Says kind 0 detail := by
  simp only [FormatError.says_iff]
  constructor
  · rintro ⟨⟨offset, fault⟩, hdecode, rfl, rfl, rfl⟩
    obtain ⟨p, rest, hfits, hbytes, hoffset, htake⟩ := decode_eq_error_iff.1 hdecode
    exact ⟨p, rest, hfits, ne_nil_of_takeInstruction htake, hbytes, hoffset, ⟨0, fault⟩, htake,
      rfl, rfl, rfl⟩
  · rintro ⟨p, rest, hfits, -, hbytes, hoffset, ⟨_, fault⟩, htake, rfl, rfl, rfl⟩
    exact ⟨⟨offset, fault⟩, decode_eq_error_iff.2 ⟨p, rest, hfits, hbytes, hoffset, htake⟩,
      rfl, rfl, rfl⟩

/-! ## Programs that are cut off -/

/-- The bytes before position `k` are the records of the first instructions of the program. -/
def IsBoundary (p : Program) (k : Nat) : Prop :=
  ∃ n : Nat, n ≤ p.length ∧ (encode (p.take n)).length = k

instance (p : Program) (k : Nat) : Decidable (IsBoundary p k) :=
  inferInstanceAs (Decidable (∃ n : Nat, n ≤ p.length ∧ (encode (p.take n)).length = k))

theorem length_encode_take_le
    (p : Program) {m n : Nat}
    (h : m ≤ n) :
    (encode (p.take m)).length ≤ (encode (p.take n)).length := by
  obtain ⟨later, hlater⟩ : p.take m <+: p.take n := List.take_prefix_take_left h
  rw [← hlater, encode_append, List.length_append]
  omega

/-- A position inside the bytes of a program is inside the record of one of its instructions. -/
theorem exists_record_at
    {p : Program} {k : Nat}
    (h : k < (encode p).length) :
    ∃ (before after : Program) (i : Instruction),
      p = before ++ i :: after ∧
      (encode before).length ≤ k ∧ k < (encode before).length + i.encode.length := by
  induction p generalizing k with
  | nil =>
      cases h
  | cons i p ih =>
      rw [encode_cons, List.length_append] at h
      by_cases hk : k < i.encode.length
      · exact ⟨[], p, i, rfl, Nat.zero_le k, by simpa using hk⟩
      · obtain ⟨before, after, j, rfl, hle, hlt⟩ := ih (k := k - i.encode.length) (by omega)
        refine ⟨i :: before, after, j, rfl, ?_, ?_⟩ <;>
          rw [encode_cons, List.length_append] <;> omega

section Cut

variable {before after : Program} {i : Instruction} {k : Nat}

theorem length_encode_take_before :
    (encode ((before ++ i :: after).take before.length)).length = (encode before).length := by
  rw [List.take_left]

theorem length_encode_take_through :
    (encode ((before ++ i :: after).take (before.length + 1))).length =
      (encode before).length + i.encode.length := by
  simp [List.take_append, List.take_of_length_le]

/-- What is left of a program that is cut off inside the record of `i`. -/
theorem take_encode_inside
    (hle : (encode before).length ≤ k)
    (hend : k < (encode before).length + i.encode.length) :
    (encode (before ++ i :: after)).take k =
      encode before ++ i.encode.take (k - (encode before).length) := by
  rw [encode_append, encode_cons, List.take_append, List.take_of_length_le hle,
    List.take_append_of_le_length (by omega)]

/-- The record that a position is inside of begins at the last boundary before the position. -/
theorem isGreatest_boundary
    (hstart : (encode before).length < k)
    (hend : k < (encode before).length + i.encode.length) :
    IsGreatest {b : Nat | IsBoundary (before ++ i :: after) b ∧ b < k} (encode before).length := by
  constructor
  · exact ⟨⟨before.length, by simp, length_encode_take_before⟩, hstart⟩
  · -- A later boundary is not before the end of the record.
    rintro b ⟨⟨n, -, rfl⟩, hn⟩
    by_cases hle : n ≤ before.length
    · have hmono := length_encode_take_le (before ++ i :: after) hle
      rwa [length_encode_take_before] at hmono
    · have hmono := length_encode_take_le (before ++ i :: after) (not_le.1 hle)
      rw [length_encode_take_through] at hmono
      omega

/-- Bytes that end inside a record are truncated where this record begins. -/
theorem decode_of_cut_record
    (after : Program)
    (hbefore : Fits before)
    (hi : i.Fits)
    (hstart : (encode before).length < k)
    (hend : k < (encode before).length + i.encode.length) :
    ∃ e : FormatError,
      decode ((encode (before ++ i :: after)).take k) = .error e ∧
      e.fault.kind = .truncation ∧ e.offset = (encode before).length := by
  have hlength : (i.encode.take (k - (encode before).length)).length =
      k - (encode before).length := by
    rw [List.length_take]
    omega
  have hne : i.encode.take (k - (encode before).length) ≠ [] :=
    List.ne_nil_of_length_pos (by omega)
  obtain ⟨part, got, size, s', hread⟩ :=
    readRecord_of_isPrefix
      (s := ByteSource.ofBytes (i.encode.take (k - (encode before).length)))
      hi hne (List.take_prefix _ _) (by simp only [ByteSource.ofBytes]; omega)
  refine ⟨⟨(encode before).length, .truncated part got size⟩, ?_, rfl, rfl⟩
  rw [take_encode_inside (Nat.le_of_lt hstart) hend]
  refine decode_eq_error_iff.2 ⟨before, _, hbefore, rfl, rfl, ?_⟩
  rw [ByteSource.takeInstruction_of_fault hread]

end Cut

/-- A program that is cut off after some of its records is the program of these. -/
theorem decode_take_boundary
    {p : Program}
    (hfits : Fits p)
    (n : Nat) :
    decode ((encode p).take (encode (p.take n)).length) = .ok (p.take n) := by
  have hsplit : encode p = encode (p.take n) ++ encode (p.drop n) := by
    rw [← encode_append, List.take_append_drop]
  rw [hsplit, List.take_left]
  exact decodeSource_of_bytes_eq (fun text h => hfits text (List.mem_of_mem_take h)) rfl

/-- **A program that is cut off is recognised.**  Up to a position between two records, the bytes of
a program are read as the instructions before the cut.  Up to any other position they are truncated:
the offset of the error is the last boundary before the cut, where the record begins that is cut. -/
theorem decode_cut
    (p : Program) (k : Nat)
    (hfits : Fits p)
    (hk : k ≤ (encode p).length) :
    (∀ n : Nat, n ≤ p.length → (encode (p.take n)).length = k →
      decode ((encode p).take k) = .ok (p.take n)) ∧
    (¬ IsBoundary p k →
      ∃ e : FormatError,
        decode ((encode p).take k) = .error e ∧
        e.fault.kind = .truncation ∧
        IsGreatest {b : Nat | IsBoundary p b ∧ b < k} e.offset ∧
        ∃ n : Nat, n < p.length ∧
          e.offset = (encode (p.take n)).length ∧ k < (encode (p.take (n + 1))).length) := by
  constructor
  · rintro n - rfl
    exact decode_take_boundary hfits n
  · intro hinside
    have hlt : k < (encode p).length := by
      refine lt_of_le_of_ne hk ?_
      rintro rfl
      exact hinside ⟨p.length, le_rfl, by rw [List.take_length]⟩
    obtain ⟨before, after, i, rfl, hle, hend⟩ := exists_record_at hlt
    have hstart : (encode before).length < k := by
      refine lt_of_le_of_ne hle ?_
      rintro rfl
      exact hinside ⟨before.length, by simp, length_encode_take_before⟩
    have hfits' := fits_iff.1 hfits
    obtain ⟨e, hdecode, hkind, hoffset⟩ :=
      decode_of_cut_record after (fits_iff.2 fun j hj => hfits' j (by simp [hj]))
        (hfits' i (by simp)) hstart hend
    refine ⟨e, hdecode, hkind, ?_, before.length, by simp, ?_, ?_⟩
    · rw [hoffset]
      exact isGreatest_boundary hstart hend
    · rw [hoffset, length_encode_take_before]
    · rw [length_encode_take_through]
      exact hend

/-- A cut inside the character of a text. -/
theorem decode_cut_character :
    Fits [.push 5, .printText "é", .readNumber] ∧
    19 ≤ (encode [.push 5, .printText "é", .readNumber]).length ∧
    ¬ IsBoundary [.push 5, .printText "é", .readNumber] 19 ∧
    ∃ e : FormatError,
      decode ((encode [.push 5, .printText "é", .readNumber]).take 19) = .error e ∧
      e.fault.kind = .truncation ∧
      IsGreatest {b : Nat | IsBoundary [.push 5, .printText "é", .readNumber] b ∧ b < 19} e.offset ∧
      ∃ n : Nat, n < [Instruction.push 5, .printText "é", .readNumber].length ∧
        e.offset = (encode ([.push 5, .printText "é", .readNumber].take n)).length ∧
        19 < (encode ([.push 5, .printText "é", .readNumber].take (n + 1))).length := by
  have hfits : Fits [.push 5, .printText "é", .readNumber] := by
    decide
  have hk : 19 ≤ (encode [.push 5, .printText "é", .readNumber]).length := by
    decide
  have hinside : ¬ IsBoundary [.push 5, .printText "é", .readNumber] 19 := by
    decide
  exact ⟨hfits, hk, hinside, (decode_cut _ 19 hfits hk).2 hinside⟩

end Program

end StackMachine
