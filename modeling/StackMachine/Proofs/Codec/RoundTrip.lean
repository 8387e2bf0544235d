import StackMachine.Program
import StackMachine.Proofs.Codec.Record

/-!
# Programs and their bytes

Writing and reading programs are inverse to each other.  Every program whose texts fit in records is
read back from its bytes, and no other bytes are read as that program.  There is nothing between
records, so both directions go record by record, the first one with arbitrary bytes behind the
program.

* `Program.decodeFrom_encode_append`: reading goes through the records of a program and then on to
  what follows them.
* `Program.eq_encode_of_decodeFrom`: what is read as a program is its records.
* `Program.decode_encode` and `Program.canonical_of_decode` are the two directions for blocks of
  bytes.
-/

namespace StackMachine
namespace Program

open ByteSource (Delivers)

/-- A program fits in records if the number of bytes of each of its texts is a word. -/
def Fits (p : Program) : Prop :=
  ∀ text : String, Instruction.printText text ∈ p → text.utf8ByteSize < 2 ^ 64

theorem fits_iff
    {p : Program} :
    Fits p ↔ ∀ i ∈ p, i.Fits := by
  constructor
  · intro h i hi x hx
    cases x with
    | word w =>
        trivial
    | text text =>
        cases i <;> simp only [Instruction.operands, List.mem_cons, List.not_mem_nil, or_false,
          reduceCtorEq, Operand.text.injEq] at hx
        subst hx
        exact h _ hi
  · intro h text htext
    exact h _ htext (.text text) (by simp [Instruction.operands])

instance (p : Program) : Decidable (Fits p) :=
  decidable_of_iff (∀ i ∈ p, i.Fits) fits_iff.symm

/-! ## One record after another -/

theorem decodeFrom_eq
    (done : List Instruction) (s : ByteSource) :
    decodeFrom done s =
      match readRecord s with
      | .error fault _ => .error ⟨s.position, fault⟩
      | .ok none _ => .ok done.reverse
      | .ok (some i) s' => decodeFrom (i :: done) s' := by
  rw [decodeFrom]
  split <;> next h => rw [h]

theorem decodeFrom_of_record
    {s s' : ByteSource} {i : Instruction}
    (done : List Instruction)
    (h : readRecord s = .ok (some i) s') :
    decodeFrom done s = decodeFrom (i :: done) s' := by
  rw [decodeFrom_eq, h]

theorem decodeFrom_of_fault
    {s s' : ByteSource} {fault : RecordFault}
    (done : List Instruction)
    (h : readRecord s = .error fault s') :
    decodeFrom done s = .error ⟨s.position, fault⟩ := by
  rw [decodeFrom_eq, h]

/-- Where a source ends, reading ends with what has been read. -/
theorem decodeFrom_of_nil
    {s : ByteSource}
    (done : List Instruction)
    (h : s.bytes = []) :
    decodeFrom done s = .ok done.reverse := by
  obtain ⟨s', hread, -⟩ := readRecord_of_nil h
  rw [decodeFrom_eq, hread]

/-- Reading goes through the records of a program and then on to what follows them. -/
theorem decodeFrom_encode_append
    {p : Program} {s : ByteSource} {rest : List UInt8}
    (done : List Instruction)
    (hfits : ∀ i ∈ p, i.Fits)
    (hbytes : s.bytes = encode p ++ rest) :
    ∃ s' : ByteSource,
      s.Delivers (encode p) s' ∧ decodeFrom done s = decodeFrom (p.reverse ++ done) s' := by
  -- The bytes of the later records are part of what follows the first one.
  induction p generalizing s done with
  | nil =>
      exact ⟨s, .refl s, rfl⟩
  | cons i p ih =>
      rw [encode_cons, List.append_assoc] at hbytes
      obtain ⟨s₁, hread, hdelivers₁⟩ := readRecord_of_encode (hfits i (by simp)) hbytes
      obtain ⟨s₂, hdelivers₂, hdecode⟩ :=
        ih (i :: done) (fun j hj => hfits j (by simp [hj])) (hdelivers₁.bytes_eq_of_append hbytes)
      refine ⟨s₂, hdelivers₁.trans hdelivers₂, ?_⟩
      rw [decodeFrom_of_record done hread, hdecode]
      simp

/-- What is read as a program is the records of its instructions. -/
theorem eq_encode_of_decodeFrom
    {done : List Instruction} {s : ByteSource} {q : Program}
    (h : decodeFrom done s = .ok q) :
    ∃ p : Program, q = done.reverse ++ p ∧ (∀ i ∈ p, i.Fits) ∧ s.bytes = encode p := by
  fun_induction decodeFrom done s with
  | case1 done s fault s' hread =>
      cases h
  | case2 done s s' hread =>
      cases h
      exact ⟨[], by simp, by simp, bytes_eq_nil_of_readRecord hread⟩
  | case3 done s i s' hread ih =>
      obtain ⟨p, rfl, hfits, hbytes⟩ := ih h
      obtain ⟨hfit, hdelivers⟩ := delivers_of_readRecord hread
      refine ⟨i :: p, by simp, ?_, ?_⟩
      · intro j hj
        rcases List.mem_cons.1 hj with rfl | hj
        · exact hfit
        · exact hfits j hj
      · rw [hdelivers.bytes_eq, hbytes, encode_cons]

/-- A program is read back from its bytes, however a source delivers them. -/
theorem decodeSource_of_bytes_eq
    {p : Program} {s : ByteSource}
    (hfits : Fits p)
    (hbytes : s.bytes = encode p) :
    decodeSource s = .ok p := by
  have hall : s.fromHere.bytes = encode p ++ [] := by
    rw [List.append_nil]
    exact hbytes
  obtain ⟨s', hdelivers, hdecode⟩ := decodeFrom_encode_append [] (fits_iff.1 hfits) hall
  rw [decodeSource, hdecode, decodeFrom_of_nil _ (hdelivers.bytes_eq_of_append hall)]
  simp

/-- Only the bytes of a program are read as that program. -/
theorem bytes_eq_of_decodeSource
    {p : Program} {s : ByteSource}
    (h : decodeSource s = .ok p) :
    Fits p ∧ s.bytes = encode p := by
  obtain ⟨q, rfl, hfits, hbytes⟩ := eq_encode_of_decodeFrom h
  exact ⟨fits_iff.2 hfits, hbytes⟩

/-! ## Blocks of bytes -/

/-- **A program is read back from its bytes.** -/
theorem decode_encode
    (p : Program)
    (hfits : Fits p) :
    decode (encode p) = .ok p :=
  decodeSource_of_bytes_eq hfits rfl

/-- A program with a text of characters of two and four bytes, and with the largest word. -/
theorem decode_encode_mixed :
    Fits [.printText "é😀", .jumpIfGreater 0 1 18446744073709551615, .readNumber] ∧
    decode (encode [.printText "é😀", .jumpIfGreater 0 1 18446744073709551615, .readNumber]) =
      .ok [.printText "é😀", .jumpIfGreater 0 1 18446744073709551615, .readNumber] := by
  have hfits :
      Fits [.printText "é😀", .jumpIfGreater 0 1 18446744073709551615, .readNumber] := by
    decide
  exact ⟨hfits, decode_encode _ hfits⟩

/-- **The written form of a program is unique.**  Bytes that are read as a program are the bytes
that it is written with, so no other bytes are read as the same program. -/
theorem canonical_of_decode
    {bs : List UInt8} {p : Program}
    (h : decode bs = .ok p) :
    Fits p ∧ encode p = bs ∧ ∀ bs' : List UInt8, decode bs' = .ok p → bs' = bs := by
  obtain ⟨hfits, hbytes⟩ := bytes_eq_of_decodeSource h
  refine ⟨hfits, hbytes.symm, ?_⟩
  intro bs' h'
  have hbytes' := (bytes_eq_of_decodeSource h').2
  rw [← hbytes] at hbytes'
  exact hbytes'

/-- A text of two bytes and an instruction without operands. -/
theorem canonical_of_decode_text :
    decode [3, 2, 0, 0, 0, 0, 0, 0, 0, 0xC3, 0xA9, 2] = .ok [.printText "é", .readNumber] ∧
    Fits [.printText "é", .readNumber] ∧
    encode [.printText "é", .readNumber] = [3, 2, 0, 0, 0, 0, 0, 0, 0, 0xC3, 0xA9, 2] ∧
    ∀ bs' : List UInt8, decode bs' = .ok [.printText "é", .readNumber] →
      bs' = [3, 2, 0, 0, 0, 0, 0, 0, 0, 0xC3, 0xA9, 2] := by
  have hfits : Fits [.printText "é", .readNumber] := by
    decide
  have h : decode [3, 2, 0, 0, 0, 0, 0, 0, 0, 0xC3, 0xA9, 2] =
      .ok [.printText "é", .readNumber] :=
    decodeSource_of_bytes_eq hfits (by decide)
  exact ⟨h, canonical_of_decode h⟩

end Program
end StackMachine
