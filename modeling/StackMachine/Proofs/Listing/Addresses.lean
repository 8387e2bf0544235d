import StackMachine.Proofs.Codec.FormatErrors
import StackMachine.Proofs.Listing.Lossless

/-!
# The addresses of a listing

The offsets of a listing are positions in the bytes of the program.  The byte at the offset of a row
is the tag of its instruction; what is read from there on is the program from this row on; and if
this byte is spoiled, reading fails there.

* `Program.encode_split` is the program's bytes around the record of one instruction.
* `Program.decode_drop_record` and `Program.decode_of_spoiled_tag` are what is read from a record on
  and what is read if its tag is spoiled.
* `Listing.rows_address_records` puts them together with the lines of the listing.
-/

namespace StackMachine

variable {p : Program} {i : Instruction} {k : Nat}

/-! ## Tags -/

/-- No operation has a tag above twelve. -/
theorem Opcode.ofTag?_of_lt
    {b : UInt8}
    (hb : 12 < b) :
    ofTag? b = none := by
  have hle : ∀ o : Opcode, o.tag ≤ 12 := by
    intro o
    cases o <;> decide
  cases h : ofTag? b with
  | none =>
      rfl
  | some o =>
      rw [← tag_of_ofTag? h] at hb
      exact absurd (hle o) (UInt8.not_le.2 hb)

/-- Bytes that begin with no tag are at fault at once. -/
theorem ByteSource.takeInstruction_of_unknownTag
    {b : UInt8}
    (hb : Opcode.ofTag? b = none)
    (rest : List UInt8) :
    (ofBytes (b :: rest)).takeInstruction.1 = .error ⟨0, .unknownTag b⟩ := by
  obtain ⟨s', -, -, hread⟩ := readRecord_of_cons (s := ofBytes (b :: rest)) rfl
  rw [hb] at hread
  rw [takeInstruction_of_fault hread]

namespace Program

/-- Some branch of the program has the position `k` as its target. -/
def HasBranchTo (p : Program) (k : Nat) : Prop :=
  ∃ t : Word, t.toNat = k ∧
    ((∃ a b, Instruction.jumpIfGreater a b t ∈ p) ∨
      (∃ a b, Instruction.jumpIfEqual a b t ∈ p) ∨
      Instruction.jump t ∈ p)

theorem hasBranchTo_iff :
    p.HasBranchTo k ↔ ∃ i ∈ p, i.target? = some k := by
  constructor
  · rintro ⟨t, rfl, ⟨a, b, hi⟩ | ⟨a, b, hi⟩ | hi⟩
    · exact ⟨_, hi, rfl⟩
    · exact ⟨_, hi, rfl⟩
    · exact ⟨_, hi, rfl⟩
  · rintro ⟨i, hi, htarget⟩
    cases i with
    | jumpIfGreater a b t =>
        exact ⟨t, Option.some.inj htarget, Or.inl ⟨a, b, hi⟩⟩
    | jumpIfEqual a b t =>
        exact ⟨t, Option.some.inj htarget, Or.inr (Or.inl ⟨a, b, hi⟩)⟩
    | jump t =>
        exact ⟨t, Option.some.inj htarget, Or.inr (Or.inr hi)⟩
    | _ =>
        cases htarget

instance (p : Program) (k : Nat) : Decidable (p.HasBranchTo k) :=
  decidable_of_iff _ hasBranchTo_iff.symm

/-- A row is marked if some branch goes to its position. -/
theorem contains_targets
    (p : Program) (k : Nat) :
    p.targets.contains k = decide (p.HasBranchTo k) := by
  rw [List.contains_eq_mem, decide_eq_decide, mem_targets, hasBranchTo_iff]

/-! ## Records inside a program -/

/-- The bytes of a program around the record of one of its instructions. -/
theorem encode_split
    (hi : p[k]? = some i) :
    encode p =
      encode (p.take k) ++
        i.opcode.tag :: (i.operands.flatMap Operand.encode ++ encode (p.drop (k + 1))) := by
  obtain ⟨hk, rfl⟩ := List.getElem?_eq_some_iff.1 hi
  calc
    encode p = encode (p.take k ++ p.drop k) := by
      rw [List.take_append_drop]
    _ = encode (p.take k) ++ (p[k].encode ++ encode (p.drop (k + 1))) := by
      rw [encode_append, List.drop_eq_getElem_cons hk, encode_cons]

theorem getElem?_encode_record
    (hi : p[k]? = some i) :
    (encode p)[(encode (p.take k)).length]? = some i.opcode.tag := by
  rw [encode_split hi]
  simp

theorem Fits.take
    (h : Fits p)
    (k : Nat) :
    Fits (p.take k) :=
  fun text htext => h text (List.mem_of_mem_take htext)

theorem Fits.drop
    (h : Fits p)
    (k : Nat) :
    Fits (p.drop k) :=
  fun text htext => h text (List.mem_of_mem_drop htext)

/-- What is read from the record of an instruction on is the program from this instruction on. -/
theorem decode_drop_record
    (hfits : Fits p)
    (k : Nat) :
    decode ((encode p).drop (encode (p.take k)).length) = .ok (p.drop k) := by
  have hsplit : encode p = encode (p.take k) ++ encode (p.drop k) := by
    rw [← encode_append, List.take_append_drop]
  rw [hsplit, List.drop_left]
  exact decodeSource_of_bytes_eq (hfits.drop k) rfl

/-- If the tag of a record is spoiled, reading fails there. -/
theorem decode_of_spoiled_tag
    {b : UInt8}
    (hfits : Fits p)
    (hi : p[k]? = some i)
    (hb : 12 < b) :
    decode ((encode p).set (encode (p.take k)).length b) =
      .error ⟨(encode (p.take k)).length, .unknownTag b⟩ := by
  have hspoiled : (encode p).set (encode (p.take k)).length b =
      encode (p.take k) ++
        b :: (i.operands.flatMap Operand.encode ++ encode (p.drop (k + 1))) := by
    rw [encode_split hi]
    simp
  refine decode_eq_error_iff.2 ⟨p.take k, _, hfits.take k, hspoiled, rfl, ?_⟩
  exact ByteSource.takeInstruction_of_unknownTag (Opcode.ofTag?_of_lt hb) _

end Program

namespace Listing

open Text

/-- The line of the instruction at a position. -/
theorem getElem?_linesOf_text
    (hi : p[k]? = some i) :
    (linesOf (text p))[k + 2]? =
      some (Row.render ⟨decide (p.HasBranchTo k), k, (Program.encode (p.take k)).length, i⟩) := by
  have hk := (List.getElem?_eq_some_iff.1 hi).1
  rw [linesOf_text, getElem?_lines hk, getElem?_rows, hi, ← p.contains_targets]
  rfl

theorem getLast?_linesOf_text
    (p : Program) :
    (linesOf (text p)).getLast? = some (footer p) := by
  rw [linesOf_text]
  simp [lines, List.getLast?_cons]

/-- **The addresses of a listing are those of the program's bytes.**  The line of an instruction
shows its position, the number of bytes before its record and the byte there, which is its tag, and
is marked if and only if some branch goes to the position.  What is read from the offset on is the
program from this line on; and if the byte there is overwritten by one that is no tag, reading fails
at the offset.  The last line counts the instructions and the bytes. -/
theorem rows_address_records
    (p : Program) :
    (∀ k i, p[k]? = some i →
      let offset := (Program.encode (p.take k)).length
      (∃ tag, (Program.encode p)[offset]? = some tag ∧
        (linesOf (text p))[k + 2]? =
          some ((if p.HasBranchTo k then ">" else " ") ++ alignRight 5 (toString k) ++ "  " ++
            alignRight 8 (toString offset) ++ "  " ++ alignRight 3 (toString tag.toNat) ++ "  " ++
            i.render)) ∧
      (p.Fits →
        Program.decode ((Program.encode p).drop offset) = .ok (p.drop k) ∧
        ∀ b : UInt8, 12 < b →
          Program.decode ((Program.encode p).set offset b) = .error ⟨offset, .unknownTag b⟩)) ∧
    (linesOf (text p)).getLast? =
      some (toString p.length ++ " instructions, " ++ toString (Program.encode p).length ++
        " bytes") := by
  refine ⟨?_, getLast?_linesOf_text p⟩
  intro k i hi offset
  refine ⟨⟨i.opcode.tag, Program.getElem?_encode_record hi, ?_⟩, ?_⟩
  · rw [getElem?_linesOf_text hi]
    simp [Row.render, offset]
  · intro hfits
    refine ⟨Program.decode_drop_record hfits k, ?_⟩
    intro b hb
    exact Program.decode_of_spoiled_tag hfits hi hb

/-- A text with a character of two bytes and a line feed, and the record behind it. -/
theorem rows_address_records_text :
    let p : Program := [.printText "é\n", .jumpIfEqual 0 1 0, .readByte]
    p[1]? = some (.jumpIfEqual 0 1 0) ∧ p.Fits ∧ (12 : UInt8) < 13 ∧
    (linesOf (text p))[3]? = some "     1        12    7  Eq(a=0, b=1, target=0)" ∧
    Program.decode ((Program.encode p).drop 12) = .ok [.jumpIfEqual 0 1 0, .readByte] ∧
    Program.decode ((Program.encode p).set 12 13) = .error ⟨12, .unknownTag 13⟩ ∧
    (linesOf (text p)).getLast? = some "3 instructions, 38 bytes" := by
  intro p
  have hi : p[1]? = some (.jumpIfEqual 0 1 0) := rfl
  have hfits : p.Fits := by
    decide
  have hb : (12 : UInt8) < 13 := by
    decide
  have hoffset : (Program.encode (p.take 1)).length = 12 := by
    decide
  have htag : (Program.encode p)[12]? = some 7 := by
    decide
  have hunmarked : ¬ p.HasBranchTo 1 := by
    decide
  have hshown : " " ++ alignRight 5 (toString 1) ++ "  " ++ alignRight 8 (toString 12) ++ "  " ++
      alignRight 3 (toString (7 : UInt8).toNat) ++ "  " ++
      (Instruction.jumpIfEqual 0 1 0).render =
        "     1        12    7  Eq(a=0, b=1, target=0)" := by
    decide
  have hcounts : toString p.length ++ " instructions, " ++ toString (Program.encode p).length ++
      " bytes" = "3 instructions, 38 bytes" := by
    decide
  obtain ⟨hrows, hfooter⟩ := rows_address_records p
  obtain ⟨⟨tag, htag', hline⟩, hreads⟩ := hrows 1 _ hi
  obtain ⟨hdrop, hspoiled⟩ := hreads hfits
  rw [hoffset] at htag' hline hdrop hspoiled
  rw [htag] at htag'
  cases htag'
  rw [if_neg hunmarked, hshown] at hline
  rw [hcounts] at hfooter
  exact ⟨hi, hfits, hb, hline, hdrop, hspoiled 13 hb, hfooter⟩

end Listing
end StackMachine
