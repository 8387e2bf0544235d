import StackMachine.Proofs.Codec.FormatErrors

/-!
# Files that grow

When bytes are added to the end of a file that is no program, what was wrong stays wrong, unless the
file ended too early.  A file that ends inside a part of a record is cut off there until as many
bytes have come as the part still wants; with the last of them the part is complete, and if the file
is cut off again, it is before the next part.

* `RecordReader.Completing` adds to `RecordReader.Incremental` what happens when exactly the missing
  bytes have come.
* `Program.decode_eq_error_iff_readRecord` finds the record at fault.
* `Program.decode_of_growing_bytes` puts the three cases together.
-/

namespace StackMachine

/-- The bytes end inside a part of a record of which some bytes are there. -/
def RecordFault.EndsInside : RecordFault → Prop
  | truncated _ got _ => 0 < got
  | unknownTag _ | invalidText _ _ => False

instance : DecidablePred RecordFault.EndsInside
  | .truncated _ got _ => inferInstanceAs (Decidable (0 < got))
  | .unknownTag _ | .invalidText _ _ => inferInstanceAs (Decidable False)

theorem RecordFault.not_endsInside_of_kind
    {e : RecordFault}
    (he : e.kind ≠ .truncation) :
    ¬ e.EndsInside := by
  cases e with
  | truncated part got size => exact absurd rfl he
  | unknownTag tag => exact id
  | invalidText o fault => exact id

namespace RecordReader

variable {α β : Type}

/-! ## The missing bytes -/

/-- What the reader says of the source `s` when more bytes follow, and when these are exactly the
bytes that are missing. -/
structure Completing (reader : RecordReader α) (s : ByteSource) : Prop
    extends Incremental reader s where
  /-- Of a source that has ended no part is there. -/
  atEnd :
    ∀ {e : RecordFault} {s' : ByteSource}, s.bytes = [] → reader s = .error e s' → ¬ e.EndsInside
  /-- With the missing bytes the part is complete and nothing is left for a further one. -/
  completed :
    ∀ {part : RecordPart} {got size : Nat} {s' : ByteSource},
      reader s = .error (.truncated part got size) s' →
      ∀ (t : ByteSource) (more : List UInt8), t.bytes = s.bytes ++ more →
        got + more.length = size →
        (∀ {a : α} {t' : ByteSource}, reader t = .ok a t' → t'.bytes = []) ∧
        (∀ {e : RecordFault} {t' : ByteSource}, reader t = .error e t' → ¬ e.EndsInside)

namespace Completing

theorem pure
    (a : α) (s : ByteSource) :
    Completing (Pure.pure a) s where
  toIncremental := .pure a s
  atEnd _ h := by cases h
  completed h := by cases h

theorem throw
    {e : RecordFault}
    (he : e.kind ≠ .truncation)
    (s : ByteSource) :
    Completing (MonadExcept.throw e : RecordReader α) s where
  toIncremental := .throw he s
  atEnd := by
    intro e' s' _ h
    cases h
    exact RecordFault.not_endsInside_of_kind he
  completed := by
    intro part got size s' h
    cases h
    exact absurd rfl he

/-- After a part that the missing bytes have completed, the second reader finds that the source has
ended. -/
theorem bind
    {reader : RecordReader α} {next : α → RecordReader β} {s : ByteSource}
    (hreader : Completing reader s)
    (hnext : ∀ a s₁, Completing (next a) s₁) :
    Completing (reader >>= next) s where
  toIncremental := hreader.toIncremental.bind fun a s₁ => (hnext a s₁).toIncremental
  atEnd := by
    intro e s' hnil h
    rcases bind_eq_error.1 h with hread | ⟨a, s₁, hread, h⟩
    · exact hreader.atEnd hnil hread
    · obtain ⟨used, hs, -⟩ := hreader.value hread
      have hs₁ := hs.bytes_eq
      rw [hnil] at hs₁
      exact (hnext a s₁).atEnd (List.append_eq_nil_iff.1 hs₁.symm).2 h
  completed := by
    intro part got size s' h t more hbytes hmissing
    rcases bind_eq_error.1 h with hread | ⟨a, s₁, hread, h⟩
    · obtain ⟨hvalue, hfault⟩ := hreader.completed hread t more hbytes hmissing
      constructor
      · intro b t' ht
        obtain ⟨a, t₁, hread', ht⟩ := bind_eq_ok.1 ht
        obtain ⟨used, hdelivers, -⟩ := (hnext a t₁).value ht
        have ht' := hdelivers.bytes_eq
        rw [hvalue hread'] at ht'
        exact (List.append_eq_nil_iff.1 ht'.symm).2
      · intro e t' ht
        rcases bind_eq_error.1 ht with hread' | ⟨a, t₁, hread', ht⟩
        · exact hfault hread'
        · exact (hnext a t₁).atEnd (hvalue hread') ht
    · obtain ⟨used, hs, hstands⟩ := hreader.value hread
      obtain ⟨t₁, hread₁, ht₁⟩ := hstands t more hbytes
      obtain ⟨hvalue, hfault⟩ :=
        (hnext a s₁).completed h t₁ more (hs.bytes_append ht₁ hbytes) hmissing
      constructor
      · intro b t' ht
        obtain ⟨a', t₁', hread', ht⟩ := bind_eq_ok.1 ht
        rw [hread₁] at hread'
        cases hread'
        exact hvalue ht
      · intro e t' ht
        rcases bind_eq_error.1 ht with hread' | ⟨a', t₁', hread', ht⟩
        · rw [hread₁] at hread'
          cases hread'
        · rw [hread₁] at hread'
          cases hread'
          exact hfault ht

end Completing

theorem completing_readPart
    (part : RecordPart) (size : Nat) (s : ByteSource) :
    Completing (readPart part size) s where
  toIncremental := incremental_readPart part size s
  atEnd := by
    intro e s' hnil h
    obtain ⟨-, rfl, -⟩ := readPart_eq_error.1 h
    simp [RecordFault.EndsInside, hnil]
  completed := by
    intro part' got size' s' h t more hbytes hmissing
    obtain ⟨-, hfault, -⟩ := readPart_eq_error.1 h
    cases hfault
    have hlength : t.bytes.length = size := by
      rw [hbytes, List.length_append, hmissing]
    constructor
    · intro bs t' ht
      obtain ⟨hsize, hdelivers⟩ : bs.length = size ∧ t.Delivers bs t' :=
        (inverts_readPart part size).faithful bs t t' ht
      have hall := congrArg List.length hdelivers.bytes_eq
      rw [List.length_append] at hall
      exact List.eq_nil_of_length_eq_zero (by omega)
    · intro e t' ht
      obtain ⟨hlt, -, -⟩ := readPart_eq_error.1 ht
      omega

theorem composes_completing :
    Composes Completing where
  pure := .pure
  throw := .throw
  bind := .bind
  readPart := completing_readPart

theorem completing_readTag
    {s : ByteSource}
    (h : s.bytes ≠ []) :
    Completing readTag s where
  toIncremental := incremental_readTag h
  atEnd hnil := absurd hnil h
  completed := by
    intro part got size s' hread
    obtain ⟨tag, bs, hbytes⟩ := List.exists_cons_of_ne_nil h
    obtain ⟨s₁, hread', -⟩ := readTag_of_cons hbytes
    rw [hread'] at hread
    cases hread

end RecordReader

/-- With exactly the missing bytes, a record that was cut off is read to the end of the source, or is
at fault otherwise, or is cut off before its next part. -/
theorem completing_readRecord
    {s : ByteSource}
    (h : s.bytes ≠ []) :
    RecordReader.Completing readRecord s :=
  RecordReader.composes_completing.readRecord (RecordReader.completing_readTag h)

/-! ## Programs -/

namespace Program

/-- A block of bytes is no program, for a fault at some offset, exactly if it is as many bytes of
records and then bytes that are no record for that fault. -/
theorem decode_eq_error_iff_readRecord
    {bs : List UInt8} {offset : Nat} {fault : RecordFault} :
    decode bs = .error ⟨offset, fault⟩ ↔
      ∃ (p : Program) (rest : List UInt8) (s' : ByteSource),
        Fits p ∧ bs = encode p ++ rest ∧ offset = (encode p).length ∧
        readRecord (.ofBytes rest) = .error fault s' := by
  rw [decode_eq_error_iff]
  constructor
  · rintro ⟨p, rest, hfits, hbytes, hoffset, htake⟩
    cases hread : readRecord (.ofBytes rest) with
    | ok i? s' =>
        rw [ByteSource.takeInstruction_of_ok hread] at htake
        cases htake
    | error fault' s' =>
        rw [ByteSource.takeInstruction_of_fault hread] at htake
        cases htake
        exact ⟨p, rest, s', hfits, hbytes, hoffset, hread⟩
  · rintro ⟨p, rest, s', hfits, hbytes, hoffset, hread⟩
    exact ⟨p, rest, hfits, hbytes, hoffset, by rw [ByteSource.takeInstruction_of_fault hread]⟩

section Growing

variable {bs : List UInt8} {offset : Nat} {part : RecordPart} {got size : Nat}

/-- A fault that no further byte can mend stands. -/
theorem decode_append_of_fault
    {e : FormatError}
    (h : decode bs = .error e)
    (he : e.fault.kind ≠ .truncation)
    (more : List UInt8) :
    decode (bs ++ more) = .error e := by
  obtain ⟨p, rest, s', hfits, rfl, hoffset, hread⟩ := decode_eq_error_iff_readRecord.1 h
  have hincremental := incremental_readRecord (ne_nil_of_readRecord_fault hread)
  obtain ⟨used, -, hstands⟩ := hincremental.fault hread he
  obtain ⟨t', hread', -⟩ := hstands (.ofBytes (rest ++ more)) more rfl
  exact decode_eq_error_iff_readRecord.2
    ⟨p, rest ++ more, t', hfits, List.append_assoc .., hoffset, hread'⟩

/-- Fewer than the missing bytes do not complete a part. -/
theorem decode_append_of_truncated
    (h : decode bs = .error ⟨offset, .truncated part got size⟩)
    {more : List UInt8}
    (hmore : got + more.length < size) :
    decode (bs ++ more) = .error ⟨offset, .truncated part (got + more.length) size⟩ := by
  obtain ⟨p, rest, s', hfits, rfl, hoffset, hread⟩ := decode_eq_error_iff_readRecord.1 h
  have hincremental := incremental_readRecord (ne_nil_of_readRecord_fault hread)
  obtain ⟨-, -, hstands⟩ := hincremental.cutOff hread
  obtain ⟨t', hread'⟩ := hstands (.ofBytes (rest ++ more)) more rfl hmore
  exact decode_eq_error_iff_readRecord.2
    ⟨p, rest ++ more, t', hfits, List.append_assoc .., hoffset, hread'⟩

/-- Exactly the missing bytes complete a part. -/
theorem decode_append_of_completed
    (h : decode bs = .error ⟨offset, .truncated part got size⟩)
    {more : List UInt8}
    (hmore : got + more.length = size) :
    (∃ p : Program, decode (bs ++ more) = .ok p) ∨
      ∃ fault : RecordFault,
        decode (bs ++ more) = .error ⟨offset, fault⟩ ∧ ¬ fault.EndsInside := by
  obtain ⟨p, rest, s', hfits, rfl, hoffset, hread⟩ := decode_eq_error_iff_readRecord.1 h
  have hcompleting := completing_readRecord (ne_nil_of_readRecord_fault hread)
  obtain ⟨hvalue, hfault⟩ :=
    hcompleting.completed hread (.ofBytes (rest ++ more)) more rfl hmore
  cases hread' : readRecord (.ofBytes (rest ++ more)) with
  | error fault t' =>
      refine Or.inr ⟨fault, ?_, hfault hread'⟩
      exact decode_eq_error_iff_readRecord.2
        ⟨p, rest ++ more, t', hfits, List.append_assoc .., hoffset, hread'⟩
  | ok i? t' =>
      cases i? with
      | none =>
          have hnil := (List.append_eq_nil_iff.1 (bytes_eq_nil_of_readRecord hread')).1
          exact absurd hnil (ne_nil_of_readRecord_fault hread)
      | some i =>
          -- Nothing is left behind the record, so that the program ends with it.
          obtain ⟨hfit, hdelivers⟩ := delivers_of_readRecord hread'
          have hrecord : rest ++ more = i.encode := by
            have hbytes := hdelivers.bytes_eq
            rwa [hvalue hread', List.append_nil] at hbytes
          have hfits' : Fits (p ++ [i]) := by
            rw [fits_iff] at hfits ⊢
            simpa [or_imp, forall_and] using ⟨hfits, hfit⟩
          refine Or.inl ⟨p ++ [i], decodeSource_of_bytes_eq hfits' ?_⟩
          simp [ByteSource.ofBytes, hrecord]

/-- **What is wrong with a file, and what becomes of it when the file grows.**  An unknown tag and a
text that is not well-formed are reported with the same error however many bytes follow.  A part of a
record that is cut off wants more bytes than are there.  With fewer than the missing bytes it is cut
off again, at the same offset and with the further bytes counted.  With exactly the missing bytes it
is complete: the file is a program, or the record is at fault for its text, or the file ends before
the next part of the record. -/
theorem decode_of_growing_bytes
    (bs : List UInt8) :
    (∀ e : FormatError, decode bs = .error e → e.fault.kind ≠ .truncation →
      ∀ more : List UInt8, decode (bs ++ more) = .error e) ∧
    (∀ (offset : Nat) (part : RecordPart) (got size : Nat),
      decode bs = .error ⟨offset, .truncated part got size⟩ →
      got < size ∧
      (∀ more : List UInt8, more.length < size - got →
        ∃ e : FormatError, decode (bs ++ more) = .error e ∧
          e.fault = .truncated part (got + more.length) size ∧
          e.Says .truncation offset
            ("stream ended inside " ++ part.describe ++ " (" ++ toString (got + more.length) ++
              " of " ++ toString size ++ " bytes)")) ∧
      (∀ more : List UInt8, more.length = size - got →
        (∃ p : Program, decode (bs ++ more) = .ok p) ∨
          ∃ fault : RecordFault,
            decode (bs ++ more) = .error ⟨offset, fault⟩ ∧ ¬ fault.EndsInside)) := by
  refine ⟨fun e h he more => decode_append_of_fault h he more, ?_⟩
  intro offset part got size h
  have hlt : got < size := by
    obtain ⟨p, rest, s', -, -, -, hread⟩ := decode_eq_error_iff_readRecord.1 h
    exact ((incremental_readRecord (ne_nil_of_readRecord_fault hread)).cutOff hread).1
  refine ⟨hlt, ?_, ?_⟩
  · intro more hmore
    have hshort : got + more.length < size := by omega
    exact ⟨_, decode_append_of_truncated h hshort, rfl, rfl, rfl, rfl⟩
  · intro more hmore
    exact decode_append_of_completed h (by omega)

/-- A byte that is no tag stands before a record that is cut off; the second summand of an addition
is cut off after two bytes; and a text is cut off after its first byte, which begins no character. -/
theorem decode_of_growing_bytes_cut :
    let sum : List UInt8 := [2, 5, 0, 0, 0, 0, 0, 0, 0, 0, 1, 0]
    let text : List UInt8 := [3, 3, 0, 0, 0, 0, 0, 0, 0, 0xFF]
    (decode [2, 13, 3] = .error ⟨1, .unknownTag 13⟩ ∧
      decode ([2, 13, 3] ++ text) = .error ⟨1, .unknownTag 13⟩) ∧
    (decode sum = .error ⟨1, .truncated (.operand .add) 2 8⟩ ∧
      (∃ e : FormatError, decode (sum ++ [0, 0, 0]) = .error e ∧
        e.fault = .truncated (.operand .add) 5 8 ∧
        e.Says .truncation 1 "stream ended inside Add operand (5 of 8 bytes)")) ∧
    (decode text = .error ⟨0, .truncated (.textBytes .printText) 1 3⟩ ∧
      ((∃ p : Program, decode (text ++ [0x41, 0x42]) = .ok p) ∨
        ∃ fault : RecordFault,
          decode (text ++ [0x41, 0x42]) = .error ⟨0, fault⟩ ∧ ¬ fault.EndsInside)) := by
  intro sum text
  have htag : decode [2, 13, 3] = .error ⟨1, .unknownTag 13⟩ := by
    decide +kernel
  have hsum : decode sum = .error ⟨1, .truncated (.operand .add) 2 8⟩ := by
    decide +kernel
  have htext : decode text = .error ⟨0, .truncated (.textBytes .printText) 1 3⟩ := by
    decide +kernel
  refine ⟨⟨htag, (decode_of_growing_bytes _).1 _ htag (by simp [RecordFault.kind]) text⟩, ?_, ?_⟩
  · obtain ⟨-, hshort, -⟩ := (decode_of_growing_bytes sum).2 1 _ 2 8 hsum
    exact ⟨hsum, hshort [0, 0, 0] (by decide)⟩
  · obtain ⟨-, -, hcomplete⟩ := (decode_of_growing_bytes text).2 0 _ 1 3 htext
    exact ⟨htext, hcomplete [0x41, 0x42] rfl⟩

end Growing

end Program

end StackMachine
