import StackMachine.Record
import StackMachine.Proofs.Codec.Delivery
import StackMachine.Proofs.Codec.Utf8
import StackMachine.Proofs.Codec.Word

/-!
# Records and their bytes

Reading a record is the inverse of writing it.  A reader inverts a way of writing when it takes from
any source that starts with the written form of a value exactly that form, however the source
delivers it, and gives the value, and when it gives a value only for that value's written form.

* `readOperandList` reads the operands of any operation in one loop, and `readOperands_eq` says that
  reading operands operation by operation is the same.
* `RecordReader.Inverts` is proved for words, texts, operands and lists of operands in turn.
* `readRecord_of_encode` and `delivers_of_readRecord` are the two directions for a record.
-/

namespace StackMachine

/-! ## What a record can hold -/

/-- A text fits in a record if the number of its bytes is a word. -/
def Operand.Fits : Operand → Prop
  | .word _ => True
  | .text s => s.utf8ByteSize < 2 ^ 64

instance : DecidablePred Operand.Fits
  | .word _ => inferInstanceAs (Decidable True)
  | .text s => inferInstanceAs (Decidable (s.utf8ByteSize < 2 ^ 64))

/-- An instruction fits in a record if its operands do. -/
def Instruction.Fits (i : Instruction) : Prop :=
  ∀ x ∈ i.operands, x.Fits

instance (i : Instruction) : Decidable i.Fits :=
  inferInstanceAs (Decidable (∀ x ∈ i.operands, x.Fits))

namespace RecordReader

/-! ## Readers in sequence -/

variable {α β : Type}

theorem bind_eq_ok
    {reader : RecordReader α} {next : α → RecordReader β}
    {s s' : ByteSource} {b : β} :
    (reader >>= next) s = .ok b s' ↔
      ∃ (a : α) (s₁ : ByteSource), reader s = .ok a s₁ ∧ next a s₁ = .ok b s' := by
  simp only [Bind.bind, EStateM.bind]
  cases reader s with
  | ok a s₁ =>
      constructor
      · intro h
        exact ⟨a, s₁, rfl, h⟩
      · rintro ⟨a', s₁', heq, h⟩
        cases heq
        exact h
  | error fault s₁ =>
      simp

theorem map_eq_ok
    {reader : RecordReader α} {f : α → β} {s s' : ByteSource} {b : β} :
    (f <$> reader) s = .ok b s' ↔ ∃ a : α, reader s = .ok a s' ∧ f a = b := by
  simp only [Functor.map, EStateM.map]
  cases reader s with
  | ok a s₁ =>
      constructor
      · intro h
        cases h
        exact ⟨a, rfl, rfl⟩
      · rintro ⟨a', heq, rfl⟩
        cases heq
        rfl
  | error fault s₁ =>
      simp

theorem pure_eq_ok
    {a b : α} {s s' : ByteSource} :
    (pure a : RecordReader α) s = .ok b s' ↔ a = b ∧ s = s' := by
  simp [pure, EStateM.pure]

/-- The reader is the inverse of a way of writing the values that are `valid`. -/
structure Inverts (reader : RecordReader α) (valid : α → Prop) (written : α → List UInt8) :
    Prop where
  complete :
    ∀ (a : α) (s : ByteSource) (rest : List UInt8),
      valid a → s.bytes = written a ++ rest →
      ∃ s' : ByteSource, reader s = .ok a s' ∧ s.Delivers (written a) s'
  faithful :
    ∀ (a : α) (s s' : ByteSource),
      reader s = .ok a s' → valid a ∧ s.Delivers (written a) s'

namespace Inverts

theorem map
    {reader : RecordReader α} {valid : α → Prop} {written : α → List UInt8}
    {f : α → β} {valid' : β → Prop} {written' : β → List UInt8}
    (h : Inverts reader valid written)
    (hvalid : ∀ a, valid a → valid' (f a) ∧ written' (f a) = written a)
    (hcover : ∀ b, valid' b → ∃ a, valid a ∧ f a = b) :
    Inverts (f <$> reader) valid' written' := by
  constructor
  · intro b s rest hb hbytes
    obtain ⟨a, ha, rfl⟩ := hcover b hb
    rw [(hvalid a ha).2] at hbytes ⊢
    obtain ⟨s', hread, hdelivers⟩ := h.complete a s rest ha hbytes
    exact ⟨s', map_eq_ok.2 ⟨a, hread, rfl⟩, hdelivers⟩
  · intro b s s' hread
    obtain ⟨a, hreader, rfl⟩ := map_eq_ok.1 hread
    obtain ⟨ha, hdelivers⟩ := h.faithful a s s' hreader
    rw [(hvalid a ha).2]
    exact ⟨(hvalid a ha).1, hdelivers⟩

end Inverts

/-! ## Words and texts -/

theorem readPart_eq_ok
    {part : RecordPart} {size : Nat} {s s' : ByteSource} {bs : List UInt8} :
    readPart part size s = .ok bs s' ↔
      bs = s.bytes.take size ∧ bs.length = size ∧ s' = (s.collect size).2 := by
  unfold readPart
  simp only [ByteSource.fst_collect]
  split
  · next hsize =>
      constructor
      · intro h
        cases h
        exact ⟨rfl, hsize, rfl⟩
      · rintro ⟨rfl, -, rfl⟩
        rfl
  · next hsize =>
      constructor
      · intro h
        cases h
      · rintro ⟨rfl, hlength, -⟩
        exact absurd hlength hsize

/-- Any block of the right size is a part of a record. -/
theorem inverts_readPart
    (part : RecordPart) (size : Nat) :
    Inverts (readPart part size) (fun bs => bs.length = size) id := by
  constructor
  · intro bs s rest hsize hbytes
    have htake : s.bytes.take size = bs := by
      rw [hbytes, ← hsize]
      exact List.take_left
    have hdelivers := s.delivers_collect size
    rw [htake] at hdelivers
    exact ⟨(s.collect size).2, readPart_eq_ok.2 ⟨htake.symm, hsize, rfl⟩, hdelivers⟩
  · intro bs s s' hread
    obtain ⟨rfl, hsize, rfl⟩ := readPart_eq_ok.1 hread
    exact ⟨hsize, s.delivers_collect size⟩

theorem inverts_readWord
    (part : RecordPart) :
    Inverts (readWord part) (fun _ => True) Word.toBytes := by
  have hmap : readWord part = Word.ofBytes <$> readPart part Word.byteCount := rfl
  rw [hmap]
  apply (inverts_readPart part Word.byteCount).map
  · intro bs hsize
    exact ⟨trivial, Word.toBytes_ofBytes hsize⟩
  · intro w _
    exact ⟨w.toBytes, Word.length_toBytes w, Word.ofBytes_toBytes w⟩

theorem inverts_readText
    (o : Opcode) :
    Inverts (readText o) (fun text => (Operand.text text).Fits)
      (fun text => (Operand.text text).encode) := by
  constructor
  · intro text s rest hfits hbytes
    have hsize : (UInt64.ofNat (Utf8.encode text.toList).length).toNat =
        (Utf8.encode text.toList).length := by
      apply UInt64.toNat_ofNat_of_lt'
      rw [Utf8.length_encode_toList]
      exact hfits
    rw [Operand.encode, List.append_assoc] at hbytes
    obtain ⟨s₁, hlength, hdelivers₁⟩ :=
      (inverts_readWord (.textLength o)).complete _ s _ trivial hbytes
    have hbytes₁ := hdelivers₁.bytes_eq_of_append hbytes
    obtain ⟨s₂, hbody, hdelivers₂⟩ :=
      (inverts_readPart (.textBytes o) _).complete (Utf8.encode text.toList) s₁ rest
        rfl hbytes₁
    refine ⟨s₂, ?_, hdelivers₁.trans hdelivers₂⟩
    rw [readText, bind_eq_ok]
    refine ⟨_, s₁, hlength, ?_⟩
    rw [hsize, bind_eq_ok]
    refine ⟨_, s₂, hbody, ?_⟩
    rw [Utf8.decode_encode_chars]
    exact pure_eq_ok.2 ⟨String.ofList_toList, rfl⟩
  · intro text s s' hread
    rw [readText, bind_eq_ok] at hread
    obtain ⟨w, s₁, hlength, hread⟩ := hread
    rw [bind_eq_ok] at hread
    obtain ⟨bs, s₂, hbody, hread⟩ := hread
    obtain ⟨-, hdelivers₁⟩ := (inverts_readWord _).faithful _ _ _ hlength
    obtain ⟨hsize, hdelivers₂⟩ := (inverts_readPart _ _).faithful _ _ _ hbody
    cases hdecode : Utf8.decode bs with
    | error fault =>
        rw [hdecode] at hread
        cases hread
    | ok cs =>
        rw [hdecode] at hread
        obtain ⟨rfl, rfl⟩ := pure_eq_ok.1 hread
        have hencode : Utf8.encode (String.ofList cs).toList = bs := by
          rw [String.toList_ofList]
          exact Utf8.encode_of_decode_chars hdecode
        constructor
        · rw [Operand.Fits, ← Utf8.length_encode_toList, hencode, hsize]
          exact w.toNat_lt
        · rw [Operand.encode, hencode, hsize, UInt64.ofNat_toNat]
          exact hdelivers₁.trans hdelivers₂

end RecordReader

/-! ## Operands -/

/-- Reads an operand of the given kind. -/
def readOperand (o : Opcode) : OperandKind → RecordReader Operand
  | .word => Operand.word <$> readWord (.operand o)
  | .text => Operand.text <$> readText o

/-- Reads operands of the given kinds, in order. -/
def readOperandList (o : Opcode) : List OperandKind → RecordReader (List Operand)
  | [] => pure []
  | kind :: kinds => do
      let x ← readOperand o kind
      let xs ← readOperandList o kinds
      return x :: xs

theorem readUnary_eq
    (o : Opcode) {make : Word → Instruction} {f : List Operand → Instruction}
    (hmake : ∀ w, f [.word w] = make w) :
    readUnary o make = f <$> readOperandList o [.word] := by
  simp [readUnary, readOperandList, readOperand, hmake]

theorem readBranch_eq
    (o : Opcode) {make : Word → Word → Word → Instruction} {f : List Operand → Instruction}
    (hmake : ∀ a b t, f [.word a, .word b, .word t] = make a b t) :
    readBranch o make = f <$> readOperandList o [.word, .word, .word] := by
  simp [readBranch, readOperandList, readOperand, hmake]

/-- Reading the operands of an operation is reading operands of the kinds that it asks for. -/
theorem readOperands_eq
    (o : Opcode) :
    readOperands o =
      (fun xs => (Instruction.ofOperands? o xs).getD default) <$>
        readOperandList o (o.operands.map Prod.snd) := by
  cases o with
  | readNumber | readByte =>
      rfl
  | push | printNumber | copy | jump | decrement | increment | printByte =>
      exact readUnary_eq _ fun _ => rfl
  | printText =>
      have hmake : ∀ s, Instruction.ofOperands? .printText [.text s] = some (.printText s) :=
        fun _ => rfl
      simp [readOperands, readOperandList, readOperand, Opcode.operands, hmake]
  | add =>
      have hmake : ∀ a b, Instruction.ofOperands? .add [.word a, .word b] = some (.add a b) :=
        fun _ _ => rfl
      simp [readOperands, readOperandList, readOperand, Opcode.operands, hmake]
  | jumpIfGreater | jumpIfEqual =>
      exact readBranch_eq _ fun _ _ _ => rfl

namespace RecordReader

theorem inverts_readOperand
    (o : Opcode) (kind : OperandKind) :
    Inverts (readOperand o kind) (fun x => x.kind = kind ∧ x.Fits) Operand.encode := by
  cases kind with
  | word =>
      apply (inverts_readWord (.operand o)).map
      · intro w _
        exact ⟨⟨rfl, trivial⟩, rfl⟩
      · rintro x ⟨hkind, -⟩
        cases x with
        | word w => exact ⟨w, trivial, rfl⟩
        | text text => cases hkind
  | text =>
      apply (inverts_readText o).map
      · intro text hfits
        exact ⟨⟨rfl, hfits⟩, rfl⟩
      · rintro x ⟨hkind, hfits⟩
        cases x with
        | word w => cases hkind
        | text text => exact ⟨text, hfits, rfl⟩

theorem inverts_readOperandList
    (o : Opcode) (kinds : List OperandKind) :
    Inverts (readOperandList o kinds)
      (fun xs => xs.map Operand.kind = kinds ∧ ∀ x ∈ xs, x.Fits)
      (fun xs => xs.flatMap Operand.encode) := by
  induction kinds with
  | nil =>
      constructor
      · rintro xs s rest ⟨hkinds, -⟩ hbytes
        rw [List.map_eq_nil_iff] at hkinds
        subst hkinds
        exact ⟨s, rfl, .refl s⟩
      · intro xs s s' hread
        obtain ⟨rfl, rfl⟩ := pure_eq_ok.1 hread
        exact ⟨⟨rfl, by simp⟩, .refl s⟩
  | cons kind kinds ih =>
      constructor
      · rintro xs s rest ⟨hkinds, hfits⟩ hbytes
        obtain ⟨x, xs, rfl, hkind, hkinds⟩ := List.map_eq_cons_iff.1 hkinds
        rw [List.flatMap_cons, List.append_assoc] at hbytes
        obtain ⟨s₁, hhead, hdelivers₁⟩ :=
          (inverts_readOperand o kind).complete x s _ ⟨hkind, hfits x (by simp)⟩ hbytes
        obtain ⟨s₂, htail, hdelivers₂⟩ :=
          ih.complete xs s₁ rest ⟨hkinds, fun y hy => hfits y (by simp [hy])⟩
            (hdelivers₁.bytes_eq_of_append hbytes)
        refine ⟨s₂, ?_, hdelivers₁.trans hdelivers₂⟩
        rw [readOperandList, bind_eq_ok]
        refine ⟨x, s₁, hhead, ?_⟩
        rw [bind_eq_ok]
        exact ⟨xs, s₂, htail, rfl⟩
      · intro xs s s' hread
        rw [readOperandList, bind_eq_ok] at hread
        obtain ⟨x, s₁, hhead, hread⟩ := hread
        rw [bind_eq_ok] at hread
        obtain ⟨ys, s₂, htail, hread⟩ := hread
        obtain ⟨rfl, rfl⟩ := pure_eq_ok.1 hread
        obtain ⟨⟨hkind, hfit⟩, hdelivers₁⟩ := (inverts_readOperand o kind).faithful _ _ _ hhead
        obtain ⟨⟨hkinds, hfits⟩, hdelivers₂⟩ := ih.faithful _ _ _ htail
        refine ⟨⟨by simp [hkind, hkinds], ?_⟩, hdelivers₁.trans hdelivers₂⟩
        intro y hy
        rcases List.mem_cons.1 hy with rfl | hy
        · exact hfit
        · exact hfits y hy

end RecordReader

/-! ## Instructions -/

namespace Instruction

theorem cons_word_of_kinds
    {xs : List Operand} {kinds : List OperandKind}
    (h : xs.map Operand.kind = .word :: kinds) :
    ∃ (w : Word) (ys : List Operand), xs = .word w :: ys ∧ ys.map Operand.kind = kinds := by
  obtain ⟨x, ys, rfl, hkind, hkinds⟩ := List.map_eq_cons_iff.1 h
  cases x with
  | word w => exact ⟨w, ys, rfl, hkinds⟩
  | text s => cases hkind

theorem cons_text_of_kinds
    {xs : List Operand} {kinds : List OperandKind}
    (h : xs.map Operand.kind = .text :: kinds) :
    ∃ (s : String) (ys : List Operand), xs = .text s :: ys ∧ ys.map Operand.kind = kinds := by
  obtain ⟨x, ys, rfl, hkind, hkinds⟩ := List.map_eq_cons_iff.1 h
  cases x with
  | word w => cases hkind
  | text s => exact ⟨s, ys, rfl, hkinds⟩

/-- Operands of the kinds that an operation asks for make an instruction, which has them. -/
theorem exists_ofOperands?_eq
    {o : Opcode} {xs : List Operand}
    (h : xs.map Operand.kind = o.operands.map Prod.snd) :
    ∃ i : Instruction, ofOperands? o xs = some i ∧ i.opcode = o ∧ i.operands = xs := by
  cases o with
  | readNumber | readByte =>
      obtain rfl := List.map_eq_nil_iff.1 h
      exact ⟨_, rfl, rfl, rfl⟩
  | push | printNumber | copy | jump | decrement | increment | printByte =>
      obtain ⟨w, ys, rfl, hnil⟩ := cons_word_of_kinds h
      obtain rfl := List.map_eq_nil_iff.1 hnil
      exact ⟨_, rfl, rfl, rfl⟩
  | printText =>
      obtain ⟨s, ys, rfl, hnil⟩ := cons_text_of_kinds h
      obtain rfl := List.map_eq_nil_iff.1 hnil
      exact ⟨_, rfl, rfl, rfl⟩
  | add =>
      obtain ⟨a, ys, rfl, hkinds⟩ := cons_word_of_kinds h
      obtain ⟨b, zs, rfl, hnil⟩ := cons_word_of_kinds hkinds
      obtain rfl := List.map_eq_nil_iff.1 hnil
      exact ⟨_, rfl, rfl, rfl⟩
  | jumpIfGreater | jumpIfEqual =>
      obtain ⟨a, ys, rfl, hkinds⟩ := cons_word_of_kinds h
      obtain ⟨b, zs, rfl, hkinds'⟩ := cons_word_of_kinds hkinds
      obtain ⟨t, us, rfl, hnil⟩ := cons_word_of_kinds hkinds'
      obtain rfl := List.map_eq_nil_iff.1 hnil
      exact ⟨_, rfl, rfl, rfl⟩

end Instruction

theorem RecordReader.inverts_readOperands
    (o : Opcode) :
    Inverts (readOperands o) (fun i => i.opcode = o ∧ i.Fits)
      (fun i => i.operands.flatMap Operand.encode) := by
  rw [readOperands_eq]
  apply (inverts_readOperandList o _).map
  · rintro xs ⟨hkinds, hfits⟩
    obtain ⟨i, hi, hopcode, hoperands⟩ := Instruction.exists_ofOperands?_eq hkinds
    rw [hi, Option.getD_some, Instruction.Fits, hoperands]
    exact ⟨⟨hopcode, hfits⟩, rfl⟩
  · rintro i ⟨rfl, hfits⟩
    refine ⟨i.operands, ⟨i.kind_operands, hfits⟩, ?_⟩
    rw [Instruction.ofOperands?_operands, Option.getD_some]

/-! ## Records -/

/-- There is no record where a source ends. -/
theorem readRecord_of_nil
    {s : ByteSource}
    (h : s.bytes = []) :
    ∃ s' : ByteSource, readRecord s = .ok none s' ∧ s.Delivers [] s' := by
  obtain ⟨s', hread, hdelivers⟩ := ByteSource.read_of_nil h 1
  exact ⟨s', by simp [readRecord, hread], hdelivers⟩

/-- Where a source goes on, its next byte is the tag of a record. -/
theorem readRecord_of_cons
    {s : ByteSource} {tag : UInt8} {bs : List UInt8}
    (h : s.bytes = tag :: bs) :
    ∃ s₁ : ByteSource, s.Delivers [tag] s₁ ∧ s₁.bytes = bs ∧
      readRecord s =
        match Opcode.ofTag? tag with
        | none => .error (.unknownTag tag) s₁
        | some o => (some <$> readOperands o) s₁ := by
  obtain ⟨s₁, hread, hdelivers⟩ := ByteSource.read_one h
  refine ⟨s₁, hdelivers, hdelivers.bytes_eq_of_append h, ?_⟩
  cases hofTag : Opcode.ofTag? tag with
  | none =>
      simp only [readRecord, hread, hofTag]
  | some o =>
      simp only [readRecord, hread, hofTag]

/-- The record of an instruction is read back, whatever follows it. -/
theorem readRecord_of_encode
    {i : Instruction} {s : ByteSource} {rest : List UInt8}
    (hfits : i.Fits)
    (hbytes : s.bytes = i.encode ++ rest) :
    ∃ s' : ByteSource, readRecord s = .ok (some i) s' ∧ s.Delivers i.encode s' := by
  obtain ⟨s₁, hdelivers₁, hbytes₁, hread⟩ := readRecord_of_cons hbytes
  obtain ⟨s₂, hoperands, hdelivers₂⟩ :=
    (RecordReader.inverts_readOperands i.opcode).complete i s₁ rest ⟨rfl, hfits⟩ hbytes₁
  refine ⟨s₂, ?_, hdelivers₁.trans hdelivers₂⟩
  rw [hread, Opcode.ofTag?_tag]
  exact RecordReader.map_eq_ok.2 ⟨i, hoperands, rfl⟩

/-- Only the record of an instruction is read as that instruction. -/
theorem delivers_of_readRecord
    {i : Instruction} {s s' : ByteSource}
    (h : readRecord s = .ok (some i) s') :
    i.Fits ∧ s.Delivers i.encode s' := by
  cases hbytes : s.bytes with
  | nil =>
      obtain ⟨s₁, hread, -⟩ := readRecord_of_nil hbytes
      rw [hread] at h
      cases h
  | cons tag bs =>
      obtain ⟨s₁, hdelivers₁, -, hread⟩ := readRecord_of_cons hbytes
      rw [hread] at h
      cases ho : Opcode.ofTag? tag with
      | none =>
          rw [ho] at h
          cases h
      | some o =>
          rw [ho] at h
          obtain ⟨j, hoperands, heq⟩ := RecordReader.map_eq_ok.1 h
          cases heq
          obtain ⟨⟨rfl, hfits⟩, hdelivers₂⟩ :=
            (RecordReader.inverts_readOperands o).faithful _ _ _ hoperands
          rw [← Opcode.tag_of_ofTag? ho] at hdelivers₁
          exact ⟨hfits, hdelivers₁.trans hdelivers₂⟩

/-- A source that holds no record has ended. -/
theorem bytes_eq_nil_of_readRecord
    {s s' : ByteSource}
    (h : readRecord s = .ok none s') :
    s.bytes = [] := by
  cases hbytes : s.bytes with
  | nil =>
      rfl
  | cons tag bs =>
      obtain ⟨s₁, -, -, hread⟩ := readRecord_of_cons hbytes
      rw [hread] at h
      cases ho : Opcode.ofTag? tag with
      | none =>
          rw [ho] at h
          cases h
      | some o =>
          rw [ho] at h
          obtain ⟨j, -, heq⟩ := RecordReader.map_eq_ok.1 h
          cases heq

end StackMachine
