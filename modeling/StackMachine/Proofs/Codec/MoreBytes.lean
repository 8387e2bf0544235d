import StackMachine.Proofs.Codec.Record

/-!
# Records and the bytes behind them

What a reader says of a source stands when more bytes follow, unless the source ended too early.  A
reader that finds the end too early has taken all there was; with fewer further bytes than it still
wants, it finds the end too early again, in the same part of the record.

* `RecordReader.Incremental` is this property of a reader at a source.
* `RecordReader.Composes`: what holds of the readers of parts, and is handed on by `>>=`, holds of the
  operands of every operation.
* `incremental_readRecord` is the property for a record, where there is one.
* `readRecord_congr`: how the bytes are delivered does not matter (no further bytes).
* `readRecord_of_isPrefix`: a record that is cut off is reported so.
-/

namespace StackMachine

/-- The three ways in which bytes fail to be a record. -/
inductive FaultKind
  | unknownTag
  | truncation
  | invalidText
  deriving DecidableEq, Repr

/-- The kind of a fault. -/
def RecordFault.kind : RecordFault → FaultKind
  | unknownTag _ => .unknownTag
  | truncated _ _ _ => .truncation
  | invalidText _ _ => .invalidText

/-- A truncation says which part is cut off, and how much of it is there. -/
theorem RecordFault.exists_truncated
    {e : RecordFault}
    (h : e.kind = .truncation) :
    ∃ (part : RecordPart) (got size : Nat), e = .truncated part got size := by
  cases e with
  | truncated part got size => exact ⟨part, got, size, rfl⟩
  | unknownTag tag => cases h
  | invalidText o fault => cases h

namespace RecordReader

variable {α β : Type}

/-- What the reader says of the source `s` when more bytes follow. -/
structure Incremental (reader : RecordReader α) (s : ByteSource) : Prop where
  /-- A value stands. -/
  value :
    ∀ {a : α} {s' : ByteSource}, reader s = .ok a s' →
      ∃ used : List UInt8, s.Delivers used s' ∧
        ∀ (t : ByteSource) (more : List UInt8), t.bytes = s.bytes ++ more →
          ∃ t' : ByteSource, reader t = .ok a t' ∧ t.Delivers used t'
  /-- A fault that no further byte can mend stands. -/
  fault :
    ∀ {e : RecordFault} {s' : ByteSource}, reader s = .error e s' → e.kind ≠ .truncation →
      ∃ used : List UInt8, s.Delivers used s' ∧
        ∀ (t : ByteSource) (more : List UInt8), t.bytes = s.bytes ++ more →
          ∃ t' : ByteSource, reader t = .error e t' ∧ t.Delivers used t'
  /-- A part that is cut off stays cut off until the bytes that it wants are there. -/
  cutOff :
    ∀ {part : RecordPart} {got size : Nat} {s' : ByteSource},
      reader s = .error (.truncated part got size) s' →
      got < size ∧ s.Delivers s.bytes s' ∧
        ∀ (t : ByteSource) (more : List UInt8), t.bytes = s.bytes ++ more →
          got + more.length < size →
          ∃ t' : ByteSource, reader t = .error (.truncated part (got + more.length) size) t'

/-! ## Readers in sequence -/

theorem bind_eq_error
    {reader : RecordReader α} {next : α → RecordReader β}
    {s s' : ByteSource} {e : RecordFault} :
    (reader >>= next) s = .error e s' ↔
      reader s = .error e s' ∨
      ∃ (a : α) (s₁ : ByteSource), reader s = .ok a s₁ ∧ next a s₁ = .error e s' := by
  simp only [Bind.bind, EStateM.bind]
  cases reader s with
  | ok a s₁ =>
      constructor
      · intro h
        exact Or.inr ⟨a, s₁, rfl, h⟩
      · rintro (h | ⟨a', s₁', heq, h⟩)
        · cases h
        · cases heq
          exact h
  | error e' s₁ =>
      simp

theorem map_eq_error
    {reader : RecordReader α} {f : α → β} {s s' : ByteSource} {e : RecordFault} :
    (f <$> reader) s = .error e s' ↔ reader s = .error e s' := by
  simp only [Functor.map, EStateM.map]
  cases reader s <;> simp

namespace Incremental

theorem pure
    (a : α) (s : ByteSource) :
    Incremental (Pure.pure a) s := by
  constructor
  · intro b s' h
    obtain ⟨rfl, rfl⟩ := pure_eq_ok.1 h
    exact ⟨[], .refl s, fun t _ _ => ⟨t, rfl, .refl t⟩⟩
  · intro e s' h
    cases h
  · intro part got size s' h
    cases h

theorem throw
    {e : RecordFault}
    (he : e.kind ≠ .truncation)
    (s : ByteSource) :
    Incremental (MonadExcept.throw e : RecordReader α) s := by
  constructor
  · intro b s' h
    cases h
  · intro e' s' h _
    cases h
    exact ⟨[], .refl s, fun t _ _ => ⟨t, rfl, .refl t⟩⟩
  · intro part got size s' h
    cases h
    exact absurd rfl he

/-- The second reader goes on where the first one has stopped, with the same bytes behind it. -/
theorem bind
    {reader : RecordReader α} {next : α → RecordReader β} {s : ByteSource}
    (hreader : Incremental reader s)
    (hnext : ∀ a s₁, Incremental (next a) s₁) :
    Incremental (reader >>= next) s := by
  constructor
  · intro b s' h
    obtain ⟨a, s₁, hread, h⟩ := bind_eq_ok.1 h
    obtain ⟨used₁, hs₁, hmore₁⟩ := hreader.value hread
    obtain ⟨used₂, hs₂, hmore₂⟩ := (hnext a s₁).value h
    refine ⟨used₁ ++ used₂, hs₁.trans hs₂, ?_⟩
    intro t more hbytes
    obtain ⟨t₁, hread', ht₁⟩ := hmore₁ t more hbytes
    obtain ⟨t₂, h', ht₂⟩ := hmore₂ t₁ more (hs₁.bytes_append ht₁ hbytes)
    exact ⟨t₂, bind_eq_ok.2 ⟨a, t₁, hread', h'⟩, ht₁.trans ht₂⟩
  · intro e s' h he
    rcases bind_eq_error.1 h with hread | ⟨a, s₁, hread, h⟩
    · obtain ⟨used, hs, hmore⟩ := hreader.fault hread he
      refine ⟨used, hs, ?_⟩
      intro t more hbytes
      obtain ⟨t', hread', ht⟩ := hmore t more hbytes
      exact ⟨t', bind_eq_error.2 (Or.inl hread'), ht⟩
    · obtain ⟨used₁, hs₁, hmore₁⟩ := hreader.value hread
      obtain ⟨used₂, hs₂, hmore₂⟩ := (hnext a s₁).fault h he
      refine ⟨used₁ ++ used₂, hs₁.trans hs₂, ?_⟩
      intro t more hbytes
      obtain ⟨t₁, hread', ht₁⟩ := hmore₁ t more hbytes
      obtain ⟨t₂, h', ht₂⟩ := hmore₂ t₁ more (hs₁.bytes_append ht₁ hbytes)
      exact ⟨t₂, bind_eq_error.2 (Or.inr ⟨a, t₁, hread', h'⟩), ht₁.trans ht₂⟩
  · intro part got size s' h
    rcases bind_eq_error.1 h with hread | ⟨a, s₁, hread, h⟩
    · obtain ⟨hlt, hs, hmore⟩ := hreader.cutOff hread
      refine ⟨hlt, hs, ?_⟩
      intro t more hbytes hshort
      obtain ⟨t', hread'⟩ := hmore t more hbytes hshort
      exact ⟨t', bind_eq_error.2 (Or.inl hread')⟩
    · obtain ⟨used, hs₁, hmore₁⟩ := hreader.value hread
      obtain ⟨hlt, hs₂, hmore₂⟩ := (hnext a s₁).cutOff h
      refine ⟨hlt, ?_, ?_⟩
      · rw [hs₁.bytes_eq]
        exact hs₁.trans hs₂
      · intro t more hbytes hshort
        obtain ⟨t₁, hread', ht₁⟩ := hmore₁ t more hbytes
        obtain ⟨t₂, h'⟩ := hmore₂ t₁ more (hs₁.bytes_append ht₁ hbytes) hshort
        exact ⟨t₂, bind_eq_error.2 (Or.inr ⟨a, t₁, hread', h'⟩)⟩

end Incremental

/-! ## Parts -/

theorem readPart_eq_error
    {part : RecordPart} {size : Nat} {s s' : ByteSource} {e : RecordFault} :
    readPart part size s = .error e s' ↔
      s.bytes.length < size ∧ e = .truncated part s.bytes.length size ∧
        s' = (s.collect size).2 := by
  unfold readPart
  simp only [ByteSource.fst_collect, List.length_take]
  split
  · next hsize =>
      constructor
      · intro h
        cases h
      · rintro ⟨hlt, -⟩
        omega
  · next hsize =>
      have hmin : min size s.bytes.length = s.bytes.length := by omega
      rw [hmin]
      constructor
      · intro h
        cases h
        exact ⟨by omega, rfl, rfl⟩
      · rintro ⟨-, rfl, rfl⟩
        rfl

theorem incremental_readPart
    (part : RecordPart) (size : Nat) (s : ByteSource) :
    Incremental (readPart part size) s := by
  constructor
  · intro bs s' h
    obtain ⟨hsize, hs⟩ := (inverts_readPart part size).faithful bs s s' h
    refine ⟨bs, hs, ?_⟩
    intro t more hbytes
    apply (inverts_readPart part size).complete bs t (s'.bytes ++ more) hsize
    rw [hbytes, hs.bytes_eq, List.append_assoc]
  · intro e s' h he
    obtain ⟨-, rfl, -⟩ := readPart_eq_error.1 h
    exact absurd rfl he
  · intro part' got size' s' h
    obtain ⟨hlt, hfault, rfl⟩ := readPart_eq_error.1 h
    cases hfault
    refine ⟨hlt, ?_, ?_⟩
    · have hs := s.delivers_collect size
      rwa [List.take_of_length_le (by omega)] at hs
    · intro t more hbytes hshort
      have hlength : t.bytes.length = s.bytes.length + more.length := by
        rw [hbytes, List.length_append]
      refine ⟨(t.collect size).2, readPart_eq_error.2 ⟨by omega, ?_, rfl⟩⟩
      rw [hlength]

/-! ## Readers that are put together from parts -/

/-- A property of readers at sources that values and faults have, that the readers of parts have, and
that sequences of readers inherit. -/
structure Composes (P : {γ : Type} → RecordReader γ → ByteSource → Prop) : Prop where
  pure {γ : Type} (a : γ) (s : ByteSource) : P (Pure.pure a) s
  throw {γ : Type} {e : RecordFault} (he : e.kind ≠ .truncation) (s : ByteSource) :
    P (MonadExcept.throw e : RecordReader γ) s
  bind {γ δ : Type} {reader : RecordReader γ} {next : γ → RecordReader δ} {s : ByteSource}
    (hreader : P reader s) (hnext : ∀ a s₁, P (next a) s₁) :
    P (reader >>= next) s
  readPart (part : RecordPart) (size : Nat) (s : ByteSource) : P (readPart part size) s

namespace Composes

variable {P : {γ : Type} → RecordReader γ → ByteSource → Prop}

theorem map
    (hP : Composes P)
    {reader : RecordReader α} {s : ByteSource}
    (hreader : P reader s)
    (f : α → β) :
    P (f <$> reader) s := by
  rw [map_eq_pure_bind]
  exact hP.bind hreader fun a s₁ => hP.pure (f a) s₁

theorem readWord
    (hP : Composes P)
    (part : RecordPart) (s : ByteSource) :
    P (readWord part) s :=
  hP.bind (hP.readPart part Word.byteCount s) fun _ s₁ => hP.pure _ s₁

theorem readText
    (hP : Composes P)
    (o : Opcode) (s : ByteSource) :
    P (readText o) s := by
  refine hP.bind (hP.readWord _ s) fun size s₁ => ?_
  refine hP.bind (hP.readPart _ _ s₁) fun bytes s₂ => ?_
  cases Utf8.decode bytes with
  | ok cs => exact hP.pure _ s₂
  | error fault => exact hP.throw (by simp [RecordFault.kind]) s₂

theorem readOperand
    (hP : Composes P)
    (o : Opcode) (kind : OperandKind) (s : ByteSource) :
    P (readOperand o kind) s := by
  cases kind with
  | word => exact hP.map (hP.readWord _ s) _
  | text => exact hP.map (hP.readText o s) _

theorem readOperandList
    (hP : Composes P)
    (o : Opcode) (kinds : List OperandKind) (s : ByteSource) :
    P (readOperandList o kinds) s := by
  induction kinds generalizing s with
  | nil =>
      exact hP.pure _ s
  | cons kind kinds ih =>
      exact hP.bind (hP.readOperand o kind s) fun _ s₁ => hP.bind (ih s₁) fun _ s₂ =>
        hP.pure _ s₂

/-- Such a property holds of the operands of every operation. -/
theorem readOperands
    (hP : Composes P)
    (o : Opcode) (s : ByteSource) :
    P (readOperands o) s := by
  rw [readOperands_eq]
  exact hP.map (hP.readOperandList o _ s) _

end Composes

theorem composes_incremental :
    Composes Incremental where
  pure := .pure
  throw := .throw
  bind := .bind
  readPart := incremental_readPart

end RecordReader

/-! ## Records -/

/-- Reads the tag of a record, if the source has not ended. -/
def readTag : RecordReader (Option UInt8) := fun s =>
  match s.read 1 with
  | ([], s') => .ok none s'
  | (tag :: _, s') => .ok (some tag) s'

/-- Reads what follows the tag of a record. -/
def readTagged (tag : UInt8) : RecordReader Instruction :=
  match Opcode.ofTag? tag with
  | none => throw (.unknownTag tag)
  | some o => readOperands o

/-- A record is a tag and what follows it. -/
theorem readRecord_eq :
    readRecord = readTag >>= fun tag? =>
      match tag? with
      | none => pure none
      | some tag => some <$> readTagged tag := by
  funext s
  simp only [readRecord, readTag, Bind.bind, EStateM.bind]
  cases hread : s.read 1 with
  | mk bytes s' =>
      cases bytes with
      | nil =>
          rfl
      | cons tag rest =>
          simp only [readTagged]
          cases Opcode.ofTag? tag with
          | none => rfl
          | some o => rfl

theorem readTag_of_cons
    {s : ByteSource} {tag : UInt8} {bs : List UInt8}
    (h : s.bytes = tag :: bs) :
    ∃ s₁ : ByteSource, readTag s = .ok (some tag) s₁ ∧ s.Delivers [tag] s₁ := by
  obtain ⟨s₁, hread, hdelivers⟩ := ByteSource.read_one h
  exact ⟨s₁, by simp only [readTag, hread], hdelivers⟩

namespace RecordReader

theorem incremental_readTag
    {s : ByteSource}
    (h : s.bytes ≠ []) :
    Incremental readTag s := by
  obtain ⟨tag, bs, hbytes⟩ := List.exists_cons_of_ne_nil h
  obtain ⟨s₁, hread, hs⟩ := readTag_of_cons hbytes
  constructor
  · intro tag? s' h'
    rw [hread] at h'
    cases h'
    refine ⟨[tag], hs, ?_⟩
    intro t more hmore
    rw [hbytes] at hmore
    exact readTag_of_cons hmore
  · intro e s' h'
    rw [hread] at h'
    cases h'
  · intro part got size s' h'
    rw [hread] at h'
    cases h'

/-- What follows a tag is put together from parts too, or the tag is the fault. -/
theorem Composes.readTagged
    {P : {γ : Type} → RecordReader γ → ByteSource → Prop}
    (hP : Composes P)
    (tag : UInt8) (s : ByteSource) :
    P (readTagged tag) s := by
  unfold StackMachine.readTagged
  cases Opcode.ofTag? tag with
  | none => exact hP.throw (by simp [RecordFault.kind]) s
  | some o => exact hP.readOperands o s

/-- Where the source has not ended, such a property of the tag is one of the record. -/
theorem Composes.readRecord
    {P : {γ : Type} → RecordReader γ → ByteSource → Prop}
    (hP : Composes P)
    {s : ByteSource}
    (htag : P readTag s) :
    P readRecord s := by
  rw [readRecord_eq]
  refine hP.bind htag fun tag? s₁ => ?_
  cases tag? with
  | none => exact hP.pure _ s₁
  | some tag => exact hP.map (hP.readTagged tag s₁) _

end RecordReader

/-- What is said of a record stands when more bytes follow, unless the record is cut off.  Where a
source has ended there is no record, and more bytes may bring one. -/
theorem incremental_readRecord
    {s : ByteSource}
    (h : s.bytes ≠ []) :
    RecordReader.Incremental readRecord s :=
  RecordReader.composes_incremental.readRecord (RecordReader.incremental_readTag h)

/-- There is something at fault only where the source has not ended. -/
theorem ne_nil_of_readRecord_fault
    {s s' : ByteSource} {fault : RecordFault}
    (h : readRecord s = .error fault s') :
    s.bytes ≠ [] := by
  intro hnil
  obtain ⟨s₁, hread, -⟩ := readRecord_of_nil hnil
  rw [hread] at h
  cases h

/-- Where two sources hold the same bytes, the same record is read from the same bytes of them. -/
theorem readRecord_congr
    {s s' t : ByteSource} {i? : Option Instruction}
    (hbytes : t.bytes = s.bytes)
    (h : readRecord s = .ok i? s') :
    ∃ (used : List UInt8) (t' : ByteSource),
      readRecord t = .ok i? t' ∧ s.Delivers used s' ∧ t.Delivers used t' := by
  by_cases hnil : s.bytes = []
  · obtain ⟨s₁, hread, hs⟩ := readRecord_of_nil hnil
    obtain ⟨t₁, hread', ht⟩ := readRecord_of_nil (hbytes.trans hnil)
    rw [hread] at h
    cases h
    exact ⟨[], t₁, hread', hs, ht⟩
  · obtain ⟨used, hs, hmore⟩ := (incremental_readRecord hnil).value h
    obtain ⟨t', hread', ht⟩ := hmore t [] (by rw [hbytes, List.append_nil])
    exact ⟨used, t', hread', hs, ht⟩

/-- Where two sources hold the same bytes, the same fault is found in the same bytes of them. -/
theorem readRecord_fault_congr
    {s s' t : ByteSource} {fault : RecordFault}
    (hbytes : t.bytes = s.bytes)
    (h : readRecord s = .error fault s') :
    ∃ (used : List UInt8) (t' : ByteSource),
      readRecord t = .error fault t' ∧ s.Delivers used s' ∧ t.Delivers used t' := by
  have hne := ne_nil_of_readRecord_fault h
  have hs := incremental_readRecord hne
  have ht := incremental_readRecord (s := t) (by rwa [hbytes])
  have hnone : t.bytes = s.bytes ++ [] := by
    rw [hbytes, List.append_nil]
  by_cases hkind : fault.kind = .truncation
  · obtain ⟨part, got, size, rfl⟩ := RecordFault.exists_truncated hkind
    obtain ⟨hlt, hdelivers, hmore⟩ := hs.cutOff h
    obtain ⟨t', hread⟩ := hmore t [] hnone hlt
    obtain ⟨-, hdelivers', -⟩ := ht.cutOff hread
    rw [hbytes] at hdelivers'
    exact ⟨s.bytes, t', hread, hdelivers, hdelivers'⟩
  · obtain ⟨used, hdelivers, hmore⟩ := hs.fault h hkind
    obtain ⟨t', hread, hdelivers'⟩ := hmore t [] hnone
    exact ⟨used, t', hread, hdelivers, hdelivers'⟩

/-- A record that is cut off after its first byte is reported so. -/
theorem readRecord_of_isPrefix
    {i : Instruction} {s : ByteSource}
    (hfits : i.Fits)
    (hne : s.bytes ≠ [])
    (hbeginning : s.bytes <+: i.encode)
    (hcut : s.bytes.length < i.encode.length) :
    ∃ (part : RecordPart) (got size : Nat) (s' : ByteSource),
      readRecord s = .error (.truncated part got size) s' := by
  obtain ⟨more, hmore⟩ := hbeginning
  have hbytes : (ByteSource.ofBytes i.encode).bytes = s.bytes ++ more := hmore.symm
  -- The whole record is read, so that no value and no other fault stands.
  obtain ⟨t', hwhole, -⟩ :=
    readRecord_of_encode (s := ByteSource.ofBytes i.encode) hfits (List.append_nil _).symm
  have hincremental := incremental_readRecord hne
  cases h : readRecord s with
  | ok i? s' =>
      obtain ⟨used, hs, hstands⟩ := hincremental.value h
      obtain ⟨t₁, hread, -⟩ := hstands _ more hbytes
      rw [hwhole] at hread
      cases hread
      have hlength := congrArg List.length (delivers_of_readRecord h).2.bytes_eq
      rw [List.length_append] at hlength
      omega
  | error fault s' =>
      by_cases hkind : fault.kind = .truncation
      · obtain ⟨part, got, size, rfl⟩ := RecordFault.exists_truncated hkind
        exact ⟨part, got, size, s', rfl⟩
      · obtain ⟨used, hs, hstands⟩ := hincremental.fault h hkind
        obtain ⟨t₁, hread, -⟩ := hstands _ more hbytes
        rw [hwhole] at hread
        cases hread

end StackMachine
