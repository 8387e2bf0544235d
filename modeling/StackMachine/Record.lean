import StackMachine.ByteSource
import StackMachine.Instruction.Basic
import StackMachine.Utf8

/-!
# Records

A record is the written form of one instruction: the tag of the operation, then the operands.  A
word takes eight bytes, least significant first; a text is written as the number of its UTF-8 bytes,
again in eight bytes, and then the bytes.  There is nothing between records.

* `Instruction.encode` writes a record.
* `readRecord` reads one from a byte source, and says what is wrong with bytes that are none.
-/

namespace StackMachine

/-- The bytes of an operand. -/
def Operand.encode : Operand → List UInt8
  | .word w => w.toBytes
  | .text s =>
      let bytes := Utf8.encode s.toList
      Word.toBytes (UInt64.ofNat bytes.length) ++ bytes

/-- The record of an instruction. -/
def Instruction.encode (i : Instruction) : List UInt8 :=
  i.opcode.tag :: i.operands.flatMap Operand.encode

/-- A part of a record that may be cut off. -/
inductive RecordPart
  | operand (opcode : Opcode)
  /-- The number of bytes of a text. -/
  | textLength (opcode : Opcode)
  /-- The bytes of a text. -/
  | textBytes (opcode : Opcode)
  deriving DecidableEq, Repr

/-- A part of a record in words. -/
def RecordPart.describe : RecordPart → String
  | operand o => o.mnemonic ++ " operand"
  | textLength o => o.mnemonic ++ " length"
  | textBytes o => o.mnemonic ++ " text"

/-- Why bytes are no record. -/
inductive RecordFault
  /-- No operation has this tag. -/
  | unknownTag (tag : UInt8)
  /-- The bytes end inside a part of the record: `got` bytes of `size` are there. -/
  | truncated (part : RecordPart) (got size : Nat)
  /-- The bytes of a text are not well-formed. -/
  | invalidText (opcode : Opcode) (fault : Utf8.Fault)
  deriving DecidableEq, Repr

/-- A fault of a record in words. -/
def RecordFault.detail : RecordFault → String
  | unknownTag tag => "unknown opcode tag 0x" ++ (Utf8.hexByte tag).toUpper
  | truncated part got size =>
      "stream ended inside " ++ part.describe ++ " (" ++ toString got ++ " of " ++ toString size ++
        " bytes)"
  | invalidText o fault => o.mnemonic ++ " text is not valid UTF-8: " ++ fault.message

/-- A reader takes bytes from a source and gives a result or a fault; the source that is left is
known in both cases. -/
abbrev RecordReader := EStateM RecordFault ByteSource

/-- Reads the `size` bytes of a part of a record. -/
def readPart (part : RecordPart) (size : Nat) : RecordReader (List UInt8) := fun s =>
  let (bytes, s') := s.collect size
  if bytes.length = size then .ok bytes s' else .error (.truncated part bytes.length size) s'

/-- Reads a word. -/
def readWord (part : RecordPart) : RecordReader Word := do
  let bytes ← readPart part Word.byteCount
  return Word.ofBytes bytes

/-- Reads a text. -/
def readText (o : Opcode) : RecordReader String := do
  let size ← readWord (.textLength o)
  let bytes ← readPart (.textBytes o) size.toNat
  match Utf8.decode bytes with
  | .ok cs => return String.ofList cs
  | .error fault => throw (.invalidText o fault)

/-- Reads an operand that is a word and makes an instruction of it. -/
def readUnary (o : Opcode) (make : Word → Instruction) : RecordReader Instruction := do
  let w ← readWord (.operand o)
  return make w

/-- Reads the two slots and the target of a conditional branch. -/
def readBranch (o : Opcode) (make : Word → Word → Word → Instruction) :
    RecordReader Instruction := do
  let a ← readWord (.operand o)
  let b ← readWord (.operand o)
  let target ← readWord (.operand o)
  return make a b target

/-- Reads the operands of an operation. -/
def readOperands : Opcode → RecordReader Instruction
  | .push => readUnary .push .push
  | .printNumber => readUnary .printNumber .printNumber
  | .readNumber => return .readNumber
  | .printText => do
      let text ← readText .printText
      return .printText text
  | .copy => readUnary .copy .copy
  | .add => do
      let a ← readWord (.operand .add)
      let b ← readWord (.operand .add)
      return .add a b
  | .jumpIfGreater => readBranch .jumpIfGreater .jumpIfGreater
  | .jumpIfEqual => readBranch .jumpIfEqual .jumpIfEqual
  | .jump => readUnary .jump .jump
  | .decrement => readUnary .decrement .decrement
  | .increment => readUnary .increment .increment
  | .readByte => return .readByte
  | .printByte => readUnary .printByte .printByte

/-- Reads one record; there is none if the source has ended. -/
def readRecord : RecordReader (Option Instruction) := fun s =>
  match s.read 1 with
  | ([], s') => .ok none s'
  | (tag :: _, s') =>
      match Opcode.ofTag? tag with
      | none => .error (.unknownTag tag) s'
      | some o => (some <$> readOperands o) s'

/-! ## Reading leaves no more bytes than there were -/

/-- The source that is left after reading, with or without success. -/
def RecordReader.remainder {α : Type} (reader : RecordReader α) (s : ByteSource) : ByteSource :=
  match reader s with
  | .ok _ s' | .error _ s' => s'

/-- The reader never leaves more bytes than it found. -/
def RecordReader.Consumes {α : Type} (reader : RecordReader α) : Prop :=
  ∀ s, (reader.remainder s).bytes.length ≤ s.bytes.length

namespace RecordReader

theorem consumes_pure
    {α : Type} (a : α) :
    Consumes (pure a : RecordReader α) :=
  fun _ => Nat.le_refl _

theorem consumes_throw
    {α : Type} (fault : RecordFault) :
    Consumes (throw fault : RecordReader α) :=
  fun _ => Nat.le_refl _

theorem Consumes.bind
    {α β : Type} {reader : RecordReader α} {next : α → RecordReader β}
    (hreader : reader.Consumes)
    (hnext : ∀ a, (next a).Consumes) :
    Consumes (reader >>= next) := by
  intro s
  have h := hreader s
  simp only [remainder, Bind.bind, EStateM.bind] at h ⊢
  cases hs : reader s with
  | error fault s' => simpa only [hs] using h
  | ok a s' =>
      have h' := hnext a s'
      simp only [remainder, hs] at h h' ⊢
      cases hs' : next a s' <;> simp only [hs'] at h' ⊢ <;> exact Nat.le_trans h' h

theorem consumes_readPart
    (part : RecordPart) (size : Nat) :
    Consumes (readPart part size) := by
  intro s
  have h := ByteSource.length_collect_le s size
  unfold remainder readPart
  split <;> next hs =>
    dsimp only at hs
    split at hs <;> cases hs <;> exact h

theorem consumes_readWord
    (part : RecordPart) :
    Consumes (readWord part) :=
  (consumes_readPart part _).bind fun _ => consumes_pure _

theorem consumes_readText
    (o : Opcode) :
    Consumes (readText o) :=
  (consumes_readWord _).bind fun _ => (consumes_readPart _ _).bind fun bytes => by
    cases Utf8.decode bytes with
    | ok cs => exact consumes_pure _
    | error fault => exact consumes_throw _

theorem consumes_readUnary
    (o : Opcode) (make : Word → Instruction) :
    Consumes (readUnary o make) :=
  (consumes_readWord _).bind fun _ => consumes_pure _

theorem consumes_readBranch
    (o : Opcode) (make : Word → Word → Word → Instruction) :
    Consumes (readBranch o make) :=
  (consumes_readWord _).bind fun _ => (consumes_readWord _).bind fun _ =>
    (consumes_readWord _).bind fun _ => consumes_pure _

theorem consumes_readOperands
    (o : Opcode) :
    Consumes (readOperands o) := by
  cases o with
  | readNumber | readByte => exact consumes_pure _
  | printText => exact (consumes_readText _).bind fun _ => consumes_pure _
  | add => exact (consumes_readWord _).bind fun _ => (consumes_readWord _).bind fun _ =>
      consumes_pure _
  | jumpIfGreater | jumpIfEqual => exact consumes_readBranch _ _
  | push | printNumber | copy | jump | decrement | increment | printByte =>
      exact consumes_readUnary _ _

end RecordReader

/-- Reading an instruction takes at least one byte. -/
theorem length_lt_of_readRecord
    {s s' : ByteSource} {i : Instruction}
    (h : readRecord s = .ok (some i) s') :
    s'.bytes.length < s.bytes.length := by
  unfold readRecord at h
  split at h
  · simp at h
  · next tag rest s₁ hread =>
      refine Nat.lt_of_le_of_lt ?_ (ByteSource.length_lt_of_read hread)
      split at h
      · simp at h
      · next o _ =>
          have hle := RecordReader.consumes_readOperands o s₁
          simp only [Functor.map, EStateM.map] at h
          simp only [RecordReader.remainder] at hle
          cases hs : readOperands o s₁ with
          | ok j s₂ =>
              simp only [hs, EStateM.Result.ok.injEq] at h hle
              rw [← h.2]
              exact hle
          | error fault s₂ => simp [hs] at h

end StackMachine
