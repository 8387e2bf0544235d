import StackMachine.Record

/-!
# Programs as bytes

A program is written as the records of its instructions, one after another, with no header and
nothing in between.  Bytes are a program only if they end where a record ends.

* `Program.encode` writes a program.
* `Program.decodeSource` reads one from a byte source, `Program.decode` from a block of bytes.
* `ByteSource.takeInstruction` reads one record and leaves the rest of the source to the caller.
-/

namespace StackMachine

/-- Why bytes are no program: the first record that is none, and where it starts. -/
structure FormatError where
  /-- How many bytes there are before the record. -/
  offset : Nat
  fault : RecordFault
  deriving DecidableEq, Repr

/-- A format error in words. -/
def FormatError.message (e : FormatError) : String :=
  "byte " ++ toString e.offset ++ ": " ++ e.fault.detail

/-- The bytes of a program. -/
def Program.encode (p : Program) : List UInt8 :=
  p.flatMap Instruction.encode

@[simp] theorem Program.encode_nil :
    Program.encode [] = [] := rfl

@[simp] theorem Program.encode_cons
    (i : Instruction) (p : Program) :
    Program.encode (i :: p) = i.encode ++ Program.encode p := rfl

@[simp] theorem Program.encode_append
    (p q : Program) :
    Program.encode (p ++ q) = Program.encode p ++ Program.encode q := by
  simp [Program.encode]

/-- Reads records up to the end of the source.  The instructions of the records before them are in
`done`, the latest first. -/
def Program.decodeFrom (done : List Instruction) (s : ByteSource) :
    Except FormatError Program :=
  match _h : readRecord s with
  | .error fault _ => .error ⟨s.position, fault⟩
  | .ok none _ => .ok done.reverse
  | .ok (some i) s' => Program.decodeFrom (i :: done) s'
termination_by s.bytes.length
decreasing_by exact length_lt_of_readRecord ‹_›

/-- The program that a source holds, from its next byte to its end.  The offset of an error counts
from where the reading starts. -/
def Program.decodeSource (s : ByteSource) : Except FormatError Program :=
  Program.decodeFrom [] s.fromHere

/-- The program that a block of bytes holds. -/
def Program.decode (bs : List UInt8) : Except FormatError Program :=
  Program.decodeSource (ByteSource.ofBytes bs)

/-- Reads one record, or none where the source has ended.  The offset of an error counts from where
the reading starts.  The second result is the source after it. -/
def ByteSource.takeInstruction (s : ByteSource) :
    Except FormatError (Option Instruction) × ByteSource :=
  match readRecord s with
  | .ok i? s' => (.ok i?, s')
  | .error fault s' => (.error ⟨0, fault⟩, s')

end StackMachine
