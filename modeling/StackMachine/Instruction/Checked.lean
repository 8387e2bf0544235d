import StackMachine.Instruction.Basic
import StackMachine.Value

/-!
# Checked construction

Instructions and programs made from values of unknown shape.  Operands are checked in order, and the
first one that does not fit is reported.

* `Instruction.ofValues` makes an instruction from an operation and its operands.
* `Program.ofEntries` accepts a list of entries as a program if all of them are instructions.
-/

namespace StackMachine

/-- Why a value cannot be an operand. -/
inductive OperandError
  /-- The value is not of the kind that the operand asks for. -/
  | wrongKind (opcode : Opcode) (operand : String) (kind : OperandKind) (value : Value)
  /-- The number does not fit in a word. -/
  | outOfRange (opcode : Opcode) (operand : String) (value : Int)
  /-- The operation has another number of operands. -/
  | wrongCount (opcode : Opcode)

/-- The complaint about an operand. -/
def OperandError.message : OperandError → String
  | wrongKind o name kind v =>
      let expected := match kind with
        | .word => "int"
        | .text => "str"
      o.mnemonic ++ "." ++ name ++ " must be " ++ expected ++ ", got " ++ v.kindName
  | outOfRange o name n =>
      o.mnemonic ++ "." ++ name ++ " must be 0..2**64-1, got " ++ toString n
  | wrongCount o =>
      o.mnemonic ++ " takes " ++ toString o.operands.length ++ " operands"

/-- Makes an operand of the given kind from a value. -/
def Operand.ofValue (o : Opcode) (name : String) : OperandKind → Value →
    Except OperandError Operand
  | .word, .int n =>
      if 0 ≤ n ∧ n ≤ Word.maximum then .ok (.word (UInt64.ofNat n.toNat))
      else .error (.outOfRange o name n)
  | .text, .text s => .ok (.text s)
  | kind, v => .error (.wrongKind o name kind v)

/-- Makes operands from values, in order. -/
def Operand.ofValues (o : Opcode) : List (String × OperandKind) → List Value →
    Except OperandError (List Operand)
  | [], [] => .ok []
  | (name, kind) :: fields, v :: vs => do
      let operand ← Operand.ofValue o name kind v
      let others ← Operand.ofValues o fields vs
      return operand :: others
  | _, _ => .error (.wrongCount o)

/-- Makes an instruction from an operation and values for its operands. -/
def Instruction.ofValues (o : Opcode) (vs : List Value) : Except OperandError Instruction := do
  let operands ← Operand.ofValues o o.operands vs
  match Instruction.ofOperands? o operands with
  | some i => .ok i
  | none => .error (.wrongCount o)

/-- An entry of a list that is to become a program. -/
inductive ProgramEntry
  | instruction (i : Instruction)
  /-- A value that is no instruction. -/
  | foreign (v : Value)

/-- The first entry of a list that is no instruction: its position and its value. -/
structure ForeignEntry where
  position : Nat
  value : Value

/-- The complaint about a value that should be an instruction. -/
def notAnInstruction (v : Value) : String :=
  "not an instruction: " ++ v.render

/-- The complaint about an entry of a program that should be an instruction. -/
def ForeignEntry.message (e : ForeignEntry) : String :=
  "program[" ++ toString e.position ++ "] is not an instruction: " ++ e.value.render

/-- Accepts entries from the given position on; the instructions before it are in `accepted`, the
latest first. -/
def Program.ofEntriesFrom (position : Nat) (accepted : List Instruction) :
    List ProgramEntry → Except ForeignEntry Program
  | [] => .ok accepted.reverse
  | .instruction i :: rest => Program.ofEntriesFrom (position + 1) (i :: accepted) rest
  | .foreign v :: _ => .error ⟨position, v⟩

/-- Accepts a list of entries as a program if all of them are instructions. -/
def Program.ofEntries (entries : List ProgramEntry) : Except ForeignEntry Program :=
  Program.ofEntriesFrom 0 [] entries

end StackMachine
