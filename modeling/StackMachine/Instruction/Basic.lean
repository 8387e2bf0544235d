import StackMachine.Opcode
import StackMachine.Word
import StackMachine.Text.Quoted

/-!
# Instructions

An instruction is an operation with its operands.  Stack operands are offsets from the top: offset
0 is the top of the stack.  Branch targets are positions in the program.

* `Instruction.operands` lists the operands, `Instruction.render` shows the instruction with the
  names of its operands, and `Instruction.target?` is the position that a branch may go to.
-/

namespace StackMachine

/-- One instruction of a program. -/
inductive Instruction
  /-- Push a number. -/
  | push (value : Word)
  /-- Print a number of the stack in decimal, on a line of its own. -/
  | printNumber (offset : Word)
  /-- Read a line that holds a decimal number, and push the number. -/
  | readNumber
  /-- Print a text, on a line of its own. -/
  | printText (text : String)
  /-- Push a copy of a number of the stack. -/
  | copy (offset : Word)
  /-- Remove two numbers from the stack and push their sum. -/
  | add (a b : Word)
  /-- Go to `target` if the number at `a` is greater than the number at `b`. -/
  | jumpIfGreater (a b target : Word)
  /-- Go to `target` if the numbers at `a` and `b` are equal. -/
  | jumpIfEqual (a b target : Word)
  /-- Go to `target`. -/
  | jump (target : Word)
  /-- Subtract one from a number of the stack. -/
  | decrement (offset : Word)
  /-- Add one to a number of the stack. -/
  | increment (offset : Word)
  /-- Read a byte and push it. -/
  | readByte
  /-- Write a number of the stack as one byte. -/
  | printByte (offset : Word)
  deriving DecidableEq, Repr, Inhabited

/-- A program is a list of instructions; positions count from zero. -/
abbrev Program := List Instruction

/-- An operand of an instruction. -/
inductive Operand
  | word (w : Word)
  | text (s : String)
  deriving DecidableEq, Repr

/-- The kind of an operand. -/
def Operand.kind : Operand → OperandKind
  | .word _ => .word
  | .text _ => .text

/-- An operand as listings and messages show it. -/
def Operand.render : Operand → String
  | .word w => toString w.toNat
  | .text s => Text.quoteText s

namespace Instruction

/-- The operation of an instruction. -/
def opcode : Instruction → Opcode
  | push _ => .push
  | printNumber _ => .printNumber
  | readNumber => .readNumber
  | printText _ => .printText
  | copy _ => .copy
  | add _ _ => .add
  | jumpIfGreater _ _ _ => .jumpIfGreater
  | jumpIfEqual _ _ _ => .jumpIfEqual
  | jump _ => .jump
  | decrement _ => .decrement
  | increment _ => .increment
  | readByte => .readByte
  | printByte _ => .printByte

/-- The operands of an instruction, in order. -/
def operands : Instruction → List Operand
  | push w | printNumber w | copy w | jump w | decrement w | increment w | printByte w =>
      [.word w]
  | add a b => [.word a, .word b]
  | jumpIfGreater a b t | jumpIfEqual a b t => [.word a, .word b, .word t]
  | printText s => [.text s]
  | readNumber | readByte => []

/-- The instruction with the given operation and operands, if they fit each other. -/
def ofOperands? : Opcode → List Operand → Option Instruction
  | .push, [.word w] => some (.push w)
  | .printNumber, [.word w] => some (.printNumber w)
  | .readNumber, [] => some .readNumber
  | .printText, [.text s] => some (.printText s)
  | .copy, [.word w] => some (.copy w)
  | .add, [.word a, .word b] => some (.add a b)
  | .jumpIfGreater, [.word a, .word b, .word t] => some (.jumpIfGreater a b t)
  | .jumpIfEqual, [.word a, .word b, .word t] => some (.jumpIfEqual a b t)
  | .jump, [.word t] => some (.jump t)
  | .decrement, [.word w] => some (.decrement w)
  | .increment, [.word w] => some (.increment w)
  | .readByte, [] => some .readByte
  | .printByte, [.word w] => some (.printByte w)
  | _, _ => none

/-- The position that a branch may go to. -/
def target? : Instruction → Option Nat
  | jumpIfGreater _ _ t | jumpIfEqual _ _ t | jump t => some t.toNat
  | _ => none

/-- The instruction as listings, traces and messages show it: the mnemonic and the operands with
their names. -/
def render (i : Instruction) : String :=
  let shown := (i.opcode.operands.zip i.operands).map fun pair =>
    pair.1.1 ++ "=" ++ pair.2.render
  i.opcode.mnemonic ++ "(" ++ ", ".intercalate shown ++ ")"

/-- The operands of an instruction are of the kinds that its operation asks for. -/
theorem kind_operands
    (i : Instruction) :
    i.operands.map Operand.kind = i.opcode.operands.map Prod.snd := by
  cases i <;> rfl

/-- An instruction is put together again from its operation and operands. -/
@[simp] theorem ofOperands?_operands
    (i : Instruction) :
    ofOperands? i.opcode i.operands = some i := by
  cases i <;> rfl

end Instruction

end StackMachine
