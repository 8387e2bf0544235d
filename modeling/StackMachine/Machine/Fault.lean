import StackMachine.Instruction.Basic
import StackMachine.NumberLine

/-!
# Faults

What can go wrong when a machine executes an instruction, and how it is reported.  Most faults are
reported with the position and the instruction of the step; a refused write and a failed conversion
are not the program's doing and are reported alone.
-/

namespace StackMachine

/-- Why an instruction cannot be executed. -/
inductive Fault
  /-- The line that was read holds no number. -/
  | badLine (line : List UInt8) (rejection : NumberLine.Rejection)
  /-- The offset is not below the depth of the stack. -/
  | offsetOutOfRange (offset depth : Nat)
  /-- The two summands are one slot. -/
  | sameSlot (a b depth : Nat)
  /-- The sum does not fit in a word. -/
  | addOverflow (x y : Int)
  /-- Zero has no predecessor. -/
  | decrementUnderflow
  /-- The largest word has no successor. -/
  | incrementOverflow
  /-- The number is too large for a byte. -/
  | byteOverflow (value : Int)
  /-- The number is below zero, so that no byte stands for it. -/
  | byteUnderflow (value : Int)
  /-- The output refused a write. -/
  | outputClosed
  deriving DecidableEq, Repr

/-- The families of faults. -/
inductive FaultFamily
  /-- The input is not what the instruction needs. -/
  | input
  /-- A stack operand names no slot, or not two slots. -/
  | bounds
  /-- A result does not fit. -/
  | arithmetic
  /-- The output is closed. -/
  | output
  /-- A numeral is too long to be converted, or a number has no byte to be converted to. -/
  | conversion
  deriving DecidableEq, Repr

namespace Fault

/-- The family of a fault. -/
def family : Fault → FaultFamily
  | badLine _ (.tooLong _) | byteUnderflow _ => .conversion
  | badLine _ _ => .input
  | offsetOutOfRange _ _ | sameSlot _ _ _ => .bounds
  | addOverflow _ _ | decrementUnderflow | incrementOverflow | byteOverflow _ => .arithmetic
  | outputClosed => .output

/-- What went wrong, in words, if the numerals of the numbers are short enough to be written. -/
def detail : Fault → String
  | badLine _ (.notANumber text) =>
      "expected a non-negative integer, got " ++ Text.quoteBytes text
  | badLine _ (.tooLarge n) => "integer " ++ toString n ++ " does not fit in 64 bits"
  | badLine _ (.tooLong count) => Text.numeralTooLong count
  | offsetOutOfRange offset depth =>
      "stack offset " ++ toString offset ++ " out of range (stack depth " ++ toString depth ++ ")"
  | sameSlot a b _ =>
      "Add operands " ++ toString a ++ " and " ++ toString b ++ " name the same stack slot"
  | addOverflow x y =>
      "Add overflow: " ++ toString x ++ " + " ++ toString y ++ " exceeds 64 bits"
  | decrementUnderflow => "Dec underflow: value is already 0"
  | incrementOverflow => "Inc overflow: value is already 2**64-1"
  | byteOverflow n => "OutByte value " ++ toString n ++ " does not fit in one byte"
  | byteUnderflow _ => "bytes must be in range(0, 256)"
  | outputClosed => "output closed"

end Fault

/-- A failed step: its fault, and where it happened. -/
structure Failure where
  pc : Nat
  instruction : Instruction
  fault : Fault
  deriving DecidableEq, Repr

/-- Whether the report of a failure tells where it happened. -/
def Failure.isLocated (e : Failure) : Bool :=
  match e.fault.family with
  | .input | .bounds | .arithmetic => true
  | .output | .conversion => false

/-- A failure in words. -/
def Failure.message (e : Failure) : String :=
  if e.isLocated then
    "pc " ++ toString e.pc ++ " (" ++ e.instruction.render ++ "): " ++ e.fault.detail
  else
    e.fault.detail

end StackMachine
