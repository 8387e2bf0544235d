import StackMachine.Machine.Fault

/-!
# Machines

A machine is a program with a stack of numbers, a position in the program and a count of executed
steps.  The stack is kept bottom first; an instruction names a slot by its offset from the top.  A
machine may have a limit on its steps, and may record a trace of the steps that it attempts.

On a stack of words every instruction leaves a stack of words.  A stack that is put there from
outside may hold other integers, as long as their decimal numerals have at most
`Text.maxDecimalDigits` digits.  A longer numeral cannot be written, and what becomes of a step that
would have to write one, in its output, its trace or its complaint, is not described here.
-/

namespace StackMachine

/-- The numbers on a stack, bottom first. -/
abbrev Stack := Array Int

/-- A recorded step: the state in which it was attempted. -/
structure Attempt where
  pc : Nat
  instruction : Instruction
  /-- The stack before the step, bottom first. -/
  stack : Stack
  deriving DecidableEq, Repr

/-- A number with leading zeros up to the given width. -/
def zeroPadded (width n : Nat) : String :=
  let ds := Nat.toDigits 10 n
  String.ofList (List.replicate (width - ds.length) '0' ++ ds)

/-- A stack as a trace shows it, bottom first, if the numerals are short enough to be written. -/
def renderStack (stack : Stack) : String :=
  "[" ++ ", ".intercalate (stack.toList.map toString) ++ "]"

/-- A recorded step as a line of the trace. -/
def Attempt.line (a : Attempt) : String :=
  zeroPadded 4 a.pc ++ ": " ++ a.instruction.render ++ " stack=" ++ renderStack a.stack

/-- A machine between two steps. -/
structure Machine where
  program : Array Instruction
  /-- The numbers on the stack, bottom first. -/
  stack : Stack
  /-- The position of the next instruction. -/
  pc : Nat
  /-- How many steps have been executed. -/
  steps : Nat
  /-- How many steps may be executed in all, if there is a limit. -/
  stepLimit : Option Nat
  /-- Whether attempted steps are recorded. -/
  tracing : Bool
  /-- The recorded steps, in order. -/
  trace : Array Attempt
  deriving DecidableEq, Repr

namespace Machine

/-- A machine at the start of a program, with an empty stack. -/
def start (p : Program) (tracing : Bool) (stepLimit : Option Nat) : Machine :=
  ⟨p.toArray, #[], 0, 0, stepLimit, tracing, #[]⟩

/-- A limit on steps that is below zero. -/
structure NegativeLimit where
  value : Int
  deriving DecidableEq, Repr

/-- The complaint about a limit below zero. -/
def NegativeLimit.message (e : NegativeLimit) : String :=
  "max_steps must be >= 0, got " ++ toString e.value

/-- A limit on steps from a number that may be below zero. -/
def checkLimit : Option Int → Except NegativeLimit (Option Nat)
  | none => .ok none
  | some (.ofNat n) => .ok (some n)
  | some (.negSucc n) => .error ⟨.negSucc n⟩

/-- Whether the position is past the end of the program. -/
def halted (m : Machine) : Bool :=
  m.program.size ≤ m.pc

/-- Whether the machine has executed all the steps that it may. -/
def limitReached (m : Machine) : Bool :=
  match m.stepLimit with
  | none => false
  | some limit => limit ≤ m.steps

/-- Records an attempt to execute an instruction, if the machine keeps a trace. -/
def record (m : Machine) (i : Instruction) : Machine :=
  if m.tracing then { m with trace := m.trace.push ⟨m.pc, i, m.stack⟩ } else m

/-- Recording an attempt changes nothing but the trace. -/
theorem record_eq
    (m : Machine) (i : Instruction) :
    m.record i =
      { m with
        trace := if m.tracing then m.trace.push ⟨m.pc, i, m.stack⟩ else m.trace } := by
  unfold record
  split <;> rfl

/-- The trace as text, one line a step. -/
def traceText (m : Machine) : String :=
  "\n".intercalate (m.trace.toList.map Attempt.line)

end Machine

end StackMachine
