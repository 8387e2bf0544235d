import StackMachine.Machine.Basic
import StackMachine.Utf8

/-!
# Steps

One step of a machine executes the instruction at its position: it takes input or writes output,
changes the stack, and moves to the next instruction or to a branch target.  A step that fails, or
that finds no input, leaves the machine as it was; only its trace may have grown.

* `Instruction.execute` is what an instruction does to a stack and a console.
* `Machine.step` is one step.
-/

namespace StackMachine

/-- Why a machine stops. -/
inductive Stop
  /-- The position is past the end of the program. -/
  | programEnd
  /-- An instruction found no input to read. -/
  | endOfInput
  /-- The limit on steps is reached. -/
  | stepLimit
  deriving DecidableEq, Repr

/-- The name of a reason to stop. -/
def Stop.label : Stop → String
  | programEnd => "PROGRAM_END"
  | endOfInput => "END_OF_INPUT"
  | stepLimit => "STEP_LIMIT"

/-- What becomes of an instruction. -/
inductive Effect
  /-- It is executed: the stack after it, and the target if it branches. -/
  | done (stack : Stack) (target : Option Nat)
  /-- It found no input. -/
  | endOfInput
  | fault (f : Fault)
  deriving DecidableEq, Repr

/-- The index of the slot at an offset from the top of a stack. -/
def slot (stack : Stack) (offset : Word) : Except Fault (Fin stack.size) :=
  if h : offset.toNat < stack.size then
    .ok ⟨stack.size - 1 - offset.toNat, by omega⟩
  else
    .error (.offsetOutOfRange offset.toNat stack.size)

/-- The number at an offset from the top of a stack. -/
def peek (stack : Stack) (offset : Word) : Except Fault Int := do
  let k ← slot stack offset
  return stack[k]

/-- The stack without the elements at two different indices. -/
def eraseTwo (stack : Stack) (i j : Nat) : Stack :=
  let low := min i j
  let high := max i j
  (stack.eraseIdxIfInBounds low).eraseIdxIfInBounds (high - 1)

/-- The stack with two of its numbers replaced by their sum on top. -/
def addSlots (stack : Stack) (a b : Word) : Except Fault Stack := do
  let i ← slot stack a
  let j ← slot stack b
  if i = j then
    throw (.sameSlot a.toNat b.toNat stack.size)
  else
    let sum := stack[i] + stack[j]
    if sum ≤ Word.maximum then
      return (eraseTwo stack i j).push sum
    else
      throw (.addOverflow stack[i] stack[j])

/-- The stack with one of its numbers decreased by one. -/
def decrementSlot (stack : Stack) (offset : Word) : Except Fault Stack := do
  let k ← slot stack offset
  if stack[k] = 0 then
    throw .decrementUnderflow
  else
    return stack.set k (stack[k] - 1)

/-- The stack with one of its numbers increased by one. -/
def incrementSlot (stack : Stack) (offset : Word) : Except Fault Stack := do
  let k ← slot stack offset
  if stack[k] = Word.maximum then
    throw .incrementOverflow
  else
    return stack.set k (stack[k] + 1)

/-- Whether a condition on two numbers of the stack holds. -/
def compareSlots (stack : Stack) (a b : Word) (holds : Int → Int → Bool) :
    Except Fault Bool := do
  let x ← peek stack a
  let y ← peek stack b
  return holds x y

/-- The characters of a number in decimal. -/
def decimalNumeral : Int → List Char
  | .ofNat n => Nat.toDigits 10 n
  | .negSucc n => '-' :: Nat.toDigits 10 (n + 1)

/-- The bytes of a number in decimal, on a line of its own.  The numeral of a word is short enough
to be written. -/
def numberLine (n : Int) : List UInt8 :=
  (decimalNumeral n).map (fun c => UInt8.ofNat c.toNat) ++ [lineFeed]

/-- The bytes of a text, on a line of its own. -/
def textLine (s : String) : List UInt8 :=
  Utf8.encode s.toList ++ [lineFeed]

/-- The number of the stack that is written as a byte. -/
def byteAt (stack : Stack) (offset : Word) : Except Fault UInt8 := do
  let n ← peek stack offset
  if 255 < n then throw (.byteOverflow n)
  else if n < 0 then throw (.byteUnderflow n)
  else return UInt8.ofNat n.toNat

namespace Effect

/-- The effect of an instruction that only changes the stack. -/
def ofStack : Except Fault Stack → Effect
  | .ok stack => .done stack none
  | .error f => .fault f

/-- The effect of a conditional branch. -/
def ofCondition (stack : Stack) (target : Word) : Except Fault Bool → Effect
  | .ok true => .done stack (some target.toNat)
  | .ok false => .done stack none
  | .error f => .fault f

end Effect

/-- The effect of an instruction that writes. -/
def emit (stack : Stack) (c : Console) : Except Fault (List UInt8) → Effect × Console
  | .error f => (.fault f, c)
  | .ok bytes =>
      match c.write bytes with
      | (true, c') => (.done stack none, c')
      | (false, c') => (.fault .outputClosed, c')

/-- The effect of reading a number. -/
def acceptNumber (stack : Stack) (c : Console) : Effect × Console :=
  match c.flush.readLine with
  | ([], c') => (.endOfInput, c')
  | (line, c') =>
      match NumberLine.parse line with
      | .ok n => (.done (stack.push n) none, c')
      | .error rejection => (.fault (.badLine line rejection), c')

/-- The effect of reading a byte. -/
def acceptByte (stack : Stack) (c : Console) : Effect × Console :=
  match c.flush.readByte with
  | (none, c') => (.endOfInput, c')
  | (some b, c') => (.done (stack.push b.toNat) none, c')

/-- What an instruction does to a stack and a console.  Output is flushed before input is read. -/
def Instruction.execute (i : Instruction) (stack : Stack) (c : Console) : Effect × Console :=
  match i with
  | .push w => (.done (stack.push w.toNat) none, c)
  | .printNumber offset => emit stack c (numberLine <$> peek stack offset)
  | .readNumber => acceptNumber stack c
  | .printText s => emit stack c (.ok (textLine s))
  | .copy offset => (.ofStack (stack.push <$> peek stack offset), c)
  | .add a b => (.ofStack (addSlots stack a b), c)
  | .jumpIfGreater a b target =>
      (.ofCondition stack target (compareSlots stack a b fun x y => y < x), c)
  | .jumpIfEqual a b target =>
      (.ofCondition stack target (compareSlots stack a b fun x y => x == y), c)
  | .jump target => (.done stack (some target.toNat), c)
  | .decrement offset => (.ofStack (decrementSlot stack offset), c)
  | .increment offset => (.ofStack (incrementSlot stack offset), c)
  | .readByte => acceptByte stack c
  | .printByte offset => emit stack c ((fun b => [b]) <$> byteAt stack offset)

/-- What becomes of a step. -/
inductive StepResult
  /-- The step is executed and the machine goes on. -/
  | advanced
  | stopped (reason : Stop)
  | failed (e : Failure)
  deriving DecidableEq, Repr

/-- One step of a machine.  The limit on steps is not looked at. -/
def Machine.step (m : Machine) (c : Console) : StepResult × Machine × Console :=
  match m.program[m.pc]? with
  | none => (.stopped .programEnd, m, c)
  | some i =>
      let m := m.record i
      match i.execute m.stack c with
      | (.done stack target, c') =>
          (.advanced,
            { m with
              stack := stack
              pc := target.getD (m.pc + 1)
              steps := m.steps + 1 },
            c')
      | (.endOfInput, c') => (.stopped .endOfInput, m, c')
      | (.fault f, c') => (.failed ⟨m.pc, i, f⟩, m, c')

end StackMachine
