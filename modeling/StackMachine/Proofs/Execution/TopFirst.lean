import Mathlib.Data.Nat.Digits.Defs
import StackMachine.Machine.Step

/-!
# Instructions on a stack whose top comes first

The table of instructions, read on a stack that is a list of words with the top as its head, so that
an offset is simply a position in the list.

* `TopFirst.strayOffset` is the first operand of an instruction that names no element.
* `TopFirst.misfit` is what else can stand in the way: two summands that are one element, or a
  result that does not fit.
* `TopFirst.OutOfBounds` and `TopFirst.Overflows` are these obstacles, sorted by the family of the
  fault that they lead to.
* `TopFirst.perform` is what an instruction does if nothing stands in its way, and
  `TopFirst.execute` puts the three together.
-/

namespace StackMachine
namespace TopFirst

/-- The elements of a machine's stack, the top first. -/
def topFirst (stack : Stack) : List Word :=
  stack.toList.reverse.map fun n => UInt64.ofNat n.toNat

/-- The stack of a machine, bottom first, that has the given elements, the top first. -/
def bottomFirst (s : List Word) : Stack :=
  (s.reverse.map fun w => (w.toNat : Int)).toArray

/-- The element at an offset from the top. -/
def element (s : List Word) (p : Word) : Word :=
  s.getD p.toNat 0

/-- The elements at other offsets than `a` and `b`, in order. -/
def without (s : List Word) (a b : Word) : List Word :=
  (s.zipIdx.filter fun x => x.2 ≠ a.toNat ∧ x.2 ≠ b.toNat).map Prod.fst

/-- The offsets that an instruction names, in order. -/
def offsets : Instruction → List Word
  | .printNumber p | .copy p | .decrement p | .increment p | .printByte p => [p]
  | .add a b | .jumpIfGreater a b _ | .jumpIfEqual a b _ => [a, b]
  | .push _ | .readNumber | .printText _ | .jump _ | .readByte => []

/-- The first offset of an instruction that names no element. -/
def strayOffset (s : List Word) (i : Instruction) : Option Word :=
  (offsets i).find? fun p => s.length ≤ p.toNat

/-- The two summands are one element. -/
def SameElement : Instruction → Prop
  | .add a b => a = b
  | _ => False

instance : DecidablePred SameElement
  | .add a b => inferInstanceAs (Decidable (a = b))
  | .push _ | .printNumber _ | .readNumber | .printText _ | .copy _ | .jumpIfGreater _ _ _
  | .jumpIfEqual _ _ _ | .jump _ | .decrement _ | .increment _ | .readByte | .printByte _ =>
      inferInstanceAs (Decidable False)

/-- An operand of the instruction names no element, or its two summands are one element. -/
def OutOfBounds (s : List Word) (i : Instruction) : Prop :=
  (∃ p ∈ offsets i, s.length ≤ p.toNat) ∨ SameElement i

instance (s : List Word) (i : Instruction) : Decidable (OutOfBounds s i) :=
  inferInstanceAs (Decidable ((∃ p ∈ offsets i, s.length ≤ p.toNat) ∨ SameElement i))

/-- The result of the instruction does not fit. -/
def Overflows (s : List Word) : Instruction → Prop
  | .add a b => 2 ^ 64 ≤ (element s a).toNat + (element s b).toNat
  | .decrement p => element s p = 0
  | .increment p => (element s p).toNat = 2 ^ 64 - 1
  | .printByte p => 255 < (element s p).toNat
  | _ => False

instance (s : List Word) : DecidablePred (Overflows s)
  | .add a b => inferInstanceAs (Decidable (2 ^ 64 ≤ (element s a).toNat + (element s b).toNat))
  | .decrement p => inferInstanceAs (Decidable (element s p = 0))
  | .increment p => inferInstanceAs (Decidable ((element s p).toNat = 2 ^ 64 - 1))
  | .printByte p => inferInstanceAs (Decidable (255 < (element s p).toNat))
  | .push _ | .printNumber _ | .readNumber | .printText _ | .copy _ | .jumpIfGreater _ _ _
  | .jumpIfEqual _ _ _ | .jump _ | .readByte => inferInstanceAs (Decidable False)

/-- The fault of an instruction whose offsets name elements, but whose summands are one element or
whose result does not fit. -/
def misfit (s : List Word) : Instruction → Option Fault
  | .add a b =>
      if a = b then
        some (.sameSlot a.toNat b.toNat s.length)
      else if 2 ^ 64 ≤ (element s a).toNat + (element s b).toNat then
        some (.addOverflow (element s a).toNat (element s b).toNat)
      else
        none
  | .decrement p => if element s p = 0 then some .decrementUnderflow else none
  | .increment p => if (element s p).toNat = 2 ^ 64 - 1 then some .incrementOverflow else none
  | .printByte p =>
      if 255 < (element s p).toNat then some (.byteOverflow (element s p).toNat) else none
  | _ => none

/-! ## Lines -/

/-- The bytes of a text and a line feed. -/
def lineOf (text : String) : List UInt8 :=
  text.toUTF8.data.toList ++ [lineFeed]

/-- The length of the first line: up to the first line feed, or all there is. -/
def lineLength (input : List UInt8) : Nat :=
  if lineFeed ∈ input then input.idxOf lineFeed + 1 else input.length

/-- A line without its end, a line feed or a carriage return and a line feed. -/
def lineText (line : List UInt8) : List UInt8 :=
  if [carriageReturn, lineFeed] <:+ line then line.take (line.length - 2)
  else if [lineFeed] <:+ line then line.take (line.length - 1)
  else line

/-- The word that a line holds: decimal digits after an optional plus sign. -/
def lineWord (line : List UInt8) : Except NumberLine.Rejection Word :=
  let text := lineText line
  let digits := if [0x2B] <+: text then text.drop 1 else text
  let n := Nat.ofDigits 10 (digits.reverse.map fun d => d.toNat - 0x30)
  if digits = [] ∨ ∃ d ∈ digits, d < 0x30 ∨ 0x39 < d then .error (.notANumber text)
  else if Text.maxDecimalDigits < digits.length then .error (.tooLong digits.length)
  else if 2 ^ 64 ≤ n then .error (.tooLarge n)
  else .ok (UInt64.ofNat n)

/-- The first line of the input holds no word. -/
def BadLine (input : List UInt8) (rejection : NumberLine.Rejection) : Prop :=
  input ≠ [] ∧ lineWord (input.take (lineLength input)) = .error rejection

/-! ## Effects -/

/-- What becomes of an instruction. -/
inductive Outcome
  /-- It is executed: the stack and the position after it, the bytes that it has written, and the
  input that it has left. -/
  | next (stack : List Word) (pc : Nat) (output input : List UInt8)
  /-- It found no input. -/
  | endOfInput
  /-- It failed, and has left some input. -/
  | failed (f : Fault) (input : List UInt8)

/-- What an instruction at position `pc` does if nothing stands in its way. -/
def perform (pc : Nat) (s : List Word) (input : List UInt8) : Instruction → Outcome
  | .push w => .next (w :: s) (pc + 1) [] input
  | .printNumber p => .next s (pc + 1) (lineOf (toString (element s p).toNat)) input
  | .readNumber =>
      if input = [] then
        .endOfInput
      else
        let line := input.take (lineLength input)
        let rest := input.drop (lineLength input)
        match lineWord line with
        | .ok w => .next (w :: s) (pc + 1) [] rest
        | .error rejection => .failed (.badLine line rejection) rest
  | .printText text => .next s (pc + 1) (lineOf text) input
  | .copy p => .next (element s p :: s) (pc + 1) [] input
  | .add a b => .next ((element s a + element s b) :: without s a b) (pc + 1) [] input
  | .jumpIfGreater a b t =>
      .next s (if element s b < element s a then t.toNat else pc + 1) [] input
  | .jumpIfEqual a b t =>
      .next s (if element s a = element s b then t.toNat else pc + 1) [] input
  | .jump t => .next s t.toNat [] input
  | .decrement p => .next (s.set p.toNat (element s p - 1)) (pc + 1) [] input
  | .increment p => .next (s.set p.toNat (element s p + 1)) (pc + 1) [] input
  | .readByte =>
      match input with
      | [] => .endOfInput
      | b :: rest => .next (b.toUInt64 :: s) (pc + 1) [] rest
  | .printByte p => .next s (pc + 1) [(element s p).toUInt8] input

/-- What becomes of an instruction at position `pc`. -/
def execute (pc : Nat) (s : List Word) (input : List UInt8) (i : Instruction) : Outcome :=
  match strayOffset s i with
  | some p => .failed (.offsetOutOfRange p.toNat s.length) input
  | none =>
      match misfit s i with
      | some f => .failed f input
      | none => perform pc s input i

end TopFirst
end StackMachine
