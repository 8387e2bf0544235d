/-!
# Operation codes

The thirteen operations of the machine.  The tag of an operation is the byte that marks its records;
the mnemonic and the names of its operands are what listings, traces and messages show.

* `Opcode.ofTag?_tag` and `Opcode.tag_of_ofTag?`: tags and operations determine each other.
-/

namespace StackMachine

/-- The kind of an operand. -/
inductive OperandKind
  /-- An unsigned 64-bit number. -/
  | word
  /-- A text, in a record written as its length in bytes and its UTF-8 bytes. -/
  | text
  deriving DecidableEq, Repr

/-- The operations of the machine. -/
inductive Opcode
  | push
  | printNumber
  | readNumber
  | printText
  | copy
  | add
  | jumpIfGreater
  | jumpIfEqual
  | jump
  | decrement
  | increment
  | readByte
  | printByte
  deriving DecidableEq, Repr, Inhabited

namespace Opcode

/-- All operations, in the order of their tags. -/
def all : List Opcode :=
  [push, printNumber, readNumber, printText, copy, add, jumpIfGreater, jumpIfEqual, jump,
    decrement, increment, readByte, printByte]

/-- The byte that marks a record of the operation. -/
def tag : Opcode → UInt8
  | push => 0
  | printNumber => 1
  | readNumber => 2
  | printText => 3
  | copy => 4
  | add => 5
  | jumpIfGreater => 6
  | jumpIfEqual => 7
  | jump => 8
  | decrement => 9
  | increment => 10
  | readByte => 11
  | printByte => 12

/-- The operation that a tag stands for. -/
def ofTag? (t : UInt8) : Option Opcode :=
  all.find? (·.tag == t)

/-- The name of the operation in the table of tags. -/
def label : Opcode → String
  | push => "PUSH"
  | printNumber => "OUT"
  | readNumber => "IN"
  | printText => "OUT_STR"
  | copy => "COPY"
  | add => "ADD"
  | jumpIfGreater => "GT"
  | jumpIfEqual => "EQ"
  | jump => "JMP"
  | decrement => "DEC"
  | increment => "INC"
  | readByte => "IN_BYTE"
  | printByte => "OUT_BYTE"

/-- The name of the operation in listings, traces and messages. -/
def mnemonic : Opcode → String
  | push => "Push"
  | printNumber => "Out"
  | readNumber => "In"
  | printText => "OutStr"
  | copy => "Copy"
  | add => "Add"
  | jumpIfGreater => "Gt"
  | jumpIfEqual => "Eq"
  | jump => "Jmp"
  | decrement => "Dec"
  | increment => "Inc"
  | readByte => "InByte"
  | printByte => "OutByte"

/-- The operands of the operation, in order: their names and kinds. -/
def operands : Opcode → List (String × OperandKind)
  | push => [("value", .word)]
  | printText => [("text", .text)]
  | add => [("a", .word), ("b", .word)]
  | jumpIfGreater | jumpIfEqual => [("a", .word), ("b", .word), ("target", .word)]
  | jump => [("target", .word)]
  | printNumber | copy | decrement | increment | printByte => [("offset", .word)]
  | readNumber | readByte => []

@[simp] theorem ofTag?_tag
    (o : Opcode) :
    ofTag? o.tag = some o := by
  cases o <;> rfl

theorem tag_of_ofTag?
    {t : UInt8} {o : Opcode}
    (h : ofTag? t = some o) :
    o.tag = t := by
  simpa using List.find?_some h

end Opcode

end StackMachine
