import StackMachine.Instruction.Basic

/-!
# Sample programs

Three small programs that show what the machine can do.

* `Sample.program` gives the instructions of a sample.
-/

namespace StackMachine

/-- The sample programs. -/
inductive Sample
  /-- Copies the input to the output, byte by byte. -/
  | echo
  /-- Reads a number and prints what a loop of that many rounds has added up. -/
  | sum
  /-- Prints a greeting. -/
  | hello
  deriving DecidableEq, Repr

namespace Sample

/-- All samples, in the order in which they are shown. -/
def all : List Sample :=
  [echo, sum, hello]

/-- The name by which a sample is chosen. -/
def name : Sample → String
  | echo => "echo"
  | sum => "sum"
  | hello => "hello"

/-- What a sample does, in a few words. -/
def description : Sample → String
  | echo => "Echo input bytes to output"
  | sum => "Read n, loop n times, print the result"
  | hello => "Print a greeting"

/-- The sample of a given name. -/
def ofName? (s : String) : Option Sample :=
  all.find? (·.name == s)

/-- The instructions of a sample.  The loop of `sum` starts at position 4, with a zero, the rounds
that are left and the last two sums on the stack, bottom first. -/
def program : Sample → Program
  | echo => [.readByte, .printByte 0, .jump 0]
  | sum =>
      [.push 0, .readNumber, .push 0, .push 1,
        .jumpIfEqual 2 3 9, .copy 0, .add 1 2, .decrement 2, .jump 4,
        .printNumber 0]
  | hello => [.printText "Hello, world!"]

end Sample

end StackMachine
