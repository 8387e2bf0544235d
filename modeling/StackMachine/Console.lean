/-!
# Consoles

A console is the input that a machine reads from and the output that it writes to.  Lines and single
bytes are taken from one sequence of input bytes.  The output may be closed after some number of
writes; from then on every write is refused.  All calls are recorded in order, refused writes too.

* `Console.readLine` and `Console.readByte` take input, `Console.write` and `Console.flush` are
  calls on the output.
* `Console.written_write`: what a write adds to the output.
-/

namespace StackMachine

/-- The line feed, which ends a line. -/
def lineFeed : UInt8 := 10

/-- The carriage return, which may stand before the line feed. -/
def carriageReturn : UInt8 := 13

/-- A call on the streams of a console. -/
inductive StreamCall
  /-- An accepted write of the given bytes. -/
  | write (bytes : List UInt8)
  /-- A write of the given bytes that was refused. -/
  | refusedWrite (bytes : List UInt8)
  | flush
  | readLine
  | readByte
  deriving DecidableEq, Repr

/-- The streams of a machine. -/
structure Console where
  /-- The input bytes that have not been read. -/
  input : List UInt8
  /-- How many input bytes have been read. -/
  consumed : Nat
  /-- The accepted writes, in order. -/
  writes : Array (List UInt8)
  /-- How many more writes are accepted, if there is a bound. -/
  budget : Option Nat
  /-- The calls made so far, in order. -/
  calls : Array StreamCall
  deriving DecidableEq, Repr

/-- The first line of the input with the line feed that ends it, and what follows.  The last line
may have no line feed. -/
def firstLine (input : List UInt8) : List UInt8 × List UInt8 :=
  let line := input.takeWhile (· != lineFeed)
  match input.dropWhile (· != lineFeed) with
  | [] => (line, [])
  | terminator :: rest => (line ++ [terminator], rest)

namespace Console

/-- A console with the given input whose output accepts every write. -/
def ofInput (input : List UInt8) : Console :=
  ⟨input, 0, #[], none, #[]⟩

/-- Everything that has been written. -/
def written (c : Console) : List UInt8 :=
  c.writes.toList.flatten

/-- Adds bytes to the end of the input. -/
def feed (c : Console) (bytes : List UInt8) : Console :=
  { c with input := c.input ++ bytes }

/-- Passes the output on.  Only writes are refused: a console whose output fails when it is passed
on is not among these. -/
def flush (c : Console) : Console :=
  { c with calls := c.calls.push .flush }

/-- Takes a line from the input, with its terminator; it is empty if there is no input left. -/
def readLine (c : Console) : List UInt8 × Console :=
  let (line, rest) := firstLine c.input
  (line,
    { c with
      input := rest
      consumed := c.consumed + line.length
      calls := c.calls.push .readLine })

/-- Takes a byte from the input, if there is one. -/
def readByte (c : Console) : Option UInt8 × Console :=
  match c.input with
  | [] => (none, { c with calls := c.calls.push .readByte })
  | b :: rest =>
      (some b,
        { c with
          input := rest
          consumed := c.consumed + 1
          calls := c.calls.push .readByte })

/-- Adds an accepted write. -/
def accept (c : Console) (bytes : List UInt8) : Console :=
  { c with writes := c.writes.push bytes, calls := c.calls.push (.write bytes) }

/-- Records a refused write, which changes nothing else. -/
def refuse (c : Console) (bytes : List UInt8) : Console :=
  { c with calls := c.calls.push (.refusedWrite bytes) }

/-- Writes bytes, and tells whether the output accepted them. -/
def write (c : Console) (bytes : List UInt8) : Bool × Console :=
  match c.budget with
  | none => (true, c.accept bytes)
  | some 0 => (false, c.refuse bytes)
  | some (n + 1) => (true, { c.accept bytes with budget := some n })

/-- An accepted write adds its bytes to the output, a refused one adds nothing. -/
theorem written_write
    (c : Console) (bytes : List UInt8) :
    (c.write bytes).2.written = c.written ++ if (c.write bytes).1 then bytes else [] := by
  unfold write
  split <;> simp [written, accept, refuse]

end Console

end StackMachine
