import StackMachine.Program

/-!
# Listings

A listing shows a program one instruction a line: the position in the program, the offset of the
record in the program's bytes, the tag, and the instruction itself.  Positions that some branch may
go to are marked.

* `Program.targets` are these positions, `Listing.rows` the rows and `Listing.text` the whole text.
-/

namespace StackMachine

/-- Drops every element that equals the one before it. -/
def dropRepeats : List Nat → List Nat
  | a :: b :: rest => if a = b then dropRepeats (b :: rest) else a :: dropRepeats (b :: rest)
  | short => short

/-- The positions that some branch of the program may go to, in increasing order. -/
def Program.targets (p : Program) : List Nat :=
  dropRepeats ((p.filterMap Instruction.target?).mergeSort (· ≤ ·))

namespace Listing

/-- A text set to the right in a column; it keeps its length if the column is too narrow. -/
def alignRight (width : Nat) (s : String) : String :=
  String.ofList (List.replicate (width - s.length) ' ') ++ s

/-- One instruction of a listing. -/
structure Row where
  /-- Whether some branch may go to the instruction. -/
  marked : Bool
  pc : Nat
  /-- Where the record of the instruction starts. -/
  offset : Nat
  instruction : Instruction
  deriving DecidableEq, Repr

/-- A row as a line of text. -/
def Row.render (r : Row) : String :=
  (if r.marked then ">" else " ") ++ alignRight 5 (toString r.pc) ++ "  " ++
    alignRight 8 (toString r.offset) ++ "  " ++
    alignRight 3 (toString r.instruction.opcode.tag.toNat) ++ "  " ++ r.instruction.render

/-- The rows of the instructions from position `pc` on, whose records start at `offset`.  The rows
before them are in `done`, the latest first. -/
def rowsFrom (targets : List Nat) (pc offset : Nat) (done : List Row) : Program → List Row
  | [] => done.reverse
  | i :: rest =>
      rowsFrom targets (pc + 1) (offset + i.encode.length)
        (⟨targets.contains pc, pc, offset, i⟩ :: done) rest

/-- The rows of a program. -/
def rows (p : Program) : List Row :=
  rowsFrom p.targets 0 0 [] p

/-- The names of the columns. -/
def header : String :=
  alignRight 6 "PC" ++ "  " ++ alignRight 8 "OFFSET" ++ "  " ++ alignRight 3 "TAG" ++
    "  INSTRUCTION"

/-- The line between the rows and what surrounds them. -/
def rule : String :=
  String.ofList (List.replicate 60 '-')

/-- The counts below the rows. -/
def footer (p : Program) : String :=
  toString p.length ++ " instructions, " ++ toString p.encode.length ++ " bytes"

/-- The lines of a listing. -/
def lines (p : Program) : List String :=
  header :: rule :: ((rows p).map Row.render ++ [rule, footer p])

/-- A listing; its lines are joined by line feeds. -/
def text (p : Program) : String :=
  "\n".intercalate (lines p)

end Listing

end StackMachine
