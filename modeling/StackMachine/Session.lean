import StackMachine.Machine.Run

/-!
# Sessions

A session is one machine with its console, driven by a sequence of operations: steps, runs, changes
of the machine's settings, and more input.  A failed operation does not end the session.

A run may also be given its input as a block of bytes, which it then reads from the start, or a text
stream that does not let bytes through, which it refuses.

* `Session.perform` is one operation, `Session.performAll` a sequence of them.
-/

namespace StackMachine

/-- Where the runs of a session get their input. -/
inductive InputSupply
  /-- All operations read on in the input of the console. -/
  | shared
  /-- Every run reads the same block from its start. -/
  | block (bytes : List UInt8)
  /-- A text stream that holds no bytes. -/
  | textOnly
  deriving DecidableEq, Repr

/-- What can be done with a machine and its console. -/
inductive Operation
  | step
  | run
  | setTracing (on : Bool)
  | setStack (stack : Stack)
  | setPosition (pc : Nat)
  | setLimit (stepLimit : Option Nat)
  | feed (bytes : List UInt8)
  deriving DecidableEq, Repr

/-- What an operation reports. -/
inductive Report
  /-- The operation has nothing to report. -/
  | silent
  | stepped (result : StepResult)
  | ran (result : RunResult)
  /-- The run was refused, as one of its streams holds no bytes. -/
  | noByteStream

/-- The complaint about a stream that holds no bytes. -/
def noByteStreamMessage : String :=
  "StringIO has no binary buffer; pass a binary stream"

/-- A machine with its console. -/
structure Session where
  machine : Machine
  console : Console
  supply : InputSupply
  /-- Whether the output is a text stream that takes no bytes. -/
  outputIsText : Bool

namespace Session

/-- A run within a session; it has no result if it would attempt more than `fuel` steps. -/
def run (fuel : Nat) (s : Session) : Option (Report × Session) :=
  if s.supply = .textOnly ∨ s.outputIsText then
    some (.noByteStream, s)
  else
    let console := match s.supply with
      | .block bytes => { s.console with input := bytes }
      | _ => s.console
    (s.machine.run fuel console).map fun (result, machine, console) =>
      (.ran result, { s with machine := machine, console := console })

/-- One operation; a run that would attempt more than `fuel` steps has no result. -/
def perform (fuel : Nat) (s : Session) : Operation → Option (Report × Session)
  | .step =>
      let (result, machine, console) := s.machine.step s.console
      some (.stepped result, { s with machine := machine, console := console })
  | .run => s.run fuel
  | .setTracing on => some (.silent, { s with machine := { s.machine with tracing := on } })
  | .setStack stack => some (.silent, { s with machine := { s.machine with stack := stack } })
  | .setPosition pc => some (.silent, { s with machine := { s.machine with pc := pc } })
  | .setLimit limit => some (.silent, { s with machine := { s.machine with stepLimit := limit } })
  | .feed bytes =>
      match s.supply with
      | .block old => some (.silent, { s with supply := .block (old ++ bytes) })
      | _ => some (.silent, { s with console := s.console.feed bytes })

/-- A sequence of operations: the report of each, with the session after it. -/
def performAll (fuel : Nat) (s : Session) : List Operation → Option (List (Report × Session))
  | [] => some []
  | op :: rest => do
      let (report, s') ← s.perform fuel op
      let others ← s'.performAll fuel rest
      return (report, s') :: others

end Session

end StackMachine
