import StackMachine.CommandLine.Grammar
import StackMachine.FileTree
import StackMachine.Log
import StackMachine.Machine.Fault
import StackMachine.Settings
import StackMachine.Utf8

/-!
# Outcomes of commands

What a command starts from, and what it leaves behind.  A command ends with an exit status, or it is
interrupted by something that it does not handle.
-/

namespace StackMachine.CommandLine

/-- What a command finds when it starts. -/
structure World where
  files : FileTree
  /-- The bytes of the standard input. -/
  input : List UInt8
  environment : Environment
  /-- How many writes the standard output accepts, if there is a bound. -/
  outputBudget : Option Nat
  /-- The local time, as log files show it. -/
  clock : String

/-- What a command does not handle. -/
inductive Interruption
  /-- A step failed at a conversion. -/
  | conversion (f : Fault)
  /-- A number that was to be shown is too long to be converted. -/
  | numberTooLong
  | outputClosed
  /-- The flag for a limit is given without one. -/
  | missingLimit
  /-- The option for a sample is given without a name. -/
  | missingSample
  | file (e : FileError) (path : String)
  deriving DecidableEq, Repr

/-- An interruption in words. -/
def Interruption.message : Interruption → String
  | conversion f => f.detail
  | numberTooLong => Text.numberTooLong
  | outputClosed => "output closed"
  | missingLimit => SettingsError.missingLimit.message
  | missingSample => "no sample is named"
  | file e path => e.message path

/-- How a command ends. -/
inductive Ending
  | exit (status : Nat)
  | interrupted (cause : Interruption)
  deriving DecidableEq, Repr

/-- What a command leaves behind. -/
structure Outcome where
  ending : Ending
  /-- What was written to the standard output. -/
  output : List UInt8
  /-- What was written to the standard error. -/
  errors : String
  log : Log
  files : FileTree
  /-- How many bytes of the standard input were read. -/
  consumed : Nat

namespace Outcome

/-- A command that ends with a status and leaves everything as it was. -/
def exit (w : World) (status : Nat) : Outcome :=
  ⟨.exit status, [], "", ⟨Settings.warningLevel, false, []⟩, w.files, 0⟩

/-- A command that ends with a complaint. -/
def complain (w : World) (status : Nat) (errors : String) : Outcome :=
  { exit w status with errors := errors }

/-- A command that is interrupted and leaves everything as it was. -/
def interrupt (w : World) (cause : Interruption) : Outcome :=
  { exit w 0 with ending := .interrupted cause }

/-- A command that shows a text about itself in one write; it does not matter if this is refused. -/
def present (w : World) (text : String) : Outcome :=
  { exit w 0 with output := if w.outputBudget = some 0 then [] else Utf8.encode text.toList }

/-- A command that prints a text in one write and ends; it is interrupted if this is refused. -/
def print (w : World) (text : String) : Outcome :=
  if w.outputBudget = some 0 then interrupt w .outputClosed
  else { exit w 0 with output := Utf8.encode text.toList }

end Outcome

/-- How a command presents itself. -/
structure Manual where
  /-- The name of the command. -/
  name : String
  /-- The lines that sum up its arguments. -/
  usage : List String
  /-- The rest of its help. -/
  details : List String

namespace Manual

/-- The version of the commands. -/
def versionNumber : String := "0.2.0"

/-- Lines of text, each with its end. -/
def unlines (lines : List String) : String :=
  String.join (lines.map (· ++ "\n"))

/-- The help of a command. -/
def help (m : Manual) : String :=
  unlines (m.usage ++ "" :: m.details)

/-- The name and version of a command. -/
def version (m : Manual) : String :=
  unlines [m.name ++ " " ++ versionNumber]

/-- A complaint about the arguments, after the lines that sum them up. -/
def usageError (m : Manual) (text : String) : String :=
  unlines (m.usage ++ [m.name ++ ": error: " ++ text])

end Manual

/-- Reads the arguments of a command and goes on with them, or shows what they ask for, or complains
about them. -/
def withArguments (manual : Manual) (grammar : Grammar) (w : World) (args : List String)
    (go : Matches → Option Outcome) : Option Outcome :=
  match grammar.parse args with
  | .matched m => go m
  | .help => some (.present w manual.help)
  | .version => some (.present w manual.version)
  | .refused e => some (.complain w 2 (manual.usageError e.message))

end StackMachine.CommandLine
