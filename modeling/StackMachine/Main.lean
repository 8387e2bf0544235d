import Std.Time.Format
import Std.Time.Zoned
import StackMachine.Runner
import StackMachine.SampleWriter

/-!
# The commands

The outer layer of the two commands: it looks up the files that the arguments mention, hands them to
the command with the standard input and the environment, and carries out what comes back.  The name
of the executable chooses the command.
-/

namespace StackMachine.CommandLine

/-- The most steps that a program may attempt; no program gets that far in a lifetime. -/
def allSteps : Nat := 0x4000000000000000

/-- The environment variables that the commands look at. -/
def variableNames : List String :=
  [Settings.traceVariable, Settings.limitVariable, Settings.logLevelVariable]

/-- The paths that an argument may mention: itself, and what follows an equals sign. -/
def mentioned (arg : String) : List String :=
  match splitAtEquals arg with
  | (_, some value) => [arg, value]
  | (_, none) => [arg]

/-- The path of a place. -/
def placePath (p : Place) : String :=
  FileTree.joinPath "/" p

/-- The places on the way along a path, as its names lead there. -/
def stations (t : FileTree) (path : String) : List Place :=
  let go (visited : List Place) (name : String) : List Place :=
    let here := visited.head?.getD (t.startOf path)
    (if name = ".." then here.dropLast else here ++ [name]) :: visited
  ((FileTree.significantNames path).foldl go []).reverse

/-- The environment variables that are set. -/
def readEnvironment : IO Environment := do
  let found ← variableNames.mapM fun name => do
    return (← IO.getEnv name).map fun value => (name, value)
  return found.filterMap id

/-- Adds what is found at a place to a tree. -/
def discover (t : FileTree) (p : Place) : IO FileTree := do
  match ← (IO.FS.readBinFile (placePath p)).toBaseIO with
  | .ok bytes => return t.put p bytes.toList
  | .error (.inappropriateType _ code _) =>
      if FileError.isADirectory.code? = some code.toNat then
        return { t with directories := p :: t.directories }
      else
        return t
  | .error _ => return t

/-- Everything from the standard input. -/
partial def readAll (done : ByteArray) : IO ByteArray := do
  let chunk ← (← IO.getStdin).read 65536
  if chunk.isEmpty then return done else readAll (done ++ chunk)

/-- The bytes of a list. -/
def toByteArray (bytes : List UInt8) : ByteArray :=
  ⟨bytes.toArray⟩

/-- The local time, as log files show it. -/
def readClock : IO String := do
  return (← Std.Time.PlainDateTime.now).format "uuuu-MM-dd HH:mm:ss"

/-- A log message as the terminal shows it. -/
def shownLine (m : LogMessage) : String :=
  m.severity.label ++ " " ++ m.text ++ "\n"

/-- Carries out what a command leaves behind, and gives its exit status. -/
def carryOut (before : FileTree) (o : Outcome) : IO UInt32 := do
  for p in o.files.directories do
    if !before.directories.contains p then
      IO.FS.createDirAll (placePath p)
  for (p, bytes) in o.files.changedSince before do
    IO.FS.writeBinFile (placePath p) (toByteArray bytes)
  let output ← IO.getStdout
  output.write (toByteArray o.output)
  output.flush
  let errors ← IO.getStderr
  o.log.shown.forM fun m => errors.putStr (shownLine m)
  errors.putStr o.errors
  match o.ending with
  | .exit status => return UInt32.ofNat status
  | .interrupted cause =>
      errors.putStr (cause.message ++ "\n")
      return 1

end StackMachine.CommandLine

open StackMachine in
/-- Runs the command that the executable is named for: the sample writer under its own name, and the
runner under any other. -/
def main (args : List String) : IO UInt32 := do
  let ⟨directory⟩ ← IO.currentDir
  let start : FileTree := ⟨FileTree.significantNames directory, [], []⟩
  let places := (args.flatMap CommandLine.mentioned).flatMap (CommandLine.stations start)
  let files ← places.foldlM CommandLine.discover start
  let environment ← CommandLine.readEnvironment
  let clock ← CommandLine.readClock
  let ⟨executable⟩ ← IO.appPath
  if (FileTree.significantNames executable).getLast? = some SampleWriter.manual.name then
    let w : CommandLine.World := ⟨files, [], environment, none, clock⟩
    match SampleWriter.run w args with
    | some o => CommandLine.carryOut files o
    | none => return 1
  else
    let input ← CommandLine.readAll .empty
    let w : CommandLine.World := ⟨files, input.toList, environment, none, clock⟩
    match Runner.run CommandLine.allSteps w args with
    | some o => CommandLine.carryOut files o
    | none => return 1
