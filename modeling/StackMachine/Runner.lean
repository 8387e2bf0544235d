import StackMachine.CommandLine.Outcome
import StackMachine.Listing
import StackMachine.Machine.Run

/-!
# The runner

The command that runs a program file on the standard streams.  It settles its settings, opens the
log, loads the program, and lists or runs it.  Nothing is run unless the whole file is a program.

The exit status is 0 after a program that came to its end or to the end of its input, 1 if there is
no program to run, 2 after a step that failed, and 3 if the limit on steps was reached.

* `Runner.run` is the command.
-/

namespace StackMachine.Runner

open CommandLine

/-- How the runner presents itself. -/
def manual : Manual where
  name := "bvm"
  usage := [
    "usage: bvm [-h] [--trace] [--max-steps MAX_STEPS] [--dump] [--verbose]",
    "           [--log-file LOG_FILE] [--version]",
    "           program"]
  details := [
    "Run a bytecode VM program against stdin/stdout",
    "",
    "positional arguments:",
    "  program               Program file (binary records)",
    "",
    "options:",
    "  -h, --help            show this help message and exit",
    "  --trace               Record every step and print the trace to stderr",
    "  --max-steps MAX_STEPS",
    "                        Stop after N executed instructions (0 = unlimited)",
    "  --dump                Print a listing of the program and exit",
    "  --verbose, -v         Increase log verbosity (-v info, -vv debug)",
    "  --log-file LOG_FILE   Also write a DEBUG log to this file",
    "  --version             show program's version number and exit"]

/-- The arguments of the runner. -/
def grammar : Grammar where
  options := [
    ⟨["-h", "--help"], .help⟩,
    ⟨["--trace"], .flag⟩,
    ⟨["--max-steps"], .value []⟩,
    ⟨["--dump"], .flag⟩,
    ⟨["--verbose", "-v"], .flag⟩,
    ⟨["--log-file"], .value []⟩,
    ⟨["--version"], .version⟩]
  positional := "program"
  required := true

/-- What the runner is asked to do. -/
structure Arguments where
  /-- The path of the program file. -/
  path : String
  /-- Whether the program is listed and not run. -/
  dump : Bool
  overrides : Settings.Overrides
  deriving DecidableEq, Repr

/-- The runner's arguments from what was matched. -/
def Arguments.ofMatches (m : Matches) : Arguments where
  path := m.positional.getD ""
  dump := m.count "--dump" != 0
  overrides := {
    trace := m.count "--trace" != 0
    stepLimit := m.last? Settings.limitFlag
    verbosity := m.count "--verbose"
    logFile := m.value? "--log-file" }

/-- The sources of the runner's messages. -/
def mainSource : String := "bytecode_vm"

/-- The source of messages about reading a program. -/
def programSource : String := mainSource ++ ".codec"

/-- The source of messages about a machine. -/
def machineSource : String := mainSource ++ ".machine"

/-- The source of messages about the command. -/
def commandSource : String := mainSource ++ ".bvm"

/-- The message about a log file that is opened. -/
def openMessage (path : String) : LogMessage :=
  ⟨.info, mainSource, "setup_logging:64", "Log file: " ++ FileTree.normalPath path⟩

/-- The messages about a loaded program. -/
def loadMessages (path : String) (bytes : List UInt8) (p : Program) : List LogMessage :=
  [⟨.debug, programSource, "decode:153",
      "Decoded " ++ toString p.length ++ " instructions from " ++ toString bytes.length ++
        " bytes"⟩,
    ⟨.info, commandSource, "main:103",
      "Loaded " ++ toString p.length ++ " instructions from " ++ path⟩]

/-- The messages of a machine about a run from which it comes back as `m`. -/
def runMessages (m : Machine) (result : RunResult) : List LogMessage :=
  let debug (origin text : String) : LogMessage := ⟨.debug, machineSource, origin, text⟩
  let ending := match result with
    | .ok reason =>
        (if reason = .endOfInput then [debug "step:104" ("End of input at pc " ++ toString m.pc)]
          else []) ++
          [debug "run:133" ("Run stopped: " ++ reason.label ++ " after " ++ toString m.steps ++
            " steps (pc=" ++ toString m.pc ++ ", depth=" ++ toString m.stack.size ++ ")")]
    | .error _ => []
  debug "run:122" ("Run start: " ++ toString m.program.size ++ " instructions") ::
    (m.trace.toList.map (debug "step:99" ·.line) ++ ending)

/-- The messages of the command about a run that stopped. -/
def stopMessages (m : Machine) (reason : Stop) : List LogMessage :=
  let halted : LogMessage :=
    ⟨.info, commandSource, "main:132",
      "Halted: " ++ reason.label ++ " after " ++ toString m.steps ++ " steps"⟩
  let limit : LogMessage :=
    ⟨.warning, commandSource, "main:134",
      "Step limit of " ++ toString (m.stepLimit.getD 0) ++ " reached at pc " ++ toString m.pc⟩
  halted :: if reason = .stepLimit then [limit] else []

/-- The status after a run that stopped. -/
def stopStatus (reason : Stop) : Nat :=
  match reason with
  | .programEnd | .endOfInput => 0
  | .stepLimit => 3

/-- What a failed step comes to: the ending of the command and its complaint. -/
def failureEnding (e : Failure) : Ending × String :=
  let complaint (what : String) : Ending × String :=
    (.exit 2, what ++ " error: " ++ e.message ++ "\n")
  match e.fault.family with
  | .input => complaint "Input"
  | .bounds => complaint "Bounds"
  | .arithmetic => complaint "Arithmetic"
  | .output => complaint "Output"
  | .conversion => (.interrupted (.conversion e.fault), "")

/-- What a run comes to: the ending of the command and its complaint. -/
def runEnding : RunResult → Ending × String
  | .ok reason => (.exit (stopStatus reason), "")
  | .error e => failureEnding e

/-- The machine that the runner starts.  No source of settings gives a limit below zero; one would
stop the machine at once, as zero does. -/
def machine (s : Settings) (p : Program) : Machine :=
  Machine.start p s.trace (s.stepLimit.map Int.toNat)

/-- The console that the runner starts with. -/
def console (w : World) : Console :=
  { Console.ofInput w.input with budget := w.outputBudget }

/-- The trace as the runner prints it, if it is asked for. -/
def printedTrace (s : Settings) (m : Machine) : String :=
  if s.trace then m.traceText ++ "\n" else ""

/-- Runs a loaded program. -/
def execute (fuel : Nat) (w : World) (s : Settings) (log : Log) (p : Program) : Option Outcome :=
  ((machine s p).run fuel (console w)).map fun (result, m, c) =>
    let (ending, complaint) := runEnding result
    let messages := match result with
      | .ok reason => runMessages m result ++ stopMessages m reason
      | .error _ => runMessages m result
    { ending := ending
      output := c.written
      errors := complaint ++ printedTrace s m
      log := log.add messages
      files := w.files
      consumed := c.consumed }

/-- The complaint about a program file that cannot be read. -/
def readComplaint (path : String) (e : FileError) : String :=
  match e with
  | .notFound => "Error: File not found: " ++ path ++ "\n"
  | _ => "Error reading " ++ path ++ ": " ++ e.message path ++ "\n"

/-- Loads the program and lists or runs it. -/
def load (fuel : Nat) (w : World) (s : Settings) (a : Arguments) (log : Log) : Option Outcome :=
  match w.files.read a.path with
  | .error .embeddedNul =>
      some { Outcome.interrupt w (.file .embeddedNul a.path) with log := log }
  | .error e => some { Outcome.complain w 1 (readComplaint a.path e) with log := log }
  | .ok bytes =>
      match Program.decode bytes with
      | .error e =>
          let complaint := "Format error in " ++ a.path ++ ": " ++ e.message ++ "\n"
          some { Outcome.complain w 1 complaint with log := log }
      | .ok p =>
          let log := log.add (loadMessages a.path bytes p)
          if a.dump then
            some { Outcome.print w (Listing.text p ++ "\n") with log := log }
          else
            execute fuel w s log p

/-- Opens the log and goes on.  The log file has its first line when the program is loaded, which
matters if it is the program. -/
def start (fuel : Nat) (w : World) (a : Arguments) (s : Settings) : Option Outcome :=
  match s.logFile with
  | none => load fuel w s a ⟨s.logLevel, false, []⟩
  | some path =>
      match w.files.openLog path with
      | .error (e, place) => some (Outcome.interrupt w (.file e place))
      | .ok (files, place) =>
          let withLog (log : Log) : FileTree := files.append place (log.fileBytes w.clock)
          let log : Log := ⟨s.logLevel, true, [openMessage path]⟩
          (load fuel { w with files := withLog log } s a log).map fun o =>
            { o with files := withLog o.log }

/-- The command; it has no outcome if the program would attempt more than `fuel` steps. -/
def run (fuel : Nat) (w : World) (args : List String) : Option Outcome :=
  withArguments manual grammar w args fun m =>
    let a := Arguments.ofMatches m
    match Settings.ofSources w.environment a.overrides with
    | .error .negativeLimitTooLong => some (.interrupt w .numberTooLong)
    | .error .missingLimit => some (.interrupt w .missingLimit)
    | .error e => some (.complain w 1 ("Config error: " ++ e.message ++ "\n"))
    | .ok s => start fuel w a s

end StackMachine.Runner
