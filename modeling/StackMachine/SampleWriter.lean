import StackMachine.CommandLine.Outcome
import StackMachine.Listing
import StackMachine.Samples

/-!
# The sample writer

The command that writes one of the sample programs to a file.

* `SampleWriter.run` is the command.
-/

namespace StackMachine.SampleWriter

open CommandLine

/-- The names of the samples. -/
def sampleNames : List String :=
  Sample.all.map Sample.name

/-- How the sample writer presents itself. -/
def manual : Manual where
  name := "bvm-example"
  usage := [
    "usage: bvm-example [-h] [--program \x7b" ++ ",".intercalate sampleNames ++
      "\x7d] [--dump] [--list]",
    "                   [--version]",
    "                   [output]"]
  details := [
    "Write an example bytecode VM program",
    "",
    "positional arguments:",
    "  output                Output program file",
    "",
    "options:",
    "  -h, --help            show this help message and exit",
    "  --program \x7b" ++ ",".intercalate sampleNames ++ "\x7d",
    "                        Which example to write (default: echo)",
    "  --dump                Also print a listing of the written program",
    "  --list                List the available examples and exit",
    "  --version             show program's version number and exit",
    "",
    "Programs: " ++ ", ".intercalate sampleNames]

/-- The arguments of the sample writer. -/
def grammar : Grammar where
  options := [
    ⟨["-h", "--help"], .help⟩,
    ⟨["--program"], .value sampleNames⟩,
    ⟨["--dump"], .flag⟩,
    ⟨["--list"], .flag⟩,
    ⟨["--version"], .version⟩]
  positional := "output"
  required := false

/-- A sample as a line of the list of samples. -/
def listLine (s : Sample) : String :=
  "  " ++ s.name ++ String.ofList (List.replicate (8 - s.name.length) ' ') ++ " " ++
    s.description

/-- The report about a written sample. -/
def report (s : Sample) (path : String) : String :=
  "Wrote " ++ s.name ++ ": " ++ toString s.program.length ++ " instructions, " ++
    toString (Program.encode s.program).length ++ " bytes -> " ++ path

/-- Writes a sample and reports it. -/
def write (w : World) (s : Sample) (path : String) (dump : Bool) : Outcome :=
  match w.files.write path (Program.encode s.program) with
  | .error .embeddedNul => .interrupt w (.file .embeddedNul path)
  | .error e => .complain w 1 ("Error writing " ++ path ++ ": " ++ e.message path ++ "\n")
  | .ok files =>
      let lines := report s path :: if dump then [Listing.text s.program] else []
      { Outcome.print w (Manual.unlines lines) with files := files }

/-- The command. -/
def run (w : World) (args : List String) : Option Outcome :=
  withArguments manual grammar w args fun m =>
    let path := m.positional.getD ""
    if m.count "--list" != 0 then
      some (.print w (Manual.unlines (Sample.all.map listLine)))
    else if path.isEmpty then
      some (.complain w 2 (manual.usageError "the output file is required"))
    else if m.last? "--program" = some none then
      some (.interrupt w .missingSample)
    else
      let sample := ((m.value? "--program").bind Sample.ofName?).getD .echo
      some (write w sample path (m.count "--dump" != 0))

end StackMachine.SampleWriter
