import StackMachine.Text.Blank
import StackMachine.Text.IntegerLiteral
import StackMachine.Text.Quoted

/-!
# Settings

The settings of the runner and where they come from.  Environment variables change the defaults one
by one, in a fixed order, and the first malformed one is reported; flags given on the command line
win over them.

* `parseStepLimit` reads a limit on steps; no text and zero mean that there is no limit.
* `Settings.applyEnvironment` applies the environment, `Settings.applyOverrides` the flags.
-/

namespace StackMachine

/-- The settings of the runner. -/
structure Settings where
  /-- Whether steps are recorded. -/
  trace : Bool
  /-- The limit on steps, if there is one. -/
  stepLimit : Option Int
  /-- The least level of the messages that are shown. -/
  logLevel : Int
  /-- Where messages are also written to, if anywhere. -/
  logFile : Option String
  deriving DecidableEq, Repr

/-- Why a setting cannot be read. -/
inductive SettingsError
  | notABoolean (source value : String)
  | notAnInteger (source value : String)
  | negativeLimit (source : String) (value : Int)
  /-- The limit is negative, and its numeral is too long to be shown. -/
  | negativeLimitTooLong
  | unknownLevel (source value : String)
  /-- The flag for a limit is given without one. -/
  | missingLimit
  deriving DecidableEq, Repr

/-- The complaint about a setting. -/
def SettingsError.message : SettingsError → String
  | notABoolean source value => source ++ ": expected a boolean, got " ++ Text.quoteText value
  | notAnInteger source value => source ++ ": expected an integer, got " ++ Text.quoteText value
  | negativeLimit source n => source ++ ": must be >= 0, got " ++ toString n
  | negativeLimitTooLong => Text.numberTooLong
  | unknownLevel source value => source ++ ": unknown level " ++ Text.quoteText value
  | missingLimit => "no limit is given"

/-- A text without the white space around it. -/
def trimmed (s : String) : String :=
  String.ofList (Text.trim s.toList)

/-- Whether the decimal numeral of a number is short enough to be written. -/
def isShowable (n : Nat) : Bool :=
  (Nat.toDigits 10 n).length ≤ Text.maxDecimalDigits

/-- Reads a limit on steps.  No text and zero mean that there is no limit. -/
def parseStepLimit (value source : String) : Except SettingsError (Option Nat) :=
  let text := trimmed value
  if text.isEmpty then
    .ok none
  else
    match Text.parseInteger? text.toList with
    | none => .error (.notAnInteger source text)
    | some (.ofNat 0) => .ok none
    | some (.ofNat n) => .ok (some n)
    | some (.negSucc n) =>
        if isShowable (n + 1) then .error (.negativeLimit source (.negSucc n))
        else .error .negativeLimitTooLong

/-- The words for "on". -/
def affirmatives : List String := ["1", "true", "yes", "on"]

/-- The words for "off"; the empty text is one of them. -/
def negatives : List String := ["0", "false", "no", "off", ""]

/-- Reads a switch; case does not count.  Only ASCII letters have a lower case among the words. -/
def parseSwitch (value source : String) : Except SettingsError Bool :=
  let word := (trimmed value).toLower
  if affirmatives.contains word then .ok true
  else if negatives.contains word then .ok false
  else .error (.notABoolean source value)

/-- The named levels of messages. -/
def levels : List (String × Int) :=
  [("CRITICAL", 50), ("FATAL", 50), ("ERROR", 40), ("WARNING", 30), ("WARN", 30), ("INFO", 20),
    ("DEBUG", 10), ("NOTSET", 0)]

/-- A letter of a level's name in upper case.  Besides the ASCII letters, the dotless i and the long
s have ASCII letters as their upper case; other letters stay outside the names of levels. -/
def upperLetter (c : Char) : Char :=
  if c.toNat = 0x131 then 'I'
  else if c.toNat = 0x17F then 'S'
  else c.toUpper

/-- Reads the name of a level; case does not count. -/
def parseLevel (value source : String) : Except SettingsError Int :=
  match levels.lookup (String.ofList ((Text.trim value.toList).map upperLetter)) with
  | some level => .ok level
  | none => .error (.unknownLevel source value)

/-- Environment variables; of two with one name the first counts. -/
abbrev Environment := List (String × String)

namespace Settings

/-- The level of warnings. -/
def warningLevel : Int := 30

/-- The settings when nothing is said. -/
def default : Settings :=
  ⟨false, none, warningLevel, none⟩

/-- The variable that switches tracing. -/
def traceVariable : String := "BVM_TRACE"

/-- The variable that limits the steps. -/
def limitVariable : String := "BVM_MAX_STEPS"

/-- The variable that sets the level of messages. -/
def logLevelVariable : String := "BVM_LOG_LEVEL"

/-- The value of a variable, if it is there, as read by `parse`. -/
def fromVariable {α : Type} (env : Environment) (name : String)
    (parse : String → String → Except SettingsError α) : Except SettingsError (Option α) :=
  match env.lookup name with
  | none => .ok none
  | some value => some <$> parse value name

/-- The settings with the environment applied.  The first malformed variable is reported, in the
order trace, limit, level. -/
def applyEnvironment (s : Settings) (env : Environment) : Except SettingsError Settings := do
  let trace? ← fromVariable env traceVariable parseSwitch
  let limit? ← fromVariable env limitVariable parseStepLimit
  let logLevel? ← fromVariable env logLevelVariable parseLevel
  return {
    trace := trace?.getD s.trace
    stepLimit := match limit? with
      | some limit => limit.map Int.ofNat
      | none => s.stepLimit
    logLevel := logLevel?.getD s.logLevel
    logFile := s.logFile }

/-- What flags say about the settings. -/
structure Overrides where
  /-- Whether tracing is asked for. -/
  trace : Bool
  /-- The text of a limit on steps, if the flag for it is given; it may be given without a text. -/
  stepLimit : Option (Option String)
  /-- How often more messages are asked for. -/
  verbosity : Nat
  /-- A file for messages, if one is given; an empty name counts as none. -/
  logFile : Option String
  deriving DecidableEq, Repr

/-- The flag that limits the steps. -/
def limitFlag : String := "--max-steps"

/-- The level of messages that a verbosity above zero asks for. -/
def verboseLevel (verbosity : Nat) : Int :=
  if verbosity = 1 then 20 else 10

/-- The settings with the flags applied. -/
def applyOverrides (s : Settings) (o : Overrides) : Except SettingsError Settings := do
  let stepLimit ← match o.stepLimit with
    | none => pure s.stepLimit
    | some none => throw .missingLimit
    | some (some text) => do
        let limit ← parseStepLimit text limitFlag
        pure (limit.map Int.ofNat)
  return {
    trace := o.trace || s.trace
    stepLimit := stepLimit
    logLevel := if o.verbosity = 0 then s.logLevel else verboseLevel o.verbosity
    logFile := match o.logFile with
      | some name => if name.isEmpty then s.logFile else some name
      | none => s.logFile }

/-- The settings of a run: the defaults, then the environment, then the flags. -/
def ofSources (env : Environment) (o : Overrides) : Except SettingsError Settings := do
  let s ← default.applyEnvironment env
  s.applyOverrides o

end Settings

end StackMachine
