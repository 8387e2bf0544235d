import StackMachine.Utf8

/-!
# Log messages

A command reports what it does in log messages.  They are shown from a given level on; a log file,
if there is one, gets all of them, each on a line of its own.

* `Log.shown` are the messages that are shown, `Log.filed` those of the file.
* `Log.fileBytes` is what the file gets; `Log.filed_of_hasFile` says that no message is left out.
-/

namespace StackMachine

/-- How important a message is. -/
inductive Severity
  | debug
  | info
  | warning
  deriving DecidableEq, Repr

/-- The level of a severity. -/
def Severity.level : Severity → Int
  | debug => 10
  | info => 20
  | warning => 30

/-- The name of a severity. -/
def Severity.label : Severity → String
  | debug => "DEBUG"
  | info => "INFO"
  | warning => "WARNING"

/-- A log message. -/
structure LogMessage where
  severity : Severity
  /-- The part of the program that the message is from. -/
  source : String
  /-- The activity that the message is about, and its number there. -/
  origin : String
  text : String
  deriving DecidableEq, Repr

/-- The width of the column for severities in a log file. -/
def severityWidth : Nat := 7

/-- A message as a line of a log file.  The columns are the local time, the severity, the source,
the origin and the text. -/
def LogMessage.line (clock : String) (m : LogMessage) : String :=
  let padding := List.replicate (severityWidth - m.severity.label.length) ' '
  let severity := m.severity.label ++ String.ofList padding
  " | ".intercalate [clock, severity, m.source, m.origin, m.text] ++ "\n"

/-- The messages of a command, and who gets to see them. -/
structure Log where
  /-- The least level of the messages that are shown. -/
  level : Int
  /-- Whether there is a log file. -/
  hasFile : Bool
  /-- All messages, in order. -/
  messages : List LogMessage
  deriving DecidableEq, Repr

namespace Log

/-- Adds messages. -/
def add (log : Log) (messages : List LogMessage) : Log :=
  { log with messages := log.messages ++ messages }

/-- The least level of the messages that are kept at all.  Without a file that is the level of what
is shown; level zero stands for warnings. -/
def threshold (log : Log) : Int :=
  if log.hasFile then Severity.debug.level
  else if log.level = 0 then Severity.warning.level
  else log.level

/-- The messages that are kept. -/
def filed (log : Log) : List LogMessage :=
  log.messages.filter fun m => log.threshold ≤ m.severity.level

/-- The messages that are shown. -/
def shown (log : Log) : List LogMessage :=
  log.filed.filter fun m => log.level ≤ m.severity.level

/-- What the log file gets, at the given local time. -/
def fileBytes (clock : String) (log : Log) : List UInt8 :=
  log.filed.flatMap fun m => Utf8.encode (m.line clock).toList

/-- With a log file no message is lost. -/
theorem filed_of_hasFile
    {log : Log}
    (h : log.hasFile = true) :
    log.filed = log.messages := by
  refine List.filter_eq_self.2 fun m _ => ?_
  cases hs : m.severity <;> simp [threshold, h, Severity.level]

end Log

end StackMachine
