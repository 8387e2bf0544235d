import StackMachine.Text.DecimalDigit
import StackMachine.Text.Quoted

/-!
# Command-line grammars

A grammar lists the options of a command and its one positional argument.  The rules for reading
arguments are the usual ones:

* a long option may be shortened to any beginning that only one option has;
* a value stands in the next argument, or after an equals sign; two dashes after an equals sign are
  no value, and leave the option without one;
* one-letter options may be written together after one dash;
* two dashes end the options, and a negative number is an argument and no option.

`Grammar.parse` reads a list of arguments.
-/

namespace StackMachine.CommandLine

/-- What an option does. -/
inductive OptionAction
  /-- Shows the help and ends. -/
  | help
  /-- Shows the version and ends. -/
  | version
  /-- Notes that the option was given. -/
  | flag
  /-- Takes a value; if there are choices, it has to be one of them. -/
  | value (choices : List String)
  deriving DecidableEq, Repr

/-- An option of a command. -/
structure OptionRule where
  /-- The names of the option, with their dashes. -/
  names : List String
  action : OptionAction
  deriving DecidableEq, Repr

/-- Whether an option takes a value. -/
def OptionRule.takesValue (o : OptionRule) : Bool :=
  match o.action with
  | .value _ => true
  | _ => false

/-- The name of an option in messages. -/
def OptionRule.label (o : OptionRule) : String :=
  "/".intercalate o.names

/-- The options and the positional argument of a command. -/
structure Grammar where
  options : List OptionRule
  /-- The name of the positional argument. -/
  positional : String
  /-- Whether the positional argument has to be there. -/
  required : Bool
  deriving DecidableEq, Repr

/-- Why arguments do not fit a grammar. -/
inductive UsageError
  | ambiguous (given : String) (names : List String)
  | missingValue (o : OptionRule)
  | ignoredValue (o : OptionRule) (text : String)
  | invalidChoice (o : OptionRule) (text : String) (choices : List String)
  | missingPositional (name : String)
  | unrecognized (arguments : List String)
  deriving DecidableEq, Repr

/-- The complaint about arguments that do not fit. -/
def UsageError.message : UsageError → String
  | ambiguous given names =>
      "ambiguous option: " ++ given ++ " could match " ++ ", ".intercalate names
  | missingValue o => "argument " ++ o.label ++ ": expected one argument"
  | ignoredValue o text =>
      "argument " ++ o.label ++ ": ignored explicit argument " ++ Text.quoteText text
  | invalidChoice o text choices =>
      "argument " ++ o.label ++ ": invalid choice: " ++ Text.quoteText text ++ " (choose from " ++
        ", ".intercalate (choices.map Text.quoteText) ++ ")"
  | missingPositional name => "the following arguments are required: " ++ name
  | unrecognized arguments => "unrecognized arguments: " ++ " ".intercalate arguments

/-- What an argument is, before it is known what it is used for. -/
inductive Token
  /-- An option by its full name, and the text attached to it. -/
  | option (o : OptionRule) (name : String) (attached : Option String)
  /-- An argument that looks like an option and is none. -/
  | unknown (text : String)
  /-- The two dashes that end the options. -/
  | dashes
  | plain (text : String)
  deriving DecidableEq, Repr

/-- Whether characters are decimal digits, at least one. -/
def isDigits (cs : List Char) : Bool :=
  !cs.isEmpty && cs.all fun c => (Text.decimalDigit? c).isSome

/-- Whether characters are an unsigned number: digits, or a point with digits after it and perhaps
before it. -/
def isNumber (cs : List Char) : Bool :=
  let whole := cs.takeWhile (· != '.')
  match cs.dropWhile (· != '.') with
  | [] => isDigits whole
  | _ :: fraction => (whole.isEmpty || isDigits whole) && isDigits fraction

/-- Whether an argument is a negative number; a line feed may follow it. -/
def looksNegative (cs : List Char) : Bool :=
  match cs with
  | '-' :: rest => isNumber (if rest.getLast? = some '\n' then rest.dropLast else rest)
  | _ => false

/-- The part of an argument before the first equals sign, and the part after it. -/
def splitAtEquals (arg : String) : String × Option String :=
  let name := String.ofList (arg.toList.takeWhile (· != '='))
  match arg.toList.dropWhile (· != '=') with
  | [] => (name, none)
  | _ :: rest => (name, some (String.ofList rest))

/-- What the arguments said. -/
structure Matches where
  /-- The options that were given, by their first names and with their values, the latest first. -/
  given : List (String × Option String)
  positional : Option String
  /-- The arguments that nothing was found for, the latest first. -/
  extras : List String
  deriving DecidableEq, Repr

namespace Matches

/-- How often an option was given. -/
def count (m : Matches) (name : String) : Nat :=
  m.given.countP (·.1 == name)

/-- What was given last for an option: nothing, the option without a value, or a value. -/
def last? (m : Matches) (name : String) : Option (Option String) :=
  m.given.lookup name

/-- The value that was given last for an option. -/
def value? (m : Matches) (name : String) : Option String :=
  (m.last? name).join

/-- Notes an option. -/
def note (m : Matches) (o : OptionRule) (value : Option String) : Matches :=
  { m with given := (o.names.head?.getD "", value) :: m.given }

/-- Notes an argument that nothing was found for. -/
def leaveOver (m : Matches) (text : String) : Matches :=
  { m with extras := text :: m.extras }

end Matches

/-- What reading the arguments comes to. -/
inductive Parsed
  | matched (m : Matches)
  | help
  | version
  | refused (e : UsageError)
  deriving DecidableEq, Repr

namespace Grammar

/-- All names of options, in order. -/
def names (g : Grammar) : List (String × OptionRule) :=
  g.options.flatMap fun o => o.names.map fun name => (name, o)

/-- The option of a given name. -/
def find? (g : Grammar) (name : String) : Option OptionRule :=
  g.names.lookup name

/-- The options that an argument may stand for that is no full name: those whose names begin with
it, or for a single dash the one whose letter it begins with. -/
def candidates (g : Grammar) (arg : String) : List (String × OptionRule × Option String) :=
  match arg.toList with
  | '-' :: '-' :: _ =>
      let (start, attached) := splitAtEquals arg
      (g.names.filter fun n => start.toList.isPrefixOf n.1.toList).map fun n =>
        (n.1, n.2, attached)
  | '-' :: letter :: rest =>
      (g.names.filter fun n => n.1.toList == ['-', letter]).map fun n =>
        (n.1, n.2, some (String.ofList rest))
  | _ => []

/-- What an argument is, if it is not the two dashes. -/
def classify (g : Grammar) (arg : String) : Except UsageError Token :=
  if arg.toList.head? ≠ some '-' then
    .ok (.plain arg)
  else
    match g.find? arg with
    | some o => .ok (.option o arg none)
    | none =>
        if arg = "-" then
          .ok (.plain arg)
        else
          let (name, attached) := splitAtEquals arg
          match attached, g.find? name with
          | some text, some o => .ok (.option o name (some text))
          | _, _ =>
              match g.candidates arg with
              | [(name, o, attached)] => .ok (.option o name attached)
              | [] =>
                  if looksNegative arg.toList ∨ arg.toList.contains ' ' then .ok (.plain arg)
                  else .ok (.unknown arg)
              | several => .error (.ambiguous arg (several.map fun n => n.1))

/-- What all arguments are; after two dashes they are plain. -/
def tokens (g : Grammar) : List String → Except UsageError (List Token)
  | [] => .ok []
  | arg :: rest =>
      if arg = "--" then
        .ok (.dashes :: rest.map .plain)
      else do
        let token ← g.classify arg
        let others ← g.tokens rest
        return token :: others

/-- What an option with text attached to it means: the options before the last one of a group of
letters, the last one, and the text attached to that.  Text that is attached to an option without a
value has to be further letters. -/
def ungroup (g : Grammar) (o : OptionRule) (isLetter : Bool) (attached : List Char) :
    Except UsageError (List OptionRule × OptionRule × Option String) :=
  if o.takesValue then
    .ok ([], o, some (String.ofList attached))
  else
    match isLetter, attached with
    | true, letter :: rest =>
        match g.find? (String.ofList ['-', letter]) with
        | none => .error (.ignoredValue o (String.ofList attached))
        | some next =>
            if rest.isEmpty then
              .ok ([o], next, none)
            else
              (g.ungroup next true rest).map fun (before, last, text) => (o :: before, last, text)
    | _, _ => .error (.ignoredValue o (String.ofList attached))

/-- What an option means with the text attached to it, if there is any. -/
def uses (g : Grammar) (o : OptionRule) (name : String) (attached : Option String) :
    Except UsageError (List OptionRule × OptionRule × Option String) :=
  match attached with
  | none => .ok ([], o, none)
  | some text => g.ungroup o (name.toList[1]? != some '-') text.toList

/-- Uses options without values, in order; help and version end the reading. -/
def useFlags (m : Matches) : List OptionRule → Except Parsed Matches
  | [] => .ok m
  | o :: rest =>
      match o.action with
      | .help => .error .help
      | .version => .error .version
      | _ => useFlags (m.note o none) rest

/-- Uses an option with a value; two dashes stand for none. -/
def useValue (m : Matches) (o : OptionRule) (text : String) : Except Parsed Matches :=
  match o.action with
  | .value choices =>
      if text = "--" then .ok (m.note o none)
      else if choices.isEmpty ∨ choices.contains text then .ok (m.note o (some text))
      else .error (.refused (.invalidChoice o text choices))
  | _ => .ok m

/-- The end of the arguments. -/
def finish (g : Grammar) (m : Matches) : Parsed :=
  if g.required ∧ m.positional.isNone then .refused (.missingPositional g.positional)
  else if m.extras.isEmpty then .matched m
  else .refused (.unrecognized m.extras.reverse)

/-- Reads the remaining arguments.  The first plain argument that is no value of an option is the
positional one; two dashes next to it belong to it. -/
def consume (g : Grammar) (m : Matches) : List Token → Parsed
  | [] => g.finish m
  | .option o name attached :: rest =>
      match g.uses o name attached with
      | .error e => .refused e
      | .ok (before, last, text) =>
          match last.takesValue, text, rest with
          | true, some text, rest =>
              match useFlags m before >>= (useValue · last text) with
              | .ok m' => g.consume m' rest
              | .error parsed => parsed
          | true, none, .plain text :: rest =>
              match useFlags m before >>= (useValue · last text) with
              | .ok m' => g.consume m' rest
              | .error parsed => parsed
          | true, none, _ => .refused (.missingValue last)
          | false, _, rest =>
              match useFlags m (before ++ [last]) with
              | .ok m' => g.consume m' rest
              | .error parsed => parsed
  | .unknown text :: rest => g.consume (m.leaveOver text) rest
  | .plain text :: rest =>
      if m.positional.isSome then
        g.consume (m.leaveOver text) rest
      else
        match rest with
        | .dashes :: rest => g.consume { m with positional := some text } rest
        | rest => g.consume { m with positional := some text } rest
  | .dashes :: rest =>
      if m.positional.isSome then
        g.consume (m.leaveOver "--") rest
      else
        match rest with
        | .plain text :: rest => g.consume { m with positional := some text } rest
        | rest => g.consume (if g.required then m.leaveOver "--" else m) rest
termination_by tokens => tokens.length

/-- Reads a list of arguments. -/
def parse (g : Grammar) (args : List String) : Parsed :=
  match g.tokens args with
  | .ok tokens => g.consume ⟨[], none, []⟩ tokens
  | .error e => .refused e

end Grammar

end StackMachine.CommandLine
