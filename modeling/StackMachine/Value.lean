import StackMachine.Text.Quoted

/-!
# Values of unknown shape

Programs may be put together from values that nobody has checked yet: whatever a data file or a
user of the library hands over.  Such a value can be named by its kind and shown in a message, and
checked operands are made from it (`StackMachine.Instruction.Checked`).
-/

namespace StackMachine

/-- A value whose shape is not known beforehand. -/
inductive Value
  | null
  | bool (b : Bool)
  | int (n : Int)
  /-- A number that is not an integer, in the notation in which it was given. -/
  | decimal (numeral : String)
  | text (s : String)
  | list (items : List Value)
  | dict (entries : List (String × Value))
  deriving Inhabited

namespace Value

/-- The kind of a value, as messages name it. -/
def kindName : Value → String
  | null => "NoneType"
  | bool _ => "bool"
  | int _ => "int"
  | decimal _ => "float"
  | text _ => "str"
  | list _ => "list"
  | dict _ => "dict"

mutual

/-- A value as messages show it. -/
def render : Value → String
  | null => "None"
  | bool b => if b then "True" else "False"
  | int n => toString n
  | decimal s => s
  | text s => Text.quoteText s
  | list items => "[" ++ ", ".intercalate (renderItems items) ++ "]"
  | dict entries => "\x7b" ++ ", ".intercalate (renderEntries entries) ++ "\x7d"

/-- The items of a list, as messages show them. -/
def renderItems : List Value → List String
  | [] => []
  | v :: vs => v.render :: renderItems vs

/-- The entries of a dictionary, as messages show them. -/
def renderEntries : List (String × Value) → List String
  | [] => []
  | (key, v) :: rest => (Text.quoteText key ++ ": " ++ v.render) :: renderEntries rest

end

end Value

end StackMachine
