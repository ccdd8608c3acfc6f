/-
Switches of command lines.

* `Switch`: the names of a switch and what follows it;
* `Value`: what a switch is set to; a divider that is attached as a value is dropped, and
  nothing is left of it;
* `UsageError`: why a list of words is no command line, and `UsageError.message`, the text
  about it;
* `Switch.read`: a word as the value of a switch.
-/
import LocalSat.Json.Display
import LocalSat.Number.Decimal
import LocalSat.Number.Integer
import LocalSat.Text.Quoted

namespace LocalSat.CommandLine

open LocalSat.Text LocalSat.Number

/-! ### Switches -/

/-- What follows a switch. -/
inductive Operand where
  /-- Nothing: the switch itself says all. -/
  | nothing
  /-- Nothing: the switch asks for help. -/
  | help
  /-- A text; if there are choices, one of them. -/
  | text (choices : List String)
  /-- An integer; if there are choices, one of them. -/
  | integer (choices : List Int)
  /-- A number. -/
  | number
  deriving Repr, DecidableEq

/-- A switch of a command line. -/
structure Switch where
  /-- The names, of which the last one is the key of its value. -/
  names : List String
  /-- What follows the switch. -/
  operand : Operand
  /-- Whether the switch must be there. -/
  required : Bool := false
  deriving Repr, DecidableEq

/-- What a switch is set to. -/
inductive Value where
  /-- The switch is there. -/
  | present
  /-- A text. -/
  | text (s : String)
  /-- An integer. -/
  | integer (i : Int)
  /-- A number. -/
  | number (x : Float)
  /-- Nothing, since the value was dropped. -/
  | dropped
  deriving Repr, Inhabited

namespace Value

/-- A value for the options of a solver. What was dropped is the empty list. -/
def toJson : Value → Json
  | present => .bool true
  | text s => .str s
  | integer i => .int i
  | number x => .float x
  | dropped => .arr []

end Value

namespace Switch

/-- The names of a switch in messages. -/
def label (s : Switch) : String := "/".intercalate s.names

/-- The key under which the value of a switch is kept. -/
def key (s : Switch) : String := s.names.getLast?.getD ""

/-- The switch that asks for help. -/
def help : Switch := ⟨["-h", "--help"], .help, false⟩

end Switch

/-! ### Errors -/

/-- Why a list of words is no command line. -/
inductive UsageError where
  /-- Help is asked for. -/
  | help
  /-- A shortened name fits several switches. -/
  | ambiguous (word : String) (names : List String)
  /-- A switch lacks the word that has to follow it. -/
  | missingOperand (label : String)
  /-- A text is attached to a switch that takes none. -/
  | unwantedOperand (label text : String)
  /-- A word is no integer. -/
  | notInteger (label text : String)
  /-- A word is no number. -/
  | notNumber (label text : String)
  /-- A value is none of the choices. The texts of the value and of the choices are
  given. -/
  | noChoice (label value : String) (choices : List String)
  /-- Required switches are missing. -/
  | missing (labels : List String)
  /-- Words belong to no switch. -/
  | unrecognized (words : List String)
  /-- A switch is missing that another one requires by its value. -/
  | missingWith (label other value : String)
  deriving Repr, DecidableEq

namespace UsageError

/-- The beginning of a message about one switch. -/
def about (label text : String) : String := "argument " ++ label ++ ": " ++ text

/-- The text of a message about a command line. -/
def message : UsageError → String
  | help => ""
  | ambiguous word names =>
      "ambiguous option: " ++ word ++ " could match " ++ ", ".intercalate names
  | missingOperand label => about label "expected one argument"
  | unwantedOperand label text =>
      about label ("ignored explicit argument " ++ String.ofList (quoted text.toList))
  | notInteger label text =>
      about label ("invalid int value: " ++ String.ofList (quoted text.toList))
  | notNumber label text =>
      about label ("invalid float value: " ++ String.ofList (quoted text.toList))
  | noChoice label value choices =>
      about label ("invalid choice: " ++ value ++ " (choose from " ++
        ", ".intercalate choices ++ ")")
  | missing labels => "the following arguments are required: " ++ ", ".intercalate labels
  | unrecognized words => "unrecognized arguments: " ++ " ".intercalate words
  | missingWith label other value =>
      label ++ " is required when " ++ other ++ " " ++ value

end UsageError

/-! ### Values -/

namespace Switch

/-- A value that has to be among choices, if there are any. -/
def choose {α : Type} [DecidableEq α] (s : Switch) (choices : List α) (text : α → String)
    (a : α) : Except UsageError α :=
  if choices.isEmpty || choices.contains a then .ok a
  else .error (.noChoice s.label (text a) (choices.map text))

/-- A word as the value of a switch. -/
def read (s : Switch) (word : String) : Except UsageError Value :=
  match s.operand with
  | .nothing => .ok .present
  | .help => .error .help
  | .text choices =>
      (s.choose choices (fun t => String.ofList (quoted t.toList)) word).map Value.text
  | .integer choices =>
      match readInt word.toList with
      | .error _ => .error (.notInteger s.label word)
      | .ok i => (s.choose choices intString i).map Value.integer
  | .number =>
      match readFloat? word.toList with
      | none => .error (.notNumber s.label word)
      | some x => .ok (.number x)

/-- A text that is attached to a switch as its value. -/
def readAttached (s : Switch) (text : String) : Except UsageError Value :=
  if text = "--" then .ok .dropped else s.read text

/-- Whether a word has to follow a switch. -/
def takesWord (s : Switch) : Bool :=
  match s.operand with
  | .nothing => false
  | .help => false
  | _ => true

end Switch

end LocalSat.CommandLine
