/-
Options of the search.

* `checkInt`, `checkFloat`: a value as an option takes it, which must be a number of the
  right kind inside of the range of the option;
* `Options`: the five options and their defaults;
* `Options.set`: one option set by either of its two names.
-/
import LocalSat.Json.Convert

namespace LocalSat

/-! ### Checks -/

/-- Whether a number lies between two values. The upper one does not matter to a number
below the lower one. -/
def isWithin (low high : Json) (x : Numeral) : Except Fault Bool :=
  match low.numeral? with
  | none => .error .notNumeric
  | some l =>
      if l.le x then
        match high.numeral? with
        | none => .error .notNumeric
        | some h => .ok (x.le h)
      else .ok false

/-- The value of an option that takes integers from `low` to `high`. Truth values are no
integers here, and neither are texts. -/
def checkInt (name : String) (low high : Json) (value : Json) : Except Fault Int :=
  match value with
  | .bool _ => .error (.optionNotInteger name value)
  | _ => do
      let i ← value.toInt
      if !value.equalsInt i then throw (.optionNotInteger name value)
      let inside ← isWithin low high (.int i)
      if inside then pure i else throw (.optionRange name low high (.int i))

/-- The value of an option that takes floats from `low` to `high`. What is no number
lies in no range. -/
def checkFloat (name : String) (low high : Json) (value : Json) : Except Fault Float := do
  let x ← value.toFloat
  let inside ← isWithin low high (.float x)
  if inside then pure x else throw (.optionRange name low high (.float x))

/-! ### The options of the search -/

/-- What can be chosen about a search. -/
structure Options where
  /-- The number of flips that may be made for each variable. -/
  flipsFactor : Int := 35
  /-- The chance that a flip is taken at random from its clause. -/
  noise : Float := 0.5
  /-- Whether a flip that breaks nothing is made before any coin. -/
  zeroBreakFirst : Bool := false
  /-- Whether the assignment that is found is checked once more. -/
  checkModel : Bool := true
  /-- Whether the flips are recorded. -/
  recordTrace : Bool := false
  deriving Repr, Inhabited

/-- An option. -/
inductive OptionName where
  /-- The number of flips for each variable. -/
  | flipsFactor
  /-- The chance of a random flip. -/
  | noise
  /-- Flips that break nothing first. -/
  | zeroBreakFirst
  /-- The final check. -/
  | checkModel
  /-- The record of the flips. -/
  | recordTrace
  deriving Repr, DecidableEq

namespace OptionName

/-- The name of an option in messages. -/
def text : OptionName → String
  | flipsFactor => "flips-factor"
  | noise => "noise"
  | zeroBreakFirst => "zero-break-first"
  | checkModel => "check-model"
  | recordTrace => "record-trace"

/-- The option with a given name, in either of two spellings. -/
def ofText? : String → Option OptionName
  | "flips-factor" => some flipsFactor
  | "max_flips_factor" => some flipsFactor
  | "noise" => some noise
  | "zero-break-first" => some zeroBreakFirst
  | "zero_break_first" => some zeroBreakFirst
  | "check-model" => some checkModel
  | "check_model" => some checkModel
  | "record-trace" => some recordTrace
  | "record_trace" => some recordTrace
  | _ => none

end OptionName

namespace Options

/-- Sets an option to a value, after checking it. -/
def put (o : Options) (name : OptionName) (value : Json) : Except Fault Options :=
  match name with
  | .flipsFactor => do
      let i ← checkInt name.text (.int 1) (.int (Number.twoPow 31)) value
      pure { o with flipsFactor := i }
  | .noise => do
      let x ← checkFloat name.text (.int 0) (.int 1) value
      pure { o with noise := x }
  | .zeroBreakFirst => .ok { o with zeroBreakFirst := value.isTruthy }
  | .checkModel => .ok { o with checkModel := value.isTruthy }
  | .recordTrace => .ok { o with recordTrace := value.isTruthy }

/-- Sets the option with a given name to a value. -/
def set (o : Options) (name : String) (value : Json) : Except Fault Options :=
  match OptionName.ofText? name with
  | some option => o.put option value
  | none => .error (.unknownOption name)

end Options

end LocalSat
