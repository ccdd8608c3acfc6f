/-
Numbers out of JSON values.

* `Json.toInt`: integers, truth values, floats without their fraction, and texts of
  integers, which bytes may spell as well;
* `Json.toFloat`: floats, integers, truth values, and texts of numbers;
* `Json.toIndex`, `Json.numeral?`: integers and truth values, and these and floats, as
  they are;
* `Json.equalsInt`, `Json.equalsBool`: equality of numbers, for which truth values count
  as one and zero;
* `Json.items?`, `Json.items`: what can be gone through.
-/
import LocalSat.Fault

namespace LocalSat.Json

open LocalSat.Number

/-- The integer in a text. -/
def intOfText (s : String) : Except Fault Int :=
  match readInt s.toList with
  | .ok i => .ok i
  | .error flaw => .error (.integerText (.str s) flaw)

/-- The characters that bytes spell. Only the ones of ASCII take a single byte. -/
def spelled (content : List UInt8) : List Char :=
  content.map fun b => if b < 128 then Char.ofNat b.toNat else '\uFFFD'

/-- The integer that a value stands for. The fraction of a float is dropped. -/
def toInt : Json → Except Fault Int
  | bool b => .ok (if b then 1 else 0)
  | int i => .ok i
  | float x =>
      match truncate? x with
      | some i => .ok i
      | none => .error (if x.isNaN then .integerOfNan else .integerOfInfinity)
  | str (.plain s) => intOfText s
  | str (.halved points) => .error (.integerText (.str (.halved points)) .malformed)
  | bytes content =>
      match readInt (spelled content) with
      | .ok i => .ok i
      | .error flaw => .error (.integerText (.bytes content) flaw)
  | _ => .error .notNumeric

/-- The float that a value stands for. -/
def toFloat : Json → Except Fault Float
  | bool b => .ok (if b then 1 else 0)
  | int i =>
      match ofInt? i with
      | some x => .ok x
      | none => .error .beyondFloats
  | float x => .ok x
  | str (.plain s) =>
      match readFloat? s.toList with
      | some x => .ok x
      | none => .error (.floatText (.str s))
  | str (.halved points) => .error (.floatText (.str (.halved points)))
  | bytes content =>
      match readFloat? (spelled content) with
      | some x => .ok x
      | none => .error (.floatText (.bytes content))
  | _ => .error .notNumeric

/-- The integer that a value is. Truth values count as one and zero. -/
def toIndex : Json → Except Fault Int
  | bool b => .ok (if b then 1 else 0)
  | int i => .ok i
  | _ => .error .notNumeric

/-- The text that a value is, or else a given failure. -/
def text (refusal : Fault) : Json → Except Fault String
  | str s => .ok s.toString
  | _ => .error refusal

/-- The number that a value is. Truth values count as one and zero. -/
def numeral? : Json → Option Numeral
  | bool b => some (.int (if b then 1 else 0))
  | int i => some (.int i)
  | float x => some (.float x)
  | _ => none

/-- Whether a value is a number equal to an integer. -/
def equalsInt (i : Int) : Json → Bool
  | bool b => (if b then 1 else 0) = i
  | int j => j = i
  | float x => isExactly x i
  | _ => false

/-- Whether a value is a number equal to a truth value. -/
def equalsBool (b : Bool) (v : Json) : Bool := v.equalsInt (if b then 1 else 0)

/-- The items of a value that can be gone through: those of an array, the characters of
a text, the numbers of bytes and the names of the fields of an object. -/
def items? : Json → Option (List Json)
  | arr items => some items
  | str s => some (s.pieces.map str)
  | bytes content => some (content.map fun b => int b.toNat)
  | obj fields => some (fields.map fun f => str f.1)
  | _ => none

/-- The items of a value, which must be one that can be gone through. -/
def items (v : Json) : Except Fault (List Json) :=
  match v.items? with
  | some items => .ok items
  | none => .error .notIterable

end LocalSat.Json
