/-
Numbers of literals given as values.

* `placeValue`: the place of the variable of a literal; a float gives a float;
* `numberValue`: the literal of a variable at a place that has a given value.
-/
import LocalSat.Json.Convert
import LocalSat.Literal

namespace LocalSat

/-- The place of the variable of a literal. -/
def placeValue : Json → Except Fault Json
  | .float x => .ok (.float (x.abs - 1))
  | literal => literal.toIndex.map fun i => .int (placeOf i)

/-- The number of the literal of a variable at a place that has a given value. -/
def numberValue (place : Json) (value : Bool) : Except Fault Json :=
  match place with
  | .float x => .ok (.float (if value then x + 1 else -(x + 1)))
  | _ => place.toIndex.map fun i => .int (numberAt i value)

end LocalSat
