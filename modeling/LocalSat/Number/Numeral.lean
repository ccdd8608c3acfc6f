/-
Numbers that are either integers or floats.

* `Numeral.le`: the order of their exact values; what is no number is below and above
  nothing;
* `Numeral.divides`: whether an integer is a whole multiple of a number;
* `Numeral.floor?`, `Numeral.ceil?`: the nearest integers, which finite numbers have;
* `Numeral.text`: an integer is written without a point, a float always with a point or
  an exponent.
-/
import LocalSat.Number.Shortest

namespace LocalSat

open LocalSat.Number

/-- An integer or a floating-point number. -/
inductive Numeral where
  /-- An integer of any size. -/
  | int (i : Int)
  /-- A floating-point number. -/
  | float (x : Float)
  deriving Repr, Inhabited

namespace Numeral

/-- The order of the exact values. -/
def le : Numeral → Numeral → Bool
  | int i, int j => i ≤ j
  | int i, float y => intLeFloat i y
  | float x, int j => floatLeInt x j
  | float x, float y => x ≤ y

/-- Whether a number is zero. -/
def isZero : Numeral → Bool
  | int i => i == 0
  | float x => x == 0

/-- Whether an integer is a whole multiple of a number that is not zero. Only zero is a
multiple of an infinity, and nothing is one of what is no number. -/
def divides : Numeral → Int → Bool
  | int i, k => k % i == 0
  | float x, k =>
      if x.isFinite then
        let d := magnitude x
        k * d.den % d.num == 0
      else x.isInf && k == 0

/-- The largest integer that is not above a number. -/
def floor? : Numeral → Option Int
  | int i => some i
  | float x => (truncate? x).map fun i => if floatLeInt x i && !isExactly x i then i - 1 else i

/-- The smallest integer that is not below a number. -/
def ceil? : Numeral → Option Int
  | int i => some i
  | float x => (truncate? x).map fun i => if floatLeInt x i then i else i + 1

/-- The text of a number. -/
def text : Numeral → String
  | int i => intString i
  | float x => floatString x

end Numeral

end LocalSat
