/-
Floating-point numbers with a fixed number of decimal places.

* `fixedText`: the exact value rounded to the last place, a half going to the even digit.
-/
import LocalSat.Number.Dyadic
import LocalSat.Number.Integer

namespace LocalSat.Number

open LocalSat.Text

/-- Digits with a point before the last `places` of them; zeros are put in front when
there are too few digits. -/
def pointText (places : Nat) (digits : List Char) : List Char :=
  let padded := List.replicate (places + 1 - digits.length) '0' ++ digits
  let whole := padded.length - places
  if places = 0 then padded else padded.take whole ++ '.' :: padded.drop whole

/-- The text of a float with a fixed number of decimal places. -/
def fixedText (places : Nat) (x : Float) : List Char :=
  if x.isNaN then "nan".toList
  else
    let body :=
      if x.isInf then "inf".toList
      else
        let d := magnitude x
        pointText places (natText (roundHalfEven (d.num * tenPow places) d.den))
    if isNegative x then '-' :: body else body

/-- The text of a float with a fixed number of decimal places, as a string. -/
def fixedString (places : Nat) (x : Float) : String := String.ofList (fixedText places x)

end LocalSat.Number
