/-
Floating-point numbers read from text.

* `readFloat?`: a sign, digits with at most one point among or beside them, and an
  exponent; or a word for infinity or for what is no number, in any case. Digits may
  be of any script and may have single underscores between them; white space may
  surround the whole.
* `ofDecimal`: the float nearest to `digits · 10 ^ exponent`.
-/
import LocalSat.Text.Blank
import LocalSat.Text.Digit
import LocalSat.Number.Dyadic

namespace LocalSat.Number

open LocalSat.Text

/-! ### The value of a decimal -/

/-- What is no number. -/
def nan : Float := Float.ofBits 0x7FF8000000000000

/-- Infinity with a sign. -/
def infinity (negative : Bool) : Float := ofSignedBits negative infinityBits

/-- The float nearest to `digits · 10 ^ exponent`. Numbers far beyond the largest and
far below the smallest float are settled without their powers of ten. -/
def ofDecimal (negative : Bool) (digits : Nat) (exponent : Int) : Float :=
  let size : Int := (digits.log2 : Int) / 3 + exponent
  if digits = 0 then ofSignedBits negative 0
  else if 400 < exponent then infinity negative
  else if size < -400 then ofSignedBits negative 0
  else nearest negative (digits * tenPow exponent.toNat) (tenPow (-exponent).toNat)

/-! ### The form of a number -/

/-- The ASCII form of a character: digits of any script become plain ones. -/
def plainDigit (c : Char) : Char :=
  match digitValue? c with
  | some d => digitChar d
  | none => c

/-- Removes underscores that stand between digits; none when another one is there. -/
def dropUnderscores? (previous : Bool) : List Char → Option (List Char)
  | [] => some []
  | '_' :: c :: s =>
      if previous && isDigit c then (dropUnderscores? true s).map (c :: ·) else none
  | '_' :: [] => none
  | c :: s => (dropUnderscores? (isDigit c) s).map (c :: ·)

/-- An exponent of ten: nothing at all, or a mark, an optional sign and digits. -/
def readExponent? : List Char → Option Int
  | [] => some 0
  | 'e' :: s =>
      let (negative, t) : Bool × List Char :=
        match s with
        | '-' :: t => (true, t)
        | '+' :: t => (false, t)
        | t => (false, t)
      if t.isEmpty || !t.all isDigit then none
      else if negative then some (-(digitsValue t : Int)) else some (digitsValue t)
  | _ => none

/-- A number without sign, in lower case and with plain digits only. -/
def readMagnitude? (negative : Bool) (s : List Char) : Option Float :=
  if s == "inf".toList || s == "infinity".toList then some (infinity negative)
  else if s == "nan".toList then some nan
  else
    let whole := s.takeWhile isDigit
    let rest := s.dropWhile isDigit
    let (fraction, tail) : List Char × List Char :=
      match rest with
      | '.' :: r => (r.takeWhile isDigit, r.dropWhile isDigit)
      | r => ([], r)
    if whole.isEmpty && fraction.isEmpty then none
    else (readExponent? tail).map fun e =>
      ofDecimal negative (digitsValue (whole ++ fraction)) (e - fraction.length)

/-- Reads the text of a floating-point number. -/
def readFloat? (s : List Char) : Option Float := do
  let t ← dropUnderscores? false (((trim isSpace s).map plainDigit).map Char.toLower)
  match t with
  | '-' :: r => readMagnitude? true r
  | '+' :: r => readMagnitude? false r
  | r => readMagnitude? false r

end LocalSat.Number
