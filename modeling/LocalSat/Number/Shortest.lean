/-
Floating-point numbers as text with the fewest digits that read back.

* `candidate?`: on the grid of decimals with a given last place, the neighbour of a
  number that reads back as that number, the nearer one if both do;
* `shortest`: the first hit on ever finer grids, from one digit to seventeen;
* `floatText`: positional with a point for decimal exponents from -4 to 15, and with
  an exponent of at least two digits outside of them.
-/
import LocalSat.Number.Dyadic
import LocalSat.Number.Integer

namespace LocalSat.Number

open LocalSat.Text

/-! ### The interval that reads back -/

/-- A positive float between the two ends of the numbers that round to it, all three
as multiples of one unit, which is a quotient. -/
structure Neighbourhood where
  /-- The lower end. -/
  low : Nat
  /-- The number itself. -/
  value : Nat
  /-- The upper end. -/
  high : Nat
  /-- Whether the ends themselves round to the number. -/
  closed : Bool
  /-- The common denominator. -/
  den : Nat

/-- The numbers that round to a positive finite float. Below a power of two the floats
lie twice as close as above it. -/
def neighbourhood (x : Float) : Neighbourhood :=
  let d := magnitude x
  let m := d.mantissa
  let narrow := m == twoPow 52 && -1074 < d.exponent
  let q := d.exponent - 2
  let unit := twoPow q.toNat
  { low := (4 * m - (if narrow then 1 else 2)) * unit
    value := 4 * m * unit
    high := (4 * m + 2) * unit
    closed := m % 2 == 0
    den := twoPow (-q).toNat }

/-- Whether `n · 10 ^ place` rounds to the number. -/
def Neighbourhood.admits (b : Neighbourhood) (n : Nat) (place : Int) : Bool :=
  let scaled := n * tenPow place.toNat * b.den
  let unit := tenPow (-place).toNat
  if b.closed then b.low * unit ≤ scaled && scaled ≤ b.high * unit
  else b.low * unit < scaled && scaled < b.high * unit

/-! ### The fewest digits -/

/-- The multiple of `10 ^ place` that is written for the number, if one of the two next
to it rounds to it. Of two that do, the nearer one is taken, and the even one of two
equally near. -/
def candidate? (b : Neighbourhood) (place : Int) : Option Nat :=
  let num := b.value * tenPow (-place).toNat
  let den := b.den * tenPow place.toNat
  let below := num / den
  let above := below + 1
  match b.admits below place, b.admits above place with
  | true, true => some (roundHalfEven num den)
  | true, false => some below
  | false, true => some above
  | false, false => none

/-- The exponent of the leading decimal digit of a positive finite float. -/
def decimalExponent (b : Neighbourhood) : Int :=
  ((natText (b.value * tenPow 400 / b.den)).length : Int) - 401

/-- The digits of a positive finite float and the exponent of ten that goes with them. -/
def shortest (x : Float) : Nat × Int :=
  let b := neighbourhood x
  let e := decimalExponent b
  let grids := (List.range 17).map fun (k : Nat) => e - k
  (grids.findSome? fun place => (candidate? b place).map fun n => (n, place)).getD (0, 0)

/-! ### Layout -/

/-- Digits without the zeros at their end, with the number of zeros dropped. -/
def dropZeros (digits : List Char) : List Char × Nat :=
  let kept := (digits.reverse.dropWhile (· == '0')).reverse
  (kept, digits.length - kept.length)

/-- An exponent of ten after its mark, with a sign and at least two digits. -/
def exponentText (e : Int) : List Char :=
  let digits := natText e.natAbs
  let padded := if digits.length < 2 then '0' :: digits else digits
  'e' :: (if e < 0 then '-' else '+') :: padded

/-- Digits with the point after the digit of weight one, where `lead` is the exponent of
the first digit. -/
def layout (digits : List Char) (lead : Int) : List Char :=
  if lead < -4 || 16 ≤ lead then
    match digits with
    | [] => []
    | [c] => c :: exponentText lead
    | c :: s => c :: '.' :: s ++ exponentText lead
  else if lead < 0 then
    '0' :: '.' :: List.replicate (-lead - 1).toNat '0' ++ digits
  else
    let k := lead.toNat + 1
    if digits.length ≤ k then
      digits ++ List.replicate (k - digits.length) '0' ++ ['.', '0']
    else digits.take k ++ '.' :: digits.drop k

/-- The text of a float. -/
def floatText (x : Float) : List Char :=
  if x.isNaN then "nan".toList
  else
    let body :=
      if x.isInf then "inf".toList
      else if x == 0 then "0.0".toList
      else
        let (n, place) := shortest x
        let (digits, dropped) := dropZeros (natText n)
        layout digits (place + dropped + digits.length - 1)
    if isNegative x then '-' :: body else body

/-- The text of a float, as a string. -/
def floatString (x : Float) : String := String.ofList (floatText x)

end LocalSat.Number
