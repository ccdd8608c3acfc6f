/-
Floating-point numbers as exact rationals.

* `roundHalfEven`: a quotient rounded to the nearest integer, a half to the even one;
* `magnitude`: the number `m · 2 ^ q` that the bits of a finite float stand for;
* `nearest`: the float nearest to a quotient of natural numbers, a half to the even
  significand, beyond the largest float infinity;
* `ofInt?`, `truncate?`, `roundToInt?`: between integers and floats;
* `isExactly`, `intLeFloat`, `floatLeInt`: exact comparison of an integer with a float.
-/
import LocalSat.Number.Power

namespace LocalSat.Number

/-! ### Rounding a quotient -/

/-- The integer nearest to `num / den`; of two equally near ones the even one. -/
def roundHalfEven (num den : Nat) : Nat :=
  let q := num / den
  let r := num % den
  if 2 * r < den then q
  else if den < 2 * r then q + 1
  else if q % 2 = 0 then q
  else q + 1

/-- An exact quotient is kept. -/
theorem roundHalfEven_mul {den : Nat} (n : Nat) (h : 0 < den) :
    roundHalfEven (n * den) den = n := by
  simp [roundHalfEven, Nat.mul_div_cancel _ h, h]

/-! ### The value of a float -/

/-- A natural number times a power of two. -/
structure Dyadic where
  /-- The integer factor. -/
  mantissa : Nat
  /-- The power of two. -/
  exponent : Int
  deriving Repr, DecidableEq

namespace Dyadic

/-- The numerator of the number written as a quotient. -/
def num (d : Dyadic) : Nat := d.mantissa * twoPow d.exponent.toNat

/-- The denominator of the number written as a quotient. -/
def den (d : Dyadic) : Nat := twoPow (-d.exponent).toNat

/-- The denominator is never zero. -/
theorem den_pos (d : Dyadic) : 0 < d.den := twoPow_pos _

end Dyadic

/-- The sign bit of a float: true for negative numbers and for negative zero. -/
def isNegative (x : Float) : Bool := x.toBits >>> 63 == 1

/-- The absolute value of a finite float as an exact number. -/
def magnitude (x : Float) : Dyadic :=
  let bits : Nat := x.toBits.toNat % twoPow 63
  let biased : Nat := bits / twoPow 52
  let fraction : Nat := bits % twoPow 52
  if biased = 0 then ⟨fraction, -1074⟩
  else ⟨twoPow 52 + fraction, (biased : Int) - 1075⟩

/-- The float with the sign and the absolute bits given. -/
def ofSignedBits (negative : Bool) (bits : Nat) : Float :=
  Float.ofBits (UInt64.ofNat (if negative then twoPow 63 + bits else bits))

/-! ### The nearest float -/

/-- The bits of infinity, which is also the first number of binades of floats
times the size of a binade. -/
def infinityBits : Nat := 2047 * twoPow 52

/-- The exponent `e` with `2 ^ e ≤ num / den < 2 ^ (e + 1)`, for a positive quotient. -/
def binaryExponent (num den : Nat) : Int :=
  let e : Int := (num.log2 : Int) - (den.log2 : Int)
  if num * twoPow (-e).toNat < den * twoPow e.toNat then e - 1 else e

/-- The bits of the float nearest to `num / den`. A significand that rounds up to
the next power of two carries into the exponent by itself. -/
def nearestBits (num den : Nat) : Nat :=
  if num = 0 then 0
  else
    let e := max (binaryExponent num den) (-1022)
    let scale := e - 52
    let m := roundHalfEven (num * twoPow (-scale).toNat) (den * twoPow scale.toNat)
    min infinityBits (m + (e + 1022).toNat * twoPow 52)

/-- The float nearest to a signed quotient of natural numbers. -/
def nearest (negative : Bool) (num den : Nat) : Float :=
  ofSignedBits negative (nearestBits num den)

/-! ### Integers and floats -/

/-- The float nearest to an integer, unless the integer lies beyond all floats. -/
def ofInt? (i : Int) : Option Float :=
  let bits := nearestBits i.natAbs 1
  if bits < infinityBits then some (ofSignedBits (i < 0) bits) else none

/-- A number without its fraction; none for infinities and what is no number. -/
def truncate? (x : Float) : Option Int :=
  if x.isFinite then
    let d := magnitude x
    let n : Int := (d.num / d.den : Nat)
    some (if isNegative x then -n else n)
  else none

/-- The integer nearest to a finite number, a half going to the even one. -/
def roundToInt? (x : Float) : Option Int :=
  if x.isFinite then
    let d := magnitude x
    let n : Int := roundHalfEven d.num d.den
    some (if isNegative x then -n else n)
  else none

/-- Whether a finite float is exactly the given integer. -/
def isExactly (x : Float) (i : Int) : Bool :=
  x.isFinite &&
    (let d := magnitude x
     (d.num : Int) == (if isNegative x then -i else i) * d.den)

/-- Exact comparison of an integer with a float; false when the float is no number. -/
def intLeFloat (i : Int) (x : Float) : Bool :=
  if x.isNaN then false
  else if x.isInf then !isNegative x
  else
    let d := magnitude x
    i * d.den ≤ (if isNegative x then -(d.num : Int) else d.num)

/-- Exact comparison of a float with an integer; false when the float is no number. -/
def floatLeInt (x : Float) (i : Int) : Bool :=
  if x.isNaN then false
  else if x.isInf then isNegative x
  else
    let d := magnitude x
    (if isNegative x then -(d.num : Int) else d.num) ≤ i * d.den

end LocalSat.Number
