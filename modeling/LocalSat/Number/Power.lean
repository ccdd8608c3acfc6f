/-
Powers of two and of ten.

* `twoPow`, `tenPow`: the powers by their exponents; `twoPow_add` is the law of
  exponents, and neither power is ever zero.
-/

namespace LocalSat.Number

/-- Two to the power of an exponent. -/
def twoPow (exponent : Nat) : Nat := Nat.pow 2 exponent

/-- Ten to the power of an exponent. -/
def tenPow (exponent : Nat) : Nat := Nat.pow 10 exponent

/-- A power of two is positive. -/
theorem twoPow_pos (k : Nat) : 0 < twoPow k := Nat.two_pow_pos k

/-- A power of ten is positive. -/
theorem tenPow_pos (k : Nat) : 0 < tenPow k := Nat.pow_pos (by decide)

/-- The sum of two exponents belongs to the product of the powers. -/
theorem twoPow_add (j k : Nat) : twoPow (j + k) = twoPow j * twoPow k := Nat.pow_add 2 j k

end LocalSat.Number
