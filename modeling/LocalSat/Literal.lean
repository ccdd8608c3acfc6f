/-
Literals, clauses and assignments.

* `Literal n`: one of `n` variables or its negation; `toInt` and `ofInt?` are the two
  directions of the numbering by `1` to `n` and `-1` to `-n`;
* `Clause n`: a list of literals, of which one has to be true;
* `Assignment n`: a truth value for each variable; `Satisfies` is the meaning of a
  list of clauses.
-/
import LocalSat.Table

namespace LocalSat

/-! ### Numbers of literals -/

/-- The place of the variable of a literal by number, counted from zero. The number zero
has the place before the first. -/
def placeOf (l : Int) : Int := l.natAbs - 1

/-- The number of the literal of a variable at a place that has a given value. -/
def numberAt (place : Int) (value : Bool) : Int :=
  if value then place + 1 else -(place + 1)

/-! ### Literals -/

/-- A variable or its negation, where there are `n` variables. -/
structure Literal (n : Nat) where
  /-- The variable. -/
  var : Fin n
  /-- Whether the literal is the variable itself. -/
  positive : Bool
  deriving Repr, DecidableEq

namespace Literal

variable {n : Nat}

/-- The other literal of the same variable. -/
def negate (l : Literal n) : Literal n := ⟨l.var, !l.positive⟩

/-- Negation has no fixed point and is its own inverse. -/
@[simp] theorem negate_negate (l : Literal n) : l.negate.negate = l := by
  simp [negate]

/-- The number of a literal: variables count from one, and a negation has the negative
number of its variable. -/
def toInt (l : Literal n) : Int :=
  if l.positive then (l.var : Int) + 1 else -((l.var : Int) + 1)

/-- The literal with a given number. -/
def ofInt? (n : Nat) (i : Int) : Option (Literal n) :=
  if h : i ≠ 0 ∧ i.natAbs ≤ n then some ⟨⟨i.natAbs - 1, by omega⟩, 0 < i⟩ else none

/-- A literal is the one with its number. -/
@[simp] theorem ofInt?_toInt (l : Literal n) : ofInt? n l.toInt = some l := by
  obtain ⟨⟨v, hv⟩, positive⟩ := l
  cases positive <;> simp [toInt, ofInt?] <;> omega

end Literal

/-- A clause is true when one of its literals is. -/
abbrev Clause (n : Nat) := List (Literal n)

/-- A clause by the numbers of its literals. -/
def Clause.toInts {n : Nat} (c : Clause n) : List Int := c.map Literal.toInt

/-! ### Assignments -/

/-- A truth value for each variable. -/
abbrev Assignment (n : Nat) := Table n Bool

namespace Assignment

variable {n : Nat}

/-- Whether a literal is true. -/
def holds (a : Assignment n) (l : Literal n) : Bool := a.get l.var == l.positive

/-- The literal of a variable that is true. -/
def literal (a : Assignment n) (v : Fin n) : Literal n := ⟨v, a.get v⟩

/-- The literal of a variable that is said to be true is true. -/
@[simp] theorem holds_literal (a : Assignment n) (v : Fin n) : a.holds (a.literal v) = true := by
  simp [holds, literal]

/-- One of two opposite literals is true. -/
theorem holds_negate (a : Assignment n) (l : Literal n) :
    a.holds l.negate = !a.holds l := by
  obtain ⟨v, positive⟩ := l
  cases positive <;> simp [holds, Literal.negate]

/-- The assignment with the value of one variable changed. -/
def flip (a : Assignment n) (v : Fin n) : Assignment n := a.write v (!a.get v)

/-- Every clause of a list is true. -/
def Satisfies (a : Assignment n) (clauses : List (Clause n)) : Prop :=
  ∀ c ∈ clauses, ∃ l ∈ c, a.holds l = true

end Assignment

end LocalSat
