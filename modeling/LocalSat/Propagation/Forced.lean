/-
Values forced on variables.

* `Forced n`: for each variable the value that is forced on it, if any;
* `Forced.value?`: what this says about a literal;
* `Forced.force?`: a literal made true, unless its negation is already.
-/
import LocalSat.Literal

namespace LocalSat

/-- For each variable the value that is forced on it, if there is one. -/
abbrev Forced (n : Nat) := Table n (Option Bool)

namespace Forced

variable {n : Nat}

/-- Nothing is forced. -/
def none (n : Nat) : Forced n := Vector.replicate n Option.none

/-- The truth value of a literal, if its variable has a forced value. -/
def value? (f : Forced n) (l : Literal n) : Option Bool :=
  (f.get l.var).map (· == l.positive)

/-- Makes a literal true; none if its negation is forced. -/
def force? (f : Forced n) (l : Literal n) : Option (Forced n) :=
  match f.get l.var with
  | some b => if b = l.positive then some f else Option.none
  | Option.none => some (f.write l.var (some l.positive))

/-- The number of variables with a forced value. -/
def count (f : Forced n) : Nat := f.toList.countP Option.isSome

/-- An assignment agrees with the forced values. -/
def Agrees (f : Forced n) (a : Assignment n) : Prop :=
  ∀ (v : Fin n) (b : Bool), f.get v = some b → a.get v = b

end Forced

end LocalSat
