/-
Flips and their kinds.

* `Move`: a flip is taken at random, for breaking least, or for breaking nothing;
* `Event n`: a flip by its kind and the literal that it makes true.
-/
import LocalSat.Literal

namespace LocalSat

/-- The kind of a flip. -/
inductive Move where
  /-- A random literal of its clause. -/
  | noise
  /-- A literal that breaks the fewest clauses. -/
  | greedy
  /-- A literal that breaks no clause. -/
  | zeroBreak
  deriving Repr, DecidableEq, Inhabited

namespace Move

/-- The letter of a kind. -/
def letter : Move → Char
  | noise => 'N'
  | greedy => 'G'
  | zeroBreak => 'Z'

/-- The kind with a given letter. -/
def ofLetter? : Char → Option Move
  | 'N' => some noise
  | 'G' => some greedy
  | 'Z' => some zeroBreak
  | _ => none

/-- A kind is the one with its letter. -/
@[simp] theorem ofLetter?_letter (m : Move) : ofLetter? m.letter = some m := by
  cases m <;> rfl

/-- The letter of a kind as a text. -/
def text (m : Move) : String := String.singleton m.letter

/-- The kind that a text names. -/
def ofText? (s : String) : Option Move :=
  match s.toList with
  | [c] => ofLetter? c
  | _ => none

end Move

/-- A flip. -/
structure Event (n : Nat) where
  /-- The kind of the flip. -/
  move : Move
  /-- The literal that the flip makes true. -/
  literal : Literal n
  deriving Repr, DecidableEq

end LocalSat
