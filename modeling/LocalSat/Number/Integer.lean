/-
Integers as text.

* `natText`, `intText`: the decimal digits of a number, without leading zeros, after
  a minus sign when it is negative;
* `readInt`: a sign, then digits of any script with single underscores between them,
  white space around the whole; at most `digitLimit` digits.
-/
import LocalSat.Text.Blank
import LocalSat.Text.Digit

namespace LocalSat.Number

open LocalSat.Text

/-! ### Writing -/

/-- The decimal digits of a natural number. -/
def natText (n : Nat) : List Char :=
  if n < 10 then [digitChar n] else natText (n / 10) ++ [digitChar (n % 10)]

/-- The decimal text of an integer. -/
def intText : Int → List Char
  | .ofNat n => natText n
  | .negSucc n => '-' :: natText (n + 1)

/-- The decimal text of an integer, as a string. -/
def intString (i : Int) : String := String.ofList (intText i)

/-! ### Reading -/

/-- The largest number of digits that an integer may be read from. -/
def digitLimit : Nat := 4300

/-- Why a text is no integer. -/
inductive IntegerFlaw where
  /-- The text does not have the form of an integer. -/
  | malformed
  /-- The text has more digits than may be read. -/
  | tooLong (digits : Nat)
  deriving Repr, DecidableEq

/-- Digits with single underscores between them. -/
def isDigitRun : List Char → Bool
  | [] => false
  | [c] => isDigit c
  | c :: '_' :: s => isDigit c && isDigitRun s
  | c :: s => isDigit c && isDigitRun s

/-- Reads digits with underscores between them, and nothing else. -/
def readDigits (s : List Char) : Except IntegerFlaw Nat :=
  let run := s.takeWhile fun c => isDigit c || c == '_'
  let digits := run.filter isDigit
  if !isDigitRun run then .error .malformed
  else if digitLimit < digits.length then .error (.tooLong digits.length)
  else if run.length < s.length then .error .malformed
  else .ok (digitsValue digits)

/-- Reads the text of an integer. -/
def readInt (s : List Char) : Except IntegerFlaw Int :=
  match trim isSpace s with
  | '-' :: t => (readDigits t).map fun n => -(n : Int)
  | '+' :: t => (readDigits t).map Int.ofNat
  | t => (readDigits t).map Int.ofNat

end LocalSat.Number
