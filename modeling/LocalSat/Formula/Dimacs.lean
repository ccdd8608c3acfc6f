/-
Formula files.

* `readInteger`: an integer of 64 bits with at most one sign at the front of a text;
* `readClauseLine`: the integers of a clause up to a zero, after which nothing follows;
* `readDimacs`: the lines of a file, of which some are comments and some are heads;
* `loadWith`, `loadDimacs`: the formula in a file, by any reader and by this one, with at least
  the variables that its clauses name.
-/
import LocalSat.Formula.Basic

namespace LocalSat

open LocalSat.Text LocalSat.Number

/-- A plain digit. -/
def isPlainDigit (c : Char) : Bool := '0' ≤ c && c ≤ '9'

/-- Whether there is a minus sign in front of a text, and the text after its sign. -/
def takeSign : List Char → Bool × List Char
  | '-' :: s => (true, s)
  | '+' :: s => (false, s)
  | s => (false, s)

/-- A sign takes text away, if anything. -/
theorem length_takeSign (s : List Char) : (takeSign s).2.length ≤ s.length := by
  unfold takeSign
  split <;> simp

/-- An integer that fits into 64 bits. -/
def checkWidth (i : Int) : Except Fault Int :=
  if -(twoPow 63) ≤ i ∧ i < twoPow 63 then .ok i else .error .integerToken

/-- The integer at the front of a text, and the text after it. There may be one sign, and
the digits go as far as they can. -/
def readInteger (s : List Char) : Except Fault (Int × List Char) :=
  let (negative, t) := takeSign s
  let digits := t.takeWhile isPlainDigit
  let n : Int := digitsValue digits
  if digits.isEmpty then .error .integerToken
  else (checkWidth (if negative then -n else n)).map fun i => (i, t.dropWhile isPlainDigit)

/-- An integer takes text away. -/
theorem length_readInteger {s r : List Char} {i : Int} (h : readInteger s = .ok (i, r)) :
    r.length < s.length := by
  have key : ∀ t : List Char, ¬(t.takeWhile isPlainDigit).isEmpty = true →
      (t.dropWhile isPlainDigit).length < t.length := by
    intro t hd
    cases t with
    | nil => simp at hd
    | cons c u =>
        have hc : isPlainDigit c = true := by
          cases hc : isPlainDigit c
          · simp [hc] at hd
          · rfl
        rw [List.dropWhile_cons_of_pos hc]
        exact Nat.lt_succ_of_le (length_dropWhile_le _ u)
  simp only [readInteger] at h
  split at h
  · cases h
  · next hd =>
    cases hw : checkWidth (if (takeSign s).1 then -(digitsValue
        ((takeSign s).2.takeWhile isPlainDigit) : Int)
        else digitsValue ((takeSign s).2.takeWhile isPlainDigit)) with
    | error e =>
        rw [hw] at h
        cases h
    | ok j =>
        rw [hw] at h
        cases h
        exact Nat.lt_of_lt_of_le (key _ hd) (length_takeSign s)

/-- The text after the blanks in front of it. -/
def skipBlanks (s : List Char) : List Char := s.dropWhile isLineBlank

/-- The literals of a clause, up to a zero after which there are only blanks. A literal may
follow another one without a blank when it has a sign. -/
def readClauseLine (s : List Char) : Except Fault (List Int) :=
  let t := skipBlanks s
  if t.isEmpty then .error .openClause
  else
    match h : readInteger t with
    | .error e => .error e
    | .ok (i, r) =>
        if i = 0 then
          if (skipBlanks r).isEmpty then .ok [] else .error .trailingText
        else
          have : r.length < s.length :=
            Nat.lt_of_lt_of_le (length_readInteger h) (length_dropWhile_le _ s)
          (readClauseLine r).map (i :: ·)
termination_by s.length

/-- Whether a line is a head, as far as its text after the first letter tells. -/
def isHead : List Char → Bool
  | [] => true
  | c :: _ => isLineBlank c

/-- The clause in a line, if there is one. Comments start with a letter, and so do heads,
whose numbers do not matter; a word that only starts with the letter of a head is a comment
as well. -/
def readDimacsLine : List Char → Except Fault (Option (List Int))
  | 'c' :: _ => .ok none
  | 'p' :: s =>
      if !isHead s || (wordsBy isLineBlank s).head? = some "cnf".toList then .ok none
      else .error .preamble
  | s => if (skipBlanks s).isEmpty then .ok none else (readClauseLine s).map some

/-- The formula in a file. -/
def readDimacs (s : List Char) : Except Fault Formula := do
  let clauses ← (lines s).mapM readDimacsLine
  pure (Formula.ofClauses (clauses.filterMap id))

/-- The formula that a reader finds in a file, with at least the variables that its clauses
name. -/
def loadWith (reader : List Char → Except Fault Formula) (s : List Char) :
    Except Fault Formula :=
  (reader s).map Formula.widened

/-- The formula in a file, with at least the variables that its clauses name. -/
def loadDimacs (s : List Char) : Except Fault Formula := loadWith readDimacs s

end LocalSat
