/-
Formulas on one line.

* `lineChars`: the literals of each clause and a zero, with blanks between them;
* `lineValueText`: the same for clauses that are given as a value;
* `readLine`: the words of a line as literals, where the word `0` ends a clause;
  clauses without literals are left out.
-/
import LocalSat.Formula.Basic
import LocalSat.Json.Convert

namespace LocalSat

open LocalSat.Text LocalSat.Number

/-! ### Writing -/

/-- A clause on a line: its literals and a zero. -/
def clauseChars (c : List Int) : List Char :=
  [' '].intercalate (c.map intText) ++ [' ', '0']

/-- A formula on a line. -/
def lineChars (clauses : List (List Int)) : List Char :=
  [' '].intercalate (clauses.map clauseChars)

/-- A formula on a line, as a string. -/
def lineText (clauses : List (List Int)) : String := String.ofList (lineChars clauses)

/-- The words of a clause that is given as a value, and a zero. The items are written as
they are. -/
def clauseValueText (clause : Json) : Except Fault String := do
  let items ← clause.items
  pure (" ".intercalate (items.map Json.plainString) ++ " 0")

/-- A formula that is given as a value, on a line. -/
def lineValueText (clauses : Json) : Except Fault String := do
  let items ← clauses.items
  let parts ← items.mapM clauseValueText
  pure (" ".intercalate parts)

/-! ### Reading -/

/-- The clauses in a list of words, where the literals in `current` have been read of
the first one. -/
def readClauses (current : List Int) : List (List Char) → Except Fault (List (List Int))
  | [] => .ok (if current.isEmpty then [] else [current])
  | w :: ws =>
      if w = ['0'] then
        if current.isEmpty then readClauses [] ws
        else (readClauses [] ws).map (current :: ·)
      else
        match Json.intOfText (String.ofList w) with
        | .ok l => readClauses (current ++ [l]) ws
        | .error e => .error e

/-- The formula on a line. -/
def readLine (s : List Char) : Except Fault Formula :=
  (readClauses [] (words s)).map Formula.ofClauses

end LocalSat
