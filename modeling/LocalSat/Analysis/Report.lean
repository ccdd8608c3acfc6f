/-
Reports on runs.

* `summaryLine`: a summary on a line; the rate of success has three decimal places and
  the median one;
* `Summary.text`, `textOfFields`: the line of a summary, and of an object that is to hold
  the fields of one;
* `report`: the lines of the summary of each file and of all files together.
-/
import LocalSat.Analysis.Summary
import LocalSat.Number.Fixed

namespace LocalSat.Analysis

open LocalSat.Number

/-! ### A summary on a line -/

/-- The line of a summary without runs. -/
def emptyLine : String := "NA (n=0)"

/-- The line of a summary from the texts of its numbers. -/
def summaryLine (rate solved runs median contradictions exhausted : String) : String :=
  "success=" ++ rate ++ " (" ++ solved ++ "/" ++ runs ++ ")  median flips=" ++ median ++
    "  contradictions=" ++ contradictions ++ "  exhausted=" ++ exhausted

/-- The text of the median. -/
def medianText : Option Float → String
  | some x => fixedString 1 x
  | none => "NA"

/-- A summary on a line. -/
def Summary.text (s : Summary) : String :=
  match s.successRate with
  | none => emptyLine
  | some rate =>
      summaryLine (fixedString 3 rate) (toString s.solved) (toString s.runs)
        (medianText s.flipsMedian) (toString s.contradictions) (toString s.exhausted)

/-! ### Objects with the fields of a summary -/

/-- A number with decimal places. -/
def fixedValue (places : Nat) : Json → Except Fault String
  | .str _ => .error .placesOfText
  | .bytes _ => .error .notNumeric
  | v => v.toFloat.map (fixedString places)

/-- The field of an object. -/
def requiredField (v : Json) (name : String) : Except Fault Json :=
  match v with
  | .obj fields =>
      match fields.lookup (.plain name) with
      | some w => .ok w
      | none => .error (.missingField name)
  | _ => .error .notKeyed

/-- The text of a field as it is. -/
def plainField (v : Json) (name : String) : Except Fault String :=
  (requiredField v name).map Json.plainString

/-- The line of an object that is to hold the fields of a summary. -/
def textOfFields (v : Json) : Except Fault String := do
  match ← requiredField v "success_rate" with
  | .null => pure emptyLine
  | rate =>
      let median ← match ← requiredField v "flips_med" with
        | .null => pure "NA"
        | x => fixedValue 1 x
      let rateText ← fixedValue 3 rate
      let solved ← plainField v "solved"
      let runs ← plainField v "runs"
      let contradictions ← plainField v "contradictions"
      let exhausted ← plainField v "exhausted"
      pure (summaryLine rateText solved runs median contradictions exhausted)

/-! ### Files -/

/-- The indented line of the summary of some records. -/
def recordsLine (records : List Json) : Except Fault String :=
  (summarize records).map fun s => "  " ++ s.text

/-- The lines about files, one after the other, with the failure that ends them if there
is one. -/
def fileLines : List (String × List Json) → List String × Option Fault
  | [] => ([], none)
  | (name, records) :: files =>
      match recordsLine records with
      | .error e => (["FILE: " ++ name], some e)
      | .ok line =>
          let (lines, failure) := fileLines files
          (("FILE: " ++ name) :: line :: lines, failure)

/-- The lines about files and about all of them together. The place of their folder is
given. -/
def report (place : String) (files : List (String × List Json)) : List String × Option Fault :=
  if files.isEmpty then (["No .json files in " ++ place], none)
  else
    match fileLines files with
    | (lines, some e) => (lines, some e)
    | (lines, none) =>
        let final := "FINAL (across all files)"
        match recordsLine (files.flatMap fun f => f.2) with
        | .error e => (lines ++ [final], some e)
        | .ok line => (lines ++ [final, line], none)

end LocalSat.Analysis
