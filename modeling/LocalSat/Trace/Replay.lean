/-
Replaying traces.

* `replay`: the literals of a trace made true one after the other, each of which must
  change the value of its variable;
* `replayEntries`: the same for entries, up to the first one that is no pair.
-/
import LocalSat.SignedIndex
import LocalSat.Trace.Flip

namespace LocalSat

variable {α : Type}

/-- How values of variables are compared and written during a replay. -/
structure Cells (α : Type) where
  /-- Whether a value is a given truth value. -/
  same : α → Bool → Bool
  /-- A truth value as a value. -/
  ofBool : Bool → α

/-- Truth values themselves. -/
def Cells.bools : Cells Bool := ⟨(· == ·), id⟩

/-- Makes the literal of a step true. The place of its variable may be counted from the
end. -/
def replayStep (cells : Cells α) (step : Nat) (values : Array α) (literal : Int) :
    Except Fault (Array α) :=
  match SignedIndex.ofInt? values.size (placeOf literal) with
  | none => .error .badIndex
  | some place =>
      let value : Bool := 0 < literal
      if cells.same values[place.index] value then
        .error (.redundantFlip step literal.natAbs)
      else .ok (values.set place.index (cells.ofBool value))

/-- Makes literals true one after the other, of which the first is that of a given
step. -/
def replayFrom (cells : Cells α) :
    (step : Nat) → Array α → List Int → Except Fault (Array α)
  | _, values, [] => .ok values
  | step, values, l :: ls => do
      let values' ← replayStep cells step values l
      replayFrom cells (step + 1) values' ls

/-- Replays the literals of a trace on an assignment. -/
def replay (values : Array Bool) (literals : List Int) : Except Fault (Array Bool) :=
  replayFrom Cells.bools 0 values literals

/-- The literals of entries, up to the first one that is no pair, and its failure. -/
def entryLiterals : List Entry → List Int × Option Fault
  | [] => ([], none)
  | e :: es =>
      match e.pair.bind fun p => Entry.literal p.2 with
      | .ok l =>
          let (ls, failure) := entryLiterals es
          (l :: ls, failure)
      | .error failure => ([], some failure)

/-- Replays entries of any kind. -/
def replayEntries (cells : Cells α) (values : Array α) (entries : List Entry) :
    Except Fault (Array α) := do
  let (literals, failure) := entryLiterals entries
  let values' ← replayFrom cells 0 values literals
  match failure with
  | some e => throw e
  | none => pure values'

end LocalSat
