/-
Checking values.

* `PartialAssignment.ofValue`, `PartialAssignment.ofPairs`: an assignment from a list of
  values, and from pairs of a variable number and a value;
* `PartialAssignment.satisfiesValue`: the check of clauses that are given as a value. What
  comes after a clause without a true literal, or after a true literal in its clause, is not
  looked at.
-/
import LocalSat.Checker
import LocalSat.Json.Convert

namespace LocalSat.PartialAssignment

/-- The assignment of the variables from one on by the items of a value. An object gives no
variable a value, since its names are no numbers. -/
def ofValue (values : Json) : Except Fault PartialAssignment :=
  match values with
  | .obj _ => .ok fun _ => none
  | _ => values.items.map fun items => ofValues (items.map Json.isTruthy).toArray

/-- Whether a value can be looked up. -/
def isKey : Json → Bool
  | .arr _ => false
  | .obj _ => false
  | _ => true

/-- The assignment by pairs of a variable number and a value, of which the later one
counts. -/
def ofPairs (pairs : List (Json × Json)) : Except Fault PartialAssignment :=
  if pairs.all fun p => isKey p.1 then
    .ok fun v => pairs.foldl
      (fun found p => if p.1.equalsInt v then some p.2.isTruthy else found) none
  else .error .notNumeric

/-- The number of the literal that a value gives. A float with a fraction is the number of
none. -/
def literalNumber? (l : Json) : Except Fault (Option Int) :=
  match l with
  | .float x =>
      .ok (match Number.truncate? x with
        | some i => if Number.isExactly x i then some i else none
        | none => none)
  | _ => l.toIndex.map some

/-- Whether one of some literals is true. -/
def holdsAny (a : PartialAssignment) : List Json → Except Fault Bool
  | [] => .ok false
  | l :: ls => do
      match ← literalNumber? l with
      | some i => if a.makesTrue i then pure true else holdsAny a ls
      | none => holdsAny a ls

/-- Whether every one of some clauses has a true literal. -/
def holdsAll (a : PartialAssignment) : List Json → Except Fault Bool
  | [] => .ok true
  | c :: cs => do
      let literals ← c.items
      if ← a.holdsAny literals then holdsAll a cs else pure false

/-- Whether every clause of a value has a true literal. -/
def satisfiesValue (a : PartialAssignment) (clauses : Json) : Except Fault Bool := do
  let items ← clauses.items
  a.holdsAll items

end LocalSat.PartialAssignment
