/-
Variables put into clauses where they are missing.

* `OccurrenceTable`: for each variable number how often it occurs;
* `spareIndices`: the clauses of which every variable occurs elsewhere or again;
* `patch`: a random literal of a random one of them makes room for a literal that is
  true under the hidden assignment.
-/
import Std.Data.HashMap
import LocalSat.Literal
import LocalSat.Random.Source
import LocalSat.SignedIndex

namespace LocalSat

/-! ### Occurrences -/

/-- For each variable number how often it occurs. Numbers that never occurred are not
held. -/
abbrev OccurrenceTable := Std.HashMap Int Nat

namespace OccurrenceTable

/-- One more occurrence of a variable number. -/
def add (t : OccurrenceTable) (v : Int) : OccurrenceTable := t.insert v (t.getD v 0 + 1)

/-- One occurrence of a variable number less. -/
def drop (t : OccurrenceTable) (v : Int) : OccurrenceTable := t.insert v (t.getD v 0 - 1)

/-- How often the variables of some clauses occur in them. -/
def ofClauses (clauses : List (List Int)) : OccurrenceTable :=
  clauses.foldl (fun t c => c.foldl (fun t l => t.add l.natAbs) t) ∅

/-- Only the number that is added occurs once more. -/
theorem getD_add (t : OccurrenceTable) (v w : Int) :
    (t.add v).getD w 0 = if v = w then t.getD v 0 + 1 else t.getD w 0 := by
  simp [add, Std.HashMap.getD_insert]

/-- Only the number that is dropped occurs once less. -/
theorem getD_drop (t : OccurrenceTable) (v w : Int) :
    (t.drop v).getD w 0 = if v = w then t.getD v 0 - 1 else t.getD w 0 := by
  simp [drop, Std.HashMap.getD_insert]

end OccurrenceTable

/-! ### Patches -/

/-- Clauses on which patches are made. -/
structure Patching (γ : Type) where
  /-- The clauses. -/
  clauses : List (List Int)
  /-- How often the variables occur. -/
  occurrences : OccurrenceTable
  /-- The source of randomness. -/
  source : γ

namespace Patching

/-- The start of patching. -/
def start {γ : Type} (clauses : List (List Int)) (source : γ) : Patching γ :=
  ⟨clauses, .ofClauses clauses, source⟩

/-- Whether each of some literals is of a variable that occurs more than once. -/
def isSpare (t : OccurrenceTable) : List Int → Except Fault Bool
  | [] => .ok true
  | l :: ls =>
      match t[(l.natAbs : Int)]? with
      | none => .error (.absentMember (.int l.natAbs))
      | some k => if 1 < k then isSpare t ls else .ok false

/-- The places of the clauses, of which the first has the place `i`, that can do without
any one of their literals. -/
def spareIndices (t : OccurrenceTable) : (i : Nat) → List (List Int) → Except Fault (List Nat)
  | _, [] => .ok []
  | i, c :: cs => do
      let spare ← isSpare t c
      let rest ← spareIndices t (i + 1) cs
      pure (if spare then i :: rest else rest)

/-- The value of a variable under the hidden assignment. Its place may be counted from
the end. -/
def hiddenValue (hidden : Array Bool) (place : Int) : Except Fault Bool :=
  match SignedIndex.ofInt? hidden.size place with
  | some s => .ok hidden[s.index]
  | none => .error .badIndex

variable {γ : Type} [RandomSource γ]

/-- Fails for a cause, or goes on with a value. -/
def settle {α : Type} : Except Fault α → EStateM Fault (Patching γ) α
  | .ok a => pure a
  | .error e => throw e

/-- Puts a question to the source of randomness. -/
def ask {α : Type} (question : EStateM Fault γ α) : EStateM Fault (Patching γ) α := fun s =>
  match question s.source with
  | .ok a source => .ok a { s with source }
  | .error e source => .error e { s with source }

/-- Takes the literal at place `j` out of clause `i`. -/
def takeOut (s : Patching γ) (i j : Nat) (l : Int) : Patching γ :=
  { s with
    clauses := s.clauses.modify i fun c => c.eraseIdx j
    occurrences := s.occurrences.drop l.natAbs }

/-- Puts the literal of the variable at a place with the given value at the end of
clause `i`. -/
def putIn (s : Patching γ) (i : Nat) (place : Int) (value : Bool) : Patching γ :=
  { s with
    clauses := s.clauses.modify i fun c => c ++ [numberAt place value]
    occurrences := s.occurrences.add (place + 1) }

/-- Takes a random literal out of clause `i`. -/
def takeRandom (i : Nat) : EStateM Fault (Patching γ) Unit := do
  let clause := (← get).clauses[i]?.getD []
  let j ← ask (RandomSource.index clause.length)
  match clause[j]? with
  | none => throw .badIndex
  | some l => modify fun s => s.takeOut i j l

/-- Puts the variable at a place into a random clause that can do without one of its
literals. -/
def patch (hidden : Array Bool) (place : Int) : EStateM Fault (Patching γ) Unit := do
  let s ← get
  let spare ← settle (spareIndices s.occurrences 0 s.clauses)
  if spare.isEmpty then throw .noClauseToPatch
  else
    let i ← ask (RandomSource.pickMember spare)
    takeRandom i
    let value ← settle (hiddenValue hidden place)
    modify fun s => s.putIn i place value

/-- Puts the variables at given places into clauses, one after the other. -/
def patchAll (hidden : Array Bool) : List Int → EStateM Fault (Patching γ) Unit
  | [] => pure ()
  | place :: places => do
      patch hidden place
      patchAll hidden places

end Patching

end LocalSat
