/-
The index of a search: what a flip changes, kept up to date.

* `Index n m`: the occurrences of the literals, for each clause the number of its true
  literals, and the set of clauses without one;
* `Index.build`: the index of a list of clauses under an assignment;
* `Index.flip`: the index after a flip, from the occurrences of the two literals of the
  variable alone;
* `breakCount`: the number of clauses that have the true literal of a variable as their
  only one; `breakCountUpTo` stops counting beyond a bound.
-/
import LocalSat.Fault
import LocalSat.ResidualSet
import LocalSat.Search.Occurrences

namespace LocalSat

/-- The index of a search over `m` clauses in `n` variables. -/
structure Index (n m : Nat) where
  /-- Where the literals occur. -/
  occurrences : Occurrences n m
  /-- For each clause the number of its true literals. -/
  trueCount : Table m Int
  /-- The clauses without a true literal. -/
  residual : ResidualSet m

namespace Index

variable {n m : Nat}

/-- For each clause the number of literal occurrences in it that are true. -/
def trueCounts (clauses : Table m (Clause n)) (a : Assignment n) : Table m Int :=
  clauses.map fun c => (c.countP a.holds : Int)

/-- The clauses with the count zero, in ascending order. -/
def unsatisfied (counts : Table m Int) : ResidualSet m :=
  (List.finRange m).foldl
    (fun r i => if counts.get i = 0 then r.insert (.ofFin i) else r) (ResidualSet.empty m)

/-- The index of a list of clauses under an assignment. -/
def build (clauses : Table m (Clause n)) (a : Assignment n) : Index n m :=
  let counts := trueCounts clauses a
  ⟨Occurrences.ofClauses clauses, counts, unsatisfied counts⟩

/-! ### Flips -/

/-- A clause has one more true literal. With the first one it stops being residual. -/
def gain (x : Index n m) (c : Fin m) : Except Fault (Index n m) :=
  let count := x.trueCount.get c + 1
  if count = 1 then
    match x.residual.remove? (.ofFin c) with
    | some residual => .ok { x with trueCount := x.trueCount.write c count, residual }
    | none => .error (.absentMember (.int c))
  else .ok { x with trueCount := x.trueCount.write c count }

/-- A clause has one true literal less. Without the last one it becomes residual. -/
def lose (x : Index n m) (c : Fin m) : Index n m :=
  let count := x.trueCount.get c
  { x with
    trueCount := x.trueCount.write c (count - 1)
    residual := if count = 1 then x.residual.insert (.ofFin c) else x.residual }

/-- The index after a flip of a variable, of which the assignment before is given. The
clauses with the negation come before those with the variable itself. -/
def flip (x : Index n m) (a : Assignment n) (v : Fin n) : Except Fault (Index n m) :=
  let negative := x.occurrences.negative.get v
  let positive := x.occurrences.positive.get v
  if a.get v then do
    let y ← negative.foldlM gain x
    pure (positive.foldl lose y)
  else positive.foldlM gain (negative.foldl lose x)

/-! ### Clauses that a flip breaks -/

/-- The clauses that the true literal of a variable occurs in. -/
def support (x : Index n m) (a : Assignment n) (v : Fin n) : List (Fin m) :=
  x.occurrences.of (a.literal v)

/-- The number of occurrences of the true literal of a variable in clauses that have one
true literal. -/
def breakCount (x : Index n m) (a : Assignment n) (v : Fin n) : Nat :=
  (x.support a v).countP fun c => x.trueCount.get c == 1

/-- Counts on from `count` and stops when it is above the bound. -/
def countUpTo (x : Index n m) (bound : Int) (count : Nat) : List (Fin m) → Nat
  | [] => count
  | c :: cs =>
      if x.trueCount.get c = 1 then
        if bound < (count : Int) + 1 then count + 1 else countUpTo x bound (count + 1) cs
      else countUpTo x bound count cs

/-- The break count of a variable, counted no further than one above the bound. -/
def breakCountUpTo (x : Index n m) (a : Assignment n) (v : Fin n) (bound : Int) : Nat :=
  x.countUpTo bound 0 (x.support a v)

end Index

end LocalSat
