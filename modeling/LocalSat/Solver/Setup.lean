/-
Solvers built from values.

* `Setup`: the options that a solver is built with;
* `Setup.build`: a solver for clauses, seeded; the seed is checked first, then the number
  of variables, the options and the clauses.
-/
import LocalSat.Random.Pcg64
import LocalSat.Random.Seed
import LocalSat.Solver.State

namespace LocalSat

/-- The options that a solver is built with, as values that are yet to be checked. -/
structure Setup where
  /-- The number of flips for each variable. -/
  flipsFactor : Json := .int 35
  /-- The chance of a random flip. -/
  noise : Json := .float 0.5
  /-- Whether flips that break nothing are made first. -/
  zeroBreakFirst : Json := .bool false
  /-- Whether the flips are recorded. -/
  recordTrace : Json := .bool false
  deriving Inhabited

namespace Setup

/-- The setup with one option given by name. -/
def put (s : Setup) (name : String) (value : Json) : Except Fault Setup :=
  match name with
  | "flips_factor" => .ok { s with flipsFactor := value }
  | "noise" => .ok { s with noise := value }
  | "zero_break_first" => .ok { s with zeroBreakFirst := value }
  | "record_trace" => .ok { s with recordTrace := value }
  | _ => .error .unknownSetting

/-- The setup with options given by the fields of an object; the others have their
defaults. -/
def ofJson (settings : Json) : Except Fault Setup :=
  match settings with
  | .obj fields => fields.foldlM (fun s f => s.put f.1.toString f.2) {}
  | _ => .error .notKeyed

variable {n : Nat} {γ : Type}

/-- Sets the options of a solver and adds clauses to it. -/
def apply (s : Setup) (clauses : Json) : Solver.Action n γ Unit := do
  Solver.setOption "flips-factor" s.flipsFactor
  Solver.setOption "noise" s.noise
  Solver.setOption "zero-break-first" s.zeroBreakFirst
  Solver.setOption "record-trace" s.recordTrace
  Solver.addClausesOf clauses

/-- A solver for clauses, seeded. -/
def build (s : Setup) (varCount clauses seed : Json) :
    Except Fault (Sigma fun n => Solver n Pcg64) := do
  let value ← seedOf .floatSeed seed
  let n ← Solver.variableCount varCount
  match s.apply clauses (Solver.new n (Pcg64.ofSeed value)) with
  | .ok () solver => pure ⟨n, solver⟩
  | .error e _ => throw e

end Setup

end LocalSat
