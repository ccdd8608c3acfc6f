/-
Searches that go alike.

* `SameSearch s t`: the next flips depend on the same things;
* `Lockstep R`: solvers that are related by `R` search alike, and stay related;
* `Lockstep.initSearch`, `Lockstep.step`, `Lockstep.searchFor`, `Lockstep.search`: what such
  solvers do agrees, flip by flip.
-/
import LocalSat.Proofs.Agreement
import LocalSat.Solver.Search

namespace LocalSat.Solver

variable {n : Nat} {γ : Type}

/-- What a search depends on is the same. -/
structure SameSearch (s t : Solver n γ) : Prop where
  /-- The clauses that are left. -/
  clauses : t.clauses = s.clauses
  /-- The forced values. -/
  forced : t.forced = s.forced
  /-- How flips are chosen. -/
  policy : t.policy = s.policy
  /-- The current assignment. -/
  values : t.values = s.values
  /-- Its index. -/
  index : t.index = s.index
  /-- The number of flips so far. -/
  flips : t.counters.flips = s.counters.flips
  /-- The source. -/
  source : t.source = s.source

namespace SameSearch

variable {s t : Solver n γ}

/-- The current assignment and its index are the same. -/
lemma current_eq (h : s.SameSearch t) : t.current = s.current := by
  rw [current, current, h.values, h.index]

/-- The clause to choose from is the same. -/
lemma firstResidual_eq (h : s.SameSearch t) : t.firstResidual = s.firstResidual := by
  rw [firstResidual, firstResidual, h.index, h.clauses]

/-- What flips break is the same. -/
lemma breakCountUpTo_eq (h : s.SameSearch t) : t.breakCountUpTo = s.breakCountUpTo := by
  funext v bound
  rw [breakCountUpTo, breakCountUpTo, h.current_eq]

end SameSearch

/-- Solvers that are related search alike, and stay related with all that a search changes. -/
structure Lockstep (R : Solver n γ → Solver n γ → Prop) : Prop where
  /-- What the search depends on is the same. -/
  same : ∀ {s t}, R s t → s.SameSearch t
  /-- The source goes on. -/
  source : ∀ {s t} source, R s t → R { s with source } { t with source }
  /-- The assignment changes. -/
  values : ∀ {s t} values, R s t → R { s with values } { t with values }
  /-- The index changes. -/
  index : ∀ {s t} index, R s t → R { s with index } { t with index }
  /-- A search is started. -/
  started : ∀ {s t} a source, R s t → R (s.started a source) (t.started a source)
  /-- A flip is recorded. -/
  recorded : ∀ {s t} v move, R s t → R (s.recorded v move) (t.recorded v move)
  /-- A row of the report is due. -/
  progress : ∀ {s t}, R s t → Agree R progress progress s t

namespace Lockstep

variable {R : Solver n γ → Solver n γ → Prop} {s t : Solver n γ}

/-- A flip. -/
lemma flipVariable (hR : Lockstep R) (h : R s t) (v : Fin n) :
    Agree R (flipVariable v) (flipVariable v) s t := by
  rw [Solver.flipVariable, agree_get_bind, (hR.same h).current_eq]
  split
  · exact agree_throw h _
  · next a m x _ =>
    show Agree R (attempt (x.flip a v) >>= _) (attempt (x.flip a v) >>= _) s t
    cases x.flip a v with
    | error e => exact ⟨t, rfl, h⟩
    | ok y => exact ⟨_, rfl, hR.index (some ⟨m, y⟩) (hR.values (some (a.flip v)) h)⟩

variable [RandomSource γ]

/-- Setting up a search. -/
lemma initSearch (hR : Lockstep R) (h : R s t) :
    Agree R initSearch initSearch s t := by
  have hsame := hR.same h
  have hcomplete : complete t.forced (List.finRange n) (Vector.replicate n false, t.source)
      = complete s.forced (List.finRange n) (Vector.replicate n false, s.source) := by
    rw [hsame.forced, hsame.source]
  rw [Agree, Leads, Solver.initSearch, Solver.initSearch, hcomplete]
  cases complete s.forced (List.finRange n) (Vector.replicate n false, s.source) with
  | ok u p => exact ⟨_, rfl, hR.started p.1 p.2 h⟩
  | error e p => exact ⟨_, rfl, hR.source p.2 (hR.values (some p.1) h)⟩

/-- The choice of a flip. -/
lemma pickNext (hR : Lockstep R) (h : R s t) :
    Agree R pickNext pickNext s t := by
  rw [Solver.pickNext, agree_get_bind, (hR.same h).firstResidual_eq]
  refine (agree_attempt h _).bind fun c u v huv => ?_
  have hsame := hR.same huv
  have hquestion : pick c v = ask (chooseFlip u.policy (fun w k => u.breakCountUpTo w k)
      u.clauses.size (c.map Literal.var)) v := by
    rw [pick, hsame.policy, hsame.breakCountUpTo_eq, hsame.clauses]
  have hagree := agree_ask hsame.source (fun g => hR.source g huv) (chooseFlip u.policy
    (fun w k => u.breakCountUpTo w k) u.clauses.size (c.map Literal.var))
  rw [Agree, hquestion]
  exact hagree

/-- A flip with its record and its row of the report. -/
lemma step (hR : Lockstep R) (h : R s t) : Agree R step step s t := by
  refine (hR.pickNext h).bind fun ⟨v, move⟩ u w huw => ?_
  refine (hR.flipVariable huw v).bind fun _ u w huw => ?_
  exact (agree_modify (hR.recorded v move huw)).bind fun _ _ _ => hR.progress

/-- However many flips there are. -/
lemma searchFor (hR : Lockstep R) (left : Nat) (h : R s t) :
    Agree R (searchFor left) (searchFor left) s t := by
  induction left generalizing s t with
  | zero =>
      rw [Solver.searchFor, agree_get_bind, (hR.same h).index]
      split
      · exact agree_throw h _
      · exact agree_pure h _
  | succ left ih =>
      rw [Solver.searchFor, agree_get_bind, (hR.same h).index]
      split
      · exact agree_throw h _
      · exact .ite (fun _ => agree_pure h _) fun _ => (hR.step h).bind fun _ _ _ => ih

/-- A search. -/
lemma search (hR : Lockstep R) (maxFlips : Int) (h : R s t) :
    Agree R (search maxFlips) (search maxFlips) s t := by
  rw [Solver.search, agree_get_bind, (hR.same h).flips]
  exact hR.searchFor _ h

end Lockstep

end LocalSat.Solver
