/-
Sessions with a solver.

* `Request`: what a solver can be asked to do; `Request.perform` does it;
* `Solver.after`, `Solver.run`: the state after a request and after many, where a request
  that fails leaves the state that it has reached;
* `setOption_eq`, `addClause_eq`: an option is set and a clause is added as a whole or not at all;
* `Request.isQuiet`: a request that changes nothing of what is known about the clauses;
  `Lasting f`: what `f` reads is not changed by such requests;
* `run_induction`: what every request keeps is kept by all of them;
* `Built s`: nothing was done yet to the clauses that were added.
-/
import LocalSat.Proofs.Solver.Solve

namespace LocalSat

variable {n : Nat} {γ : Type}

/-- Something that a solver is asked to do. -/
inductive Request (n : Nat) where
  /-- To set an option. -/
  | setOption (name : String) (value : Json)
  /-- To set the level and the interval of the report. -/
  | setReport (verbosity progressInterval : Option Numeral)
  /-- To add the clause that a value gives. -/
  | addClause (value : Json)
  /-- To make a literal true by hand. -/
  | force (l : Literal n)
  /-- To simplify the clauses. -/
  | simplify
  /-- To set up a search. -/
  | initSearch
  /-- To flip a variable. -/
  | flip (v : Fin n)
  /-- To search until there have been so many flips. -/
  | search (maxFlips : Int)
  /-- To solve. -/
  | solve

namespace Request

variable [RandomSource γ]

/-- Does what is asked for. -/
def perform : Request n → Solver.Action n γ Unit
  | setOption name value => Solver.setOption name value
  | setReport verbosity progressInterval =>
      modify fun s => { s with verbosity, progressInterval }
  | addClause value => Solver.addClause value
  | force l => do
      let _ ← Solver.force l
      pure ()
  | simplify => do
      let _ ← Solver.simplify
      pure ()
  | initSearch => Solver.initSearch
  | flip v => Solver.flipVariable v
  | search maxFlips => do
      let _ ← Solver.search maxFlips
      pure ()
  | solve => do
      let _ ← Solver.solve
      pure ()

/-- Whether a request leaves the clauses and the forced values alone. -/
def isQuiet : Request n → Bool
  | setOption .. => true
  | setReport .. => true
  | addClause _ => false
  | force _ => false
  | simplify => false
  | initSearch => true
  | flip _ => true
  | search _ => true
  | solve => false

end Request

namespace Solver

/-! ### Clauses as they were added -/

/-- Nothing has been done to the clauses yet. -/
structure Built (s : Solver n γ) : Prop where
  /-- The clauses are not refuted. -/
  ok : s.ok = true
  /-- All clauses are left. -/
  clauses : s.clauses = s.added
  /-- Nothing is forced. -/
  forced : s.forced = Forced.none n
  /-- There was no pass. -/
  rounds : s.rounds = 0

namespace Built

variable {s t : Solver n γ}

/-- A new solver has no clauses. -/
lemma new (n : Nat) (g : γ) : (new n g).Built := ⟨rfl, rfl, rfl, rfl⟩

/-- What is built depends on what is known. -/
lemma of_known (h : s.Built) (hk : t.known = s.known) : t.Built := by
  obtain ⟨hok, hadded, hcl, hf, hr⟩ := known_eq_iff.1 hk
  exact ⟨hok.trans h.ok, hcl.trans (h.clauses.trans hadded.symm), hf.trans h.forced,
    hr.trans h.rounds⟩

/-- Clauses can be added. -/
lemma pushClause (h : s.Built) (c : Clause n) : (s.pushClause c).Built :=
  ⟨h.ok, congrArg (·.push c) h.clauses, h.forced, h.rounds⟩

/-- Clauses that are complete are settled. -/
lemma settled (h : s.Built) : s.Settled :=
  fun _ => .inr ⟨h.clauses, fun hr => absurd h.rounds hr⟩

/-- Clauses that are complete are faithful. -/
lemma faithful (h : s.Built) : s.Faithful [] where
  models _ a := by
    have hagrees : (Forced.none n).Agrees a :=
      (Forced.agrees_iff _ a).2 fun l hl => absurd hl (Forced.not_flags_none l)
    simp [Admits, h.clauses, h.forced, hagrees]
  unsatisfiable hok := by
    rw [h.ok] at hok
    cases hok

end Built

/-! ### Requests -/

/-- What an operation leads to in any case is kept when its answer is dropped. -/
lemma leads_drop {α : Type} {P : Solver n γ → Prop} {m : Action n γ α} {s : Solver n γ}
    (h : Leads m s (fun _ t => P t) fun _ t => P t) :
    Leads (do let _ ← m; pure ()) s (fun _ t => P t) fun _ t => P t := by
  rw [leads_bind]
  exact h

/-- An option is set as the options can be set, and otherwise nothing happens. -/
lemma setOption_eq (name : String) (value : Json) (s : Solver n γ) :
    setOption name value s =
      match s.options.set name value with
      | .ok options => .ok () { s with options }
      | .error e => .error e s := by
  rw [setOption, get_bind_run]
  cases s.options.set name value <;> rfl

/-- A clause is added as it can be read, and otherwise nothing happens. -/
lemma addClause_eq (value : Json) (s : Solver n γ) :
    addClause value s =
      match readClause n value with
      | .ok c => .ok () (s.pushClause c)
      | .error e => .error e s := by
  rw [addClause]
  cases readClause n value <;> rfl

/-- Setting an option changes the options only. -/
lemma fixes_setOption {τ : Type} {f : Solver n γ → τ}
    (hf : ∀ s o, f { s with options := o } = f s) (name : String) (value : Json) :
    Fixes f (setOption name value : Action n γ Unit) := by
  intro s
  rw [Leads, setOption_eq]
  cases s.options.set name value with
  | ok o => exact hf s o
  | error e => rfl

variable [RandomSource γ]

/-- The state after a request, whether it succeeds or fails. -/
def after (s : Solver n γ) (r : Request n) : Solver n γ :=
  match r.perform s with
  | .ok () t => t
  | .error _ t => t

/-- The state after requests. -/
def run (s : Solver n γ) (rs : List (Request n)) : Solver n γ := rs.foldl after s

/-- What a request leads to in any case holds after it. -/
lemma of_leads {P : Solver n γ → Prop} {r : Request n} {s : Solver n γ}
    (h : Leads r.perform s (fun _ t => P t) fun _ t => P t) : P (s.after r) := by
  rw [Leads] at h
  rw [after]
  cases hr : r.perform s with
  | ok a t => rwa [hr] at h
  | error e t => rwa [hr] at h

/-- The state after a solve is the one that it reaches. -/
lemma after_solve (s : Solver n γ) : s.after .solve = reached (solve s) := by
  show (match (solve >>= fun _ => pure ()) s with | .ok () t => t | .error _ t => t) = _
  cases hs : solve s with
  | ok status t => rw [bind_run_of_ok hs]; rfl
  | error e t => rw [bind_run_of_error hs]; rfl

/-- What holds at the start and is kept by every request holds after all of them. -/
lemma run_induction {P : Solver n γ → Prop} {rs : List (Request n)}
    (hstep : ∀ r ∈ rs, ∀ s, P s → P (s.after r)) {s : Solver n γ} (hs : P s) :
    P (s.run rs) := by
  induction rs generalizing s with
  | nil => exact hs
  | cons r rs ih =>
      exact ih (fun r' hr' => hstep r' (List.mem_cons_of_mem r hr'))
        (hstep r List.mem_cons_self s hs)

/-- What a quiet request does not change: no search changes it, and it depends neither on what
is set by hand nor on the model and the status. -/
structure Lasting {τ : Type} (f : Solver n γ → τ) : Prop extends Steady f where
  /-- It does not depend on what is set by hand. -/
  settings : ∀ s o v p,
    f { s with options := o, verbosity := v, progressInterval := p } = f s

omit [RandomSource γ] in
lemma lasting_known : Lasting (known : Solver n γ → _) := ⟨steady_known, fun _ _ _ _ => rfl⟩

/-- What lasts is the same after a quiet request. -/
lemma Lasting.after {τ : Type} {f : Solver n γ → τ} (hf : Lasting f) {r : Request n}
    (hr : r.isQuiet = true) (s : Solver n γ) : f (s.after r) = f s := by
  refine of_leads (P := fun t => f t = f s) ?_
  cases r with
  | setOption name value =>
      exact fixes_setOption (fun s o => hf.settings s o s.verbosity s.progressInterval) name value s
  | setReport verbosity progressInterval =>
      exact hf.settings s s.options verbosity progressInterval
  | initSearch => exact hf.fixes fixes_base_initSearch s
  | flip v => exact hf.fixes (fixes_base_flipVariable v) s
  | search maxFlips => exact leads_drop (hf.fixes (fixes_base_search maxFlips) s)
  | addClause value => cases hr
  | force l => cases hr
  | simplify => cases hr
  | solve => cases hr

/-- Nothing else is known about the clauses after a quiet request. -/
lemma known_after {r : Request n} (hr : r.isQuiet = true) (s : Solver n γ) :
    (s.after r).known = s.known :=
  lasting_known.after hr s

/-- A simplification and a solve do what propagation does. -/
lemma propagates_after_simplify (s : Solver n γ) : s.Propagates (s.after .simplify) :=
  of_leads (leads_drop ((leads_simplify s).mono (fun _ _ => id) fun _ _ => And.left))

lemma propagates_after_solve (s : Solver n γ) : s.Propagates (s.after .solve) :=
  of_leads (leads_drop (propagates_solve s))

/-- After a request for a clause this clause is the last one, or nothing was added. -/
lemma after_addClause (s : Solver n γ) (value : Json) :
    s.after (.addClause value) = s ∨ ∃ c, s.after (.addClause value) = s.pushClause c := by
  rw [after, Request.perform, addClause_eq]
  cases readClause n value with
  | error e => exact .inl rfl
  | ok c => exact .inr ⟨c, rfl⟩

end Solver

end LocalSat
