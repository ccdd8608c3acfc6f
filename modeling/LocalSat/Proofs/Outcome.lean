/-
Where operations lead.

* `Leads m s Q E`: from the state `s` the operation `m` either succeeds with an answer and
  a state for which `Q` holds, or fails with a fault and a state for which `E` holds;
* `reached`: the state of a result, whether it is a success or a failure;
* the lemmas `leads_…` reduce this, for a composed operation, to its parts;
* `Fixes f m`: an operation leaves what `f` reads from the state as it is, whether it
  succeeds or fails;
* `Gives P m`: every answer of an operation has the property `P`.
-/
import LocalSat.Solver.State
import Mathlib.Tactic.Common

namespace LocalSat

section

variable {ε σ α β τ : Type}

/-- From a state an operation succeeds with `Q` or fails with `E`. -/
def Leads (m : EStateM ε σ α) (s : σ) (Q : α → σ → Prop) (E : ε → σ → Prop) : Prop :=
  match m s with
  | .ok a t => Q a t
  | .error e t => E e t

variable {m : EStateM ε σ α} {s : σ} {Q Q' : α → σ → Prop} {E E' : ε → σ → Prop}

/-- Where an operation that succeeds leads. -/
lemma leads_of_ok {a : α} {t : σ} (hm : m s = .ok a t) : Leads m s Q E ↔ Q a t := by
  rw [Leads, hm]

/-- Where an operation that fails leads. -/
lemma leads_of_error {e : ε} {t : σ} (hm : m s = .error e t) : Leads m s Q E ↔ E e t := by
  rw [Leads, hm]

/-- Where an operation leads can be found out by running it. -/
instance [∀ a t, Decidable (Q a t)] [∀ e t, Decidable (E e t)] : Decidable (Leads m s Q E) :=
  match hm : m s with
  | .ok a t => decidable_of_iff (Q a t) (leads_of_ok hm).symm
  | .error e t => decidable_of_iff (E e t) (leads_of_error hm).symm

/-- What a success leads to. -/
lemma Leads.ok {a : α} {t : σ} (h : Leads m s Q E) (hm : m s = .ok a t) : Q a t :=
  (leads_of_ok hm).1 h

/-- What a failure leads to. -/
lemma Leads.error {e : ε} {t : σ} (h : Leads m s Q E) (hm : m s = .error e t) : E e t :=
  (leads_of_error hm).1 h

/-- What an operation leads to may be said in a weaker way. -/
lemma Leads.mono (h : Leads m s Q E) (hQ : ∀ a t, Q a t → Q' a t)
    (hE : ∀ e t, E e t → E' e t) : Leads m s Q' E' := by
  cases hm : m s with
  | ok a t =>
      rw [leads_of_ok hm] at h ⊢
      exact hQ a t h
  | error e t =>
      rw [leads_of_error hm] at h ⊢
      exact hE e t h

/-- Two things that an operation leads to hold together. -/
lemma Leads.and (h : Leads m s Q E) (h' : Leads m s Q' E') :
    Leads m s (fun a t => Q a t ∧ Q' a t) fun e t => E e t ∧ E' e t := by
  cases hm : m s with
  | ok a t =>
      rw [leads_of_ok hm] at h h' ⊢
      exact ⟨h, h'⟩
  | error e t =>
      rw [leads_of_error hm] at h h' ⊢
      exact ⟨h, h'⟩

/-- An operation that leads to no fault succeeds. -/
lemma Leads.exists_ok (h : Leads m s Q fun _ _ => False) : ∃ a t, m s = .ok a t ∧ Q a t := by
  cases hm : m s with
  | ok a t => exact ⟨a, t, rfl, h.ok hm⟩
  | error e t => exact (h.error hm).elim

/-- An operation that leads to no answer fails. -/
lemma Leads.exists_error (h : Leads m s (fun _ _ => False) E) :
    ∃ e t, m s = .error e t ∧ E e t := by
  cases hm : m s with
  | ok a t => exact (h.ok hm).elim
  | error e t => exact ⟨e, t, rfl, h.error hm⟩

/-- Every operation leads somewhere. -/
lemma leads_any (m : EStateM ε σ α) (s : σ) :
    Leads m s (fun _ _ => True) fun _ _ => True := by
  cases hm : m s with
  | ok a t => exact (leads_of_ok hm).2 trivial
  | error e t => exact (leads_of_error hm).2 trivial

/-- An operation leads to its own outcome. -/
lemma leads_self (m : EStateM ε σ α) (s : σ) :
    Leads m s (fun a t => m s = .ok a t) fun e t => m s = .error e t := by
  cases hm : m s with
  | ok a t => exact (leads_of_ok hm).2 rfl
  | error e t => exact (leads_of_error hm).2 rfl

/-- The state that is reached, by a success or by a failure. -/
def reached : EStateM.Result ε σ α → σ
  | .ok _ t => t
  | .error _ t => t

/-- What an operation leads to in any case holds of the state that it reaches. -/
lemma Leads.reached {P : σ → Prop} (h : Leads m s (fun _ t => P t) fun _ t => P t) :
    P (reached (m s)) := by
  cases hm : m s with
  | ok a t => exact h.ok hm
  | error e t => exact h.error hm

/-! ### Composed operations -/

lemma leads_pure (a : α) : Leads (pure a : EStateM ε σ α) s Q E ↔ Q a s := Iff.rfl

/-- Where a sequence leads is where its second part leads from where the first one
does. -/
lemma leads_bind {k : α → EStateM ε σ β} {Q : β → σ → Prop} :
    Leads (m >>= k) s Q E ↔ Leads m s (fun a t => Leads (k a) t Q E) E := by
  simp only [Leads, bind, EStateM.bind]
  cases m s <;> rfl

lemma leads_get {Q : σ → σ → Prop} : Leads (get : EStateM ε σ σ) s Q E ↔ Q s s := Iff.rfl

lemma leads_modify {Q : PUnit → σ → Prop} (f : σ → σ) :
    Leads (modify f : EStateM ε σ PUnit) s Q E ↔ Q ⟨⟩ (f s) := Iff.rfl

lemma leads_ite {p : Prop} [Decidable p] {m' : EStateM ε σ α} :
    Leads (if p then m else m') s Q E ↔ if p then Leads m s Q E else Leads m' s Q E := by
  split <;> rfl

/-- A sequence that first reads the state goes on with it. -/
lemma get_bind_run (k : σ → EStateM ε σ α) (s : σ) :
    ((get : EStateM ε σ σ) >>= k) s = k s s := rfl

/-- A sequence goes on where its first part has succeeded. -/
lemma bind_run_of_ok {k : α → EStateM ε σ β} {a : α} {t : σ} (h : m s = .ok a t) :
    (m >>= k) s = k a t := by
  simp only [bind, EStateM.bind, h]

/-- A sequence fails where its first part has failed. -/
lemma bind_run_of_error {k : α → EStateM ε σ β} {e : ε} {t : σ} (h : m s = .error e t) :
    (m >>= k) s = .error e t := by
  simp only [bind, EStateM.bind, h]

/-- A sequence that succeeds succeeds with both of its parts. -/
lemma exists_of_bind_run_eq_ok {k : α → EStateM ε σ β} {b : β} {u : σ}
    (h : (m >>= k) s = .ok b u) : ∃ a t, m s = .ok a t ∧ k a t = .ok b u := by
  cases hm : m s with
  | error e t => cases (bind_run_of_error hm).symm.trans h
  | ok a t => exact ⟨a, t, rfl, (bind_run_of_ok hm).symm.trans h⟩

/-- A sequence depends on what its first part leads to only. -/
lemma bind_run_congr {m' : EStateM ε σ α} {t : σ} (k : α → EStateM ε σ β)
    (h : m s = m' t) : (m >>= k) s = (m' >>= k) t := by
  simp only [bind, EStateM.bind, h]

/-! ### What operations leave as it is -/

/-- An operation leaves what `f` reads from the state as it is. -/
def Fixes (f : σ → τ) (m : EStateM ε σ α) : Prop :=
  ∀ s, Leads m s (fun _ t => f t = f s) fun _ t => f t = f s

namespace Fixes

variable {f : σ → τ}

lemma pure (a : α) : Fixes f (pure a : EStateM ε σ α) := fun _ => rfl

lemma throw (e : ε) : Fixes f (throw e : EStateM ε σ α) := fun _ => rfl

lemma get : Fixes f (get : EStateM ε σ σ) := fun _ => rfl

lemma modify {g : σ → σ} (h : ∀ s, f (g s) = f s) :
    Fixes f (modify g : EStateM ε σ PUnit) := h

/-- A sequence leaves as it is what both of its parts do. -/
lemma bind {k : α → EStateM ε σ β} (hm : Fixes f m) (hk : ∀ a, Fixes f (k a)) :
    Fixes f (m >>= k) := by
  intro s
  rw [leads_bind]
  refine (hm s).mono (fun a t ht => ?_) fun _ _ => id
  exact (hk a t).mono (fun _ _ h => h.trans ht) fun _ _ h => h.trans ht

lemma ite {p : Prop} [Decidable p] {m' : EStateM ε σ α} (h : Fixes f m) (h' : Fixes f m') :
    Fixes f (if p then m else m') := by
  split
  · exact h
  · exact h'

end Fixes

/-! ### What operations answer -/

/-- Every answer of an operation has a property. -/
def Gives (P : α → Prop) (m : EStateM ε σ α) : Prop :=
  ∀ s, Leads m s (fun a _ => P a) fun _ _ => True

namespace Gives

variable {P : α → Prop}

lemma pure {a : α} (h : P a) : Gives P (pure a : EStateM ε σ α) := fun _ => h

lemma throw (e : ε) : Gives P (throw e : EStateM ε σ α) := fun _ => trivial

/-- The answer of a sequence is that of its second part. -/
lemma bind {k : α → EStateM ε σ β} {R : β → Prop} (hm : Gives P m)
    (hk : ∀ a, P a → Gives R (k a)) : Gives R (m >>= k) := by
  intro s
  rw [leads_bind]
  exact (hm s).mono (fun a t ha => hk a ha t) fun _ _ => id

/-- The answer of a sequence does not depend on its first part when it never does. -/
lemma after {k : α → EStateM ε σ β} {R : β → Prop} (hk : ∀ a, Gives R (k a)) :
    Gives R (m >>= k) := by
  have hm : Gives (fun _ => True) m := leads_any m
  exact hm.bind fun a _ => hk a

lemma ite {p : Prop} [Decidable p] {m' : EStateM ε σ α} (h : Gives P m) (h' : Gives P m') :
    Gives P (if p then m else m') := by
  split
  · exact h
  · exact h'

end Gives

end

/-! ### Operations of a solver -/

namespace Solver

variable {n : Nat} {γ α τ : Type} {s : Solver n γ} {Q : α → Solver n γ → Prop}
  {E : Fault → Solver n γ → Prop}

lemma leads_attempt_ok (a : α) : Leads (attempt (.ok a) : Action n γ α) s Q E ↔ Q a s := Iff.rfl

/-- A question to the source leads where the source does, in the state of the solver. -/
lemma leads_ask {question : EStateM Fault γ α} :
    Leads (ask question) s Q E ↔
      Leads question s.source (fun a g => Q a { s with source := g })
        fun e g => E e { s with source := g } := by
  simp only [Leads, ask]
  cases question s.source <;> rfl

lemma fixes_attempt {f : Solver n γ → τ} (x : Except Fault α) : Fixes f (attempt x) := by
  cases x with
  | ok a => exact .pure a
  | error e => exact .throw e

end Solver

end LocalSat
