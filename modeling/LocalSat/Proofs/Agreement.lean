/-
Operations that agree.

* `Agree R m m' s t`: from `s` and from `t` the operations `m` and `m'` give the same answer
  or the same fault, and the states that they reach are related by `R`;
* the lemmas `Agree.…` and `agree_…` reduce this, for composed operations, to their parts.
-/
import LocalSat.Proofs.Outcome

namespace LocalSat

section

variable {ε σ α β : Type} {R : σ → σ → Prop} {m m' : EStateM ε σ α} {s t : σ}

/-- Two operations give the same answer or the same fault, and reach related states. -/
def Agree (R : σ → σ → Prop) (m m' : EStateM ε σ α) (s t : σ) : Prop :=
  Leads m s (fun a u => ∃ v, m' t = .ok a v ∧ R u v)
    fun e u => ∃ v, m' t = .error e v ∧ R u v

lemma agree_pure (h : R s t) (a : α) :
    Agree R (pure a : EStateM ε σ α) (pure a) s t :=
  ⟨t, rfl, h⟩

lemma agree_throw (h : R s t) (e : ε) :
    Agree R (throw e : EStateM ε σ α) (throw e) s t :=
  ⟨t, rfl, h⟩

lemma agree_modify {f g : σ → σ} (h : R (f s) (g t)) :
    Agree R (modify f : EStateM ε σ PUnit) (modify g) s t :=
  ⟨g t, rfl, h⟩

/-- Sequences agree where their parts do. -/
lemma Agree.bind {k k' : α → EStateM ε σ β} (h : Agree R m m' s t)
    (hk : ∀ a u v, R u v → Agree R (k a) (k' a) u v) :
    Agree R (m >>= k) (m' >>= k') s t := by
  rw [Agree, leads_bind]
  refine Leads.mono h ?_ ?_
  · rintro a u ⟨v, hv, huv⟩
    rw [bind_run_of_ok hv]
    exact hk a u v huv
  · rintro e u ⟨v, hv, huv⟩
    exact ⟨v, bind_run_of_error hv, huv⟩

/-- Sequences agree where their parts do, and what the first part leads to may be used for the
second one. -/
lemma Agree.bind_of_leads {k k' : α → EStateM ε σ β} {Q : α → σ → Prop} {E : ε → σ → Prop}
    (h : Agree R m m' s t) (hm : Leads m s Q E)
    (hk : ∀ a u v, R u v → Q a u → Agree R (k a) (k' a) u v) :
    Agree R (m >>= k) (m' >>= k') s t := by
  rw [Agree, leads_bind]
  refine (Leads.and h hm).mono ?_ ?_
  · rintro a u ⟨⟨v, hv, huv⟩, hu⟩
    rw [bind_run_of_ok hv]
    exact hk a u v huv hu
  · rintro e u ⟨⟨v, hv, huv⟩, -⟩
    exact ⟨v, bind_run_of_error hv, huv⟩

/-- Sequences that first read the state agree where they go on with it alike. -/
lemma agree_get_bind {k k' : σ → EStateM ε σ β} :
    Agree R (get >>= k) (get >>= k') s t ↔ Agree R (k s) (k' t) s t := Iff.rfl

/-- What is said of an answer of one sequence and of the outcome of another follows from what
is said of their second parts, where their first parts agree. -/
lemma Agree.leads_bind {k k' : α → EStateM ε σ β}
    {P : β → σ → EStateM.Result ε σ β → Prop} (h : Agree R m m' s t)
    (hk : ∀ a u v, R u v → Leads (k a) u (fun b w => P b w (k' a v)) fun _ _ => True) :
    Leads (m >>= k) s (fun b w => P b w ((m' >>= k') t)) fun _ _ => True := by
  rw [LocalSat.leads_bind]
  refine Leads.mono h ?_ fun _ _ _ => trivial
  rintro a u ⟨v, hv, huv⟩
  rw [bind_run_of_ok hv]
  exact hk a u v huv

/-- Operations that choose alike agree where those they choose do. -/
lemma Agree.ite {p : Prop} [Decidable p] {l l' : EStateM ε σ α}
    (h : p → Agree R m m' s t) (h' : ¬p → Agree R l l' s t) :
    Agree R (if p then m else l) (if p then m' else l') s t := by
  split
  · next hp => exact h hp
  · next hp => exact h' hp

end

/-! ### Operations of a solver -/

namespace Solver

variable {n : Nat} {γ α : Type} {R : Solver n γ → Solver n γ → Prop} {s t : Solver n γ}

lemma agree_attempt (h : R s t) (x : Except Fault α) :
    Agree R (attempt x) (attempt x) s t := by
  cases x with
  | ok a => exact agree_pure h a
  | error e => exact agree_throw h e

/-- Questions to the same source agree. -/
lemma agree_ask (hsource : t.source = s.source)
    (h : ∀ g, R { s with source := g } { t with source := g })
    (question : EStateM Fault γ α) : Agree R (ask question) (ask question) s t := by
  rw [Agree, leads_ask, Leads]
  cases hq : question s.source with
  | ok a g => exact ⟨_, by rw [ask, hsource, hq], h g⟩
  | error e g => exact ⟨_, by rw [ask, hsource, hq], h g⟩

end Solver

end LocalSat
