/-
What a source was asked, and what it has answered.

* `Reply`: an answer with its question; `Replies g qs g'`: asked the questions in `qs` in
  turn, the source `g` gives the answers in `qs` and goes on as `g'`;
* `Reply.Sensible`: an index is one into a sequence that has some members;
* `Consults f m`: whenever an operation succeeds, it has consulted the source that `f` reads
  from the state by sensible questions only; the lemmas `Consults.…` and `consults_…` reduce
  this to the parts of the operation.
-/
import LocalSat.Proofs.Outcome
import LocalSat.Random.Source

namespace LocalSat

/-! ### Answers -/

/-- An answer of a source, with its question. -/
inductive Reply where
  /-- The side that a coin with a chance has shown. -/
  | coin (chance : Float) (heads : Bool)
  /-- An index into a sequence of a length. -/
  | index (length : Int) (i : Nat)

/-- An index lies inside of the sequence that was asked about. In particular this has some
members. -/
def Reply.Sensible : Reply → Prop
  | .coin _ _ => True
  | .index length i => (i : Int) < length

/-- Whether a question is for a coin. -/
def Reply.isCoin : Reply → Bool
  | .coin _ _ => true
  | .index _ _ => false

section

variable {γ : Type} [RandomSource γ]

/-- Asked questions in turn, a source gives answers and goes on. -/
inductive Replies : γ → List Reply → γ → Prop where
  /-- Without a question nothing happens. -/
  | nil (g : γ) : Replies g [] g
  /-- A coin is asked for. -/
  | coin {chance : Float} {heads : Bool} {g g₁ g₂ : γ} {qs : List Reply} :
      RandomSource.coin chance g = .ok heads g₁ → Replies g₁ qs g₂ →
        Replies g (.coin chance heads :: qs) g₂
  /-- An index is asked for. -/
  | index {length : Int} {i : Nat} {g g₁ g₂ : γ} {qs : List Reply} :
      RandomSource.index length g = .ok i g₁ → Replies g₁ qs g₂ →
        Replies g (.index length i :: qs) g₂

/-- Questions can be asked after others. -/
lemma Replies.append {g g₁ g₂ : γ} {qs rs : List Reply} (h : Replies g qs g₁)
    (h' : Replies g₁ rs g₂) : Replies g (qs ++ rs) g₂ := by
  induction h with
  | nil g => exact h'
  | coin hcoin _ ih => exact .coin hcoin (ih h')
  | index hindex _ ih => exact .index hindex (ih h')

/-- A source goes on by sensible questions. -/
def Consulted (g g' : γ) : Prop := ∃ qs, Replies g qs g' ∧ ∀ q ∈ qs, q.Sensible

lemma Consulted.refl (g : γ) : Consulted g g := ⟨[], .nil g, by simp⟩

lemma Consulted.trans {g g₁ g₂ : γ} (h : Consulted g g₁) (h' : Consulted g₁ g₂) :
    Consulted g g₂ := by
  obtain ⟨qs, hqs, hsensible⟩ := h
  obtain ⟨rs, hrs, hsensible'⟩ := h'
  exact ⟨qs ++ rs, hqs.append hrs, List.forall_mem_append.2 ⟨hsensible, hsensible'⟩⟩

/-- A coin is always a sensible question. -/
lemma consulted_of_coin {chance : Float} {heads : Bool} {g g' : γ}
    (h : RandomSource.coin chance g = .ok heads g') : Consulted g g' :=
  ⟨[.coin chance heads], .coin h (.nil g'), by simp [Reply.Sensible]⟩

/-! ### Operations that consult a source -/

variable {ε σ α β : Type} {f : σ → γ} {m : EStateM ε σ α}

/-- An operation that succeeds has consulted the source by sensible questions only. -/
def Consults (f : σ → γ) (m : EStateM ε σ α) : Prop :=
  ∀ s, Leads m s (fun _ t => Consulted (f s) (f t)) fun _ _ => True

namespace Consults

/-- What does not touch the source does not consult it. -/
lemma of_fixes (h : Fixes f m) : Consults f m := by
  refine fun s => (h s).mono (fun _ t ht => ?_) fun _ _ _ => trivial
  rw [ht]
  exact .refl (f s)

lemma pure (a : α) : Consults f (pure a : EStateM ε σ α) := of_fixes (.pure a)

lemma throw (e : ε) : Consults f (throw e : EStateM ε σ α) := of_fixes (.throw e)

lemma get {f : σ → γ} : Consults f (get : EStateM ε σ σ) := of_fixes .get

/-- A sequence consults the source as its parts do. -/
lemma bind {k : α → EStateM ε σ β} (hm : Consults f m) (hk : ∀ a, Consults f (k a)) :
    Consults f (m >>= k) := by
  intro s
  rw [leads_bind]
  refine (hm s).mono (fun a t ht => ?_) fun _ _ => id
  exact (hk a t).mono (fun _ _ => ht.trans) fun _ _ => id

lemma ite {p : Prop} [Decidable p] {m' : EStateM ε σ α} (h : Consults f m)
    (h' : Consults f m') : Consults f (if p then m else m') := by
  split
  · exact h
  · exact h'

end Consults

lemma consults_coin (chance : Float) :
    Consults id (RandomSource.coin chance : EStateM Fault γ Bool) := by
  intro g
  cases h : RandomSource.coin chance g with
  | ok heads g' => exact (leads_of_ok h).2 (consulted_of_coin h)
  | error e g' => exact (leads_of_error h).2 trivial

/-- A member of a list is chosen by one index. -/
lemma leads_pickMember_replies {α : Type} (members : List α) (g : γ) :
    Leads (RandomSource.pickMember members) g
      (fun v g' => ∃ i, members[i]? = some v ∧ Replies g [.index members.length i] g')
      fun _ _ => True := by
  rw [RandomSource.pickMember, leads_bind]
  cases h : RandomSource.index (members.length : Int) g with
  | error e g' => exact (leads_of_error h).2 trivial
  | ok i g' =>
      rw [leads_of_ok h]
      cases hi : members[i]? with
      | none => trivial
      | some v => exact ⟨i, hi, .index h (.nil g')⟩

/-- Nothing is chosen from an empty list. -/
lemma consults_pickMember {α : Type} (members : List α) :
    Consults id (RandomSource.pickMember members : EStateM Fault γ α) := by
  refine fun g => (leads_pickMember_replies members g).mono ?_ fun _ _ => id
  rintro v g' ⟨i, hi, hreplies⟩
  have hlt : i < members.length := (List.getElem?_eq_some_iff.1 hi).1
  exact ⟨_, hreplies, by simpa [Reply.Sensible] using hlt⟩

end

namespace Solver

variable {n : Nat} {γ α : Type} [RandomSource γ]

/-- A question of a solver is one to its source. -/
lemma consults_ask {question : EStateM Fault γ α} (h : Consults id question) :
    Consults source (ask question : Action n γ α) := by
  intro s
  rw [leads_ask]
  exact h s.source

end Solver

end LocalSat
