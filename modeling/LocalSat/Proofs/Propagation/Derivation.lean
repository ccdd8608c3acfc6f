/-
Unit propagation as a derivation.

* `Derivable f cs`: the least set of literals that has the forced ones, and with the
  negations of all other literals of a clause the one that is left;
* `Derivable.holds`: what is derived is true wherever the clauses and the forced values
  are;
* `Reduces f g cs ds`: clauses and forced values are reduced to others by derivations.
  `Reduces.trans` composes such steps;
* `Refutes f g cs`: derivations have refuted the clauses;
* `justified_pass`, `justified_propagate`: a pass reduces or refutes the clauses, and so do
  all passes together;
* `Passes`: a pass that refutes nothing as a relation, over which an induction goes clause by
  clause.
-/
import LocalSat.Proofs.Propagation.Reduction
import LocalSat.Propagation.Propagate

namespace LocalSat

variable {n : Nat}

/-! ### Derivable literals -/

/-- The literals that unit propagation derives: the forced ones, and a literal of a clause
when the negations of its other literals are derived. -/
inductive Derivable (f : Forced n) (cs : List (Clause n)) : Literal n → Prop
  | forced {l : Literal n} (h : f.Flags l) : Derivable f cs l
  | unit {c : Clause n} {l : Literal n} (hc : c ∈ cs) (hl : l ∈ c)
      (h : ∀ k ∈ c, k ≠ l → Derivable f cs k.negate) : Derivable f cs l

/-- A clause is falsified when the negations of all of its literals are derived. -/
def Falsified (f : Forced n) (cs : List (Clause n)) (c : Clause n) : Prop :=
  ∀ l ∈ c, Derivable f cs l.negate

/-- A clause comes from one of some others, when it has lost literals whose negations are
derived, and nothing else but repetitions. -/
def ComesFrom (f : Forced n) (cs : List (Clause n)) (d : Clause n) : Prop :=
  ∃ c ∈ cs, d ⊆ c ∧ ∀ l ∈ c, l ∈ d ∨ Derivable f cs l.negate

namespace Derivable

variable {f g : Forced n} {cs ds : List (Clause n)}

/-- What is derived from derived literals, by clauses that come from others, is derived
from the others. -/
lemma lift {l : Literal n} (h : Derivable g ds l) (hf : ∀ k, g.Flags k → Derivable f cs k)
    (hd : ∀ d ∈ ds, ComesFrom f cs d) : Derivable f cs l := by
  induction h with
  | forced h => exact hf _ h
  | @unit d l hd' hl _ ih =>
      obtain ⟨c, hc, hsub, hcov⟩ := hd d hd'
      refine .unit hc (hsub hl) fun k hk hne => ?_
      exact (hcov k hk).elim (fun hkd => ih k hkd hne) id

/-- More clauses derive more. -/
lemma mono {l : Literal n} (h : Derivable f cs l) (hcs : cs ⊆ ds) : Derivable f ds l :=
  h.lift (fun _ => .forced) fun c hc => ⟨c, hcs hc, fun _ => id, fun _ => .inl⟩

/-- What is derived is true where the clauses and the forced literals are. -/
lemma holds {l : Literal n} {a : Assignment n} (h : Derivable f cs l) (hf : f.Agrees a)
    (hcs : a.Satisfies cs) : a.holds l = true := by
  induction h with
  | forced h => exact (f.agrees_iff a).1 hf _ h
  | @unit c l hc hl _ ih =>
      obtain ⟨k, hk, hkt⟩ := hcs c hc
      by_cases hkl : k = l
      · exact hkl ▸ hkt
      · exact absurd hkt ((a.holds_negate_iff k).1 (ih k hk hkl))

end Derivable

/-! ### More forced values -/

/-- Forced values `f` are extended to `g` by derivations from clauses. -/
structure Advances (f g : Forced n) (cs : List (Clause n)) : Prop where
  /-- What was forced stays so. -/
  keeps : ∀ l, f.Flags l → g.Flags l
  /-- What is forced is derived. -/
  derived : ∀ l, g.Flags l → Derivable f cs l

namespace Advances

variable {f g h : Forced n} {cs : List (Clause n)}

/-- Nothing is derived in no step. -/
lemma refl (f : Forced n) (cs : List (Clause n)) : Advances f f cs :=
  ⟨fun _ => id, fun _ => .forced⟩

/-- Where the clauses are satisfied, the derived values agree with an assignment when the
forced ones do. -/
lemma agrees_iff (r : Advances f g cs) {a : Assignment n} (hcs : a.Satisfies cs) :
    f.Agrees a ↔ g.Agrees a := by
  constructor
  · intro hf
    exact (g.agrees_iff a).2 fun l hl => (r.derived l hl).holds hf hcs
  · intro hg
    exact (f.agrees_iff a).2 fun l hl => (g.agrees_iff a).1 hg l (r.keeps l hl)

/-- What is derived from some clauses is derived from more of them. -/
lemma cons (r : Advances f g cs) (c : Clause n) : Advances f g (c :: cs) :=
  ⟨r.keeps, fun l hl => (r.derived l hl).mono (List.subset_cons_self c cs)⟩

/-- Before anything else a derivable literal can be forced. -/
lemma of_force? {l : Literal n} (r : Advances g h cs) (hg : f.force? l = some g)
    (hl : Derivable f cs l) : Advances f h cs where
  keeps k hk := r.keeps k ((Forced.flags_of_force? hg k).2 (.inr hk))
  derived k hk := by
    refine (r.derived k hk).lift (fun j hj => ?_)
      fun c hc => ⟨c, hc, fun _ => id, fun _ => .inl⟩
    rcases (Forced.flags_of_force? hg j).1 hj with rfl | hj
    · exact hl
    · exact .forced hj

end Advances

/-- Clauses are refuted, after forced values `f` have been extended to `g` by derivations:
one of them is falsified. -/
structure Refutes (f g : Forced n) (cs : List (Clause n)) : Prop extends
    Advances f g cs where
  /-- One of the clauses is falsified. -/
  falsified : ∃ c ∈ cs, Falsified f cs c

namespace Refutes

variable {f g h : Forced n} {cs : List (Clause n)}

/-- Clauses with refuted ones among them are refuted. -/
lemma cons (r : Refutes f g cs) (c : Clause n) : Refutes f g (c :: cs) := by
  obtain ⟨d, hd, hfalse⟩ := r.falsified
  exact ⟨r.toAdvances.cons c, d, List.mem_cons_of_mem c hd,
    fun l hl => (hfalse l hl).mono (List.subset_cons_self c cs)⟩

/-- Before a refutation a derivable literal can be forced. -/
lemma of_force? {l : Literal n} (r : Refutes g h cs) (hg : f.force? l = some g)
    (hl : Derivable f cs l) : Refutes f h cs := by
  obtain ⟨d, hd, hfalse⟩ := r.falsified
  have hstep := (Advances.refl g cs).of_force? hg hl
  refine ⟨r.toAdvances.of_force? hg hl, d, hd, fun k hk => ?_⟩
  exact (hfalse k hk).lift hstep.derived fun c hc => ⟨c, hc, fun _ => id, fun _ => .inl⟩

/-- Nothing satisfies refuted clauses and agrees with the forced values. -/
lemma not_satisfies (r : Refutes f g cs) (a : Assignment n) :
    ¬(a.Satisfies cs ∧ f.Agrees a) := by
  rintro ⟨hcs, hf⟩
  obtain ⟨c, hc, hfalse⟩ := r.falsified
  obtain ⟨l, hl, hlt⟩ := hcs c hc
  exact (a.holds_negate_iff l).1 ((hfalse l hl).holds hf hcs) hlt

end Refutes

/-! ### Reductions -/

/-- Clauses `cs` and forced values `f` are reduced to clauses `ds` and forced values `g` by
derivations. -/
structure Reduces (f g : Forced n) (cs ds : List (Clause n)) : Prop extends
    Advances f g cs where
  /-- Every clause that is left is one of those before, without false literals. -/
  origin : ∀ d ∈ ds, ∃ c ∈ cs, d ⊆ c ∧ ∀ l ∈ c, l ∈ d ∨ g.Flags l.negate
  /-- Every clause before is opposed or left, without false literals. -/
  settled : ∀ c ∈ cs, Clause.Opposed g c ∨ ∃ d ∈ ds, d ⊆ c ∧ ∀ l ∈ c, l ∈ d ∨ g.Flags l.negate

namespace Reduces

variable {f g h : Forced n} {cs ds es : List (Clause n)}

/-- The clauses that are left come from those before. -/
lemma comesFrom (r : Reduces f g cs ds) : ∀ d ∈ ds, ComesFrom f cs d := by
  intro d hd
  obtain ⟨c, hc, hsub, hcov⟩ := r.origin d hd
  exact ⟨c, hc, hsub, fun l hl => (hcov l hl).imp_right (r.derived _)⟩

/-- What is derived after a reduction was derived before. -/
lemma derivable (r : Reduces f g cs ds) {l : Literal n} (hl : Derivable g ds l) :
    Derivable f cs l :=
  hl.lift r.derived r.comesFrom

/-- What is forced by derivations after a reduction is forced by derivations. -/
lemma advances (r : Reduces f g cs ds) (s : Advances g h ds) : Advances f h cs :=
  ⟨fun l hl => s.keeps l (r.keeps l hl), fun l hl => r.derivable (s.derived l hl)⟩

/-- What is refuted after a reduction is refuted. -/
lemma refutes (r : Reduces f g cs ds) (s : Refutes g h ds) : Refutes f h cs := by
  obtain ⟨d, hd, hfalse⟩ := s.falsified
  obtain ⟨c, hc, hsub, hcov⟩ := r.comesFrom d hd
  refine ⟨r.advances s.toAdvances, c, hc, fun l hl => ?_⟩
  exact (hcov l hl).elim (fun hld => r.derivable (hfalse l hld)) id

/-- Clauses can be left as they are. -/
lemma refl (f : Forced n) (cs : List (Clause n)) : Reduces f f cs cs :=
  ⟨.refl f cs, fun c hc => ⟨c, hc, fun _ => id, fun _ => .inl⟩,
    fun c hc => .inr ⟨c, hc, fun _ => id, fun _ => .inl⟩⟩

/-- Reductions compose. -/
lemma trans (r : Reduces f g cs ds) (s : Reduces g h ds es) : Reduces f h cs es where
  toAdvances := r.advances s.toAdvances
  origin e he := by
    obtain ⟨d, hd, hed, hdcov⟩ := s.origin e he
    obtain ⟨c, hc, hdc, hccov⟩ := r.origin d hd
    refine ⟨c, hc, fun l hl => hdc (hed hl), fun l hl => ?_⟩
    rcases hccov l hl with hld | hflag
    · exact hdcov l hld
    · exact .inr (s.keeps _ hflag)
  settled c hc := by
    rcases r.settled c hc with ⟨l, hl, hwhy⟩ | ⟨d, hd, hdc, hccov⟩
    · exact .inl ⟨l, hl, hwhy.imp_left (s.keeps l)⟩
    rcases s.settled d hd with ⟨l, hl, hwhy⟩ | ⟨e, he, hed, hdcov⟩
    · exact .inl ⟨l, hdc hl, hwhy.imp_right fun h => hdc h⟩
    · refine .inr ⟨e, he, fun l hl => hdc (hed hl), fun l hl => ?_⟩
      rcases hccov l hl with hld | hflag
      · exact hdcov l hld
      · exact .inr (s.keeps _ hflag)

/-- An opposed clause can be left out. -/
lemma cons_opposed (r : Reduces f g cs ds) {c : Clause n} (hc : Clause.Opposed g c) :
    Reduces f g (c :: cs) ds where
  toAdvances := r.toAdvances.cons c
  origin d hd := by
    obtain ⟨b, hb, h⟩ := r.origin d hd
    exact ⟨b, List.mem_cons_of_mem c hb, h⟩
  settled b hb := by
    rcases List.mem_cons.1 hb with rfl | hb
    · exact .inl hc
    · exact r.settled b hb

/-- A clause can be left without its false literals. -/
lemma cons_cons (r : Reduces f g cs ds) {c d : Clause n} (hsub : d ⊆ c)
    (hcov : ∀ l ∈ c, l ∈ d ∨ g.Flags l.negate) : Reduces f g (c :: cs) (d :: ds) where
  toAdvances := r.toAdvances.cons c
  origin e he := by
    rcases List.mem_cons.1 he with rfl | he
    · exact ⟨c, List.mem_cons_self, hsub, hcov⟩
    · obtain ⟨b, hb, h⟩ := r.origin e he
      exact ⟨b, List.mem_cons_of_mem c hb, h⟩
  settled b hb := by
    rcases List.mem_cons.1 hb with rfl | hb
    · exact .inr ⟨d, List.mem_cons_self, hsub, hcov⟩
    · refine (r.settled b hb).imp_right ?_
      rintro ⟨e, he, h⟩
      exact ⟨e, List.mem_cons_of_mem d he, h⟩

/-- A reduction loses no model and gains none: the clauses and the forced values are
satisfied by the same assignments before and after it. -/
lemma satisfies_iff (r : Reduces f g cs ds) (a : Assignment n) :
    a.Satisfies cs ∧ f.Agrees a ↔ a.Satisfies ds ∧ g.Agrees a := by
  constructor
  · rintro ⟨hcs, hf⟩
    have hagrees := (r.agrees_iff hcs).1 hf
    have hg := (g.agrees_iff a).1 hagrees
    refine ⟨fun d hd => ?_, hagrees⟩
    obtain ⟨c, hc, -, hcov⟩ := r.origin d hd
    obtain ⟨l, hl, hlt⟩ := hcs c hc
    refine ⟨l, (hcov l hl).resolve_right fun hflag => ?_, hlt⟩
    exact (a.holds_negate_iff l).1 (hg _ hflag) hlt
  · rintro ⟨hds, hg⟩
    rw [g.agrees_iff] at hg
    refine ⟨fun c hc => ?_, (f.agrees_iff a).2 fun l hl => hg l (r.keeps l hl)⟩
    rcases r.settled c hc with ⟨l, hl, hflag | hneg⟩ | ⟨d, hd, hsub, -⟩
    · exact ⟨l, hl, hg l hflag⟩
    · by_cases hlt : a.holds l = true
      · exact ⟨l, hl, hlt⟩
      · exact ⟨l.negate, hneg, (a.holds_negate_iff l).2 hlt⟩
    · obtain ⟨l, hl, hlt⟩ := hds d hd
      exact ⟨l, hsub hl, hlt⟩

end Reduces

/-! ### Passes -/

namespace Pass

/-- What the outcome of passes over clauses means. -/
def Justified (f : Forced n) (cs : List (Clause n)) : Pass n → Prop
  | refuted g _ => Refutes f g cs
  | reduced ds g _ _ => Reduces f g cs ds

variable {f g : Forced n} {cs : List (Clause n)} {c : Clause n} {p : Pass n}

/-- An opposed clause can be dropped. -/
lemma Justified.skip (hp : p.Justified f cs) (hc : Clause.Opposed f c) :
    p.skip.Justified f (c :: cs) := by
  cases p with
  | refuted g k => exact Refutes.cons hp c
  | reduced ds g k b =>
      obtain ⟨l, hl, hwhy⟩ := hc
      exact Reduces.cons_opposed hp ⟨l, hl, hwhy.imp_left (hp.keeps l)⟩

/-- A clause can be left as what remains of it. -/
lemma Justified.cons {r : ReducedClause n} (hp : p.Justified f cs)
    (hr : Clause.Remains f c r) : (p.cons r).Justified f (c :: cs) := by
  cases p with
  | refuted g k => exact Refutes.cons hp c
  | reduced ds g k b =>
      exact Reduces.cons_cons hp hr.sublist.subset
        fun l hl => (hr.covers l hl).imp_right (hp.keeps _)

/-- A clause that has one literal left can force it. -/
lemma Justified.unit {r : ReducedClause n} {l : Literal n} (hp : p.Justified g cs)
    (hr : Clause.Remains f c r) (hl : r.literals = [l]) (hg : f.force? l = some g) :
    p.unit.Justified f (c :: cs) := by
  have hmem : l ∈ c := hr.sublist.subset (by simp [hl])
  have hder : Derivable f (c :: cs) l := by
    refine .unit List.mem_cons_self hmem fun k hk hne => .forced ?_
    exact (hr.covers k hk).resolve_left (by simpa [hl] using hne)
  cases p with
  | refuted h k => exact (Refutes.cons hp c).of_force? hg hder
  | reduced ds h k b =>
      have hflag : h.Flags l := hp.keeps l ((Forced.flags_of_force? hg l).2 (.inl rfl))
      have hrest := Reduces.cons_opposed (c := c) hp ⟨l, hmem, .inl hflag⟩
      exact ⟨hrest.toAdvances.of_force? hg hder, hrest.origin, hrest.settled⟩

end Pass

/-- A literal that is left of a clause can be forced. -/
lemma Clause.Remains.force?_ne_none {f : Forced n} {c : Clause n} {r : ReducedClause n}
    {l : Literal n} (hr : Clause.Remains f c r) (hl : l ∈ r.literals) : f.force? l ≠ none :=
  fun h => (hr.free.not_flags hl).2 ((f.force?_eq_none l).1 h)

/-- A pass drops and forces what is derived, and leaves the rest. -/
lemma justified_pass (f : Forced n) (cs : List (Clause n)) :
    (pass f cs).Justified f cs := by
  induction cs generalizing f with
  | nil => exact Reduces.refl f []
  | cons c cs ih =>
      simp only [pass]
      split
      · next hnone => exact (ih f).skip (Clause.reduce?_eq_none.1 hnone)
      next r hr =>
      have hrem := Clause.remains_of_reduce? hr
      split
      · next hempty =>
        refine ⟨.refl f _, c, List.mem_cons_self, fun l hl => .forced ?_⟩
        exact (hrem.covers l hl).resolve_left (by simp [hempty])
      · next l hunit =>
        split
        · next hclash => exact absurd hclash (hrem.force?_ne_none (by simp [hunit]))
        · next g hg => exact (ih g).unit hrem hunit hg
      · exact (ih f).cons hrem

/-- What a pass that refutes nothing makes of clauses, one after the other: the clauses that
are left, the values that are forced, their number, and whether anything changes. -/
inductive Passes : Forced n → List (Clause n) → List (Clause n) → Forced n → Nat → Bool → Prop
  /-- Without clauses nothing happens. -/
  | nil {f : Forced n} : Passes f [] [] f 0 false
  /-- An opposed clause is dropped. -/
  | drop {f g : Forced n} {cs ds : List (Clause n)} {c : Clause n} {k : Nat} {b : Bool}
      (hc : Clause.Opposed f c) (hrest : Passes f cs ds g k b) : Passes f (c :: cs) ds g k true
  /-- A clause of which one literal remains forces it. -/
  | force {f f' g : Forced n} {cs ds : List (Clause n)} {c : Clause n} {r : ReducedClause n}
      {l : Literal n} {k : Nat} {b : Bool} (hr : Clause.Remains f c r) (hl : r.literals = [l])
      (hf : f.force? l = some f') (hrest : Passes f' cs ds g k b) :
      Passes f (c :: cs) ds g (k + 1) true
  /-- A clause of which more remains is kept as what remains of it. -/
  | keep {f g : Forced n} {cs ds : List (Clause n)} {c : Clause n} {r : ReducedClause n}
      {k : Nat} {b : Bool} (hr : c.reduce? f = some r) (htwo : 2 ≤ r.literals.length)
      (hrest : Passes f cs ds g k b) :
      Passes f (c :: cs) (r.literals :: ds) g k (b || r.shortened)

/-- A pass that refutes nothing treats the clauses one after the other. -/
lemma passes_of_pass {f g : Forced n} {cs ds : List (Clause n)} {k : Nat} {changed : Bool}
    (h : pass f cs = .reduced ds g k changed) : Passes f cs ds g k changed := by
  induction cs generalizing f ds k changed with
  | nil =>
      simp only [pass, Pass.reduced.injEq] at h
      obtain ⟨rfl, rfl, rfl, rfl⟩ := h
      exact .nil
  | cons c cs ih =>
      simp only [pass] at h
      split at h
      · next hnone =>
        cases hp : pass f cs with
        | refuted g' j => simp [hp, Pass.skip] at h
        | reduced ds' g' j b =>
            simp only [hp, Pass.skip, Pass.reduced.injEq] at h
            obtain ⟨rfl, rfl, rfl, rfl⟩ := h
            exact .drop (Clause.reduce?_eq_none.1 hnone) (ih hp)
      next r hr =>
      split at h
      · cases h
      · next l hunit =>
        split at h
        · cases h
        next f' hf =>
        cases hp : pass f' cs with
        | refuted g' j => simp [hp, Pass.unit] at h
        | reduced ds' g' j b =>
            simp only [hp, Pass.unit, Pass.reduced.injEq] at h
            obtain ⟨rfl, rfl, rfl, rfl⟩ := h
            exact .force (Clause.remains_of_reduce? hr) hunit hf (ih hp)
      · next l l' ls htwo =>
        cases hp : pass f cs with
        | refuted g' j => simp [hp, Pass.cons] at h
        | reduced ds' g' j b =>
            simp only [hp, Pass.cons, Pass.reduced.injEq] at h
            obtain ⟨rfl, rfl, rfl, rfl⟩ := h
            exact .keep hr (by simp [htwo]) (ih hp)

/-- A pass that forces nothing leaves clauses of at least two free literals. -/
lemma Passes.unforced {f g : Forced n} {cs ds : List (Clause n)} {k : Nat} {changed : Bool}
    (h : Passes f cs ds g k changed) (hk : k = 0) :
    g = f ∧ ∀ d ∈ ds, Clause.Free f d ∧ 2 ≤ d.length := by
  induction h with
  | nil => simp
  | drop _ _ ih => exact ih hk
  | force => cases hk
  | keep hr htwo _ ih =>
      obtain ⟨rfl, hds⟩ := ih hk
      refine ⟨rfl, fun d hd => ?_⟩
      rcases List.mem_cons.1 hd with rfl | hd
      · exact ⟨(Clause.remains_of_reduce? hr).free, htwo⟩
      · exact hds d hd

/-- A pass that changes nothing forces nothing. -/
lemma Passes.found_of_unchanged {f g : Forced n} {cs ds : List (Clause n)} {k : Nat}
    {changed : Bool} (h : Passes f cs ds g k changed) (hchanged : changed = false) : k = 0 := by
  induction h with
  | nil => rfl
  | drop => cases hchanged
  | force => cases hchanged
  | keep _ _ _ ih => exact ih (Bool.or_eq_false_iff.1 hchanged).1

/-- A pass over clauses of which one is empty refutes them. -/
lemma exists_refuted_of_nil_mem (f : Forced n) {cs : List (Clause n)} (h : [] ∈ cs) :
    ∃ g k, pass f cs = .refuted g k := by
  induction cs generalizing f with
  | nil => cases h
  | cons c cs ih =>
      by_cases hc : c = []
      · subst hc
        exact ⟨f, 0, rfl⟩
      have hrest : ∀ g : Forced n, ∃ g' k, pass g cs = .refuted g' k :=
        fun g => ih g ((List.mem_cons.1 h).resolve_left (Ne.symm hc))
      simp only [pass]
      split
      · obtain ⟨g, k, hg⟩ := hrest f
        exact ⟨g, k, by rw [hg, Pass.skip]⟩
      split
      · exact ⟨f, 0, rfl⟩
      · split
        · exact ⟨f, 1, rfl⟩
        · next g _ =>
          obtain ⟨g', k, hg⟩ := hrest g
          exact ⟨g', k + 1, by rw [hg, Pass.unit]⟩
      · obtain ⟨g, k, hg⟩ := hrest f
        exact ⟨g, k, by rw [hg, Pass.cons]⟩

/-! ### All passes -/

/-- Clauses that unit propagation cannot reduce: each one has at least two free
literals. -/
def Irreducible (f : Forced n) (cs : List (Clause n)) : Prop :=
  ∀ c ∈ cs, Clause.Free f c ∧ 2 ≤ c.length

/-- What the outcome of unit propagation means. -/
structure Propagated.Justified (f : Forced n) (cs : List (Clause n)) (p : Propagated n) :
    Prop where
  /-- Clauses that are not refuted are reduced as far as they can be. -/
  reduces : p.ok = true → Reduces f p.forced cs p.clauses ∧ Irreducible p.forced p.clauses
  /-- Refuted clauses are given up. -/
  refutes : p.ok = false → Refutes f p.forced cs ∧ p.clauses = []

/-- Unit propagation drops and forces what is derived, until there is no more. -/
lemma justified_propagate (f : Forced n) (count : Nat) (cs : List (Clause n)) :
    (propagate f count cs).Justified f cs := by
  fun_induction propagate f count cs with
  | case1 f count cs g k h =>
      have hpass := justified_pass f cs
      rw [h] at hpass
      exact ⟨by simp, fun _ => ⟨hpass, rfl⟩⟩
  | case2 f count cs ds g k round rest h hlt ih =>
      have hpass := justified_pass f cs
      rw [h] at hpass
      constructor
      · intro hok
        obtain ⟨hred, hirr⟩ := ih.reduces hok
        exact ⟨Reduces.trans hpass hred, hirr⟩
      · intro hok
        obtain ⟨href, hnil⟩ := ih.refutes hok
        exact ⟨Reduces.refutes hpass href, hnil⟩
  | case3 f count cs ds g k changed h round hc =>
      have hpass := justified_pass f cs
      rw [h] at hpass
      obtain rfl : changed = false := by simpa using hc
      have hp := passes_of_pass h
      obtain ⟨rfl, hirr⟩ := hp.unforced (hp.found_of_unchanged rfl)
      exact ⟨fun _ => ⟨hpass, hirr⟩, by simp⟩

end LocalSat
