/-
Simplification computes the closure under unit propagation.

* `flags_iff_derivable`: where propagation cannot reduce any more, the forced literals are
  the derivable ones;
* `propagate_ok_eq_false_iff`: propagation refutes clauses when derivable literals clash or
  falsify a clause;
* `Rearranged`: the same clauses in another order, with their literals in another order;
  nothing that is derivable depends on it;
* `simplify_computes_closure`: all of this about the simplification of a solver.
-/
import LocalSat.Proofs.Outcome
import LocalSat.Proofs.Propagation.Derivation
import LocalSat.Random.Script
import LocalSat.Solver.Simplify
import Mathlib.Data.List.Forall2

namespace LocalSat

variable {n : Nat}

/-! ### The fixpoint -/

namespace Reduces

variable {f g : Forced n} {cs ds : List (Clause n)}

/-- Where no clause can be reduced any more, a literal is forced when all others of its
clause are false. -/
lemma flags_of_others (r : Reduces f g cs ds) (hirr : Irreducible g ds) {c : Clause n}
    {l : Literal n} (hc : c ∈ cs) (h : ∀ k ∈ c, k ≠ l → g.Flags k.negate) : g.Flags l := by
  rcases r.settled c hc with ⟨k, hk, hflag | hneg⟩ | ⟨d, hd, hsub, -⟩
  · by_cases hkl : k = l
    · exact hkl ▸ hflag
    · exact absurd (h k hk hkl) (Forced.not_flags_negate hflag)
  · -- one of two opposite literals is not `l`, so that the other one is forced
    by_cases hkl : k = l
    · have := h k.negate hneg (hkl ▸ k.negate_ne)
      rwa [Literal.negate_negate, hkl] at this
    · by_cases hnl : k.negate = l
      · exact hnl ▸ h k hk hkl
      · exact absurd (h _ hneg hnl) (Forced.not_flags_negate (h k hk hkl))
  · -- one of two literals that are left is not `l`, but it is free
    obtain ⟨hfree, htwo⟩ := hirr d hd
    obtain ⟨k, hk, hne⟩ : ∃ k ∈ d, k ≠ l := by
      match d, htwo with
      | k :: k' :: d, _ =>
          by_cases hkl : k = l
          · refine ⟨k', by simp, ?_⟩
            rintro rfl
            have hnodup := hfree.nodup
            simp [hkl] at hnodup
          · exact ⟨k, by simp, hkl⟩
    exact absurd (h k (hsub hk) hne) (hfree.not_flags hk).2

/-- Where no clause can be reduced any more, every clause has a literal that is not
false. -/
lemma exists_not_false (r : Reduces f g cs ds) (hirr : Irreducible g ds) {c : Clause n}
    (hc : c ∈ cs) : ∃ l ∈ c, ¬g.Flags l.negate := by
  obtain ⟨l, hl⟩ : ∃ l, l ∈ c := by
    rcases r.settled c hc with ⟨l, hl, -⟩ | ⟨d, hd, hsub, -⟩
    · exact ⟨l, hl⟩
    · obtain ⟨-, htwo⟩ := hirr d hd
      match d, htwo with
      | l :: _, _ => exact ⟨l, hsub List.mem_cons_self⟩
  by_contra hall
  have hfalse : ∀ k ∈ c, g.Flags k.negate := by
    intro k hk
    by_contra hkf
    exact hall ⟨k, hk, hkf⟩
  have hflag : g.Flags l := r.flags_of_others hirr hc fun k hk _ => hfalse k hk
  exact Forced.not_flags_negate hflag (hfalse l hl)

/-- Where no clause can be reduced any more, the forced literals are the derivable
ones. -/
lemma flags_iff_derivable (r : Reduces f g cs ds) (hirr : Irreducible g ds) (l : Literal n) :
    g.Flags l ↔ Derivable f cs l := by
  refine ⟨r.derived l, fun h => ?_⟩
  induction h with
  | forced h => exact r.keeps _ h
  | unit hc _ _ ih => exact r.flags_of_others hirr hc ih

/-- Where no clause can be reduced any more, derivable literals neither clash nor falsify a
clause. -/
lemma consistent (r : Reduces f g cs ds) (hirr : Irreducible g ds) :
    ¬((∃ l, Derivable f cs l ∧ Derivable f cs l.negate) ∨ ∃ c ∈ cs, Falsified f cs c) := by
  rintro (⟨l, hl, hneg⟩ | ⟨c, hc, hfalse⟩)
  · rw [← r.flags_iff_derivable hirr] at hl hneg
    exact Forced.not_flags_negate hl hneg
  · obtain ⟨l, hl, hnot⟩ := r.exists_not_false hirr hc
    exact hnot ((r.flags_iff_derivable hirr _).2 (hfalse l hl))

end Reduces

namespace Irreducible

variable {f g : Forced n} {cs : List (Clause n)}

/-- From clauses that cannot be reduced only what is forced is derivable. -/
lemma flags_iff_derivable (h : Irreducible f cs) (l : Literal n) :
    f.Flags l ↔ Derivable f cs l :=
  (Reduces.refl f cs).flags_iff_derivable h l

/-- From clauses that cannot be reduced nothing more can be forced. -/
lemma eq_of_advances (h : Irreducible f cs) (r : Advances f g cs) : g = f :=
  Forced.ext_flags fun l =>
    ⟨fun hl => (h.flags_iff_derivable l).2 (r.derived l hl), r.keeps l⟩

/-- Clauses that cannot be reduced are not empty. -/
lemma ne_nil (h : Irreducible f cs) : ∀ c ∈ cs, c ≠ [] := by
  rintro c hc rfl
  have := (h [] hc).2
  simp at this

end Irreducible

/-- Propagation refutes clauses when two opposite literals are derivable or a clause is
falsified. -/
lemma propagate_ok_eq_false_iff (f : Forced n) (count : Nat) (cs : List (Clause n)) :
    (propagate f count cs).ok = false ↔
      (∃ l, Derivable f cs l ∧ Derivable f cs l.negate) ∨ ∃ c ∈ cs, Falsified f cs c := by
  have hp := justified_propagate f count cs
  cases hok : (propagate f count cs).ok with
  | false => simp [(hp.refutes hok).1.falsified]
  | true =>
      obtain ⟨hred, hirr⟩ := hp.reduces hok
      simpa using hred.consistent hirr

/-- When propagation does not refute clauses, it forces the derivable literals. -/
lemma propagate_flags_iff {f : Forced n} {count : Nat} {cs : List (Clause n)}
    (hok : (propagate f count cs).ok = true) (l : Literal n) :
    (propagate f count cs).forced.Flags l ↔ Derivable f cs l := by
  obtain ⟨hred, hirr⟩ := (justified_propagate f count cs).reduces hok
  exact hred.flags_iff_derivable hirr l

/-! ### Other orders -/

/-- The same clauses in another order, with the literals of each in another order. -/
def Rearranged (cs ds : List (Clause n)) : Prop :=
  ∃ es, cs.Perm es ∧ List.Forall₂ List.Perm es ds

/-- A clause of rearranged clauses is a clause with its literals in another order. -/
lemma Rearranged.exists_perm {cs ds : List (Clause n)} (h : Rearranged cs ds) :
    (∀ d ∈ ds, ∃ c ∈ cs, c.Perm d) ∧ ∀ c ∈ cs, ∃ d ∈ ds, c.Perm d := by
  obtain ⟨es, hperm, hall⟩ := h
  have key : ∀ {es ds : List (Clause n)}, List.Forall₂ List.Perm es ds →
      (∀ d ∈ ds, ∃ e ∈ es, e.Perm d) ∧ ∀ e ∈ es, ∃ d ∈ ds, e.Perm d := by
    intro es ds hall
    induction hall with
    | nil => simp
    | @cons e d es ds hed _ ih =>
        obtain ⟨hright, hleft⟩ := ih
        refine ⟨fun d' hd' => ?_, fun e' he' => ?_⟩
        · rcases List.mem_cons.1 hd' with rfl | hd'
          · exact ⟨e, List.mem_cons_self, hed⟩
          · obtain ⟨e', he', hp⟩ := hright d' hd'
            exact ⟨e', List.mem_cons_of_mem e he', hp⟩
        · rcases List.mem_cons.1 he' with rfl | he'
          · exact ⟨d, List.mem_cons_self, hed⟩
          · obtain ⟨d', hd', hp⟩ := hleft e' he'
            exact ⟨d', List.mem_cons_of_mem d hd', hp⟩
  obtain ⟨hright, hleft⟩ := key hall
  refine ⟨fun d hd => ?_, fun c hc => hleft c (hperm.mem_iff.1 hc)⟩
  obtain ⟨e, he, hp⟩ := hright d hd
  exact ⟨e, hperm.mem_iff.2 he, hp⟩

/-- What is derivable depends on no order. -/
lemma Rearranged.derivable_iff {f : Forced n} {cs ds : List (Clause n)}
    (h : Rearranged cs ds) (l : Literal n) : Derivable f cs l ↔ Derivable f ds l := by
  obtain ⟨hright, hleft⟩ := h.exists_perm
  constructor
  · intro hl
    refine hl.lift (fun _ => .forced) fun c hc => ?_
    obtain ⟨d, hd, hp⟩ := hleft c hc
    exact ⟨d, hd, hp.subset, fun k hk => .inl (hp.mem_iff.2 hk)⟩
  · intro hl
    refine hl.lift (fun _ => .forced) fun d hd => ?_
    obtain ⟨c, hc, hp⟩ := hright d hd
    exact ⟨c, hc, fun k hk => hp.mem_iff.2 hk, fun k hk => .inl (hp.mem_iff.1 hk)⟩

/-- Whether clauses are refuted depends on no order. -/
lemma Rearranged.propagate_ok_eq {f : Forced n} {cs ds : List (Clause n)} (i j : Nat)
    (h : Rearranged cs ds) : (propagate f i cs).ok = (propagate f j ds).ok := by
  obtain ⟨hright, hleft⟩ := h.exists_perm
  have hiff : (propagate f i cs).ok = false ↔ (propagate f j ds).ok = false := by
    simp only [propagate_ok_eq_false_iff, h.derivable_iff, Falsified]
    refine or_congr_right ⟨?_, ?_⟩
    · rintro ⟨c, hc, hfalse⟩
      obtain ⟨d, hd, hp⟩ := hleft c hc
      exact ⟨d, hd, fun l hl => hfalse l (hp.mem_iff.2 hl)⟩
    · rintro ⟨d, hd, hfalse⟩
      obtain ⟨c, hc, hp⟩ := hright d hd
      exact ⟨c, hc, fun l hl => hfalse l (hp.mem_iff.1 hl)⟩
  cases hi : (propagate f i cs).ok <;> cases hj : (propagate f j ds).ok <;> simp_all

/-- What is forced depends on no order. -/
lemma Rearranged.propagate_forced_eq {f : Forced n} {cs ds : List (Clause n)} (i j : Nat)
    (h : Rearranged cs ds) (hok : (propagate f i cs).ok = true) :
    (propagate f i cs).forced = (propagate f j ds).forced := by
  have hok' : (propagate f j ds).ok = true := (h.propagate_ok_eq i j).symm.trans hok
  refine Forced.ext_flags fun l => ?_
  rw [propagate_flags_iff hok, propagate_flags_iff hok', h.derivable_iff]

/-! ### The simplification of a solver -/

namespace Solver

variable {γ : Type}

/-- A simplification propagates, unless it is not known whether to report on it. -/
lemma simplify_of_ok {s : Solver n γ} (hok : s.ok = true) :
    simplify s = match s.reports 2 with
      | .ok loud => .ok (s.simplified loud).ok (s.simplified loud)
      | .error e => .error e s.passed := by
  rw [simplify, get_bind_run, if_pos hok]
  cases s.reports 2 <;> rfl

/-- A simplification that can report succeeds. -/
lemma exists_simplify {s : Solver n γ} (hv : s.verbosity.isSome = true) (hok : s.ok = true) :
    ∃ loud, simplify s = .ok (s.simplified loud).ok (s.simplified loud) := by
  obtain ⟨x, hx⟩ := Option.isSome_iff_exists.1 hv
  rw [simplify_of_ok hok, reports, hx]
  exact ⟨_, rfl⟩

/-- A simplification that succeeds has propagated. -/
lemma eq_simplified_of_simplify {s t : Solver n γ} {b : Bool} (hok : s.ok = true)
    (h : simplify s = .ok b t) : ∃ loud, t = s.simplified loud ∧ b = t.ok := by
  rw [simplify_of_ok hok] at h
  split at h
  · next loud _ =>
    cases h
    exact ⟨loud, rfl, rfl⟩
  · cases h

/-- The answer of a simplification tells whether propagation refutes the clauses, and what
is forced after it is what propagation forces. -/
lemma simplify_eq_ok {s t : Solver n γ} {b : Bool} (hok : s.ok = true)
    (h : simplify s = .ok b t) :
    b = (propagate s.forced s.forcedCount s.clauses.toList).ok ∧
      t.forced = (propagate s.forced s.forcedCount s.clauses.toList).forced := by
  obtain ⟨loud, rfl, rfl⟩ := eq_simplified_of_simplify hok h
  exact ⟨rfl, rfl⟩

/-- **Simplification computes the closure under unit propagation.** It gives an answer
whenever the level of the report is a number. The clauses are refuted exactly when two
opposite literals are derivable or some clause is falsified by derivable literals, and
otherwise the derivable literals are the forced ones. Neither the order of the clauses
nor that of their literals matters. -/
theorem simplify_computes_closure (s : Solver n γ) (hok : s.ok = true) :
    (s.verbosity.isSome → ∃ b t, simplify s = .ok b t)
      ∧ (∀ b t, simplify s = .ok b t →
          (b = false ↔
            (∃ l, Derivable s.forced s.clauses.toList l
              ∧ Derivable s.forced s.clauses.toList l.negate)
            ∨ ∃ c ∈ s.clauses, ∀ l ∈ c, Derivable s.forced s.clauses.toList l.negate)
          ∧ (b = true → ∀ l, t.forced.Flags l ↔ Derivable s.forced s.clauses.toList l))
      ∧ ∀ (s' : Solver n γ), s'.ok = true → s'.forced = s.forced →
          Rearranged s.clauses.toList s'.clauses.toList →
          ∀ b t b' t', simplify s = .ok b t → simplify s' = .ok b' t' →
            b = b' ∧ (b = true → t.forced = t'.forced) := by
  refine ⟨fun hv => ?_, fun b t h => ?_, fun s' hok' hforced hre b t b' t' h h' => ?_⟩
  · obtain ⟨x, hx⟩ := Option.isSome_iff_exists.1 hv
    rw [simplify_of_ok hok, reports, hx]
    exact ⟨_, _, rfl⟩
  · obtain ⟨rfl, hf⟩ := simplify_eq_ok hok h
    rw [hf]
    refine ⟨?_, propagate_flags_iff⟩
    simpa [Falsified] using propagate_ok_eq_false_iff s.forced s.forcedCount s.clauses.toList
  · obtain ⟨rfl, hf⟩ := simplify_eq_ok hok h
    obtain ⟨rfl, hf'⟩ := simplify_eq_ok hok' h'
    rw [hf, hf', hforced]
    exact ⟨hre.propagate_ok_eq _ _, hre.propagate_forced_eq _ _⟩

/-- An implication that stands before its premise is used all the same: its conclusion is
derivable, and so it is forced in the end. -/
theorem simplify_closure_of_late_premise :
    let first : Literal 2 := ⟨0, true⟩
    let second : Literal 2 := ⟨1, true⟩
    let s := ((new 2 (⟨[], []⟩ : Script)).pushClause [first.negate, second]).pushClause [first]
    s.ok = true ∧ (∃ b t, simplify s = .ok b t) ∧
      ∀ t, simplify s = .ok true t → t.forced.Flags second := by
  intro first second s
  obtain ⟨hex, hiff, -⟩ := simplify_computes_closure s rfl
  refine ⟨rfl, hex rfl, fun t ht => ((hiff true t ht).2 rfl second).2 ?_⟩
  have hfirst : Derivable s.forced s.clauses.toList first :=
    .unit (c := [first]) (by simp [s, pushClause]) (by simp) (by simp)
  refine .unit (c := [first.negate, second]) (by simp [s, pushClause]) (by simp) ?_
  intro k hk hne
  obtain rfl : k = first.negate := by simpa [hne] using hk
  rwa [Literal.negate_negate]

end Solver

end LocalSat
