/-
What reducing a clause does to it.

* `Clause.Opposed`: a clause that is true whatever the free variables are, since it has
  a forced literal or both literals of a variable;
* `Clause.Free`: literals of free variables, each once and not both of a variable;
* `Clause.Remains`: what is left of a clause: its free literals, while every other
  literal is forced to be false;
* `remains_of_reduce?`, `reduce?_eq_none`: a clause is dropped when it is opposed, and
  otherwise reduced to what remains of it.
-/
import LocalSat.Proofs.Satisfaction
import LocalSat.Propagation.Reduction
import Mathlib.Data.List.Nodup

namespace LocalSat

variable {n : Nat}

namespace Clause

/-- A clause that no longer asks for anything: one of its literals is forced, or it has
both literals of a variable. -/
def Opposed (f : Forced n) (c : Clause n) : Prop := ∃ l ∈ c, f.Flags l ∨ l.negate ∈ c

/-- Literals of free variables, each once and not both of a variable. -/
structure Free (f : Forced n) (c : Clause n) : Prop where
  /-- No literal occurs twice. -/
  nodup : c.Nodup
  /-- The variables have no forced value. -/
  free : ∀ l ∈ c, f.get l.var = none
  /-- Only one literal of a variable occurs. -/
  single : ∀ l ∈ c, l.negate ∉ c

/-- What is left of a clause: its literals without the false ones and without
repetitions. -/
structure Remains (f : Forced n) (c : Clause n) (r : ReducedClause n) : Prop where
  /-- The literals that are left are literals of the clause in their order. -/
  sublist : r.literals.Sublist c
  /-- The literals that are left are free. -/
  free : Free f r.literals
  /-- The literals that are dropped are false. -/
  covers : ∀ l ∈ c, l ∈ r.literals ∨ f.Flags l.negate
  /-- The clause is said to be shortened when it has a false literal. -/
  shortened_iff : r.shortened = true ↔ ∃ l ∈ c, f.Flags l.negate

/-! ### Free literals -/

/-- The empty clause is free. -/
lemma free_nil (f : Forced n) : Free f [] := ⟨by simp, by simp, by simp⟩

/-- A free literal is not forced to be true or false. -/
lemma Free.not_flags {f : Forced n} {c : Clause n} (hc : Free f c) {l : Literal n}
    (hl : l ∈ c) : ¬f.Flags l ∧ ¬f.Flags l.negate :=
  (f.get_eq_none_iff l).1 (hc.free l hl)

/-- A free clause can take one more free literal when it has no literal of its
variable. -/
lemma Free.concat {f : Forced n} {c : Clause n} (hc : Free f c) {l : Literal n}
    (hl : l ∉ c) (hneg : l.negate ∉ c) (hfree : f.get l.var = none) :
    Free f (c ++ [l]) where
  nodup := by
    rw [List.nodup_append]
    refine ⟨hc.nodup, by simp, fun k hk k' hk' => ?_⟩
    rintro rfl
    exact hl (List.mem_singleton.1 hk' ▸ hk)
  free k hk := by
    rcases List.mem_append.1 hk with hk | hk
    · exact hc.free k hk
    · exact List.mem_singleton.1 hk ▸ hfree
  single k hk hkneg := by
    rcases List.mem_append.1 hk with hk | hk <;> rcases List.mem_append.1 hkneg with hkn | hkn
    · exact hc.single k hk hkn
    · have hkl : k.negate = l := List.mem_singleton.1 hkn
      exact hneg (by rwa [← hkl, Literal.negate_negate])
    · exact hneg (List.mem_singleton.1 hk ▸ hkn)
    · rw [List.mem_singleton.1 hk] at hkn
      exact l.negate_ne (List.mem_singleton.1 hkn)

/-- A free clause has each of its variables once. -/
lemma Free.nodup_map_var {f : Forced n} {c : Clause n} (hc : Free f c) :
    (c.map Literal.var).Nodup := by
  refine List.Nodup.map_on (fun l hl k hk heq => ?_) hc.nodup
  obtain ⟨v, b⟩ := l
  obtain ⟨w, b'⟩ := k
  obtain rfl : v = w := heq
  by_contra hne
  have hneg : (⟨v, b'⟩ : Literal n) = Literal.negate ⟨v, b⟩ := by
    cases b <;> cases b' <;> simp_all [Literal.negate]
  exact hc.single _ hl (hneg ▸ hk)

/-- What remains of a clause shows that it is not opposed. -/
lemma Remains.not_opposed {f : Forced n} {c : Clause n} {r : ReducedClause n}
    (h : Remains f c r) : ¬Opposed f c := by
  have hflag : ∀ l ∈ c, ¬f.Flags l := by
    intro l hl hf
    rcases h.covers l hl with hr | hr
    · exact (h.free.not_flags hr).1 hf
    · exact Forced.not_flags_negate hf hr
  rintro ⟨l, hl, hf | hneg⟩
  · exact hflag l hl hf
  · have hleft := (h.covers l hl).resolve_right (hflag _ hneg)
    have hright := (h.covers _ hneg).resolve_right (by simpa using hflag l hl)
    exact h.free.single l hleft hright

/-! ### The outcomes of a reduction -/

/-- When nothing is left of the rest of a clause, the rest has a forced literal or the
negation of a literal that was kept or is in the rest. -/
lemma exists_of_reduceFrom?_eq_none {f : Forced n} {kept c : Clause n}
    (h : reduceFrom? f kept c = none) :
    ∃ l ∈ c, f.Flags l ∨ l.negate ∈ kept ∨ l.negate ∈ c := by
  induction c generalizing kept with
  | nil => simp [reduceFrom?] at h
  | cons l c ih =>
      simp only [reduceFrom?, f.value?_eq_true] at h
      split at h
      · obtain ⟨k, hk, hwhy⟩ := ih h
        exact ⟨k, List.mem_cons_of_mem l hk, by simp only [List.mem_cons]; tauto⟩
      split at h
      · next hwhy => exact ⟨l, List.mem_cons_self, hwhy.imp_right .inl⟩
      split at h
      · obtain ⟨k, hk, hwhy⟩ := ih (Option.map_eq_none_iff.1 h)
        exact ⟨k, List.mem_cons_of_mem l hk, by simp only [List.mem_cons]; tauto⟩
      · obtain ⟨k, hk, hwhy⟩ := ih h
        refine ⟨k, List.mem_cons_of_mem l hk, ?_⟩
        -- the negation of `k` may be `l`, which is kept by now
        simp only [List.mem_cons] at hwhy ⊢
        tauto

/-- What is left of the rest of a clause comes after the literals that were kept, the
last one of which is given first. -/
lemma exists_of_reduceFrom?_eq_some {f : Forced n} {kept c : Clause n} {r : ReducedClause n}
    (hkept : Free f kept.reverse) (h : reduceFrom? f kept c = some r) :
    (∃ t, r.literals = kept.reverse ++ t ∧ t.Sublist c) ∧ Free f r.literals
      ∧ (∀ l ∈ c, l ∈ r.literals ∨ f.Flags l.negate)
      ∧ (r.shortened = true ↔ ∃ l ∈ c, f.Flags l.negate) := by
  induction c generalizing kept r with
  | nil =>
      simp only [reduceFrom?, Option.some.injEq] at h
      subst h
      exact ⟨⟨[], by simp⟩, hkept, by simp, by simp⟩
  | cons l c ih =>
      simp only [reduceFrom?, f.value?_eq_true, f.value?_eq_false] at h
      split at h
      · next hl =>
        obtain ⟨⟨t, ht, hsub⟩, hfree, hcov, hshort⟩ := ih hkept h
        have hmem : l ∈ kept.reverse := List.mem_reverse.2 hl
        have hfalse := (hkept.not_flags hmem).2
        refine ⟨⟨t, ht, hsub.cons l⟩, hfree, ?_, by simp [hshort, hfalse]⟩
        intro k hk
        rcases List.mem_cons.1 hk with rfl | hk
        · exact .inl (ht ▸ List.mem_append_left t hmem)
        · exact hcov k hk
      next hl =>
      split at h
      · cases h
      next hwhy =>
      obtain ⟨hflag, hneg⟩ := not_or.1 hwhy
      split at h
      · next hfalse =>
        obtain ⟨r', hr', rfl⟩ := Option.map_eq_some_iff.1 h
        obtain ⟨⟨t, ht, hsub⟩, hfree, hcov, hshort⟩ := ih hkept hr'
        refine ⟨⟨t, ht, hsub.cons l⟩, hfree, ?_, by simp [hfalse]⟩
        intro k hk
        rcases List.mem_cons.1 hk with rfl | hk
        · exact .inr hfalse
        · exact hcov k hk
      · next hfalse =>
        have hfree : Free f (l :: kept).reverse := by
          rw [List.reverse_cons]
          exact hkept.concat (by simpa using hl) (by simpa using hneg)
            ((f.get_eq_none_iff l).2 ⟨hflag, hfalse⟩)
        obtain ⟨⟨t, ht, hsub⟩, hfree', hcov, hshort⟩ := ih hfree h
        refine ⟨⟨l :: t, by simp [ht], hsub.cons_cons l⟩, hfree', ?_, by simp [hshort, hfalse]⟩
        intro k hk
        rcases List.mem_cons.1 hk with rfl | hk
        · exact .inl (by simp [ht])
        · exact hcov k hk

/-- A clause that is not dropped is reduced to what remains of it. -/
lemma remains_of_reduce? {f : Forced n} {c : Clause n} {r : ReducedClause n}
    (h : c.reduce? f = some r) : Remains f c r := by
  obtain ⟨⟨t, ht, hsub⟩, hfree, hcov, hshort⟩ :=
    exists_of_reduceFrom?_eq_some (by simpa using free_nil f) h
  simp only [List.reverse_nil, List.nil_append] at ht
  exact ⟨ht ▸ hsub, hfree, hcov, hshort⟩

/-- The clauses that are dropped are the opposed ones. -/
lemma reduce?_eq_none {f : Forced n} {c : Clause n} : c.reduce? f = none ↔ Opposed f c := by
  constructor
  · intro h
    obtain ⟨l, hl, hwhy⟩ := exists_of_reduceFrom?_eq_none h
    exact ⟨l, hl, by simpa using hwhy⟩
  · intro h
    rw [Option.eq_none_iff_forall_not_mem]
    intro r hr
    exact (remains_of_reduce? hr).not_opposed h

end Clause

end LocalSat
