/-
Clauses reduced at one stroke.

* `Clause.freePart`: the literals of free variables in a clause, each at its first place;
  `literals_of_reduce?` says that this is what a reduction leaves;
* `reduct f cs`: the clauses that are not opposed by forced values, each with its free part;
  `reduct_reduct`: a reduction by fewer forced values beforehand does not change it;
* `clauses_propagate`: what all passes of unit propagation leave is the reduct by the values
  that are forced in the end.
-/
import LocalSat.Proofs.Propagation.Derivation

namespace LocalSat

variable {n : Nat}

/-! ### First places -/

section

variable {α : Type} [DecidableEq α]

/-- Among the first places of the members of a list no member has two. -/
lemma nodup_eraseDups : ∀ xs : List α, xs.eraseDups.Nodup
  | [] => .nil
  | x :: xs => by
      rw [List.eraseDups_cons, List.nodup_cons, List.mem_eraseDups]
      exact ⟨by simp, nodup_eraseDups _⟩
termination_by xs => xs.length
decreasing_by exact Nat.lt_succ_of_le (List.length_filter_le _ _)

/-- Where nothing occurs twice, every place is the first one. -/
lemma eraseDups_of_nodup {xs : List α} (h : xs.Nodup) : xs.eraseDups = xs := by
  induction xs with
  | nil => rfl
  | cons x xs ih =>
      obtain ⟨hx, hxs⟩ := List.nodup_cons.1 h
      rw [List.eraseDups_cons, List.filter_eq_self.2, ih hxs]
      intro y hy
      have hne : y ≠ x := fun heq => hx (heq ▸ hy)
      simpa using hne

/-- Dropping members keeps the first places of the others. -/
lemma eraseDups_filter (p : α → Bool) : ∀ xs : List α,
    (xs.filter p).eraseDups = xs.eraseDups.filter p
  | [] => rfl
  | x :: xs => by
      have ih := eraseDups_filter p (xs.filter fun y => !y == x)
      have hcomm : (xs.filter fun y => !y == x).filter p
          = (xs.filter p).filter fun y => !y == x := by
        simp only [List.filter_filter, Bool.and_comm]
      rw [List.eraseDups_cons, List.filter_cons, List.filter_cons, ← ih, hcomm]
      split
      · rw [List.eraseDups_cons]
      · next hx =>
        -- where `x` itself is dropped, no other place of it is left
        have hnone : (xs.filter p).filter (fun y => !y == x) = xs.filter p := by
          refine List.filter_eq_self.2 fun y hy => ?_
          have hne : y ≠ x := fun heq => hx (heq ▸ (List.mem_filter.1 hy).2)
          simpa using hne
        rw [hnone]
termination_by xs => xs.length
decreasing_by exact Nat.lt_succ_of_le (List.length_filter_le _ _)

end

/-! ### The free part of a clause -/

namespace Clause

variable {f g : Forced n} {c : Clause n}

/-- The literals of free variables in a clause, each at its first place. -/
def freePart (f : Forced n) (c : Clause n) : Clause n :=
  (c.filter fun l => (f.get l.var).isNone).eraseDups

instance (f : Forced n) (c : Clause n) : Decidable (Opposed f c) :=
  inferInstanceAs (Decidable (∃ l ∈ c, f.Flags l ∨ l.negate ∈ c))

/-- The literals of the free part. -/
lemma mem_freePart {l : Literal n} :
    l ∈ c.freePart f ↔ l ∈ c ∧ ¬f.Flags l ∧ ¬f.Flags l.negate := by
  rw [freePart, List.mem_eraseDups, List.mem_filter, Option.isNone_iff_eq_none,
    f.get_eq_none_iff]

/-- A free clause is its own free part. -/
lemma Free.freePart_eq (h : Free f c) : c.freePart f = c := by
  rw [freePart, List.filter_eq_self.2 fun l hl => by simp [h.free l hl],
    eraseDups_of_nodup h.nodup]

/-- A free clause is not opposed. -/
lemma Free.not_opposed (h : Free f c) : ¬Opposed f c := by
  rintro ⟨l, hl, hflag | hneg⟩
  · exact (h.not_flags hl).1 hflag
  · exact h.single l hl hneg

/-- A clause that is opposed stays so under more forced values. -/
lemma Opposed.mono (h : Opposed f c) (hfg : ∀ l, f.Flags l → g.Flags l) : Opposed g c := by
  obtain ⟨l, hl, hwhy⟩ := h
  exact ⟨l, hl, hwhy.imp_left (hfg l)⟩

/-- More forced values have the same free part in what fewer ones leave of a clause. -/
lemma freePart_freePart (hfg : ∀ l, f.Flags l → g.Flags l) :
    (c.freePart f).freePart g = c.freePart g := by
  have hfilter : (c.filter fun l => (f.get l.var).isNone).filter (fun l => (g.get l.var).isNone)
      = c.filter fun l => (g.get l.var).isNone := by
    rw [List.filter_filter]
    refine List.filter_congr fun l _ => ?_
    rw [Bool.and_eq_left_iff_imp]
    simp only [Option.isNone_iff_eq_none, Forced.get_eq_none_iff]
    exact fun h => ⟨mt (hfg l) h.1, mt (hfg l.negate) h.2⟩
  rw [freePart, freePart, ← eraseDups_filter, hfilter, eraseDups_of_nodup (nodup_eraseDups _),
    freePart]

/-- More forced values oppose what fewer ones leave of a clause if they oppose the clause,
unless the fewer ones do so themselves. -/
lemma opposed_freePart_iff (hc : ¬Opposed f c) (hfg : ∀ l, f.Flags l → g.Flags l) :
    Opposed g (c.freePart f) ↔ Opposed g c := by
  have hflag : ∀ l ∈ c, ¬f.Flags l := fun l hl h => hc ⟨l, hl, .inl h⟩
  constructor
  · rintro ⟨l, hl, hwhy⟩
    exact ⟨l, (mem_freePart.1 hl).1, hwhy.imp_right fun h => (mem_freePart.1 h).1⟩
  · rintro ⟨l, hl, hg | hneg⟩
    · have hnot : ¬f.Flags l.negate := fun h => Forced.not_flags_negate hg (hfg _ h)
      exact ⟨l, mem_freePart.2 ⟨hl, hflag l hl, hnot⟩, .inl hg⟩
    · exact absurd ⟨l, hl, .inr hneg⟩ hc

/-- What is left of the rest of a clause is its free part, without the literals that were
kept before. -/
lemma literals_of_reduceFrom? {kept : Clause n} {r : ReducedClause n}
    (h : reduceFrom? f kept c = some r) :
    r.literals = kept.reverse
      ++ ((c.filter fun l => (f.get l.var).isNone).filter (· ∉ kept)).eraseDups := by
  induction c generalizing kept r with
  | nil =>
      simp only [reduceFrom?, Option.some.injEq] at h
      simp [← h]
  | cons l c ih =>
      simp only [reduceFrom?, f.value?_eq_true, f.value?_eq_false] at h
      rw [List.filter_cons]
      split at h
      · next hl =>
        rw [ih h]
        split
        · rw [List.filter_cons_of_neg (by simpa using hl)]
        · rfl
      next hl =>
      split at h
      · cases h
      next hwhy =>
      split at h
      · next hfalse =>
        obtain ⟨r', hr', rfl⟩ := Option.map_eq_some_iff.1 h
        rw [if_neg, ih hr']
        rw [Option.isNone_iff_eq_none, f.get_eq_none_iff]
        exact fun hfree => hfree.2 hfalse
      · next hfalse =>
        have hfree : (f.get l.var).isNone = true := by
          rw [Option.isNone_iff_eq_none, f.get_eq_none_iff]
          exact ⟨fun hflag => hwhy (.inl hflag), hfalse⟩
        rw [if_pos hfree, ih h, List.filter_cons_of_pos (by simpa using hl),
          List.eraseDups_cons, List.filter_filter, List.filter_filter, List.filter_filter]
        simp [List.mem_cons, not_or, Bool.and_assoc, Bool.beq_eq_decide_eq]

/-- What a reduction leaves of a clause is its free part. -/
lemma literals_of_reduce? {r : ReducedClause n} (h : c.reduce? f = some r) :
    r.literals = c.freePart f := by
  have hr := literals_of_reduceFrom? h
  simpa [freePart] using hr

end Clause

/-! ### The reduct of clauses -/

/-- The clauses that are not opposed by forced values, each with its free part. -/
def reduct (f : Forced n) (cs : List (Clause n)) : List (Clause n) :=
  (cs.filter fun c => ¬Clause.Opposed f c).map (Clause.freePart f)

section

variable {f g h : Forced n} {cs ds : List (Clause n)} {c : Clause n}

/-- Clauses are reduced part by part. -/
lemma reduct_append (f : Forced n) (cs ds : List (Clause n)) :
    reduct f (cs ++ ds) = reduct f cs ++ reduct f ds := by
  rw [reduct, List.filter_append, List.map_append]
  rfl

/-- An opposed clause is left out of the reduct. -/
lemma reduct_cons_of_opposed (hc : Clause.Opposed f c) : reduct f (c :: cs) = reduct f cs := by
  rw [reduct, List.filter_cons_of_neg (by simpa using hc)]
  rfl

/-- Any other clause is reduced to its free part. -/
lemma reduct_cons_of_not_opposed (hc : ¬Clause.Opposed f c) :
    reduct f (c :: cs) = c.freePart f :: reduct f cs := by
  rw [reduct, List.filter_cons_of_pos (by simpa using hc)]
  rfl

/-- What fewer forced values leave of a clause has the same reduct as the clause. -/
lemma reduct_cons_freePart (hc : ¬Clause.Opposed f c) (hfg : ∀ l, f.Flags l → g.Flags l)
    (h : reduct g ds = reduct g cs) : reduct g (c.freePart f :: ds) = reduct g (c :: cs) := by
  have hiff := Clause.opposed_freePart_iff hc hfg
  by_cases hg : Clause.Opposed g c
  · rw [reduct_cons_of_opposed hg, reduct_cons_of_opposed (hiff.2 hg), h]
  · rw [reduct_cons_of_not_opposed hg, reduct_cons_of_not_opposed (mt hiff.1 hg),
      Clause.freePart_freePart hfg, h]

/-- **Reducing by fewer forced values beforehand changes nothing.** -/
lemma reduct_reduct (hfg : ∀ l, f.Flags l → g.Flags l) (cs : List (Clause n)) :
    reduct g (reduct f cs) = reduct g cs := by
  induction cs with
  | nil => rfl
  | cons c cs ih =>
      by_cases hc : Clause.Opposed f c
      · rw [reduct_cons_of_opposed hc, ih, reduct_cons_of_opposed (hc.mono hfg)]
      · rw [reduct_cons_of_not_opposed hc, reduct_cons_freePart hc hfg ih]

/-- Clauses that cannot be reduced are their own reduct. -/
lemma Irreducible.reduct_eq (h : Irreducible f cs) : reduct f cs = cs := by
  induction cs with
  | nil => rfl
  | cons c cs ih =>
      have hfree := (h c List.mem_cons_self).1
      rw [reduct_cons_of_not_opposed hfree.not_opposed, hfree.freePart_eq,
        ih fun d hd => h d (List.mem_cons_of_mem c hd)]

/-! ### Passes -/

/-- What was forced before a pass stays so. -/
lemma Passes.keeps {k : Nat} {changed : Bool} (hp : Passes f cs ds g k changed)
    {l : Literal n} (hl : f.Flags l) : g.Flags l := by
  induction hp with
  | nil => exact hl
  | drop _ _ ih => exact ih hl
  | force _ _ hf _ ih => exact ih ((Forced.flags_of_force? hf l).2 (.inr hl))
  | keep _ _ _ ih => exact ih hl

/-- A pass leaves the reduct by at least the values that it forces as it is: whatever is
reduced early, by the values that are forced until then, is reduced by those as well. -/
lemma Passes.reduct_eq {k : Nat} {changed : Bool} (hp : Passes f cs ds g k changed)
    (hgh : ∀ l, g.Flags l → h.Flags l) : reduct h ds = reduct h cs := by
  induction hp with
  | nil => rfl
  | drop hc hrest ih =>
      rw [ih hgh, reduct_cons_of_opposed (hc.mono fun l hl => hgh l (hrest.keeps hl))]
  | @force f f' g cs ds c r l k b hr hl hf hrest ih =>
      have hflag : h.Flags l :=
        hgh l (hrest.keeps ((Forced.flags_of_force? hf l).2 (.inl rfl)))
      have hmem : l ∈ c := hr.sublist.subset (by simp [hl])
      rw [ih hgh, reduct_cons_of_opposed ⟨l, hmem, .inl hflag⟩]
  | keep hr _ hrest ih =>
      rw [Clause.literals_of_reduce? hr]
      exact reduct_cons_freePart (Clause.remains_of_reduce? hr).not_opposed
        (fun l hl => hgh l (hrest.keeps hl)) (ih hgh)

/-- What all passes leave is the reduct by the values that are forced in the end. -/
lemma clauses_propagate {count : Nat} (hok : (propagate f count cs).ok = true) :
    (propagate f count cs).clauses = reduct (propagate f count cs).forced cs := by
  have key : reduct (propagate f count cs).forced (propagate f count cs).clauses
      = reduct (propagate f count cs).forced cs := by
    fun_induction propagate f count cs with
    | case1 f count cs g k hp => cases hok
    | case2 f count cs ds g k round rest hp hlt ih =>
        have hkeeps := ((justified_propagate g (count + k) ds).reduces hok).1.keeps
        exact (ih hok).trans ((passes_of_pass hp).reduct_eq hkeeps)
    | case3 f count cs ds g k changed hp round hc => exact (passes_of_pass hp).reduct_eq fun _ => id
  rw [← key, ((justified_propagate f count cs).reduces hok).2.reduct_eq]

end

end LocalSat
