/-
The passes of unit propagation.

* `Forced.domain`: the variables with a forced value, which `Forced.count` counts;
* `exists_of_pass_refuted`: a pass refutes clauses at one of them that loses all of its
  literals, and not before;
* `forcedCount_propagate`: the count of forced values grows by as many as become forced;
* `length_rounds_propagate_le`: there are at most two passes more than forced values, since
  after a pass that forces nothing one more pass changes nothing;
* `Meets f cs g c`: in the course of unit propagation a clause is met under forced values.
-/
import LocalSat.Proofs.Propagation.Repeat
import Mathlib.Data.Fintype.Card

namespace LocalSat

variable {n : Nat} {f g : Forced n} {cs ds : List (Clause n)} {k : Nat} {changed : Bool}

/-! ### The number of forced values -/

namespace Forced

/-- The variables with a forced value. -/
def domain (f : Forced n) : Finset (Fin n) := Finset.univ.filter fun v => (f.get v).isSome

/-- A variable with a forced value has one of two literals forced. -/
lemma mem_domain {v : Fin n} : v ∈ f.domain ↔ ∃ b, f.Flags ⟨v, b⟩ := by
  simp [domain, Option.isSome_iff_exists, Flags]

/-- The forced values are counted by their variables. -/
lemma count_eq_card (f : Forced n) : f.count = f.domain.card := by
  have hlist : f.toList = (List.finRange n).map f.get := by
    refine List.ext_getElem (by simp) fun i h h' => ?_
    simp [Table.get_eq_getElem]
  rw [count, hlist, List.countP_map, List.countP_eq_length_filter]
  refine congrArg List.length (List.filter_congr fun v _ => ?_)
  simp

/-- Where forced values stay, their variables do. -/
lemma domain_subset (hfg : ∀ l, f.Flags l → g.Flags l) : f.domain ⊆ g.domain := by
  intro v hv
  obtain ⟨b, hb⟩ := mem_domain.1 hv
  exact mem_domain.2 ⟨b, hfg _ hb⟩

/-- Forcing a literal of a free variable makes one more forced value. -/
lemma count_of_force? {l : Literal n} (hl : f.get l.var = Option.none)
    (hg : f.force? l = some g) : g.count = f.count + 1 := by
  rw [force?, hl] at hg
  cases hg
  have hlt : l.var.val < f.toList.length := by simp
  have hget : f.toList[l.var.val] = Option.none := by
    rw [← hl, Table.get_eq_getElem, Vector.getElem_toList]
  rw [count, count, Table.write, Vector.toList_set, List.countP_set hlt, hget]
  simp

end Forced

/-- A pass counts the values that it forces. -/
lemma Passes.count_eq (hp : Passes f cs ds g k changed) : g.count = f.count + k := by
  induction hp with
  | nil => rfl
  | drop _ _ ih => exact ih
  | @force f f' g cs ds c r l k b hr hl hf _ ih =>
      have hfree : f.get l.var = Option.none := hr.free.free l (by simp [hl])
      rw [ih, Forced.count_of_force? hfree hf]
      omega
  | keep _ _ _ ih => exact ih

/-- A pass that refutes clauses comes to one of them that loses all of its literals, and
refutes none before. -/
lemma exists_of_pass_refuted (h : pass f cs = .refuted g k) :
    ∃ pre c post ds b r, cs = pre ++ c :: post ∧ pass f pre = .reduced ds g k b
      ∧ c.reduce? g = some r ∧ r.literals = [] := by
  induction cs generalizing f k with
  | nil => cases h
  | cons c cs ih =>
      simp only [pass] at h
      split at h
      · next hnone =>
        cases hp : pass f cs with
        | reduced ds g' j b => simp [hp, Pass.skip] at h
        | refuted g' j =>
            simp only [hp, Pass.skip, Pass.refuted.injEq] at h
            obtain ⟨rfl, rfl⟩ := h
            obtain ⟨pre, d, post, ds, b, r, rfl, hpre, hr⟩ := ih hp
            exact ⟨c :: pre, d, post, ds, true, r, rfl, by simp [pass, hnone, hpre, Pass.skip], hr⟩
      next r hr =>
      split at h
      · next hempty =>
        cases h
        exact ⟨[], c, cs, [], false, r, rfl, rfl, hr, hempty⟩
      · next l hunit =>
        split at h
        · next hclash =>
          exact absurd hclash ((Clause.remains_of_reduce? hr).force?_ne_none (by simp [hunit]))
        next f' hf =>
        cases hp : pass f' cs with
        | reduced ds g' j b => simp [hp, Pass.unit] at h
        | refuted g' j =>
            simp only [hp, Pass.unit, Pass.refuted.injEq] at h
            obtain ⟨rfl, rfl⟩ := h
            obtain ⟨pre, d, post, ds, b, r', rfl, hpre, hr'⟩ := ih hp
            exact ⟨c :: pre, d, post, ds, true, r', rfl,
              by simp [pass, hr, hunit, hf, hpre, Pass.unit], hr'⟩
      · next l l' ls htwo =>
        cases hp : pass f cs with
        | reduced ds g' j b => simp [hp, Pass.cons] at h
        | refuted g' j =>
            simp only [hp, Pass.cons, Pass.refuted.injEq] at h
            obtain ⟨rfl, rfl⟩ := h
            obtain ⟨pre, d, post, ds, b, r', rfl, hpre, hr'⟩ := ih hp
            refine ⟨c :: pre, d, post, r.literals :: ds, b || r.shortened, r', rfl, ?_, hr'⟩
            rw [pass_cons_of_long hr (by simp [htwo]), hpre, Pass.cons]

/-- A pass that refutes clauses counts the values that it forces. -/
lemma count_of_pass_refuted (h : pass f cs = .refuted g k) : g.count = f.count + k := by
  obtain ⟨pre, c, post, ds, b, r, -, hpre, -⟩ := exists_of_pass_refuted h
  exact (passes_of_pass hpre).count_eq

/-- Propagation counts the values that it forces. -/
lemma forcedCount_propagate (f : Forced n) (count : Nat) (cs : List (Clause n)) :
    (propagate f count cs).forcedCount + f.count
      = count + (propagate f count cs).forced.count := by
  fun_induction propagate f count cs with
  | case1 f count cs g k hp =>
      have hpass := count_of_pass_refuted hp
      show count + k + f.count = count + g.count
      omega
  | case2 f count cs ds g k round rest hp hlt ih =>
      have hrest : rest.forcedCount + g.count = count + k + rest.forced.count := ih
      have hpass := (passes_of_pass hp).count_eq
      show rest.forcedCount + f.count = count + rest.forced.count
      omega
  | case3 f count cs ds g k changed hp round hc =>
      have hpass := (passes_of_pass hp).count_eq
      show count + k + f.count = count + g.count
      omega

/-! ### The number of passes -/

/-- There are at most two passes more than forced values: each pass before the last one forces
some, or it leaves clauses that cannot be reduced any more. -/
lemma length_rounds_propagate_le (f : Forced n) (count : Nat) (cs : List (Clause n)) :
    (propagate f count cs).rounds.length + count ≤ (propagate f count cs).forcedCount + 2 := by
  fun_induction propagate f count cs with
  | case1 f count cs g k hp =>
      show 1 + count ≤ count + k + 2
      omega
  | case2 f count cs ds g k round rest hp hlt ih =>
      show (rest.rounds.length + 1) + count ≤ rest.forcedCount + 2
      cases k with
      | zero =>
          obtain ⟨rfl, hirr⟩ := (passes_of_pass hp).unforced rfl
          have hrest : rest = ⟨true, ds, g, count, [.reduced ds.length count]⟩ :=
            propagate_of_irreducible hirr count
          simp only [hrest, List.length_singleton]
          omega
      | succ k =>
          have hrest : rest.rounds.length + (count + (k + 1)) ≤ rest.forcedCount + 2 := ih
          omega
  | case3 f count cs ds g k changed hp round hc =>
      show 1 + count ≤ count + k + 2
      omega

/-! ### The clauses that are met -/

/-- In the course of unit propagation on clauses under forced values `f`, the clause `c` is met
under forced values `g`: what a pass makes of the clauses before it is known by then. -/
inductive Meets : Forced n → List (Clause n) → Forced n → Clause n → Prop
  /-- The clause is met in the first pass. -/
  | first {f g : Forced n} {pre post ds : List (Clause n)} {c : Clause n} {k : Nat} {b : Bool}
      (h : pass f pre = .reduced ds g k b) : Meets f (pre ++ c :: post) g c
  /-- The clause is met after a pass that has changed something. -/
  | later {f g g' : Forced n} {cs ds : List (Clause n)} {c : Clause n} {k : Nat}
      (h : pass f cs = .reduced ds g k true) (hc : Meets g ds g' c) : Meets f cs g' c

/-- A pass that refutes clauses meets one of which nothing is left. -/
lemma exists_meets_of_pass_refuted (h : pass f cs = .refuted g k) :
    ∃ c r, Meets f cs g c ∧ c.reduce? g = some r ∧ r.literals = [] := by
  obtain ⟨pre, c, post, ds, b, r, rfl, hpre, hr⟩ := exists_of_pass_refuted h
  exact ⟨c, r, .first hpre, hr⟩

/-- Propagation that refutes clauses meets one of which nothing is left. -/
lemma exists_meets_of_propagate {count : Nat} (hok : (propagate f count cs).ok = false) :
    ∃ c r, Meets f cs (propagate f count cs).forced c
      ∧ c.reduce? (propagate f count cs).forced = some r ∧ r.literals = [] := by
  fun_induction propagate f count cs with
  | case1 f count cs g k hp => exact exists_meets_of_pass_refuted hp
  | case2 f count cs ds g k round rest hp hlt ih =>
      obtain ⟨c, r, hc, hr⟩ := ih hok
      exact ⟨c, r, .later hp hc, hr⟩
  | case3 f count cs ds g k changed hp round hc => cases hok

end LocalSat
