/-
What it means that an assignment satisfies clauses.

* `satisfies_append`: clauses are satisfied part by part;
* `isSatisfied_toInts`: the checker, which only knows the numbers of literals, finds out
  whether a total assignment satisfies clauses;
* `Forced.Flags`: a literal is forced to be true; `agrees_iff` and the lemmas on
  `Forced.force?` say all about forced values in terms of such literals.
-/
import LocalSat.Checker
import LocalSat.Propagation.Forced
import Mathlib.Tactic.Common

namespace LocalSat

variable {n : Nat}

/-! ### Literals -/

namespace Literal

/-- A literal is not its own negation. -/
@[simp] lemma negate_ne (l : Literal n) : l.negate ≠ l := by
  intro h
  have hp : (!l.positive) = l.positive := congrArg Literal.positive h
  cases hl : l.positive <;> simp [hl] at hp

/-- Both literals of a variable have that variable. -/
@[simp] lemma var_negate (l : Literal n) : l.negate.var = l.var := rfl

@[simp] lemma positive_negate (l : Literal n) : l.negate.positive = !l.positive := rfl

end Literal

/-! ### Satisfied clauses -/

namespace Assignment

/-- What is read after a flip. -/
@[simp] lemma get_flip (a : Assignment n) (v w : Fin n) :
    (a.flip v).get w = if v = w then !a.get v else a.get w := by
  rw [flip, Table.get_write]

/-- Clauses are satisfied part by part. -/
lemma satisfies_append (a : Assignment n) (cs ds : List (Clause n)) :
    a.Satisfies (cs ++ ds) ↔ a.Satisfies cs ∧ a.Satisfies ds := by
  simp only [Satisfies, List.mem_append]
  constructor
  · intro h
    exact ⟨fun c hc => h c (.inl hc), fun c hc => h c (.inr hc)⟩
  · rintro ⟨hcs, hds⟩ c (hc | hc)
    · exact hcs c hc
    · exact hds c hc

/-- The negation of a literal is true when the literal is not. -/
lemma holds_negate_iff (a : Assignment n) (l : Literal n) :
    a.holds l.negate = true ↔ a.holds l ≠ true := by
  rw [holds_negate]
  cases a.holds l <;> simp

end Assignment

/-! ### The checker -/

/-- The variable of a literal for a place. -/
@[simp] lemma natAbs_numberAt (v : Nat) (value : Bool) : (numberAt v value).natAbs = v + 1 := by
  rw [numberAt]
  split <;> omega

/-- The variable of a literal by number. -/
@[simp] lemma natAbs_toInt (l : Literal n) : l.toInt.natAbs = l.var + 1 :=
  natAbs_numberAt l.var l.positive

/-- The literal for a place and a value is true exactly if the variable has this value. -/
lemma makesTrue_numberAt {values : Array Bool} {v : Nat} {value : Bool}
    (h : values[v]? = some value) (asked : Bool) :
    (PartialAssignment.ofValues values).makesTrue (numberAt v asked) = (value == asked) := by
  rw [PartialAssignment.makesTrue, natAbs_numberAt, PartialAssignment.ofValues,
    if_neg (Nat.succ_ne_zero v), Nat.add_sub_cancel, h]
  cases value <;> cases asked <;> simp [numberAt] <;> omega

/-- The checker finds out whether a literal is true by its number. -/
lemma makesTrue_toInt (a : Assignment n) (l : Literal n) :
    a.toPartial.makesTrue l.toInt = a.holds l := by
  have hvalue : a.toArray[l.var.val]? = some (a.get l.var) := by
    rw [Table.get_eq_getElem]
    simp
  exact makesTrue_numberAt hvalue l.positive

/-- The checker finds out whether a total assignment satisfies clauses. -/
lemma isSatisfied_toInts (a : Assignment n) (cs : List (Clause n)) :
    a.toPartial.isSatisfied (cs.map Clause.toInts) = true ↔ a.Satisfies cs := by
  simp only [PartialAssignment.isSatisfied, List.all_map, List.all_eq_true, Function.comp_apply,
    Clause.toInts, List.any_map, List.any_eq_true, makesTrue_toInt, Assignment.Satisfies]

/-! ### Forced literals -/

namespace Forced

/-- A literal is forced to be true. -/
def Flags (f : Forced n) (l : Literal n) : Prop := f.get l.var = some l.positive

instance (f : Forced n) (l : Literal n) : Decidable (f.Flags l) :=
  inferInstanceAs (Decidable (_ = _))

/-- Forced values hold as literals. -/
lemma value?_eq_true (f : Forced n) (l : Literal n) : f.value? l = some true ↔ f.Flags l := by
  simp only [value?, Flags, Option.map_eq_some_iff, beq_iff_eq]
  constructor
  · rintro ⟨b, hb, rfl⟩
    exact hb
  · intro h
    exact ⟨l.positive, h, rfl⟩

/-- A literal is forced to be false by the other literal of its variable. -/
lemma value?_eq_false (f : Forced n) (l : Literal n) :
    f.value? l = some false ↔ f.Flags l.negate := by
  simp only [value?, Flags, Option.map_eq_some_iff, beq_eq_false_iff_ne, Literal.var_negate,
    Literal.positive_negate]
  constructor
  · rintro ⟨b, hb, hne⟩
    rw [hb]
    cases b <;> cases hl : l.positive <;> simp_all
  · intro h
    refine ⟨!l.positive, h, ?_⟩
    cases l.positive <;> simp

/-- No variable is forced both ways. -/
lemma not_flags_negate {f : Forced n} {l : Literal n} (h : f.Flags l) : ¬f.Flags l.negate := by
  intro h'
  simp only [Flags, Literal.var_negate, Literal.positive_negate] at h h'
  rw [h] at h'
  cases hl : l.positive <;> simp [hl] at h'

/-- A variable is free when neither of its literals is forced. -/
lemma get_eq_none_iff (f : Forced n) (l : Literal n) :
    f.get l.var = Option.none ↔ ¬f.Flags l ∧ ¬f.Flags l.negate := by
  simp only [Flags, Literal.var_negate, Literal.positive_negate]
  cases h : f.get l.var with
  | none => simp
  | some b => cases b <;> cases l.positive <;> simp

/-- No variable has a forced value at the start. -/
lemma get_none (v : Fin n) : (Forced.none n).get v = Option.none := by
  simp [none]

/-- Nothing is forced at the start. -/
lemma not_flags_none (l : Literal n) : ¬(Forced.none n).Flags l := by
  simp [Flags, get_none]

/-- Forced values are determined by the forced literals. -/
lemma ext_flags {f g : Forced n} (h : ∀ l, f.Flags l ↔ g.Flags l) : f = g := by
  refine Vector.ext fun i hi => Option.ext fun b => ?_
  exact h ⟨⟨i, hi⟩, b⟩

/-- A literal can be forced unless its negation is. -/
lemma force?_eq_none (f : Forced n) (l : Literal n) :
    f.force? l = Option.none ↔ f.Flags l.negate := by
  simp only [force?, Flags, Literal.var_negate, Literal.positive_negate]
  cases f.get l.var with
  | none => simp
  | some b => cases b <;> cases l.positive <;> simp

/-- Forcing a literal adds this literal. -/
lemma flags_of_force? {f g : Forced n} {l : Literal n} (h : f.force? l = some g)
    (k : Literal n) : g.Flags k ↔ k = l ∨ f.Flags k := by
  have hl : ∀ s, (⟨l.var, s⟩ : Literal n) = l ↔ s = l.positive := by
    intro s
    constructor
    · intro hs
      rw [← hs]
    · rintro rfl
      rfl
  unfold force? at h
  split at h
  · next b hb =>
    split at h
    · next hpos =>
      cases h
      constructor
      · exact .inr
      · rintro (rfl | hk)
        · rw [Flags, hb, hpos]
        · exact hk
    · cases h
  · next hnone =>
    cases h
    obtain ⟨v, s⟩ := k
    simp only [Flags, Table.get_write]
    split
    · next hv =>
      subst hv
      rw [hl, hnone]
      simp [eq_comm]
    · next hv =>
      constructor
      · exact .inr
      · rintro (hk | hk)
        · exact absurd (congrArg Literal.var hk).symm hv
        · exact hk

/-- An assignment agrees with forced values when it makes the forced literals true. -/
lemma agrees_iff (f : Forced n) (a : Assignment n) :
    f.Agrees a ↔ ∀ l, f.Flags l → a.holds l = true := by
  constructor
  · intro h l hl
    rw [Assignment.holds, h l.var l.positive hl]
    simp
  · intro h v b hb
    have := h ⟨v, b⟩ hb
    simpa [Assignment.holds] using this

/-- A flip of a variable without a forced value leaves the forced values alone. -/
lemma Agrees.flip {f : Forced n} {a : Assignment n} (h : f.Agrees a) {v : Fin n}
    (hv : f.get v = Option.none) : f.Agrees (a.flip v) := by
  intro w b hb
  have hne : v ≠ w := by
    rintro rfl
    simp [hv] at hb
  rw [Assignment.get_flip, if_neg hne]
  exact h w b hb

/-- An assignment agrees with one more forced literal when it makes it true. -/
lemma agrees_of_force? {f g : Forced n} {l : Literal n} (h : f.force? l = some g)
    (a : Assignment n) : g.Agrees a ↔ a.holds l = true ∧ f.Agrees a := by
  simp only [agrees_iff, flags_of_force? h]
  constructor
  · intro hg
    exact ⟨hg l (.inl rfl), fun k hk => hg k (.inr hk)⟩
  · rintro ⟨hl, hf⟩ k (rfl | hk)
    · exact hl
    · exact hf k hk

end Forced

end LocalSat
