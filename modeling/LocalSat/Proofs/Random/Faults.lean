/-
The faults of a source of random answers.

* `FaultsWithin γ E`: asked for coins, and for members of lists that have some, a source
  fails with faults in `E` only;
* `faultsWithin_of_lawful`: a lawful source does not fail; `faultsWithin_pcg64`: the
  generator fails in one way only;
* `mem_of_pickMember`: the answer is a member of the list in any case.
-/
import LocalSat.Proofs.Outcome
import LocalSat.Random.Pcg64

namespace LocalSat

variable {γ : Type} [RandomSource γ]

/-- Sensible questions to a source fail with certain faults only. -/
structure FaultsWithin (γ : Type) [RandomSource γ] (E : Fault → Prop) : Prop where
  /-- The faults of coins. -/
  coin : ∀ (chance : Float) (g : γ),
    Leads (RandomSource.coin chance) g (fun _ _ => True) fun e _ => E e
  /-- The faults of members of lists. -/
  member : ∀ {α : Type} (members : List α) (g : γ), members ≠ [] →
    Leads (RandomSource.pickMember members) g (fun _ _ => True) fun e _ => E e

/-- What is chosen from a list is a member of it. -/
lemma mem_of_pickMember {α : Type} (members : List α) (g : γ) :
    Leads (RandomSource.pickMember members) g (fun x _ => x ∈ members) fun _ _ => True := by
  rw [RandomSource.pickMember, leads_bind]
  refine (leads_any _ g).mono (fun i g' _ => ?_) fun _ _ => id
  cases hi : members[i]? with
  | none => trivial
  | some x => exact List.mem_of_getElem? hi

/-- A source has faults of some kind. -/
lemma faultsWithin_true (γ : Type) [RandomSource γ] : FaultsWithin γ fun _ => True :=
  ⟨fun _ g => leads_any _ g, fun _ g _ => leads_any _ g⟩

/-- A lawful source has no faults. -/
lemma faultsWithin_of_lawful (γ : Type) [RandomSource γ] [LawfulSource γ] :
    FaultsWithin γ fun _ => False := by
  constructor
  · intro chance g
    obtain ⟨heads, g', h⟩ := LawfulSource.coin_ok chance g
    rw [Leads, h]
    trivial
  · intro α members g hne
    have hlen : 1 ≤ (members.length : Int) := by
      have := List.length_pos_iff.2 hne
      omega
    obtain ⟨i, g', h, hi⟩ := LawfulSource.index_ok (members.length : Int) g hlen
    rw [RandomSource.pickMember, leads_bind, Leads, h]
    have hget : members[i]? = some _ := List.getElem?_eq_getElem (by omega)
    simp only [hget]
    trivial

/-- The generator fails only when a list is too long for it. -/
lemma faultsWithin_pcg64 : FaultsWithin Pcg64 fun e => e = .wideChoice := by
  constructor
  · intro chance g
    trivial
  · intro α members g hne
    have hlen : 0 < members.length := List.length_pos_iff.2 hne
    rw [RandomSource.pickMember, leads_bind]
    show Leads (Pcg64.index members.length) g _ _
    rw [Leads, Pcg64.index, if_neg (by omega)]
    by_cases hwide : Number.twoPow 63 < members.length
    · rw [if_pos (by exact_mod_cast hwide)]
    · rw [if_neg (by exact_mod_cast hwide)]
      have hlt := Pcg64.below_lt hlen g
      have hget : members[(Pcg64.below members.length g).1]? = some _ :=
        List.getElem?_eq_getElem hlt
      simp only [Int.toNat_natCast, hget]
      trivial

end LocalSat
