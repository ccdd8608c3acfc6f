/-
There is always a clause that can do without a literal.

* `exists_spare`: while the missing variables are put into planted clauses, the occurrences are
  counted as they are, and fewer clauses are blocked than there are variables;
* `plant_never_stuck`: so a formula with at least as many clauses as variables is always made, if
  the source answers.
-/
import LocalSat.Proofs.Planted.Formula

namespace LocalSat

open OccurrenceTable

variable {γ : Type} [Sampler γ] {E : Fault → Prop}

/-- When the next missing variable is to be put into planted clauses, the table holds what occurs
in them, and all but fewer than the number of variables are spare. So it is put into one of them, if
there are as many clauses as variables. -/
lemma exists_spare (hE : SamplesWithin γ E) {hidden : List Bool} {size : Nat} (hsize : 1 ≤ size)
    {cs : List (List Int)} (hcs : ∀ c ∈ cs, IsPlanted hidden.toArray size c) {done rest : List Int}
    {place : Int} (hplaces : unusedPlaces hidden.length cs = done ++ place :: rest) {g : γ}
    {s : Patching γ}
    (hs : Patching.patchAll hidden.toArray done (Patching.start cs g) = .ok () s) :
    Counts s.occurrences s.clauses
      ∧ ∃ spare, Patching.spareIndices s.occurrences 0 s.clauses = .ok spare
        ∧ cs.length < spare.length + hidden.length
        ∧ (hidden.length ≤ cs.length →
          ∀ e t, Patching.patch hidden.toArray place s = .error e t → E e) := by
  rw [unusedPlaces_eq, List.map_eq_append_iff] at hplaces
  obtain ⟨before, others, hplaces, rfl, hothers⟩ := hplaces
  obtain ⟨v, after, rfl, rfl, -⟩ := List.map_eq_cons_iff.1 hothers
  have hv : v < hidden.length := by
    have hmem : v ∈ before ++ v :: after := List.mem_append_right _ List.mem_cons_self
    rw [← hplaces] at hmem
    exact List.mem_range.1 (List.mem_filter.1 hmem).1
  rw [← List.size_toArray] at hplaces hv
  have hnodup : (v :: after).Nodup := by
    have hall : (before ++ v :: after).Nodup := hplaces ▸ List.nodup_range.filter _
    exact (List.nodup_append.1 hall).2.1
  have hsane := (leads_patchAll_start hE hsize hcs hplaces g).ok hs
  obtain ⟨spare, hspare, hlength, -⟩ := Patching.exists_spareIndices hsane.counts
  have hblocked := hsane.blockedCount_lt hv
  have hcount := hsane.length
  rw [List.size_toArray] at hblocked
  refine ⟨hsane.counts, spare, hspare, by omega, fun hmany e t he => ?_⟩
  refine ((hsane.leads_patch hE hsize hnodup hv).error he).resolve_right fun hstuck => ?_
  have hlt := hstuck.2
  rw [List.size_toArray] at hlt
  omega

/-- **Patches never get stuck.** Let there be at least as many clauses as variables, and at least as
many variables as literals in a clause, of which there is at least one. Let the sources answer as
they are asked, or fail as they may. Then nothing but a fault of the source keeps a formula from
being made, and if the source has none, the formula is made. At every step, whatever patches were
made before it, the table holds how often each variable occurs in the clauses as they are then.
Fewer clauses than there are variables hold a variable that occurs only once, and so there is one
that can do without any of its literals, and the next patch can only fail as the source does. -/
theorem plant_never_stuck (hE : SamplesWithin γ E) {varCount size clauses : Int}
    (hsize : 1 ≤ size) (hvars : size ≤ varCount) (hclauses : varCount ≤ clauses) (g : γ) :
    (∀ e g', plant varCount clauses size g = .error e g' → E e)
      ∧ ((∀ e, ¬ E e) → ∃ p g', plant varCount clauses size g = .ok p g')
      ∧ ∀ hidden g₁ drawn g₂, randomAssignment varCount g = .ok hidden g₁ →
        plantedClauses hidden.toArray size clauses.toNat g₁ = .ok drawn g₂ →
        ∀ done place rest s, unusedPlaces hidden.length drawn = done ++ place :: rest →
          Patching.patchAll hidden.toArray done (Patching.start drawn g₂) = .ok () s →
          (∀ v, s.occurrences.getD v 0 = occurrenceCount s.clauses v)
            ∧ ∃ spare, Patching.spareIndices s.occurrences 0 s.clauses = .ok spare
              ∧ spare ≠ [] ∧ clauses < spare.length + varCount
              ∧ ∀ e t, Patching.patch hidden.toArray place s = .error e t → E e := by
  obtain ⟨k, rfl⟩ := Int.eq_ofNat_of_zero_le (show 0 ≤ size by omega)
  obtain ⟨n, rfl⟩ := Int.eq_ofNat_of_zero_le (show 0 ≤ varCount by omega)
  obtain ⟨m, rfl⟩ := Int.eq_ofNat_of_zero_le (show 0 ≤ clauses by omega)
  have hfails : ∀ e g', plant n m k g = .error e g' → E e := fun e g' he =>
    ((leads_plant hE m (by omega) (by omega) g).error he).resolve_right fun hfew => by
      have := hfew.2
      omega
  refine ⟨hfails, fun hnone => ?_, ?_⟩
  · cases hp : plant n m k g with
    | ok p g' => exact ⟨p, g', rfl⟩
    | error e g' => exact absurd (hfails e g' hp) (hnone e)
  · intro hidden g₁ drawn g₂ hhidden hdrawn done place rest s hplaces hs
    have hlength := (leads_randomAssignment hE n g).ok hhidden
    obtain ⟨hcount, hplanted⟩ := (leads_plantedClauses hE (by omega : 1 ≤ k)
      (by simpa [hlength] using hvars) (m : Int).toNat g₁).ok hdrawn
    obtain ⟨hcounts, spare, hspare, hlt, hpatch⟩ := exists_spare hE (by omega) hplanted hplaces hs
    rw [hcount, hlength, Int.toNat_natCast] at hlt
    refine ⟨hcounts, spare, hspare, ?_, by omega, hpatch (by omega)⟩
    rintro rfl
    rw [List.length_nil] at hlt
    omega

/-- With a tape, all four clauses are drawn of the first two variables, so that two are missing.
When the third variable has been put into a clause, there is a spare one for the fourth. -/
theorem plant_never_stuck_of_four :
    SamplesWithin Tape (fun _ => False) ∧ (1 : Int) ≤ 2 ∧ (2 : Int) ≤ 4 ∧ (4 : Int) ≤ 4
      ∧ (∃ p g', plant 4 4 2 Tape.zero = .ok p g')
      ∧ ∃ drawn g₂ s, plantedClauses #[false, false, false, false] 2 4 Tape.zero = .ok drawn g₂
        ∧ unusedPlaces 4 drawn = [2, 3]
        ∧ Patching.patchAll #[false, false, false, false] [2] (Patching.start drawn g₂) = .ok () s
        ∧ ∃ spare, Patching.spareIndices s.occurrences 0 s.clauses = .ok spare ∧ spare ≠ [] := by
  have hE := samplesWithin_of_lawful Tape
  obtain ⟨-, hmade, hsteps⟩ := plant_never_stuck hE (by decide : (1 : Int) ≤ 2)
    (by decide : (2 : Int) ≤ 4) (by decide : (4 : Int) ≤ 4) Tape.zero
  refine ⟨hE, by decide, by decide, by decide, hmade fun _ => id, ?_⟩
  obtain ⟨drawn, g₂, hdrawn⟩ : ∃ drawn g₂,
      plantedClauses #[false, false, false, false] 2 4 Tape.zero = .ok drawn g₂ := ⟨_, _, rfl⟩
  have hwhich : drawn = [[1, -2], [1, -2], [1, -2], [1, -2]] := by
    cases hdrawn
    decide
  have hplaces : unusedPlaces 4 drawn = [2, 3] := by
    rw [hwhich, unusedPlaces_eq]
    decide
  -- the first patch is made, as there are as many clauses as variables
  have hplanted : drawn.length = 4 ∧ ∀ c ∈ drawn, IsPlanted #[false, false, false, false] 2 c :=
    (leads_plantedClauses hE (by decide) (by decide) 4 Tape.zero).ok hdrawn
  have hsplit : ((List.range 4).filter fun (v : Nat) => occurrenceCount drawn ((v : Int) + 1) = 0)
      = [2] ++ [3] := by
    rw [hwhich]
    decide
  have hpatch := leads_patchAll_start hE (by decide) hplanted.2 hsplit g₂
  obtain ⟨⟨⟩, s, hs, -⟩ := Leads.exists_ok (hpatch.mono (fun _ _ => id) fun e t he =>
    he.elim id fun hfew => absurd hfew.2 (by rw [hplanted.1]; decide))
  obtain ⟨-, spare, hspare, hne, -⟩ :=
    hsteps [false, false, false, false] Tape.zero drawn g₂ rfl hdrawn [2] 3 [] s hplaces hs
  exact ⟨drawn, g₂, s, hdrawn, hplaces, hs, spare, hspare, hne⟩

end LocalSat
