/-
Planted formulas are as they were asked for.

* `Planted.Fits`: a formula has a number of clauses of a size that are planted around its hidden
  assignment, and every variable occurs; `leads_plant`: so have those that are made;
* `plant_fits`: whatever the source answers, a formula that is made is satisfied by the assignment
  that was drawn first, has the requested shape and uses every variable; and it is made, if there
  are at least as many clauses as variables.
-/
import LocalSat.Planted.Formula
import LocalSat.Proofs.Planted.Patch

namespace LocalSat

open PartialAssignment

/-- The places of the variables that do not occur. -/
lemma unusedPlaces_eq (varCount : Nat) (cs : List (List Int)) :
    unusedPlaces varCount cs = ((List.range varCount).filter fun (v : Nat) =>
      occurrenceCount cs ((v : Int) + 1) = 0).map fun (v : Nat) => (v : Int) := by
  rw [unusedPlaces, List.filter_map]
  congr 1
  refine List.filter_congr fun v _ => ?_
  have h := OccurrenceTable.contains_ofClauses cs ((v : Int) + 1)
  rw [Nat.pos_iff_ne_zero] at h
  show (!(OccurrenceTable.ofClauses cs).contains ((v : Int) + 1)) = _
  cases hv : (OccurrenceTable.ofClauses cs).contains ((v : Int) + 1) <;> simp_all

/-- A formula has a number of clauses of a size that are planted around its hidden assignment of
some variables, and each of these occurs. -/
structure Planted.Fits (p : Planted) (varCount count size : Nat) : Prop where
  /-- The variables of the assignment. -/
  hidden : p.hidden.length = varCount
  /-- The number of clauses. -/
  length : p.clauses.length = count
  /-- The clauses are planted. -/
  planted : ∀ c ∈ p.clauses, IsPlanted p.hidden.toArray size c
  /-- Every variable occurs. -/
  covers : ∀ v, 1 ≤ v → v ≤ varCount → ∃ c ∈ p.clauses, v ∈ c.map Int.natAbs

variable {γ : Type} [Sampler γ] {E : Fault → Prop}

omit [Sampler γ] in
/-- Patching starts with planted clauses and with the variables that do not occur in them. -/
lemma sane_start {hidden : Array Bool} {size : Nat} {cs : List (List Int)}
    (hcs : ∀ c ∈ cs, IsPlanted hidden size c) (g : γ) :
    (Patching.start cs g).Sane hidden size cs.length
      ((List.range hidden.size).filter fun (v : Nat) =>
        occurrenceCount cs ((v : Int) + 1) = 0) where
  length := rfl
  planted := hcs
  counts := OccurrenceTable.counts_ofClauses cs
  missing v hv := by simp [Patching.start, hv]

omit [Sampler γ] in
/-- Variables are put into clauses where patching leads. -/
lemma leads_cover_iff [RandomSource γ] {hidden : Array Bool} {cs : List (List Int)}
    {places : List Int} {g : γ} {Q : List (List Int) → γ → Prop} {E : Fault → γ → Prop} :
    Leads (cover hidden cs places) g Q E ↔
      Leads (Patching.patchAll hidden places) (Patching.start cs g)
        (fun _ t => Q t.clauses t.source) fun e t => E e t.source := by
  simp only [Leads, cover]
  cases Patching.patchAll hidden places (Patching.start cs g) <;> rfl

/-- As long as the missing variables are put into planted clauses one after the other, those that
are left are the ones that do not occur. Only with fewer clauses than variables none of them may be
able to do without a literal. -/
lemma leads_patchAll_start (hE : SamplesWithin γ E) {hidden : Array Bool} {size : Nat}
    (hsize : 1 ≤ size) {cs : List (List Int)} (hcs : ∀ c ∈ cs, IsPlanted hidden size c)
    {done rest : List Nat} (hplaces : ((List.range hidden.size).filter fun (v : Nat) =>
      occurrenceCount cs ((v : Int) + 1) = 0) = done ++ rest) (g : γ) :
    Leads (Patching.patchAll hidden (done.map fun (v : Nat) => (v : Int))) (Patching.start cs g)
      (fun _ t => t.Sane hidden size cs.length rest)
      fun e _ => E e ∨ e = .noClauseToPatch ∧ cs.length < hidden.size := by
  refine Patching.leads_patchAll hE hsize (hplaces ▸ List.nodup_range.filter _) (fun v hv => ?_)
    (hplaces ▸ sane_start hcs g)
  have hv : v ∈ done ++ rest := List.mem_append_left rest hv
  rw [← hplaces] at hv
  exact List.mem_range.1 (List.mem_filter.1 hv).1

/-- Planted clauses are made to use every variable, or there are fewer of them than variables. -/
lemma leads_cover (hE : SamplesWithin γ E) {hidden : List Bool} {size : Nat} (hsize : 1 ≤ size)
    {cs : List (List Int)} (hcs : ∀ c ∈ cs, IsPlanted hidden.toArray size c) (g : γ) :
    Leads (cover hidden.toArray cs (unusedPlaces hidden.length cs)) g
      (fun ds _ => Planted.Fits ⟨hidden, ds⟩ hidden.length cs.length size)
      fun e _ => E e ∨ e = .noClauseToPatch ∧ cs.length < hidden.length := by
  have hpatch := leads_patchAll_start hE hsize hcs (List.append_nil _).symm g
  rw [← unusedPlaces_eq, List.size_toArray] at hpatch
  rw [leads_cover_iff]
  refine hpatch.mono (fun _ t ht => ⟨rfl, ht.length, ht.planted, fun v hv hle => ?_⟩) fun _ _ => id
  -- no place is missing, so the variable occurs
  have hoccurs := ht.missing (v - 1) (by rw [List.size_toArray]; omega)
  have hv' : ((v - 1 : Nat) : Int) + 1 = v := by omega
  rw [hv'] at hoccurs
  obtain ⟨c, hc, l, hl, hlv⟩ := occurrenceCount_pos.1
    (Nat.pos_of_ne_zero fun hzero => List.not_mem_nil (hoccurs.2 hzero))
  exact ⟨c, hc, List.mem_map.2 ⟨l, hl, by omega⟩⟩

/-- A formula is made as it was asked for, around the assignment that was drawn first. Otherwise the
sampler fails, or there are fewer clauses than variables. -/
lemma leads_plant (hE : SamplesWithin γ E) {varCount size : Nat} (clauses : Int) (hsize : 1 ≤ size)
    (hvars : size ≤ varCount) (g : γ) :
    Leads (plant varCount clauses size) g
      (fun p _ => (∃ g', randomAssignment varCount g = .ok p.hidden g')
        ∧ p.Fits varCount clauses.toNat size)
      fun e _ => E e ∨ e = .noClauseToPatch ∧ clauses.toNat < varCount := by
  rw [plant, if_neg (by omega), leads_bind]
  refine ((leads_randomAssignment hE varCount g).and (leads_self _ g)).mono ?_
    fun _ _ he => .inl he.1
  rintro hidden g' ⟨hhidden, hdrawn⟩
  rw [leads_bind]
  refine (leads_plantedClauses hE hsize (by simpa [hhidden] using hvars) clauses.toNat g').mono ?_
    fun _ _ => .inl
  rintro cs g'' ⟨hlength, hcs⟩
  rw [leads_bind, ← hlength]
  subst hhidden
  exact (leads_cover hE hsize hcs g'').mono (fun ds _ hfits => ⟨⟨g', hdrawn⟩, hfits⟩)
    fun _ _ => id

/-- **Planted formulas are as they were asked for.** Let there be at least as many variables as
literals in a clause, and at least one. Let the sources answer as they are asked, or fail as they
may: an index lies inside of its sequence, a sample holds as many different numbers as it is to
hold, and coins show what they like. If a formula is made, its hidden assignment is the one that was
drawn first, with a value for each variable. There are exactly as many clauses as were asked for,
and each of them has the requested number of literals, of different variables out of all. The hidden
assignment satisfies every clause, and every variable occurs. What can fail is the source, or that
no clause can do without one of its literals; so it is only with fewer clauses than variables. -/
theorem plant_fits (hE : SamplesWithin γ E) {varCount size : Int} (clauses : Int)
    (hsize : 1 ≤ size) (hvars : size ≤ varCount) (g : γ) :
    (∀ p g', plant varCount clauses size g = .ok p g' →
        (∃ g₀, randomAssignment varCount g = .ok p.hidden g₀)
        ∧ (p.hidden.length : Int) = varCount ∧ (p.clauses.length : Int) = clauses
        ∧ (∀ c ∈ p.clauses, (c.length : Int) = size ∧ (c.map Int.natAbs).Nodup
          ∧ ∀ l ∈ c, 1 ≤ l.natAbs ∧ (l.natAbs : Int) ≤ varCount)
        ∧ (ofValues p.hidden.toArray).isSatisfied p.clauses = true
        ∧ ∀ v : Nat, 1 ≤ v → (v : Int) ≤ varCount → ∃ c ∈ p.clauses, v ∈ c.map Int.natAbs)
      ∧ ∀ e g', plant varCount clauses size g = .error e g' →
        E e ∨ e = .noClauseToPatch ∧ clauses < varCount := by
  obtain ⟨k, rfl⟩ := Int.eq_ofNat_of_zero_le (show 0 ≤ size by omega)
  obtain ⟨n, rfl⟩ := Int.eq_ofNat_of_zero_le (show 0 ≤ varCount by omega)
  have hplant := leads_plant hE clauses (by omega : 1 ≤ k) (by omega : k ≤ n) g
  refine ⟨fun p g' hp => ?_, fun e g' he => ?_⟩
  · obtain ⟨hdrawn, hfits⟩ := hplant.ok hp
    have hhidden : p.hidden.toArray.size = n := hfits.hidden
    refine ⟨hdrawn, congrArg _ hfits.hidden, ?_, fun c hc => ?_, ?_, fun v hv hle => ?_⟩
    · -- the first variable occurs, so there is a clause
      obtain ⟨c, hc, -⟩ := hfits.covers 1 (Nat.le_refl 1) (by omega)
      have hpos := List.length_pos_of_mem hc
      have hlength := hfits.length
      omega
    · have hplanted := hfits.planted c hc
      refine ⟨congrArg _ hplanted.length, hplanted.nodup, fun l hl => ?_⟩
      have hrange := hplanted.range l hl
      omega
    · exact List.all_eq_true.2 fun c hc => (hfits.planted c hc).holds
    · exact hfits.covers v hv (by omega)
  · refine (hplant.error he).imp_right fun hfail => ⟨hfail.1, ?_⟩
    have := hfail.2
    omega

/-- With a tape, three clauses of two literals are made out of three variables. -/
theorem plant_fits_of_three :
    SamplesWithin Tape (fun _ => False) ∧ (1 : Int) ≤ 2 ∧ (2 : Int) ≤ 3
      ∧ ∃ p g', plant 3 3 2 Tape.zero = .ok p g' ∧ p.clauses.length = 3
        ∧ (∀ c ∈ p.clauses, c.length = 2)
        ∧ (ofValues p.hidden.toArray).isSatisfied p.clauses = true
        ∧ ∃ c ∈ p.clauses, 3 ∈ c.map Int.natAbs := by
  have hE := samplesWithin_of_lawful Tape
  obtain ⟨hmade, hfails⟩ := plant_fits hE 3 (by decide : (1 : Int) ≤ 2)
    (by decide : (2 : Int) ≤ 3) Tape.zero
  refine ⟨hE, by decide, by decide, ?_⟩
  cases hp : plant 3 3 2 Tape.zero with
  | error e g' => exact absurd ((hfails e g' hp).resolve_left id).2 (by decide)
  | ok p g' =>
      obtain ⟨-, -, hlength, hclauses, hsat, hcovers⟩ := hmade p g' hp
      exact ⟨p, g', rfl, by omega, fun c hc => by have := (hclauses c hc).1; omega, hsat,
        hcovers 3 (by decide) (by decide)⟩

end LocalSat
