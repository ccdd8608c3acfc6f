/-
Samplers that keep to what they are asked for.

* `SamplesWithin γ E`: indices lie inside of their sequences, and samples hold as many different
  numbers below their population as they are to hold; otherwise a sampler fails with faults in
  `E`;
* `samplesWithin_of_lawful`: a lawful sampler does not fail, and a tape is one;
* `perm_shuffleDown`, `nodup_pickDistinct`, `nodup_drawSample`: samples by the generator hold
  different numbers; `samplesWithin_pcg64`: the generator fails in one way only.
-/
import LocalSat.Proofs.Random.Faults
import LocalSat.Proofs.Random.Tape
import LocalSat.Random.Sample
import Mathlib.Data.List.Rotate

namespace LocalSat

/-- Sensible questions to a sampler are answered as they are asked, or fail with certain faults
only. -/
structure SamplesWithin (γ : Type) [Sampler γ] (E : Fault → Prop) : Prop
    extends FaultsWithin γ E where
  /-- An index into a sequence with at least one member is the index of a member. -/
  index : ∀ (length : Nat) (g : γ), 1 ≤ length →
    Leads (RandomSource.index length) g (fun i _ => i < length) fun e _ => E e
  /-- A sample that is no larger than its population holds as many different numbers as it is to
  hold, all of them below the population. -/
  sample : ∀ (population size : Nat) (g : γ), size ≤ population →
    Leads (Sampler.sample population size) g
      (fun members _ => members.length = size ∧ members.Nodup ∧ ∀ v ∈ members, v < population)
      fun e _ => E e

/-- A lawful sampler has no faults. -/
lemma samplesWithin_of_lawful (γ : Type) [Sampler γ] [LawfulSampler γ] :
    SamplesWithin γ fun _ => False where
  toFaultsWithin := faultsWithin_of_lawful γ
  index length g hlength := by
    obtain ⟨i, g', h, hi⟩ := LawfulSource.index_ok (length : Int) g (by omega)
    rw [leads_of_ok h]
    omega
  sample population size g hsize := by
    obtain ⟨members, g', h, hmembers⟩ := LawfulSampler.sample_ok population size g hsize
    exact (leads_of_ok h).2 hmembers

/-- A sample by a tape is a run of numbers from a random one on, after the last of which comes the
first. -/
instance : Sampler Tape where
  sample population size g :=
    .ok (((List.range population).rotate (g.indices 0)).take size.toNat)
      { g with indices := fun k => g.indices (k + 1) }

/-- Such a run holds no number twice. -/
instance : LawfulSampler Tape where
  sample_ok population size g hsize := by
    have hsub := List.take_sublist size ((List.range population).rotate (g.indices 0))
    refine ⟨_, _, rfl, ?_, ?_, fun v hv => ?_⟩
    · rw [Int.toNat_natCast, List.length_take, List.length_rotate, List.length_range,
        Nat.min_eq_left hsize]
    · exact (List.nodup_rotate.2 List.nodup_range).sublist hsub
    · exact List.mem_range.1 (List.mem_rotate.1 (hsub.subset hv))

/-! ### Samples by a generator -/

namespace Pcg64

/-- An exchange keeps the entries. -/
lemma perm_swapIfInBounds (a : Array Nat) (i j : Nat) :
    (a.swapIfInBounds i j).toList.Perm a.toList := by
  rw [Array.swapIfInBounds_def]
  split
  · split
    · exact Array.perm_iff_toList_perm.1 (Array.swap_perm _ _)
    · exact .refl _
  · exact .refl _

/-- Exchanges keep the entries. -/
lemma perm_shuffleDown (count top : Nat) (a : Array Nat) (g : Pcg64) :
    (shuffleDown count top a g).1.toList.Perm a.toList := by
  induction count generalizing top a g with
  | zero => exact .refl _
  | succ count ih => exact (ih _ _ _).trans (perm_swapIfInBounds a top _)

/-- Each step adds a number up to its own one that is no member yet. -/
lemma nodup_pickDistinct (count next : Nat) {a : Array Nat} (g : Pcg64)
    (ha : a.toList.Nodup) (hlt : ∀ v ∈ a.toList, v < next) :
    (pickDistinct count next a g).1.toList.Nodup
      ∧ ∀ v ∈ (pickDistinct count next a g).1.toList, v < next + count := by
  induction count generalizing next a g with
  | zero => exact ⟨ha, hlt⟩
  | succ count ih =>
      obtain ⟨v, hv⟩ : ∃ v, v = if a.contains (below (next + 1) g).1 then next
        else (below (next + 1) g).1 := ⟨_, rfl⟩
      have hstep : pickDistinct (count + 1) next a g
          = pickDistinct count (next + 1) (a.push v) (below (next + 1) g).2 := by
        rw [hv]
        rfl
      have hnew : v ≤ next ∧ v ∉ a.toList := by
        rw [hv]
        split
        · exact ⟨Nat.le_refl next, fun h => absurd (hlt next h) (by omega)⟩
        · next hnot =>
          have hlt : (below (next + 1) g).1 < next + 1 := below_lt (Nat.succ_pos next) g
          exact ⟨Nat.lt_succ_iff.1 hlt, by simpa using hnot⟩
      have hpush : (a.push v).toList.Nodup ∧ ∀ w ∈ (a.push v).toList, w < next + 1 := by
        rw [Array.toList_push, List.nodup_append, List.forall_mem_append,
          List.forall_mem_singleton]
        refine ⟨⟨ha, by simp, ?_⟩, fun w hw => Nat.lt_succ_of_lt (hlt w hw),
          by omega⟩
        rintro w hw _ hv' rfl
        rw [List.mem_singleton] at hv'
        exact hnew.2 (hv' ▸ hw)
      rw [hstep, show next + (count + 1) = next + 1 + count by omega]
      exact ih (next + 1) _ hpush.1 hpush.2

/-- A sample out of a population that is large enough holds different numbers of it. -/
lemma nodup_drawSample {population size : Nat} (h : size ≤ population) (g : Pcg64) :
    (drawSample population size g).1.toList.Nodup
      ∧ ∀ v ∈ (drawSample population size g).1.toList, v < population := by
  unfold drawSample
  split
  · -- the sample is a part of the shuffled population
    have hperm := perm_shuffleDown (min size (population - 1)) (population - 1)
      (Array.range population) g
    have hsub : ((shuffleDown (min size (population - 1)) (population - 1)
        (Array.range population) g).1.extract (population - size) population).toList.Sublist
        (shuffleDown (min size (population - 1)) (population - 1)
          (Array.range population) g).1.toList := by
      rw [Array.toList_extract, List.extract_eq_take_drop]
      exact (List.take_sublist _ _).trans (List.drop_sublist _ _)
    rw [Array.toList_range] at hperm
    refine ⟨(hperm.nodup_iff.2 List.nodup_range).sublist hsub, fun v hv => ?_⟩
    exact List.mem_range.1 (hperm.mem_iff.1 (hsub.subset hv))
  · obtain ⟨hnodup, hlt⟩ := nodup_pickDistinct size (population - size) g
      (a := #[]) List.nodup_nil (by simp)
    rw [Nat.sub_add_cancel h] at hlt
    have hperm := fun b => perm_shuffleDown (b.size - 1) (b.size - 1) b
      (pickDistinct size (population - size) #[] g).2
    exact ⟨(hperm _).nodup_iff.2 hnodup, fun v hv => hlt v ((hperm _).mem_iff.1 hv)⟩

end Pcg64

/-- The generator fails only when a list is too long for it. -/
lemma samplesWithin_pcg64 : SamplesWithin Pcg64 fun e => e = .wideChoice where
  toFaultsWithin := faultsWithin_pcg64
  index length g hlength := by
    show Leads (Pcg64.index length) g _ _
    rw [Leads, Pcg64.index, if_neg (by omega)]
    by_cases hwide : Number.twoPow 63 < length
    · rw [if_pos (by exact_mod_cast hwide)]
    · rw [if_neg (by exact_mod_cast hwide)]
      simpa using Pcg64.below_lt hlength g
  sample population size g hsize := by
    show Leads (Pcg64.sample population size) g _ _
    rw [Leads, Pcg64.sample, if_neg (by omega), if_neg (by omega)]
    exact ⟨Pcg64.size_drawSample hsize g, Pcg64.nodup_drawSample hsize g⟩

end LocalSat
