/-
Traces that can be replayed.

* `signsOf`, `Alternates`: the signs of the literals of a variable, and the traces in which those
  of every variable alternate, beginning with the opposite of its value;
* `toggled`: the values after as many changes of each variable as it has literals;
* `replayStep_eq`, `alternates_cons`, `toggled_cons`: what a step asks for, and what it changes;
* `replayFrom_of_alternates`, `replayFrom_of_not_alternates`: such traces are replayed, and every
  other one fails at its first step that does not alternate;
* `Fault.later`, `replayEntries_append`: traces one after the other, where a failure in the second
  one names a later step;
* `replay_alternates`: all of these together.
-/
import LocalSat.Proofs.Trace.Replay
import Mathlib.Order.Bounds.Basic

namespace LocalSat

/-! ### Traces by variable -/

/-- The signs of the literals of the variable with a given number, in order. -/
def signsOf (number : Nat) (literals : List Int) : List Bool :=
  (literals.filter fun l => l.natAbs = number).map fun l => decide (0 < l)

/-- The signs of each variable alternate, and the first of them is the opposite of its value. -/
def Alternates (values : Array Bool) (literals : List Int) : Prop :=
  ∀ (v : Nat) (hv : v < values.size),
    (values[v] :: signsOf (v + 1) literals).IsChain fun x y => x ≠ y

/-- The values after as many changes of each variable as it has literals. -/
def toggled (values : Array Bool) (literals : List Int) : Array Bool :=
  values.mapIdx fun v x => not^[literals.countP fun l => l.natAbs = v + 1] x

section

variable {values : Array Bool} {v : Nat} {l : Int} {ls : List Int}

/-- A literal comes first among the signs of its variable. -/
lemma signsOf_cons_self (h : l.natAbs = v + 1) :
    signsOf (v + 1) (l :: ls) = decide (0 < l) :: signsOf (v + 1) ls := by
  rw [signsOf, List.filter_cons_of_pos (by simpa using h)]
  rfl

/-- It is not among the signs of another variable. -/
lemma signsOf_cons_of_ne (h : l.natAbs ≠ v + 1) :
    signsOf (v + 1) (l :: ls) = signsOf (v + 1) ls := by
  rw [signsOf, List.filter_cons_of_neg (by simpa using h)]
  rfl

/-- The signs of every variable alternate when the first literal changes the value of its variable
and the others alternate after that. -/
lemma alternates_cons (hv : v < values.size) (h : l.natAbs = v + 1) :
    Alternates values (l :: ls)
      ↔ values[v] ≠ decide (0 < l) ∧ Alternates (values.set v (decide (0 < l)) hv) ls := by
  -- only the signs of the variable of the literal are others than before
  have hself : (values[v] :: signsOf (v + 1) (l :: ls)).IsChain (fun x y => x ≠ y)
      ↔ values[v] ≠ decide (0 < l)
        ∧ (decide (0 < l) :: signsOf (v + 1) ls).IsChain fun x y => x ≠ y := by
    rw [signsOf_cons_self h, List.isChain_cons_cons]
  constructor
  · intro hall
    obtain ⟨hne, hrest⟩ := hself.1 (hall v hv)
    refine ⟨hne, fun w hw => ?_⟩
    rw [Array.getElem_set]
    split
    · next heq => exact heq ▸ hrest
    · next hvw =>
      rw [Array.size_set] at hw
      have hw' := hall w hw
      rwa [signsOf_cons_of_ne (by omega)] at hw'
  · rintro ⟨hne, hall⟩ w hw
    have hw' := hall w (by simpa using hw)
    rw [Array.getElem_set] at hw'
    split at hw'
    · next heq =>
      subst heq
      exact hself.2 ⟨hne, hw'⟩
    · next hvw => rwa [signsOf_cons_of_ne (by omega)]

/-- Changing the value of the variable of a literal counts as one change. -/
lemma toggled_cons (hv : v < values.size) (h : l.natAbs = v + 1) :
    toggled values (l :: ls) = toggled (values.set v (!values[v]) hv) ls := by
  apply Array.ext
  · simp [toggled]
  · intro w hw _
    simp only [toggled, Array.getElem_mapIdx, Array.getElem_set]
    by_cases hvw : v = w
    · subst hvw
      rw [List.countP_cons_of_pos (by simpa using h), if_pos rfl, Function.iterate_succ_apply]
    · rw [List.countP_cons_of_neg (by simp; omega), if_neg hvw]

/-- A step of a replay asks for the other value of its variable, and changes it. -/
lemma replayStep_eq (hv : v < values.size) (h : l.natAbs = v + 1) (step : Nat) :
    replayStep Cells.bools step values l =
      if values[v] = decide (0 < l) then .error (.redundantFlip step l.natAbs)
      else .ok (values.set v (decide (0 < l)) hv) := by
  have hplace : placeOf l = (v : Int) := by
    rw [placeOf]
    omega
  have hindex : SignedIndex.ofInt? values.size (v : Int) = some (.ofFin ⟨v, hv⟩) := by
    rw [SignedIndex.ofInt?, dif_pos (by omega)]
    rfl
  rw [replayStep, hplace, hindex]
  show (if (values[v] == decide (0 < l)) = true then _ else _) = _
  simp only [beq_iff_eq]
  rfl

end

/-! ### Replays of traces -/

section

variable {values : Array Bool} {ls : List Int}

/-- The literal of a variable that there is has the number after the place of the variable. -/
lemma exists_place {count : Nat} {l : Int} (hzero : l ≠ 0) (hle : l.natAbs ≤ count) :
    ∃ v < count, l.natAbs = v + 1 :=
  ⟨l.natAbs - 1, by omega, by omega⟩

/-- A trace that alternates is replayed, and changes each variable once for each literal of it. -/
lemma replayFrom_of_alternates (hls : ∀ l ∈ ls, l ≠ 0 ∧ l.natAbs ≤ values.size)
    (h : Alternates values ls) (step : Nat) :
    replayFrom Cells.bools step values ls = .ok (toggled values ls) := by
  induction ls generalizing values step with
  | nil =>
      rw [replayFrom, toggled]
      exact congrArg Except.ok (Array.ext (by simp) fun _ _ _ => by simp)
  | cons l ls ih =>
      obtain ⟨⟨hzero, hle⟩, hls⟩ := List.forall_mem_cons.1 hls
      obtain ⟨v, hv, hl⟩ := exists_place hzero hle
      obtain ⟨hne, hrest⟩ := (alternates_cons hv hl).1 h
      have hsign : decide (0 < l) = !values[v] := Bool.eq_not.2 hne.symm
      rw [hsign] at hrest
      rw [replayFrom, replayStep_eq hv hl, if_neg hne, hsign, toggled_cons hv hl]
      exact ih (by simpa using hls) hrest (step + 1)

/-- Every other trace fails at its first step that does not alternate. -/
lemma replayFrom_of_not_alternates (hls : ∀ l ∈ ls, l ≠ 0 ∧ l.natAbs ≤ values.size)
    (h : ¬Alternates values ls) (step : Nat) :
    ∃ k l, ls[k]? = some l ∧ IsLeast {k | ¬Alternates values (ls.take (k + 1))} k
      ∧ replayFrom Cells.bools step values ls = .error (.redundantFlip (step + k) l.natAbs) := by
  induction ls generalizing values step with
  | nil => exact absurd (fun _ _ => .singleton _) h
  | cons l ls ih =>
      obtain ⟨⟨hzero, hle⟩, hls⟩ := List.forall_mem_cons.1 hls
      obtain ⟨v, hv, hl⟩ := exists_place hzero hle
      rw [replayFrom, replayStep_eq hv hl]
      by_cases heq : values[v] = decide (0 < l)
      · refine ⟨0, l, rfl, ⟨fun halt => ?_, fun _ _ => Nat.zero_le _⟩, by rw [if_pos heq]; rfl⟩
        exact ((alternates_cons hv hl).1 halt).1 heq
      · have hcons : ∀ ms, Alternates values (l :: ms)
            ↔ Alternates (values.set v (decide (0 < l)) hv) ms := fun ms => by
          rw [alternates_cons hv hl, and_iff_right heq]
        rw [hcons] at h
        obtain ⟨k, m, hm, ⟨hk, hleast⟩, hrun⟩ := ih (by simpa using hls) h (step + 1)
        refine ⟨k + 1, m, hm, ⟨fun halt => hk ((hcons _).1 halt), fun j hj => ?_⟩, ?_⟩
        · cases j with
          | zero => exact absurd ((hcons []).2 fun _ _ => .singleton _) hj
          | succ j => exact Nat.succ_le_succ (hleast fun halt => hj ((hcons _).2 halt))
        · rw [if_neg heq, Nat.add_comm k 1, ← Nat.add_assoc]
          exact hrun

end

/-! ### Traces one after the other -/

/-- A failure that names a step, with more steps before that one. -/
def Fault.later (steps : Nat) : Fault → Fault
  | redundantFlip step number => redundantFlip (step + steps) number
  | e => e

section

variable {α : Type} (cells : Cells α)

/-- Later steps fail alike, with a later step in the failure. -/
lemma replayFrom_add (step k : Nat) (values : Array α) (ls : List Int) :
    replayFrom cells (step + k) values ls
      = (replayFrom cells step values ls).mapError (Fault.later k) := by
  have hstep : ∀ (step : Nat) (values : Array α) (l : Int), replayStep cells (step + k) values l
      = (replayStep cells step values l).mapError (Fault.later k) := by
    intro step values l
    rw [replayStep, replayStep]
    split
    · rfl
    · dsimp only
      split <;> rfl
  induction ls generalizing step values with
  | nil => rfl
  | cons l ls ih =>
      simp only [replayFrom, hstep]
      cases replayStep cells step values l with
      | error e => rfl
      | ok values' =>
          rw [Nat.add_right_comm]
          exact ih (step + 1) values'

/-- The literals of entries, up to the first one that is no pair, are those of the first entries,
and those of the others if all of these are pairs. -/
lemma entryLiterals_append (a b : List Entry) :
    entryLiterals (a ++ b) = match (entryLiterals a).2 with
      | some e => ((entryLiterals a).1, some e)
      | none => ((entryLiterals a).1 ++ (entryLiterals b).1, (entryLiterals b).2) := by
  induction a with
  | nil => rfl
  | cons e a ih =>
      rw [List.cons_append, entryLiterals, entryLiterals]
      split
      · rw [ih]
        dsimp only
        split <;> rfl
      · rfl

/-- Entries that are all pairs have as many literals. -/
lemma length_entryLiterals {entries : List Entry} (h : (entryLiterals entries).2 = none) :
    (entryLiterals entries).1.length = entries.length := by
  induction entries with
  | nil => rfl
  | cons e entries ih =>
      rw [entryLiterals] at h ⊢
      split
      · next l hl =>
        rw [hl] at h
        exact congrArg (· + 1) (ih h)
      · next hfailure =>
        rw [hfailure] at h
        cases h

/-- The failure of a value that is no pair of a kind and a literal names no step. -/
lemma later_of_literal {first : Entry} {e : Fault}
    (h : (first.pair.bind fun p => Entry.literal p.2) = .error e) (k : Nat) : e.later k = e := by
  cases hpair : first.pair with
  | error f =>
      rw [hpair] at h
      cases h
      unfold Entry.pair at hpair
      split at hpair <;> cases hpair <;> rfl
  | ok p =>
      rw [hpair] at h
      replace h : Entry.literal p.2 = .error e := h
      unfold Entry.literal at h
      split at h <;> cases h
      rfl

/-- The failure of an entry that is no pair names no step. -/
lemma later_of_entryLiterals {entries : List Entry} {e : Fault}
    (h : (entryLiterals entries).2 = some e) (k : Nat) : e.later k = e := by
  induction entries with
  | nil => cases h
  | cons first entries ih =>
      rw [entryLiterals] at h
      split at h
      · exact ih h
      · next hfailure =>
        cases h
        exact later_of_literal hfailure k

/-- Entries are replayed by their literals, and the failure of one that is no pair comes last. -/
lemma replayEntries_eq (values : Array α) (entries : List Entry) :
    replayEntries cells values entries =
      (replayFrom cells 0 values (entryLiterals entries).1).bind fun values' =>
        match (entryLiterals entries).2 with
        | some e => .error e
        | none => .ok values' := rfl

/-- Entries are replayed one after the other: a failure in the first ones is one of all, and one in
the others names a step that comes later by the number of the first ones. -/
lemma replayEntries_append (values : Array α) (a b : List Entry) :
    replayEntries cells values (a ++ b) =
      (replayEntries cells values a).bind fun values' =>
        (replayEntries cells values' b).mapError (Fault.later a.length) := by
  rw [replayEntries_eq, replayEntries_eq, entryLiterals_append]
  cases ha : (entryLiterals a).2 with
  | some e =>
      dsimp only
      cases replayFrom cells 0 values (entryLiterals a).1 <;> rfl
  | none =>
      dsimp only
      rw [replayFrom_append, ← length_entryLiterals ha]
      cases replayFrom cells 0 values (entryLiterals a).1 with
      | error e => rfl
      | ok values' =>
          show (replayFrom cells (0 + (entryLiterals a).1.length) values' _).bind _
            = (replayEntries cells values' b).mapError _
          rw [replayFrom_add, replayEntries_eq]
          cases replayFrom cells 0 values' (entryLiterals b).1 with
          | error e => rfl
          | ok final =>
              cases hb : (entryLiterals b).2 with
              | none => rfl
              | some e => exact congrArg Except.error (later_of_entryLiterals hb _).symm

end

/-! ### Traces that alternate -/

instance (values : Array Bool) (literals : List Int) : Decidable (Alternates values literals) :=
  inferInstanceAs (Decidable (∀ (v : Nat) (hv : v < values.size),
    (values[v] :: signsOf (v + 1) literals).IsChain fun x y => x ≠ y))

/-- **The traces that alternate can be replayed.** Let the literals of some entries be of variables
that there are, whatever the kinds of the entries are. They are replayed if and only if the signs
of each variable alternate, beginning with the opposite of its value. Then each variable ends with
its value toggled once for each entry of it. Otherwise the replay fails, and names the first step
with which the signs do not alternate and its variable. Entries of any kind are replayed one after
the other: a failure in the first ones is one of all, and one in the others is one of all at a step
that comes later by the number of the first ones. -/
theorem replay_alternates :
    (∀ (values : Array Bool) (events : List (Json × Int)),
      (∀ p ∈ events, p.2 ≠ 0 ∧ p.2.natAbs ≤ values.size) →
      let literals := events.map fun p => p.2
      let result := replayEntries Cells.bools values (events.map fun p => .ofParts p.1 p.2)
      ((∃ final, result = .ok final) ↔ Alternates values literals)
        ∧ (∀ final, result = .ok final → final = toggled values literals)
        ∧ ∀ e, result = .error e → ∃ step l, literals[step]? = some l
          ∧ IsLeast {k | ¬Alternates values (literals.take (k + 1))} step
          ∧ e = .redundantFlip step l.natAbs
          ∧ e.message = "Flip " ++ toString step ++ " sets variable " ++
              Number.intString l.natAbs ++ " to the value it already has")
      ∧ ∀ {α : Type} (cells : Cells α) (values : Array α) (a b : List Entry),
        replayEntries cells values (a ++ b) =
          match replayEntries cells values a with
          | .error e => .error e
          | .ok values' => (replayEntries cells values' b).mapError (Fault.later a.length) := by
  constructor
  · intro values events hevents literals result
    have hliterals : ∀ l ∈ literals, l ≠ 0 ∧ l.natAbs ≤ values.size := by
      intro l hl
      obtain ⟨p, hp, rfl⟩ := List.mem_map.1 hl
      exact hevents p hp
    have hresult : result = replayFrom Cells.bools 0 values literals := by
      subst result
      rw [replayEntries_eq, entryLiterals_ofParts]
      cases replayFrom Cells.bools 0 values literals <;> rfl
    by_cases h : Alternates values literals
    · have hok := hresult.trans (replayFrom_of_alternates hliterals h 0)
      refine ⟨⟨fun _ => h, fun _ => ⟨_, hok⟩⟩, fun final hfinal => ?_, fun e he => ?_⟩
      · exact (Except.ok.inj (hok.symm.trans hfinal)).symm
      · cases hok.symm.trans he
    · obtain ⟨step, l, hl, hleast, hrun⟩ := replayFrom_of_not_alternates hliterals h 0
      rw [Nat.zero_add] at hrun
      have herror := hresult.trans hrun
      refine ⟨⟨fun ⟨_, hok⟩ => ?_, fun halt => absurd halt h⟩, fun final hok => ?_, fun e he => ?_⟩
      · cases herror.symm.trans hok
      · cases herror.symm.trans hok
      · cases herror.symm.trans he
        exact ⟨step, l, hl, hleast, rfl, rfl⟩
  · intro α cells values a b
    rw [replayEntries_append]
    cases replayEntries cells values a <;> rfl

/-- Three flips of two variables are replayed. When two more follow, the second of these sets its
variable to the value that the second flip has given it. -/
theorem replay_alternates_of_late_repeat :
    let entries : List Int → List Entry := List.map fun l => .ofParts (.str "G") l
    replayEntries Cells.bools #[true, false, true] (entries [-1, 2, 1]) = .ok #[true, true, true]
      ∧ replayEntries Cells.bools #[true, true, true] (entries [-3, 2])
        = .error (.redundantFlip 1 2)
      ∧ replayEntries Cells.bools #[true, false, true] (entries [-1, 2, 1] ++ entries [-3, 2])
        = .error (.redundantFlip 4 2) := by
  intro entries
  obtain ⟨halternates, happend⟩ := replay_alternates
  have hfirst : replayEntries Cells.bools #[true, false, true] (entries [-1, 2, 1])
      = .ok #[true, true, true] := by
    obtain ⟨hiff, htoggled, -⟩ := halternates #[true, false, true]
      ([-1, 2, 1].map fun l => (.str "G", l)) (by simp)
    obtain ⟨final, hfinal⟩ := hiff.2 (by decide +kernel)
    rw [htoggled final hfinal] at hfinal
    exact hfinal
  have hsecond : replayEntries Cells.bools #[true, true, true] (entries [-3, 2])
      = .error (.redundantFlip 1 2) := by
    obtain ⟨hiff, -, hfault⟩ := halternates #[true, true, true]
      ([-3, 2].map fun l => (.str "G", l)) (by simp)
    cases hrun : replayEntries Cells.bools #[true, true, true] (entries [-3, 2]) with
    | ok final => exact absurd (hiff.1 ⟨final, hrun⟩) (by decide +kernel)
    | error e =>
        obtain ⟨step, l, hl, ⟨hstep, hleast⟩, rfl, -⟩ := hfault e hrun
        have hle : step ≤ 1 := hleast (by decide +kernel : ¬Alternates _ _)
        have hne : step ≠ 0 := by
          rintro rfl
          exact hstep (by decide +kernel)
        obtain rfl : step = 1 := by omega
        cases hl
        rfl
  refine ⟨hfirst, hsecond, ?_⟩
  rw [happend, hfirst]
  exact congrArg (Except.mapError (Fault.later 3)) hsecond

end LocalSat
