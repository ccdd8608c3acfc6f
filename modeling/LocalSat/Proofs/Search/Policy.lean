/-
Which flip is chosen, and by which questions.

* `harmless`, `leastHarmful`: the candidates that break nothing, and those that break least;
  `leastBreaking_eq`: a comparison with counts that stop early finds the latter;
* `plainChoice`: the choice by full counts; `chooseFlip_eq_plainChoice`: it is the same;
* `Chosen`: the questions by which a policy chooses a candidate, with their answers;
* `leads_chooseFlip_chosen`: a choice is made by these questions.
-/
import LocalSat.Proofs.Random.Replies
import LocalSat.Proofs.Search.Choice

namespace LocalSat

variable {α : Type}

/-! ### Candidates -/

/-- The candidates that break nothing. -/
def harmless (breaks : α → Nat) (candidates : List α) : List α :=
  candidates.filter fun v => breaks v == 0

/-- The candidates that break least. -/
def leastHarmful (breaks : α → Nat) (candidates : List α) : List α :=
  candidates.filter fun v => candidates.all fun w => decide (breaks v ≤ breaks w)

/-- The smallest of some counts, from `start` on. -/
def lowest (breaks : α → Nat) (start : Nat) (candidates : List α) : Nat :=
  candidates.foldl (fun k v => min k (breaks v)) start

/-- The smallest count is at most the one to start from and at most each of the others, and is
one of them. -/
lemma lowest_spec (breaks : α → Nat) (start : Nat) (candidates : List α) :
    lowest breaks start candidates ≤ start
      ∧ (∀ v ∈ candidates, lowest breaks start candidates ≤ breaks v)
      ∧ (lowest breaks start candidates = start
        ∨ ∃ v ∈ candidates, lowest breaks start candidates = breaks v) := by
  induction candidates generalizing start with
  | nil => exact ⟨Nat.le_refl start, by simp, .inl rfl⟩
  | cons v vs ih =>
      have hstep : lowest breaks start (v :: vs) = lowest breaks (min start (breaks v)) vs := rfl
      obtain ⟨hle, hall, hone⟩ := ih (min start (breaks v))
      rw [hstep]
      refine ⟨Nat.le_trans hle (Nat.min_le_left ..), ?_, ?_⟩
      · intro w hw
        obtain rfl | hw := List.mem_cons.1 hw
        · exact Nat.le_trans hle (Nat.min_le_right ..)
        · exact hall w hw
      · rcases hone with hone | ⟨w, hw, hone⟩
        · rcases Nat.le_total start (breaks v) with h | h
          · exact .inl (hone.trans (Nat.min_eq_left h))
          · exact .inr ⟨v, List.mem_cons_self, hone.trans (Nat.min_eq_right h)⟩
        · exact .inr ⟨w, List.mem_cons_of_mem v hw, hone⟩

/-- A comparison with counts that stop one above the smallest count so far finds the smallest
count, and all candidates that have it. -/
lemma leastBreaking_eq {count : α → Nat → Except Fault Nat} {breaks : α → Nat}
    (h : ∀ v k, count v k = .ok (min (breaks v) (k + 1))) (least : Nat) (ties vs : List α) :
    leastBreaking count least ties vs = .ok (lowest breaks least vs,
      (if lowest breaks least vs = least then ties else [])
        ++ vs.filter fun v => breaks v == lowest breaks least vs) := by
  induction vs generalizing least ties with
  | nil => simp [leastBreaking, lowest]
  | cons v vs ih =>
      have hstep : lowest breaks least (v :: vs) = lowest breaks (min least (breaks v)) vs := rfl
      have hle := (lowest_spec breaks (min least (breaks v)) vs).1
      rw [leastBreaking_of_ok (h v least), hstep]
      simp only [List.filter_cons, beq_iff_eq]
      rcases Nat.lt_trichotomy (breaks v) least with hv | hv | hv
      · -- the candidate breaks less than all before it, which are dropped
        have hmin : min least (breaks v) = breaks v := by omega
        have hcut : min (breaks v) (least + 1) = breaks v := by omega
        rw [hcut, if_pos hv, ih, hmin]
        rw [hmin] at hle
        rw [if_neg (by omega : ¬lowest breaks (breaks v) vs = least), List.nil_append]
        by_cases heq : breaks v = lowest breaks (breaks v) vs
        · rw [if_pos heq.symm, if_pos heq, List.singleton_append]
        · rw [if_neg (Ne.symm heq), if_neg heq, List.nil_append]
      · have hmin : min least (breaks v) = least := by omega
        have hcut : min (breaks v) (least + 1) = least := by omega
        rw [hcut, if_neg (by omega), if_pos rfl, ih, hmin, hv]
        by_cases heq : lowest breaks least vs = least
        · rw [if_pos heq, if_pos heq, if_pos heq.symm, List.append_assoc, List.singleton_append]
        · rw [if_neg heq, if_neg heq, if_neg (Ne.symm heq)]
      · have hmin : min least (breaks v) = least := by omega
        have hcut : min (breaks v) (least + 1) = least + 1 := by omega
        rw [hmin] at hle
        rw [hcut, if_neg (by omega), if_neg (by omega), ih, hmin,
          if_neg (by omega : ¬breaks v = lowest breaks least vs)]

/-- The smallest count is that of a candidate, if there are candidates and none has more than
the count to start from. -/
lemma exists_breaks_eq_lowest {breaks : α → Nat} {start : Nat} {candidates : List α}
    (hne : candidates ≠ []) (hstart : ∀ v ∈ candidates, breaks v ≤ start) :
    ∃ v ∈ candidates, breaks v = lowest breaks start candidates := by
  obtain ⟨-, hall, hone⟩ := lowest_spec breaks start candidates
  rcases hone with hone | ⟨v, hv, hone⟩
  · obtain ⟨v, hv⟩ := List.exists_mem_of_ne_nil candidates hne
    refine ⟨v, hv, Nat.le_antisymm ?_ (hall v hv)⟩
    rw [hone]
    exact hstart v hv
  · exact ⟨v, hv, hone.symm⟩

/-- The candidates that break least are those with the smallest count, if none has more than
the count to start from. -/
lemma leastHarmful_eq {breaks : α → Nat} {start : Nat} {candidates : List α}
    (hstart : ∀ v ∈ candidates, breaks v ≤ start) :
    leastHarmful breaks candidates
      = candidates.filter fun v => breaks v == lowest breaks start candidates := by
  by_cases hne : candidates = []
  · rw [hne]
    rfl
  have hall := (lowest_spec breaks start candidates).2.1
  obtain ⟨w, hw, hbreaks⟩ := exists_breaks_eq_lowest hne hstart
  refine List.filter_congr fun v hv => ?_
  rw [Bool.eq_iff_iff, List.all_eq_true, beq_iff_eq]
  simp only [decide_eq_true_eq]
  constructor
  · intro h
    exact Nat.le_antisymm (hbreaks ▸ h w hw) (hall v hv)
  · intro h u hu
    rw [h]
    exact hall u hu

/-- Some candidates break least, if there are candidates and none has more than the count to start
from. -/
lemma leastHarmful_ne_nil {breaks : α → Nat} {start : Nat} {candidates : List α}
    (hne : candidates ≠ []) (hstart : ∀ v ∈ candidates, breaks v ≤ start) :
    leastHarmful breaks candidates ≠ [] := by
  obtain ⟨v, hv, hleast⟩ := exists_breaks_eq_lowest hne hstart
  rw [leastHarmful_eq hstart]
  exact List.ne_nil_of_mem (List.mem_filter.2 ⟨hv, by simpa using hleast⟩)

/-- Where some candidate breaks nothing, those that break least are those that break
nothing. -/
lemma leastHarmful_eq_harmless {breaks : α → Nat} {candidates : List α}
    (h : ∃ v ∈ candidates, breaks v = 0) :
    leastHarmful breaks candidates = harmless breaks candidates := by
  obtain ⟨w, hw, hzero⟩ := h
  refine List.filter_congr fun v _ => ?_
  rw [Bool.eq_iff_iff, List.all_eq_true, beq_iff_eq]
  simp only [decide_eq_true_eq]
  constructor
  · intro hall
    have := hall w hw
    omega
  · intro hv u _
    omega

/-! ### The plain choice -/

section

variable {γ : Type} [RandomSource γ]

/-- A random one of some candidates, for a flip of some kind. -/
def drawn (members : List α) (move : Move) : EStateM Fault γ (α × Move) := do
  let v ← RandomSource.pickMember members
  pure (v, move)

/-- The choice of a flip by the full counts of all candidates. With the policy for it, one of
those that break least is taken at once if they break nothing, and without a question if there
is just one. Otherwise a coin decides between all candidates and those that break least. -/
def plainChoice (policy : Policy) (breaks : α → Nat) (candidates : List α) :
    EStateM Fault γ (α × Move) :=
  let best := leastHarmful breaks candidates
  if policy.zeroBreakFirst = true ∧ ∃ v ∈ candidates, breaks v = 0 then
    match best with
    | [v] => pure (v, .zeroBreak)
    | _ => drawn best .zeroBreak
  else do
    let heads ← RandomSource.coin policy.noise
    if heads then drawn candidates .noise else drawn best .greedy

/-- The choice among candidates that break nothing asks no question if there is just one. -/
lemma zeroBreakMove_eq (ties : List α) :
    (zeroBreakMove ties : EStateM Fault γ (α × Move)) = match ties with
      | [v] => pure (v, .zeroBreak)
      | _ => drawn ties .zeroBreak := by
  obtain _ | ⟨v, _ | ⟨w, vs⟩⟩ := ties <;> rfl

/-- A choice by counts that stop early is the plain choice, if there are candidates and none
breaks more than the count to start from. -/
lemma chooseFlip_eq_plainChoice (policy : Policy) {breaks : α → Nat} {candidates : List α}
    {count : α → Nat → Except Fault Nat} {start : Nat} (hne : candidates ≠ [])
    (hcount : ∀ v k, count v k = .ok (min (breaks v) (k + 1)))
    (hstart : ∀ v ∈ candidates, breaks v ≤ start) :
    (chooseFlip policy count start candidates : EStateM Fault γ (α × Move))
      = plainChoice policy breaks candidates := by
  have hties : (tiesOf count start candidates : EStateM Fault γ (Nat × List α))
      = pure (lowest breaks start candidates, leastHarmful breaks candidates) := by
    rw [tiesOf, leastBreaking_eq hcount, leastHarmful_eq hstart, ite_self, List.nil_append]
  have hzero : lowest breaks start candidates = 0 ↔ ∃ v ∈ candidates, breaks v = 0 := by
    constructor
    · intro h
      obtain ⟨v, hv, hbreaks⟩ := exists_breaks_eq_lowest hne hstart
      exact ⟨v, hv, hbreaks.trans h⟩
    · rintro ⟨v, hv, hbreaks⟩
      have hle := (lowest_spec breaks start candidates).2.1 v hv
      omega
  rw [chooseFlip, plainChoice, hties]
  simp only [pure_bind, ← hzero, ← zeroBreakMove_eq]
  cases policy.zeroBreakFirst with
  | false => rfl
  | true => by_cases h : lowest breaks start candidates = 0 <;> simp only [h, if_true] <;> rfl

end

/-! ### Choices -/

/-- A policy chooses a candidate for a flip of some kind. The questions to the source are
given with their answers. -/
inductive Chosen (policy : Policy) (breaks : α → Nat) (candidates : List α) :
    List Reply → α → Move → Prop where
  /-- The coin shows heads, and one of all candidates is taken. -/
  | noise {i : Nat} {v : α} :
      (policy.zeroBreakFirst = true → harmless breaks candidates = []) →
      candidates[i]? = some v →
      Chosen policy breaks candidates
        [.coin policy.noise true, .index candidates.length i] v .noise
  /-- The coin shows tails, and one of those that break least is taken. -/
  | greedy {i : Nat} {v : α} :
      (policy.zeroBreakFirst = true → harmless breaks candidates = []) →
      (leastHarmful breaks candidates)[i]? = some v →
      Chosen policy breaks candidates
        [.coin policy.noise false, .index (leastHarmful breaks candidates).length i] v .greedy
  /-- The only candidate that breaks nothing is taken without a question. -/
  | sole {v : α} :
      policy.zeroBreakFirst = true → harmless breaks candidates = [v] →
      Chosen policy breaks candidates [] v .zeroBreak
  /-- One of several candidates that break nothing is taken. -/
  | several {i : Nat} {v : α} :
      policy.zeroBreakFirst = true → 2 ≤ (harmless breaks candidates).length →
      (harmless breaks candidates)[i]? = some v →
      Chosen policy breaks candidates
        [.index (harmless breaks candidates).length i] v .zeroBreak

/-- What is chosen is a candidate. -/
lemma Chosen.mem {policy : Policy} {breaks : α → Nat} {candidates : List α}
    {replies : List Reply} {v : α} {move : Move}
    (h : Chosen policy breaks candidates replies v move) : v ∈ candidates := by
  cases h with
  | noise _ hv => exact List.mem_of_getElem? hv
  | greedy _ hv => exact (List.mem_filter.1 (List.mem_of_getElem? hv)).1
  | sole _ hv =>
      have hmem : v ∈ harmless breaks candidates := hv ▸ List.mem_singleton_self v
      exact (List.mem_filter.1 hmem).1
  | several _ _ hv => exact (List.mem_filter.1 (List.mem_of_getElem? hv)).1

/-- Only with the policy for it a flip is one that breaks nothing and is made first. -/
lemma Chosen.ne_zeroBreak {policy : Policy} {breaks : α → Nat} {candidates : List α}
    {replies : List Reply} {v : α} {move : Move}
    (h : Chosen policy breaks candidates replies v move)
    (hoff : policy.zeroBreakFirst = false) : move ≠ .zeroBreak := by
  cases h with
  | noise | greedy => exact Move.noConfusion
  | sole hon => simp [hoff] at hon
  | several hon => simp [hoff] at hon

/-- A flip that is made first since it breaks nothing does so. -/
lemma Chosen.breaks_eq_zero {policy : Policy} {breaks : α → Nat} {candidates : List α}
    {replies : List Reply} {v : α} (h : Chosen policy breaks candidates replies v .zeroBreak) :
    breaks v = 0 := by
  have hmem : v ∈ harmless breaks candidates := by
    cases h with
    | sole _ hv => exact hv ▸ List.mem_singleton_self v
    | several _ _ hv => exact List.mem_of_getElem? hv
  simpa using (List.mem_filter.1 hmem).2

/-- Each flip but those that break nothing and are made first asks for one coin. -/
lemma Chosen.countP_isCoin {policy : Policy} {breaks : α → Nat} {candidates : List α}
    {replies : List Reply} {v : α} {move : Move}
    (h : Chosen policy breaks candidates replies v move) :
    replies.countP Reply.isCoin = if move = .zeroBreak then 0 else 1 := by
  cases h <;> rfl

section

variable {γ : Type} [RandomSource γ] {policy : Policy} {breaks : α → Nat}
  {candidates : List α}

/-- A random one of some candidates is chosen by one question. -/
lemma leads_drawn (members : List α) (move : Move) (g : γ) :
    Leads (drawn members move) g
      (fun chosen g' => chosen.2 = move ∧ ∃ i, members[i]? = some chosen.1
        ∧ Replies g [.index members.length i] g') fun _ _ => True := by
  rw [drawn, leads_bind]
  exact (leads_pickMember_replies members g).mono (fun _ _ h => ⟨rfl, h⟩) fun _ _ => id

/-- The plain choice is made by the questions of its policy. -/
lemma leads_plainChoice (policy : Policy) (breaks : α → Nat) (candidates : List α) (g : γ) :
    Leads (plainChoice policy breaks candidates) g
      (fun chosen g' => ∃ qs, Replies g qs g' ∧
        Chosen policy breaks candidates qs chosen.1 chosen.2) fun _ _ => True := by
  rw [plainChoice, leads_ite]
  split
  · next h =>
    obtain ⟨hon, hzero⟩ := h
    rw [leastHarmful_eq_harmless hzero]
    split
    · next v hbest => exact ⟨[], .nil g, .sole hon hbest⟩
    · next hbest =>
      have hlength : 2 ≤ (harmless breaks candidates).length := by
        obtain ⟨v, hv, hbreaks⟩ := hzero
        have hmem : v ∈ harmless breaks candidates := List.mem_filter.2 ⟨hv, by simpa using hbreaks⟩
        match hties : harmless breaks candidates with
        | [] => simp [hties] at hmem
        | [w] => exact absurd hties (hbest w)
        | _ :: _ :: _ => simp
      refine (leads_drawn _ _ g).mono ?_ fun _ _ => id
      rintro ⟨v, _⟩ g' ⟨rfl, i, hi, hreplies⟩
      exact ⟨_, hreplies, .several hon hlength hi⟩
  · next h =>
    have hnone : policy.zeroBreakFirst = true → harmless breaks candidates = [] := by
      intro hon
      refine List.filter_eq_nil_iff.2 fun v hv hbreaks => h ⟨hon, v, hv, ?_⟩
      simpa using hbreaks
    rw [leads_bind]
    cases hcoin : RandomSource.coin policy.noise g with
    | error e g' => exact (leads_of_error hcoin).2 trivial
    | ok heads g' =>
        rw [leads_of_ok hcoin]
        cases heads with
        | true =>
            refine (leads_drawn candidates .noise g').mono ?_ fun _ _ => id
            rintro ⟨v, _⟩ g'' ⟨rfl, i, hi, hreplies⟩
            exact ⟨_, .coin hcoin hreplies, .noise hnone hi⟩
        | false =>
            refine (leads_drawn (leastHarmful breaks candidates) .greedy g').mono ?_ fun _ _ => id
            rintro ⟨v, _⟩ g'' ⟨rfl, i, hi, hreplies⟩
            exact ⟨_, .coin hcoin hreplies, .greedy hnone hi⟩

/-- Without candidates nothing is chosen. -/
lemma leads_chooseFlip_nil (policy : Policy) (count : α → Nat → Except Fault Nat) (start : Nat)
    (g : γ) : Leads (chooseFlip policy count start []) g (fun _ _ => False) fun _ _ => True := by
  have hdrawn : ∀ move (g : γ), Leads (drawn ([] : List α) move) g (fun _ _ => False)
      fun _ _ => True := by
    intro move g
    refine (leads_drawn [] move g).mono ?_ fun _ _ => id
    rintro chosen g' ⟨-, i, hi, -⟩
    simp at hi
  have hcoin : ∀ g : γ, Leads (do
      let heads ← RandomSource.coin policy.noise
      if heads then drawn ([] : List α) .noise else drawn [] .greedy) g (fun _ _ => False)
      fun _ _ => True := by
    intro g
    rw [leads_bind]
    refine (leads_any _ g).mono (fun heads g' _ => ?_) fun _ _ => id
    cases heads
    · exact hdrawn .greedy g'
    · exact hdrawn .noise g'
  rw [chooseFlip, leads_ite]
  split
  · show Leads (if start = 0 then zeroBreakMove [] else _) g _ _
    rw [leads_ite]
    split
    · exact hdrawn .zeroBreak g
    · exact hcoin g
  · exact hcoin g

/-- A choice is made by the questions of its policy, when the counts are cut off as they may
be, and no candidate breaks more than the count to start from. -/
lemma leads_chooseFlip_chosen {count : α → Nat → Except Fault Nat} {start : Nat}
    (hcount : ∀ v k, count v k = .ok (min (breaks v) (k + 1)))
    (hstart : ∀ v ∈ candidates, breaks v ≤ start) (g : γ) :
    Leads (chooseFlip policy count start candidates) g
      (fun chosen g' => ∃ qs, Replies g qs g' ∧
        Chosen policy breaks candidates qs chosen.1 chosen.2) fun _ _ => True := by
  by_cases hne : candidates = []
  · rw [hne]
    exact (leads_chooseFlip_nil policy count start g).mono (fun _ _ => False.elim) fun _ _ => id
  · rw [chooseFlip_eq_plainChoice policy hne hcount hstart]
    exact leads_plainChoice policy breaks candidates g

end

end LocalSat
