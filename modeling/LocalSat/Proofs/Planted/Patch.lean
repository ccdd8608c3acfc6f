/-
Patches keep clauses planted and variables used.

* `occurrenceCount cs v`: how often a variable number occurs in clauses; `Counts t cs`: a table
  holds these numbers; `counts_ofClauses`, `contains_ofClauses`: so does the one that is made
  from the clauses;
* `blockedCount`: how many clauses there are with a variable that occurs once only, at most as many
  as there are such variables, `onceVariables`;
* `spareIndices_eq`: the clauses of which every variable occurs elsewhere or again, which are those
  that are not blocked: `exists_spareIndices`;
* `Patching.exchanged`, `leads_patch`: what a patch does, and how it fails;
* `Patching.Sane`: the invariant of patching; `Sane.blockedCount_lt`: while a variable is missing,
  there are fewer blocked clauses than variables; `Sane.leads_patch`, `leads_patchAll`: a patch
  keeps the invariant and makes one variable less missing, and so do many.
-/
import LocalSat.Planted.Patch
import LocalSat.Proofs.Planted.Clause
import Mathlib.Data.List.Nodup
import Mathlib.Data.List.Perm.Basic

namespace LocalSat

/-! ### Occurrences -/

/-- How often a variable number occurs in some clauses. -/
def occurrenceCount (cs : List (List Int)) (v : Int) : Nat :=
  cs.flatten.countP fun l => (l.natAbs : Int) == v

/-- A number occurs exactly if it is that of a literal. -/
lemma occurrenceCount_pos {cs : List (List Int)} {v : Int} :
    0 < occurrenceCount cs v ↔ ∃ c ∈ cs, ∃ l ∈ c, (l.natAbs : Int) = v := by
  rw [occurrenceCount, List.countP_pos_iff]
  constructor
  · rintro ⟨l, hl, hv⟩
    obtain ⟨c, hc, hl⟩ := List.mem_flatten.1 hl
    exact ⟨c, hc, l, hl, beq_iff_eq.1 hv⟩
  · rintro ⟨c, hc, l, hl, hv⟩
    exact ⟨l, List.mem_flatten.2 ⟨c, hc, hl⟩, beq_iff_eq.2 hv⟩

/-- The number of occurrences is that in the list of all variables. -/
lemma occurrenceCount_natCast (cs : List (List Int)) (v : Nat) :
    occurrenceCount cs v = (cs.flatten.map Int.natAbs).count v := by
  rw [occurrenceCount, List.count, List.countP_map]
  refine List.countP_congr fun l _ => ?_
  rw [beq_iff_eq, Function.comp_apply, beq_iff_eq, Int.natCast_inj]

/-- An exchange of a literal for one at the end changes the numbers of these two only. -/
lemma occurrenceCount_exchange {cs : List (List Int)} {d : List Int} {i j : Nat} {l : Int}
    (hd : cs[i]? = some d) (hl : d[j]? = some l) (m v : Int) :
    occurrenceCount (cs.modify i fun d => d.eraseIdx j ++ [m]) v
        + (if (l.natAbs : Int) = v then 1 else 0)
      = occurrenceCount cs v + if (m.natAbs : Int) = v then 1 else 0 := by
  obtain ⟨hi, rfl⟩ := List.getElem?_eq_some_iff.1 hd
  obtain ⟨hj, rfl⟩ := List.getElem?_eq_some_iff.1 hl
  have hperm := (List.getElem_cons_eraseIdx_perm hj).countP_eq fun l => (l.natAbs : Int) == v
  have hsplit := List.take_append_drop i cs
  rw [List.drop_eq_getElem_cons hi] at hsplit
  rw [List.modify_eq_take_cons_drop hi]
  conv_rhs => rw [← hsplit]
  simp only [occurrenceCount, List.flatten_append, List.flatten_cons, List.countP_append,
    List.countP_cons, List.countP_nil, beq_iff_eq] at hperm ⊢
  omega

/-- There are at most as many clauses with a literal of a kind as there are such literals. -/
lemma countP_any_le (p : Int → Bool) (cs : List (List Int)) :
    cs.countP (fun c => c.any p) ≤ cs.flatten.countP p := by
  induction cs with
  | nil => exact Nat.le_refl 0
  | cons c cs ih =>
      rw [List.countP_cons, List.flatten_cons, List.countP_append, Nat.add_comm]
      refine Nat.add_le_add ?_ ih
      split
      · next h => exact List.countP_pos_iff.2 (List.any_eq_true.1 h)
      · exact Nat.zero_le _

/-- The variables that occur once only. -/
def onceVariables (cs : List (List Int)) : List Nat :=
  (cs.flatten.filter fun l => occurrenceCount cs l.natAbs ≤ 1).map Int.natAbs

/-- Each of them is the variable of a literal and occurs once only. -/
lemma exists_of_mem_onceVariables {cs : List (List Int)} {v : Nat} (h : v ∈ onceVariables cs) :
    (∃ c ∈ cs, ∃ l ∈ c, l.natAbs = v) ∧ occurrenceCount cs v ≤ 1 := by
  obtain ⟨l, hl, rfl⟩ := List.mem_map.1 h
  obtain ⟨hl, hle⟩ := List.mem_filter.1 hl
  obtain ⟨c, hc, hlc⟩ := List.mem_flatten.1 hl
  exact ⟨⟨c, hc, l, hlc, rfl⟩, of_decide_eq_true hle⟩

/-- None of them is listed twice. -/
lemma nodup_onceVariables (cs : List (List Int)) : (onceVariables cs).Nodup := by
  rw [List.nodup_iff_count_le_one]
  intro v
  by_cases hv : v ∈ onceVariables cs
  · have hle := (exists_of_mem_onceVariables hv).2
    rw [occurrenceCount_natCast] at hle
    exact ((List.filter_sublist.map Int.natAbs).count_le v).trans hle
  · rw [List.count_eq_zero_of_not_mem hv]
    exact Nat.zero_le 1

/-- How many clauses there are with a variable that occurs once only. -/
def blockedCount (cs : List (List Int)) : Nat :=
  cs.countP fun c => c.any fun l => occurrenceCount cs l.natAbs ≤ 1

/-- There are at least as many variables that occur once only. -/
lemma blockedCount_le (cs : List (List Int)) : blockedCount cs ≤ (onceVariables cs).length := by
  rw [onceVariables, List.length_map, ← List.countP_eq_length_filter]
  exact countP_any_le _ cs

namespace OccurrenceTable

/-- A table holds how often the variables of some clauses occur. -/
def Counts (t : OccurrenceTable) (cs : List (List Int)) : Prop :=
  ∀ v, t.getD v 0 = occurrenceCount cs v

/-- A number is held once more after it is added. -/
lemma getD_add_eq (t : OccurrenceTable) (v w : Int) :
    (t.add v).getD w 0 = t.getD w 0 + if v = w then 1 else 0 := by
  rw [getD_add]
  split
  · next h => rw [h]
  · rfl

/-- A number that is held was held once more before it is dropped. -/
lemma getD_drop_add {t : OccurrenceTable} {v : Int} (hv : 0 < t.getD v 0) (w : Int) :
    (t.drop v).getD w 0 + (if v = w then 1 else 0) = t.getD w 0 := by
  rw [getD_drop]
  split
  · next h =>
    rw [← h]
    omega
  · rfl

/-- The occurrences are counted literal by literal. -/
lemma ofClauses_eq (cs : List (List Int)) :
    ofClauses cs = cs.flatten.foldl (fun t l => t.add l.natAbs) ∅ := by
  rw [ofClauses, List.foldl_flatten]

/-- Literals are added to what a table holds. -/
lemma getD_foldl_add (ls : List Int) (t : OccurrenceTable) (v : Int) :
    (ls.foldl (fun t l => t.add l.natAbs) t).getD v 0
      = t.getD v 0 + ls.countP fun l => (l.natAbs : Int) == v := by
  induction ls generalizing t with
  | nil => rfl
  | cons l ls ih =>
      rw [List.foldl_cons, ih, getD_add_eq, List.countP_cons]
      simp only [beq_iff_eq]
      omega

/-- The table that is made from clauses counts their variables. -/
lemma counts_ofClauses (cs : List (List Int)) : Counts (ofClauses cs) cs := by
  intro v
  rw [ofClauses_eq, getD_foldl_add, Std.HashMap.getD_empty, Nat.zero_add]
  rfl

/-- Only the number that is added is held as well. -/
lemma contains_add (t : OccurrenceTable) (v w : Int) :
    (t.add v).contains w = (v == w || t.contains w) := by
  simp [add, Std.HashMap.contains_insert]

/-- It holds the numbers that occur, and no others. -/
lemma contains_ofClauses (cs : List (List Int)) (v : Int) :
    (ofClauses cs).contains v = true ↔ 0 < occurrenceCount cs v := by
  have key : ∀ (ls : List Int) (t : OccurrenceTable),
      (∀ w, t.contains w = true ↔ 0 < t.getD w 0) →
      ∀ w, (ls.foldl (fun t l => t.add l.natAbs) t).contains w = true
        ↔ 0 < (ls.foldl (fun t l => t.add l.natAbs) t).getD w 0 := by
    intro ls
    induction ls with
    | nil => exact fun _ h => h
    | cons l ls ih =>
        refine fun t h => ih _ fun w => ?_
        rw [contains_add, getD_add, Bool.or_eq_true, beq_iff_eq]
        by_cases heq : (l.natAbs : Int) = w
        · rw [if_pos heq]
          exact iff_of_true (.inl heq) (Nat.succ_pos _)
        · rw [if_neg heq, or_iff_right heq, h w]
  rw [← counts_ofClauses cs v, ofClauses_eq]
  exact key _ _ (by simp) v

end OccurrenceTable

namespace Patching

open OccurrenceTable

variable {γ : Type}

/-! ### Clauses that can do without a literal -/

/-- A clause of counted variables is spare when each of them occurs more than once. -/
lemma isSpare_eq {t : OccurrenceTable} {c : List Int}
    (h : ∀ l ∈ c, 0 < t.getD (l.natAbs : Int) 0) :
    isSpare t c = .ok (c.all fun l => 1 < t.getD (l.natAbs : Int) 0) := by
  induction c with
  | nil => rfl
  | cons l c ih =>
      rw [List.forall_mem_cons] at h
      rw [isSpare, List.all_cons]
      cases hl : t[(l.natAbs : Int)]? with
      | none =>
          rw [Std.HashMap.getD_eq_getD_getElem?, hl] at h
          exact absurd h.1 (Nat.lt_irrefl 0)
      | some k =>
          rw [Std.HashMap.getD_eq_getD_getElem?, hl, Option.getD_some]
          show (if 1 < k then isSpare t c else .ok false) = _
          split
          · next hk => rw [ih h.2, decide_eq_true hk, Bool.true_and]
          · next hk => rw [decide_eq_false hk, Bool.false_and]

/-- The places of the spare clauses are found. -/
lemma spareIndices_eq {t : OccurrenceTable} (first : Nat) {cs : List (List Int)}
    (h : ∀ c ∈ cs, ∀ l ∈ c, 0 < t.getD (l.natAbs : Int) 0) :
    spareIndices t first cs = .ok (((cs.zipIdx first).filter fun p =>
      p.1.all fun l => 1 < t.getD (l.natAbs : Int) 0).map Prod.snd) := by
  induction cs generalizing first with
  | nil => rfl
  | cons c cs ih =>
      rw [List.forall_mem_cons] at h
      rw [spareIndices, isSpare_eq h.1, ih (first + 1) h.2, List.zipIdx_cons, List.filter_cons]
      simp only [bind, Except.bind, pure, Except.pure]
      split <;> rfl

/-- A table that counts some clauses holds each of their variables. -/
lemma pos_of_counts {t : OccurrenceTable} {cs : List (List Int)} (hs : Counts t cs) :
    ∀ c ∈ cs, ∀ l ∈ c, 0 < t.getD (l.natAbs : Int) 0 := by
  intro c hc l hl
  rw [hs]
  exact occurrenceCount_pos.2 ⟨c, hc, l, hl, rfl⟩

/-- The spare clauses are those that are not blocked, and every variable of them occurs more than
once. -/
lemma exists_spareIndices {t : OccurrenceTable} {cs : List (List Int)} (hs : Counts t cs) :
    ∃ spare, spareIndices t 0 cs = .ok spare ∧ spare.length + blockedCount cs = cs.length
      ∧ ∀ i ∈ spare, ∃ c, cs[i]? = some c ∧ ∀ l ∈ c, 1 < occurrenceCount cs l.natAbs := by
  have hspare := spareIndices_eq 0 (pos_of_counts hs)
  simp only [hs _] at hspare
  refine ⟨_, hspare, ?_, fun i hi => ?_⟩
  · have hfree : ((cs.zipIdx 0).filter fun p => p.1.all fun l =>
          1 < occurrenceCount cs l.natAbs).length
        = cs.countP fun c => ¬ c.any fun l => occurrenceCount cs l.natAbs ≤ 1 := by
      conv_rhs => rw [← List.zipIdx_map_fst 0 cs, List.countP_map]
      rw [← List.countP_eq_length_filter]
      exact List.countP_congr fun p _ => by simp
    rw [List.length_map, hfree, blockedCount, Nat.add_comm]
    exact (List.length_eq_countP_add_countP _).symm
  · obtain ⟨⟨c, i⟩, hci, rfl⟩ := List.mem_map.1 hi
    obtain ⟨hci, hall⟩ := List.mem_filter.1 hci
    exact ⟨c, List.mem_zipIdx_iff_getElem?.1 hci, fun l hl => by
      simpa using List.all_eq_true.1 hall l hl⟩

/-! ### One patch -/

/-- An exchange of the literal `l`, which has the place `j` in clause `i`, for that of the variable
at a place. -/
def exchanged (s : Patching γ) (i j : Nat) (l : Int) (place : Nat) (value : Bool) : Patching γ :=
  (s.takeOut i j l).putIn i place value

/-- An exchange makes one literal leave and another one enter at the end. -/
lemma clauses_exchanged (s : Patching γ) (i j : Nat) (l : Int) (place : Nat) (value : Bool) :
    (s.exchanged i j l place value).clauses
      = s.clauses.modify i fun c => c.eraseIdx j ++ [numberAt place value] :=
  List.modify_modify_eq _ _ _ _

/-- It changes how often the two variables occur, and no others. -/
lemma occurrenceCount_exchanged {s : Patching γ} {d : List Int} {i j : Nat} {l : Int}
    (hd : s.clauses[i]? = some d) (hl : d[j]? = some l) (place : Nat) (value : Bool) (v : Int) :
    occurrenceCount (s.exchanged i j l place value).clauses v
        + (if (l.natAbs : Int) = v then 1 else 0)
      = occurrenceCount s.clauses v + if (place : Int) + 1 = v then 1 else 0 := by
  have hcount := occurrenceCount_exchange hd hl (numberAt place value) v
  rwa [natAbs_numberAt, Int.natCast_succ, ← clauses_exchanged] at hcount

/-- When the one that leaves occurs again, the one that enters is the only one that did not occur
before and occurs now. -/
lemma occurrenceCount_exchanged_eq_zero {s : Patching γ} {d : List Int} {i j : Nat} {l : Int}
    (hd : s.clauses[i]? = some d) (hl : d[j]? = some l)
    (hagain : 1 < occurrenceCount s.clauses l.natAbs) (place : Nat) (value : Bool) (v : Int) :
    occurrenceCount (s.exchanged i j l place value).clauses v = 0
      ↔ (place : Int) + 1 ≠ v ∧ occurrenceCount s.clauses v = 0 := by
  have hcount := occurrenceCount_exchanged hd hl place value v
  by_cases hout : (l.natAbs : Int) = v
  · rw [hout] at hagain
    rw [if_pos hout] at hcount
    omega
  · rw [if_neg hout] at hcount
    by_cases hin : (place : Int) + 1 = v
    · rw [if_pos hin] at hcount
      omega
    · rw [if_neg hin] at hcount
      omega

/-- The clauses stay planted when the variable that enters is not in the clause. -/
lemma planted_exchanged {s : Patching γ} {hidden : Array Bool} {size place : Nat}
    (h : ∀ c ∈ s.clauses, IsPlanted hidden size c) {d : List Int} {i j : Nat} {l : Int}
    (hd : s.clauses[i]? = some d) (hl : d[j]? = some l) (hplace : place < hidden.size)
    (hnew : ∀ m ∈ d, m.natAbs ≠ place + 1) :
    ∀ c ∈ (s.exchanged i j l place hidden[place]).clauses, IsPlanted hidden size c := by
  rw [clauses_exchanged]
  intro c hc
  obtain ⟨k, hk⟩ := List.mem_iff_getElem?.1 hc
  rw [List.getElem?_modify] at hk
  obtain ⟨b, hb, rfl⟩ := Option.map_eq_some_iff.1 hk
  split
  · next hik =>
    subst hik
    obtain rfl : d = b := Option.some.inj (hd.symm.trans hb)
    exact (h d (List.mem_of_getElem? hd)).exchange hl hplace hnew
  · exact h b (List.mem_of_getElem? hb)

/-- The table follows an exchange. -/
lemma counts_exchanged {s : Patching γ} {d : List Int} {i j : Nat} {l : Int}
    (hs : Counts s.occurrences s.clauses) (hd : s.clauses[i]? = some d) (hl : d[j]? = some l)
    (place : Nat) (value : Bool) :
    Counts (s.exchanged i j l place value).occurrences (s.exchanged i j l place value).clauses := by
  intro v
  have hpos : 0 < occurrenceCount s.clauses l.natAbs :=
    occurrenceCount_pos.2 ⟨d, List.mem_of_getElem? hd, l, List.mem_of_getElem? hl, rfl⟩
  have hcount := occurrenceCount_exchanged hd hl place value v
  have hdrop := getD_drop_add (t := s.occurrences) ((hs _).symm ▸ hpos) v
  show ((s.occurrences.drop l.natAbs).add (place + 1)).getD v 0 = _
  rw [getD_add_eq]
  rw [hs] at hdrop
  omega

/-- The value of the variable at a place is found. -/
lemma hiddenValue_eq {hidden : Array Bool} {place : Nat} (h : place < hidden.size) :
    hiddenValue hidden place = .ok hidden[place] := by
  have hindex : SignedIndex.ofInt? hidden.size place = some ⟨⟨place, h⟩, false, false⟩ := by
    rw [SignedIndex.ofInt?, dif_pos (by omega)]
    rfl
  rw [hiddenValue, hindex]
  rfl

/-- A question to the source leads where the source does, in the state of patching. -/
lemma leads_ask {α : Type} {question : EStateM Fault γ α} {s : Patching γ}
    {Q : α → Patching γ → Prop} {E : Fault → Patching γ → Prop} :
    Leads (ask question) s Q E ↔
      Leads question s.source (fun a g => Q a { s with source := g })
        fun e g => E e { s with source := g } := by
  simp only [Leads, ask]
  cases question s.source <;> rfl

lemma leads_settle_ok {α : Type} (a : α) {s : Patching γ} {Q : α → Patching γ → Prop}
    {E : Fault → Patching γ → Prop} :
    Leads (settle (.ok a) : EStateM Fault (Patching γ) α) s Q E ↔ Q a s := Iff.rfl

variable [Sampler γ] {E : Fault → Prop}

/-- A random literal of a clause that has some is taken out. -/
lemma leads_takeRandom (hE : SamplesWithin γ E) {s : Patching γ} {i : Nat} {d : List Int}
    (hd : s.clauses[i]? = some d) (hne : d ≠ []) :
    Leads (takeRandom i) s
      (fun _ t => ∃ j l g, d[j]? = some l ∧ t = { s.takeOut i j l with source := g })
      fun e _ => E e := by
  rw [takeRandom, leads_bind, leads_get, leads_bind, leads_ask, hd, Option.getD_some]
  refine (hE.index d.length s.source (List.length_pos_iff.2 hne)).mono ?_ fun _ _ => id
  intro j g hj
  rw [List.getElem?_eq_getElem hj]
  exact ⟨j, d[j], g, List.getElem?_eq_getElem hj, rfl⟩

/-- A patch exchanges a literal of a clause of which every variable occurs elsewhere or again. It
fails as the sampler does, or if every clause is blocked. -/
lemma leads_patch (hE : SamplesWithin γ E) {hidden : Array Bool} {place : Nat}
    (hplace : place < hidden.size) {s : Patching γ} (hs : Counts s.occurrences s.clauses)
    (hne : ∀ d ∈ s.clauses, d ≠ []) :
    Leads (patch hidden place) s
      (fun _ t => ∃ d i j l g, s.clauses[i]? = some d ∧ d[j]? = some l
        ∧ (∀ m ∈ d, 1 < occurrenceCount s.clauses m.natAbs)
        ∧ t = { s.exchanged i j l place hidden[place] with source := g })
      fun e _ => E e ∨ e = .noClauseToPatch ∧ blockedCount s.clauses = s.clauses.length := by
  obtain ⟨spare, hspare, hlength, hmem⟩ := exists_spareIndices hs
  rw [patch, leads_bind, leads_get, leads_bind, hspare]
  show Leads (if _ then _ else _) s _ _
  rw [leads_ite]
  split
  · next hempty =>
    rw [List.isEmpty_iff.1 hempty, List.length_nil, Nat.zero_add] at hlength
    exact .inr ⟨rfl, hlength⟩
  next hempty =>
  rw [leads_bind, leads_ask]
  refine ((hE.member _ s.source fun h => hempty (List.isEmpty_iff.2 h)).and
    (mem_of_pickMember _ s.source)).mono ?_ fun _ _ h => .inl h.1
  rintro i g ⟨-, hi⟩
  obtain ⟨d, hd, hagain⟩ := hmem i hi
  rw [leads_bind]
  refine (leads_takeRandom hE (s := { s with source := g }) hd
    (hne d (List.mem_of_getElem? hd))).mono ?_ fun _ _ => .inl
  rintro _ _ ⟨j, l, g', hl, rfl⟩
  rw [leads_bind, hiddenValue_eq hplace, leads_settle_ok, leads_modify]
  exact ⟨d, i, j, l, g', hd, hl, hagain, rfl⟩

/-! ### Many patches -/

omit [Sampler γ] in
/-- The clauses are planted and counted, and the variables at some places are those that do not
occur. -/
structure Sane (hidden : Array Bool) (size count : Nat) (missing : List Nat) (s : Patching γ) :
    Prop where
  /-- The number of clauses. -/
  length : s.clauses.length = count
  /-- The clauses are planted. -/
  planted : ∀ c ∈ s.clauses, IsPlanted hidden size c
  /-- The table holds what occurs. -/
  counts : Counts s.occurrences s.clauses
  /-- What is missing does not occur, and all else does. -/
  missing : ∀ v < hidden.size, v ∈ missing ↔ occurrenceCount s.clauses ((v : Int) + 1) = 0

omit [Sampler γ] in
/-- An exchange in a spare clause keeps the clauses planted, and no variable gets lost. -/
lemma Sane.exchanged {hidden : Array Bool} {size count : Nat} {place : Nat} {places : List Nat}
    {s : Patching γ} (h : s.Sane hidden size count (place :: places))
    (hnodup : (place :: places).Nodup) (hplace : place < hidden.size) {d : List Int} {i j : Nat}
    {l : Int} (hd : s.clauses[i]? = some d) (hl : d[j]? = some l)
    (hspare : ∀ m ∈ d, 1 < occurrenceCount s.clauses m.natAbs) (g : γ) :
    Sane hidden size count places
      { s.exchanged i j l place hidden[place] with source := g } := by
  have habsent : occurrenceCount s.clauses ((place : Int) + 1) = 0 :=
    (h.missing place hplace).1 List.mem_cons_self
  have hnew : ∀ m ∈ d, m.natAbs ≠ place + 1 := by
    intro m hm heq
    have hm := hspare m hm
    rw [heq, Int.natCast_succ, habsent] at hm
    cases hm
  refine ⟨?_, planted_exchanged h.planted hd hl hplace hnew,
    counts_exchanged h.counts hd hl place _, fun v hv => ?_⟩
  · show (s.exchanged i j l place hidden[place]).clauses.length = count
    rw [clauses_exchanged, List.length_modify, h.length]
  · have hzero := occurrenceCount_exchanged_eq_zero hd hl (hspare l (List.mem_of_getElem? hl))
      place hidden[place] ((v : Int) + 1)
    have hmissing := h.missing v hv
    rw [List.mem_cons] at hmissing
    refine Iff.trans ?_ hzero.symm
    rw [← hmissing]
    constructor
    · intro hmem
      have hne : v ≠ place := fun heq => (List.nodup_cons.1 hnodup).1 (heq ▸ hmem)
      exact ⟨by omega, .inr hmem⟩
    · rintro ⟨hne, hmem⟩
      exact hmem.resolve_left fun heq => hne (by rw [heq])

omit [Sampler γ] in
/-- While a variable is missing, there are fewer blocked clauses than variables. -/
lemma Sane.blockedCount_lt {hidden : Array Bool} {size count place : Nat} {places : List Nat}
    {s : Patching γ} (h : s.Sane hidden size count (place :: places))
    (hplace : place < hidden.size) : blockedCount s.clauses < hidden.size := by
  -- the missing variable comes before those that occur once
  have hnodup : ((place + 1) :: onceVariables s.clauses).Nodup := by
    refine List.nodup_cons.2 ⟨fun hmem => ?_, nodup_onceVariables s.clauses⟩
    obtain ⟨⟨c, hc, l, hl, hlv⟩, -⟩ := exists_of_mem_onceVariables hmem
    have hpos := occurrenceCount_pos.2 ⟨c, hc, l, hl, rfl⟩
    rw [hlv, Int.natCast_succ, (h.missing place hplace).1 List.mem_cons_self] at hpos
    cases hpos
  have hsub : (place + 1) :: onceVariables s.clauses ⊆ List.range' 1 hidden.size := by
    intro v hv
    rw [List.mem_range'_1]
    rcases List.mem_cons.1 hv with rfl | hv
    · omega
    · obtain ⟨⟨c, hc, l, hl, rfl⟩, -⟩ := exists_of_mem_onceVariables hv
      have := (h.planted c hc).range l hl
      omega
  have hlt := hnodup.length_le_of_subset hsub
  rw [List.length_cons, List.length_range'] at hlt
  exact (Nat.lt_succ_of_le (blockedCount_le s.clauses)).trans_le hlt

/-- A patch puts a missing variable into a clause, so that only the others are missing. It fails as
the sampler does, or if there are fewer clauses than variables. -/
lemma Sane.leads_patch (hE : SamplesWithin γ E) {hidden : Array Bool} {size count place : Nat}
    {places : List Nat} {s : Patching γ} (h : s.Sane hidden size count (place :: places))
    (hsize : 1 ≤ size) (hnodup : (place :: places).Nodup) (hplace : place < hidden.size) :
    Leads (patch hidden place) s (fun _ t => t.Sane hidden size count places)
      fun e _ => E e ∨ e = .noClauseToPatch ∧ count < hidden.size := by
  have hne : ∀ c ∈ s.clauses, c ≠ [] := by
    rintro c hc rfl
    have := (h.planted [] hc).length
    simp at this
    omega
  refine (Patching.leads_patch hE hplace h.counts hne).mono ?_ fun _ _ he =>
    he.imp_right fun hfail => ⟨hfail.1, ?_⟩
  · rintro _ _ ⟨c, i, j, l, g, hc, hl, hspare, rfl⟩
    exact h.exchanged hnodup hplace hc hl hspare g
  · rw [← h.length, ← hfail.2]
    exact h.blockedCount_lt hplace

/-- So are more variables put into the clauses, one after the other. -/
lemma leads_patchAll (hE : SamplesWithin γ E) {hidden : Array Bool} {size count : Nat}
    (hsize : 1 ≤ size) {places rest : List Nat} (hnodup : (places ++ rest).Nodup)
    (hplaces : ∀ v ∈ places, v < hidden.size) {s : Patching γ}
    (h : s.Sane hidden size count (places ++ rest)) :
    Leads (patchAll hidden (places.map fun (v : Nat) => (v : Int))) s
      (fun _ t => t.Sane hidden size count rest)
      fun e _ => E e ∨ e = .noClauseToPatch ∧ count < hidden.size := by
  induction places generalizing s with
  | nil => exact h
  | cons place places ih =>
      rw [List.forall_mem_cons] at hplaces
      rw [List.map_cons, patchAll, leads_bind]
      refine (h.leads_patch hE hsize hnodup hplaces.1).mono (fun _ t ht => ?_) fun _ _ => id
      exact ih (List.nodup_cons.1 hnodup).2 hplaces.2 ht

end Patching

end LocalSat
