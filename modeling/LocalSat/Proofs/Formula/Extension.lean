/-
What the checker says about the extensions of an assignment.

* `Satisfies`: clauses are satisfied, said without the checker; `Entails`: every total extension of
  an assignment satisfies them;
* `isSatisfied_mono`: what is satisfied stays so when more variables get values;
* `against`: the extension that makes as many literals of a clause false as it can;
  `entails_iff`: what all total extensions satisfy is satisfied already, but for clauses with both
  literals of a variable;
* `ofPairs_numbered`: a list of values is the map that numbers them from one on;
* `isSatisfied_extensions`: the checker, on lists and on maps, tells what the extensions satisfy;
* `entails_not_isSatisfied`: it does not when a clause has both literals of a variable.
-/
import LocalSat.Checker.Value
import LocalSat.Formula.Basic
import Mathlib.Data.List.Induction
import Mathlib.Tactic.Common

namespace LocalSat.PartialAssignment

/-! ### Extensions -/

/-- Every clause has a literal whose variable has the value that its sign asks for. -/
def Satisfies (a : PartialAssignment) (clauses : List (List Int)) : Prop :=
  ∀ c ∈ clauses, ∃ l ∈ c, a l.natAbs = some (decide (0 < l))

/-- Every extension that gives all variables a value satisfies the clauses. -/
def Entails (a : PartialAssignment) (clauses : List (List Int)) : Prop :=
  ∀ b : PartialAssignment, b.Extends a → b.IsTotal → b.Satisfies clauses

/-- A clause has both literals of a variable. -/
def HasOpposites (c : List Int) : Prop := ∃ l ∈ c, -l ∈ c

instance (c : List Int) : Decidable (HasOpposites c) :=
  inferInstanceAs (Decidable (∃ l ∈ c, -l ∈ c))

/-- The extension of an assignment that gives each other variable the value against its literal in a
clause. -/
def against (a : PartialAssignment) (c : List Int) : PartialAssignment := fun v =>
  (a v).or (some (decide (-(v : Int) ∈ c)))

variable {a b : PartialAssignment} {c : List Int} {l : Int} {clauses : List (List Int)}

/-- A literal is true when its variable has the value that its sign asks for. -/
lemma makesTrue_iff (hl : l ≠ 0) : a.makesTrue l = true ↔ a l.natAbs = some (decide (0 < l)) := by
  rw [makesTrue]
  cases a l.natAbs with
  | none => simp
  | some x =>
      cases x with
      | true => simp
      | false =>
          simp only [decide_eq_true_eq, Option.some.injEq, Bool.false_eq, decide_eq_false_iff_not]
          omega

/-- The checker looks for a true literal in every clause. -/
lemma isSatisfied_eq_true_iff :
    a.isSatisfied clauses = true ↔ ∀ c ∈ clauses, ∃ l ∈ c, a.makesTrue l = true := by
  simp only [isSatisfied, List.all_eq_true, List.any_eq_true]

/-- So it finds out whether clauses are satisfied. -/
lemma isSatisfied_iff_satisfies (hzero : ∀ c ∈ clauses, ∀ l ∈ c, l ≠ 0) :
    a.isSatisfied clauses = true ↔ a.Satisfies clauses := by
  rw [isSatisfied_eq_true_iff]
  exact forall₂_congr fun c hc => exists_congr fun l => and_congr_right fun hl =>
    makesTrue_iff (hzero c hc l hl)

/-- A literal that is true stays so when more variables get values. -/
lemma makesTrue_mono (h : b.Extends a) (hl : a.makesTrue l = true) : b.makesTrue l = true := by
  rw [makesTrue] at hl ⊢
  cases ha : a l.natAbs with
  | none => simp [ha] at hl
  | some x => rwa [h _ x ha, ← ha]

/-- Clauses that are satisfied stay so. -/
lemma isSatisfied_mono (h : b.Extends a) (ha : a.isSatisfied clauses = true) :
    b.isSatisfied clauses = true := by
  rw [isSatisfied_eq_true_iff] at ha ⊢
  intro c hc
  obtain ⟨l, hl, htrue⟩ := ha c hc
  exact ⟨l, hl, makesTrue_mono h htrue⟩

/-! ### Values against a clause -/

lemma against_extends (a : PartialAssignment) (c : List Int) : (a.against c).Extends a := by
  intro v x hx
  rw [against, hx]
  rfl

lemma against_isTotal (a : PartialAssignment) (c : List Int) : (a.against c).IsTotal := by
  intro v _
  rw [against]
  cases a v <;> rfl

/-- Values against a clause without both literals of a variable make no literal of it true that was
not true before. -/
lemma makesTrue_of_against (hc : ¬HasOpposites c) (hzero : l ≠ 0) (hl : l ∈ c)
    (h : (a.against c).makesTrue l = true) : a.makesTrue l = true := by
  rw [makesTrue_iff hzero] at h ⊢
  rw [against] at h
  cases ha : a l.natAbs with
  | some x => rwa [ha] at h
  | none =>
      -- the value against `l` would be the one for the opposite literal
      rw [ha, Option.none_or, Option.some.injEq, decide_eq_decide] at h
      rcases Int.lt_or_gt_of_ne hzero with hneg | hpos
      · have habs : -(l.natAbs : Int) = l := by omega
        rw [habs] at h
        exact absurd (h.1 hl) (by omega)
      · have habs : -(l.natAbs : Int) = -l := by omega
        rw [habs] at h
        exact absurd ⟨l, hl, h.2 hpos⟩ hc

/-- One of two opposite literals is true when its variable has a value. -/
lemma exists_of_hasOpposites (ha : a.IsTotal) (hzero : ∀ l ∈ c, l ≠ 0) (hc : HasOpposites c) :
    ∃ l ∈ c, a l.natAbs = some (decide (0 < l)) := by
  obtain ⟨l, hl, hneg⟩ := hc
  have hne := hzero l hl
  obtain ⟨x, hx⟩ := Option.isSome_iff_exists.1 (ha l.natAbs (Int.natAbs_ne_zero.2 hne))
  by_cases hsign : x = decide (0 < l)
  · exact ⟨l, hl, hsign ▸ hx⟩
  · refine ⟨-l, hneg, ?_⟩
    rw [Int.natAbs_neg, hx, Option.some.injEq]
    have hflip : decide (0 < -l) = !decide (0 < l) := by
      rw [← decide_not, decide_eq_decide]
      omega
    rw [hflip]
    exact Bool.eq_not_of_ne hsign

/-- All total extensions satisfy clauses exactly if those without both literals of a variable are
satisfied already. -/
lemma entails_iff (hzero : ∀ c ∈ clauses, ∀ l ∈ c, l ≠ 0) :
    a.Entails clauses ↔ a.isSatisfied (clauses.filter fun c => ¬HasOpposites c) = true := by
  simp only [isSatisfied_eq_true_iff, List.mem_filter, decide_eq_true_eq]
  constructor
  · rintro h c ⟨hc, hopposites⟩
    obtain ⟨l, hl, htrue⟩ := h _ (against_extends a c) (against_isTotal a c) c hc
    have hne := hzero c hc l hl
    exact ⟨l, hl, makesTrue_of_against hopposites hne hl ((makesTrue_iff hne).2 htrue)⟩
  · intro h b hb htotal c hc
    by_cases hopposites : HasOpposites c
    · exact exists_of_hasOpposites htotal (hzero c hc) hopposites
    · obtain ⟨l, hl, htrue⟩ := h c ⟨hc, hopposites⟩
      exact ⟨l, hl, (makesTrue_iff (hzero c hc l hl)).1 (makesTrue_mono hb htrue)⟩

/-! ### Lists of values -/

/-- Values with the numbers of the variables from one on. -/
def numbered (values : List Json) : List (Json × Json) :=
  (values.zipIdx 1).map fun (x, i) => (.int i, x)

/-- Pairs with the numbers of variables are entries. -/
lemma ofPairs_of_int (entries : List (Int × Json)) :
    ofPairs (entries.map fun e => (.int e.1, e.2))
      = .ok (ofEntries (entries.map fun e => (e.1, e.2.isTruthy))) := by
  rw [ofPairs, if_pos (by simp [isKey])]
  congr 1
  funext v
  simp only [ofEntries, List.foldl_map, Json.equalsInt, decide_eq_true_eq]

/-- The last entry for a variable counts. -/
lemma ofEntries_concat (entries : List (Int × Bool)) (e : Int × Bool) (v : Nat) :
    ofEntries (entries ++ [e]) v = if e.1 = (v : Int) then some e.2 else ofEntries entries v := by
  simp [ofEntries]

/-- Entries for the variables from one on are their values. -/
lemma ofEntries_zipIdx (values : List Bool) :
    ofEntries ((values.zipIdx 1).map fun (x, i) => ((i : Int), x)) = ofValues values.toArray := by
  induction values using List.reverseRecOn with
  | nil =>
      funext v
      simp [ofEntries, ofValues]
  | append_singleton values x ih =>
      funext v
      rw [List.zipIdx_append, List.map_append, List.zipIdx_singleton, List.map_singleton,
        ofEntries_concat, ih]
      simp only [ofValues, List.getElem?_toArray]
      split_ifs with hlast hzero hzero
      · omega
      · have hplace : v - 1 = values.length := by omega
        rw [hplace, List.getElem?_concat_length]
      · rfl
      · have hplace : v - 1 ≠ values.length := by omega
        rw [List.getElem?_append]
        split_ifs with hlt
        · rfl
        · rw [List.getElem?_eq_none (by omega), List.getElem?_eq_none (by simp; omega)]

/-- A list of values is the map that numbers them from one on. -/
lemma ofPairs_numbered (values : List Json) :
    ofPairs (numbered values) = .ok (ofValues (values.map Json.isTruthy).toArray) := by
  have hpairs : numbered values
      = ((values.zipIdx 1).map fun (x, i) => ((i : Int), x)).map fun e => (.int e.1, e.2) := by
    simp [numbered]
  rw [hpairs, ofPairs_of_int, ← ofEntries_zipIdx, List.zipIdx_map, List.map_map, List.map_map]
  rfl

/-! ### Clauses that are given as a value -/

/-- Literals that are given as values are looked at in order. -/
lemma holdsAny_int (a : PartialAssignment) (c : List Int) :
    a.holdsAny (c.map Json.int) = .ok (c.any a.makesTrue) := by
  induction c with
  | nil => rfl
  | cons l c ih =>
      rw [List.map_cons, holdsAny, List.any_cons, ih]
      show (if a.makesTrue l = true then _ else _) = _
      cases a.makesTrue l <;> rfl

/-- So are clauses that are given as a value. -/
lemma satisfiesValue_clausesJson (a : PartialAssignment) (clauses : List (List Int)) :
    a.satisfiesValue (clausesJson clauses) = .ok (a.isSatisfied clauses) := by
  show a.holdsAll (clauses.map fun c => .arr (c.map Json.int)) = _
  induction clauses with
  | nil => rfl
  | cons c clauses ih =>
      rw [List.map_cons, holdsAll, isSatisfied, List.all_cons]
      show (a.holdsAny (c.map Json.int) >>= fun found => _) = _
      rw [holdsAny_int]
      show (if c.any a.makesTrue = true then _ else _) = _
      cases c.any a.makesTrue with
      | true => exact ih
      | false => rfl

/-! ### The checker -/

/-- **The checker and the extensions of an assignment.** On clauses of nonzero literals the checker
gives an answer, which is whether every clause has a literal whose variable has the value that its
sign asks for. If it says that the clauses are satisfied, then it says so for every extension; and
unless a clause has both literals of a variable, it says so exactly if every total extension
satisfies the clauses. A list of values is read as the map from variable `i + 1` to the truth of
entry `i`, and no literal beyond the list is true. -/
theorem isSatisfied_extensions (hzero : ∀ c ∈ clauses, ∀ l ∈ c, l ≠ 0) :
    (∀ a : PartialAssignment,
      a.satisfiesValue (clausesJson clauses) = .ok (a.isSatisfied clauses)
      ∧ (a.isSatisfied clauses = true ↔ a.Satisfies clauses)
      ∧ (a.isSatisfied clauses = true →
        ∀ b : PartialAssignment, b.Extends a → b.isSatisfied clauses = true)
      ∧ ((∀ c ∈ clauses, ¬HasOpposites c) →
        (a.isSatisfied clauses = true ↔ a.Entails clauses)))
    ∧ ∀ values : List Json, ∃ b : PartialAssignment,
      ofValue (.arr values) = .ok b
      ∧ ofPairs (numbered values) = .ok b
      ∧ (∀ i, b (i + 1) = values[i]?.map Json.isTruthy)
      ∧ ∀ l : Int, values.length < l.natAbs → b.makesTrue l = false := by
  refine ⟨fun a => ⟨satisfiesValue_clausesJson a clauses, isSatisfied_iff_satisfies hzero,
    fun ha b hb => isSatisfied_mono hb ha, fun hopposites => ?_⟩, fun values => ?_⟩
  · have hall : (clauses.filter fun c => ¬HasOpposites c) = clauses :=
      List.filter_eq_self.2 fun c hc => decide_eq_true (hopposites c hc)
    rw [entails_iff hzero, hall]
  · refine ⟨ofValues (values.map Json.isTruthy).toArray, rfl, ofPairs_numbered values,
      fun i => ?_, fun l hl => ?_⟩
    · simp [ofValues]
    · have hnone : ofValues (values.map Json.isTruthy).toArray l.natAbs = none := by
        rw [ofValues, if_neg (by omega), List.getElem?_toArray]
        exact List.getElem?_eq_none (by simp; omega)
      rw [makesTrue, hnone]

/-- Variable `1` true satisfies a clause of two, and so does every extension. -/
theorem isSatisfied_extensions_first :
    (∀ c ∈ [[(1 : Int), -2], [3, 1]], ∀ l ∈ c, l ≠ 0)
      ∧ (∀ c ∈ [[(1 : Int), -2], [3, 1]], ¬HasOpposites c)
      ∧ (ofEntries [(1, true)]).Entails [[1, -2], [3, 1]] :=
  ⟨by decide, by decide,
    (((isSatisfied_extensions (by decide)).1 _).2.2.2 (by decide)).1 (by decide)⟩

/-- A clause with both literals of a variable is satisfied by every total extension, and by no
assignment that leaves the variable out. -/
lemma entails_not_isSatisfied :
    (ofEntries []).Entails [[1, -1]] ∧ (ofEntries []).isSatisfied [[1, -1]] = false :=
  ⟨(entails_iff (by decide)).2 (by decide), by decide⟩

end LocalSat.PartialAssignment
