/-
Clauses that come in parts.

* `Reduces.append`, `Refutes.append`: clauses that come later stand behind those that are left
  of the earlier ones;
* `Reduces.propagate_eq`, `Refutes.propagate_eq`: however clauses were reduced as far as
  possible, or refuted, unit propagation ends the same way;
* `propagate_append`: to propagate some clauses, and then what is left of them with more
  clauses, is to propagate all of them together;
* `simplify_in_parts`: so it is for a solver whose clauses are simplified as they come in.
-/
import LocalSat.Proofs.Propagation.Rounds
import LocalSat.Proofs.Random.Tape
import LocalSat.Proofs.Solver.Simplify

namespace LocalSat

variable {n : Nat}

/-! ### More clauses -/

section

variable {f g : Forced n} {cs ds : List (Clause n)}

/-- What is derived from some clauses is derived from them and others. -/
lemma Advances.append (r : Advances f g cs) (bs : List (Clause n)) : Advances f g (cs ++ bs) :=
  ⟨r.keeps, fun l hl => (r.derived l hl).mono (List.subset_append_left cs bs)⟩

/-- Clauses with refuted ones before them are refuted. -/
lemma Refutes.append (r : Refutes f g cs) (bs : List (Clause n)) : Refutes f g (cs ++ bs) := by
  obtain ⟨c, hc, hfalse⟩ := r.falsified
  exact ⟨r.toAdvances.append bs, c, List.mem_append_left bs hc,
    fun l hl => (hfalse l hl).mono (List.subset_append_left cs bs)⟩

/-- While some clauses are reduced, others can be left as they are. -/
lemma Reduces.append (r : Reduces f g cs ds) (bs : List (Clause n)) :
    Reduces f g (cs ++ bs) (ds ++ bs) where
  toAdvances := r.toAdvances.append bs
  origin d hd := by
    rcases List.mem_append.1 hd with hd | hd
    · obtain ⟨c, hc, h⟩ := r.origin d hd
      exact ⟨c, List.mem_append_left bs hc, h⟩
    · exact ⟨d, List.mem_append_right cs hd, fun _ => id, fun _ => .inl⟩
  settled c hc := by
    rcases List.mem_append.1 hc with hc | hc
    · refine (r.settled c hc).imp_right ?_
      rintro ⟨d, hd, h⟩
      exact ⟨d, List.mem_append_left bs hd, h⟩
    · exact .inr ⟨c, List.mem_append_right ds hc, fun _ => id, fun _ => .inl⟩

/-! ### One outcome -/

/-- Clauses that can be refuted are refuted by unit propagation. -/
lemma Refutes.propagate_eq (r : Refutes f g cs) (count : Nat) :
    (propagate f count cs).ok = false :=
  (propagate_ok_eq_false_iff f count cs).2 (.inr r.falsified)

/-- Clauses that can be reduced as far as possible are not refuted by unit propagation, which
forces the same values. -/
lemma Reduces.propagate_eq (r : Reduces f g cs ds) (hirr : Irreducible g ds) (count : Nat) :
    (propagate f count cs).ok = true ∧ (propagate f count cs).forced = g := by
  have hok : (propagate f count cs).ok = true := by
    rw [← Bool.not_eq_false, propagate_ok_eq_false_iff]
    exact r.consistent hirr
  refine ⟨hok, Forced.ext_flags fun l => ?_⟩
  rw [propagate_flags_iff hok, r.flags_iff_derivable hirr]

/-- When the first clauses are not refuted, propagating what is left of them with more clauses
ends as propagating all of them does. -/
lemma propagate_append {count : Nat} {as : List (Clause n)}
    (hok : (propagate f count as).ok = true) (bs : List (Clause n)) :
    let p := propagate f count as
    let q := propagate p.forced p.forcedCount (p.clauses ++ bs)
    let r := propagate f count (as ++ bs)
    q.ok = r.ok ∧ (q.ok = true →
      q.forced = r.forced ∧ q.forcedCount = r.forcedCount ∧ q.clauses = r.clauses) := by
  intro p q r
  have hp : Reduces f p.forced (as ++ bs) (p.clauses ++ bs) :=
    ((justified_propagate f count as).reduces hok).1.append bs
  have hq := justified_propagate p.forced p.forcedCount (p.clauses ++ bs)
  cases hqok : q.ok with
  | false =>
      have hr : r.ok = false := (hp.refutes (hq.refutes hqok).1).propagate_eq count
      exact ⟨hr.symm, fun h => Bool.noConfusion h⟩
  | true =>
      obtain ⟨hqred, hqirr⟩ := hq.reduces hqok
      obtain ⟨hrok, hforced⟩ : r.ok = true ∧ r.forced = q.forced :=
        (hp.trans hqred).propagate_eq hqirr count
      refine ⟨hrok.symm, fun _ => ⟨hforced.symm, ?_, ?_⟩⟩
      · have hcount : p.forcedCount + f.count = count + p.forced.count :=
          forcedCount_propagate _ _ _
        have hcount' : q.forcedCount + p.forced.count = p.forcedCount + q.forced.count :=
          forcedCount_propagate _ _ _
        have hcount'' : r.forcedCount + f.count = count + r.forced.count :=
          forcedCount_propagate _ _ _
        rw [hforced] at hcount''
        omega
      · calc q.clauses
            = reduct q.forced (p.clauses ++ bs) := clauses_propagate hqok
          _ = reduct q.forced (reduct p.forced as) ++ reduct q.forced bs := by
              rw [reduct_append, clauses_propagate hok]
          _ = reduct q.forced (as ++ bs) := by
              rw [reduct_reduct hqred.keeps, reduct_append]
          _ = r.clauses := by rw [← hforced, clauses_propagate hrok]

end

/-! ### A solver whose clauses come in parts -/

namespace Solver

variable {γ : Type}

/-- The solver with more clauses, behind those that there are. -/
def withClauses (s : Solver n γ) (cs : List (Clause n)) : Solver n γ :=
  { s with added := s.added ++ cs.toArray, clauses := s.clauses ++ cs.toArray }

/-- Adding clauses that can be read adds them in order. -/
lemma addClauses_of_read {values : List Json} {cs : List (Clause n)}
    (h : values.mapM (readClause n) = .ok cs) (s : Solver n γ) :
    addClauses values s = .ok () (s.withClauses cs) := by
  induction values generalizing s cs with
  | nil =>
      cases h
      simp [addClauses, withClauses, pure, EStateM.pure]
  | cons value values ih =>
      rw [List.mapM_cons] at h
      cases hc : readClause n value with
      | error e =>
          rw [hc] at h
          cases h
      | ok c =>
          cases hcs : values.mapM (readClause n) with
          | error e =>
              rw [hc, hcs] at h
              cases h
          | ok cs' =>
              rw [hc, hcs] at h
              cases h
              have hadd : addClause value s = .ok () (s.pushClause c) := by
                rw [addClause, hc]
                rfl
              rw [addClauses, bind_run_of_ok hadd, ih hcs]
              simp [pushClause, withClauses]

/-- The same for clauses that are read from two lists of values, one after the other. -/
lemma mapM_readClause_append {first second : List Json} {as bs : List (Clause n)}
    (ha : first.mapM (readClause n) = .ok as) (hb : second.mapM (readClause n) = .ok bs) :
    (first ++ second).mapM (readClause n) = .ok (as ++ bs) := by
  rw [List.mapM_append, ha, hb]
  rfl

/-- A simplification of a solver with more clauses propagates all of them. -/
lemma simplified_withClauses (s : Solver n γ) (cs : List (Clause n)) (loud : Bool) :
    let p := propagate s.forced s.forcedCount (s.clauses.toList ++ cs)
    let t := (s.withClauses cs).simplified loud
    t.ok = p.ok ∧ t.forced = p.forced ∧ t.forcedCount = p.forcedCount
      ∧ t.clauses.toList = p.clauses := by
  have hlist : (s.withClauses cs).clauses.toList = s.clauses.toList ++ cs := by
    simp [withClauses]
  simp only [simplified, hlist]
  exact ⟨rfl, rfl, rfl, rfl⟩

/-- **Simplifying clauses as they come in is simplifying them together.** Let a solver be
given some clauses and simplified, and then more clauses and simplified again. In the end
the clauses are refuted exactly if they are when all of them are simplified at once, and
otherwise the same values are forced, as many are counted, and the clauses that are left are
the same ones, in the same order, with their literals in the same order. -/
theorem simplify_in_parts (s : Solver n γ) (hv : s.verbosity.isSome = true)
    {first second : List Json} {as bs : List (Clause n)}
    (ha : first.mapM (readClause n) = .ok as) (hb : second.mapM (readClause n) = .ok bs) :
    ∃ b₁ s₁ b t b' t',
      (do addClauses first; simplify) s = .ok b₁ s₁
        ∧ (do addClauses second; simplify) s₁ = .ok b t
        ∧ (do addClauses (first ++ second); simplify) s = .ok b' t'
        ∧ b = b'
        ∧ (b = true →
          t.forced = t'.forced ∧ t.forcedCount = t'.forcedCount ∧ t.clauses = t'.clauses) := by
  have hrun : ∀ {values : List Json} {cs : List (Clause n)} (s : Solver n γ),
      values.mapM (readClause n) = .ok cs →
      (do addClauses values; simplify : Action n γ Bool) s = simplify (s.withClauses cs) :=
    fun s h => bind_run_of_ok (addClauses_of_read h s)
  have hboth := hrun s (mapM_readClause_append ha hb)
  cases hok : s.ok with
  | false =>
      have hfalse : ∀ {t : Solver n γ} (cs : List (Clause n)), t.ok = false →
          simplify (t.withClauses cs) = .ok false (t.withClauses cs) :=
        fun _ h => simplify_of_refuted h
      exact ⟨_, _, _, _, _, _, (hrun s ha).trans (hfalse as hok),
        (hrun _ hb).trans (hfalse bs hok), hboth.trans (hfalse (as ++ bs) hok), rfl,
        fun h => Bool.noConfusion h⟩
  | true =>
      obtain ⟨l₁, h₁⟩ := exists_simplify (s := s.withClauses as) hv hok
      obtain ⟨l, h⟩ := exists_simplify (s := s.withClauses (as ++ bs)) hv hok
      obtain ⟨hpok, hpf, hpk, hpcl⟩ := simplified_withClauses s as l₁
      obtain ⟨hrok, hrf, hrk, hrcl⟩ := simplified_withClauses s (as ++ bs) l
      rw [← List.append_assoc] at hrok hrf hrk hrcl
      cases hok₁ : ((s.withClauses as).simplified l₁).ok with
      | false =>
          have hrefuted := (justified_propagate s.forced s.forcedCount _).refutes (hpok ▸ hok₁)
          have hr := (hrefuted.1.append bs).propagate_eq s.forcedCount
          refine ⟨_, _, _, _, _, _, (hrun s ha).trans h₁,
            (hrun _ hb).trans (simplify_of_refuted hok₁), hboth.trans h, ?_,
            fun h => Bool.noConfusion h⟩
          rw [hrok, hr]
      | true =>
          obtain ⟨l₂, h₂⟩ :=
            exists_simplify (s := ((s.withClauses as).simplified l₁).withClauses bs) hv hok₁
          obtain ⟨hqok, hqf, hqk, hqcl⟩ :=
            simplified_withClauses ((s.withClauses as).simplified l₁) bs l₂
          rw [hpf, hpk, hpcl] at hqok hqf hqk hqcl
          obtain ⟨hverdict, hsame⟩ := propagate_append (hpok ▸ hok₁) bs
          refine ⟨_, _, _, _, _, _, (hrun s ha).trans h₁, (hrun _ hb).trans h₂,
            hboth.trans h, ?_, fun hb => ?_⟩
          · rw [hqok, hrok]
            exact hverdict
          · obtain ⟨hf, hk, hcl⟩ := hsame (hqok ▸ hb)
            refine ⟨hqf.trans (hf.trans hrf.symm), hqk.trans (hk.trans hrk.symm), ?_⟩
            exact Array.toList_inj.1 (hqcl.trans (hcl.trans hrcl.symm))

/-- A clause and the unit clause that comes later: the first simplification leaves the clause
whole, the second one without its false literal and its repetition, as one simplification
does. -/
theorem simplify_in_parts_of_late_unit :
    let s := new 4 Tape.zero
    let first : List Json := [.arr [.int (-1), .int 2, .int 3, .int 2]]
    let second : List Json := [.arr [.int 1], .arr [.int 4, .int (-4)]]
    ∃ b₁ s₁ t t', (do addClauses first; simplify) s = .ok b₁ s₁
      ∧ (do addClauses second; simplify) s₁ = .ok true t
      ∧ (do addClauses (first ++ second); simplify) s = .ok true t'
      ∧ t.forced = t'.forced ∧ t.forcedCount = t'.forcedCount ∧ t.clauses = t'.clauses
      ∧ t.clauses = #[[⟨1, true⟩, ⟨2, true⟩]] := by
  intro s first second
  have ha : first.mapM (readClause 4) =
      .ok [[⟨0, false⟩, ⟨1, true⟩, ⟨2, true⟩, ⟨1, true⟩]] := rfl
  have hb : second.mapM (readClause 4) = .ok [[⟨0, true⟩], [⟨3, true⟩, ⟨3, false⟩]] := rfl
  obtain ⟨b₁, s₁, b, t, b', t', h₁, h, h', rfl, hsame⟩ := simplify_in_parts s rfl ha hb
  have hresult : (match (do addClauses (first ++ second); simplify : Action 4 Tape Bool) s with
      | .ok b t => b && t.clauses == #[[⟨1, true⟩, ⟨2, true⟩]]
      | .error _ _ => false) = true := by
    subst s first second
    decide +kernel
  rw [h'] at hresult
  obtain ⟨rfl, hcl⟩ := Bool.and_eq_true_iff.1 hresult
  obtain ⟨hf, hk, hcl'⟩ := hsame rfl
  exact ⟨b₁, s₁, t, t', h₁, h, h', hf, hk, hcl', hcl'.trans (eq_of_beq hcl)⟩

end Solver

end LocalSat
