/-
Traces as text, and two ways of reading it.

* `Entry.move?_eq_none_iff`: the values that name no kind; `entriesText_of_find?`: the first of them
  keeps entries from being written, and nothing else does;
* `IsLiteralWord w`: a word is made of digits, after a minus sign or without one;
* `scanLiterals_append`: a letter, blanks and such a word give the word;
* `mapM_scanLiterals`: so the literals that are found in the text of a trace are those of its words;
* `trace_round_trip`: traces are read back from their text, and the literals in the text of a trace
  are those that the trace has.
-/
import LocalSat.Proofs.Except
import LocalSat.Proofs.Trace.Text

namespace LocalSat

open LocalSat.Text LocalSat.Number

/-! ### Kinds -/

namespace Move

/-- A letter is no blank. -/
lemma isBlank_letter (m : Move) : isBlank m.letter = false := by
  cases m <;> decide +kernel

/-- A character that names a kind is its letter. -/
lemma ofLetter?_eq_some_iff {c : Char} {m : Move} : ofLetter? c = some m ↔ c = m.letter := by
  constructor
  · intro h
    unfold ofLetter? at h
    split at h
    all_goals cases h
    all_goals rfl
  · rintro rfl
    exact ofLetter?_letter m

/-- A text that names a kind is its letter. -/
lemma ofText?_eq_some_iff {s : String} {m : Move} : ofText? s = some m ↔ s = m.text := by
  rw [← String.toList_inj, text, String.toList_singleton]
  unfold ofText?
  split
  · next c hc => rw [ofLetter?_eq_some_iff, hc, List.singleton_inj]
  · next hno => exact iff_of_false nofun (hno m.letter)

end Move

namespace Entry

/-- A value that names a kind is the text of its letter. -/
lemma move?_eq_some_iff {v : Json} {m : Move} : move? v = some m ↔ v = .str m.text := by
  unfold move?
  split
  · next s =>
    rw [Move.ofText?_eq_some_iff]
    exact ⟨fun h => h ▸ rfl, fun h => JsonString.plain.inj (Json.str.inj h)⟩
  · next hno => exact iff_of_false nofun (hno m.text)

/-- A value names no kind if it is the text of no letter. -/
lemma move?_eq_none_iff {v : Json} : move? v = none ↔ ∀ m : Move, v ≠ .str m.text := by
  rw [Option.eq_none_iff_forall_ne_some]
  exact forall_congr' fun m => not_congr move?_eq_some_iff

end Entry

/-! ### Writing -/

/-- An entry with two parts is written if the first one names a kind. -/
lemma Entry.words_of_move? {e : Entry} {kind literal : Json} {m : Move}
    (h : e.pair = .ok (kind, literal)) (hm : Entry.move? kind = some m) :
    e.words = .ok [[m.letter], literal.plainString.toList] := by
  rw [Entry.words, h]
  simp only [bind, Except.bind, hm]
  rfl

/-- Otherwise the value that names no kind is the cause of the failure. -/
lemma Entry.words_of_move?_eq_none {e : Entry} {kind literal : Json}
    (h : e.pair = .ok (kind, literal)) (hm : Entry.move? kind = none) :
    e.words = .error (.unknownKind kind.plainString) := by
  rw [Entry.words, h]
  simp only [bind, Except.bind, hm]
  rfl

/-- The entry of a flip is written as the flip is. -/
lemma Entry.words_ofFlip (f : Flip) : (Entry.ofFlip f).words = .ok f.words := by
  have hliteral : (Json.int f.literal).plainString = String.ofList (intText f.literal) := rfl
  rw [Entry.words_of_move? (Entry.pair_ofFlip f) (Entry.move?_eq_some_iff.2 rfl), hliteral,
    String.toList_ofList, Flip.words]

/-- Whether the first of two parts names no kind. -/
def isUnknownKind (p : Json × Json) : Bool := (Entry.move? p.1).isNone

/-- So it is if that is not the text of a letter. -/
lemma isUnknownKind_iff {p : Json × Json} :
    isUnknownKind p = true ↔ ∀ m : Move, p.1 ≠ .str m.text := by
  rw [isUnknownKind, Option.isNone_iff_eq_none, Entry.move?_eq_none_iff]

/-- Entries with two parts are written, unless there is a first one that names no kind. -/
lemma mapM_words_of_find? {es : List Entry} {ps : List (Json × Json)}
    (h : es.mapM Entry.pair = .ok ps) :
    (ps.find? isUnknownKind = none → ∃ parts, es.mapM Entry.words = .ok parts)
      ∧ ∀ p, ps.find? isUnknownKind = some p →
        es.mapM Entry.words = .error (.unknownKind p.1.plainString) := by
  induction es generalizing ps with
  | nil =>
      cases h
      exact ⟨fun _ => ⟨[], rfl⟩, nofun⟩
  | cons e es ih =>
      rw [List.mapM_cons] at h ⊢
      obtain ⟨⟨kind, literal⟩, he, h⟩ := exists_of_bind_eq_ok h
      obtain ⟨qs, hes, h⟩ := exists_of_bind_eq_ok h
      obtain rfl := Except.ok.inj h
      rw [List.find?_cons]
      cases hm : Entry.move? kind with
      | none =>
          rw [isUnknownKind, hm, Entry.words_of_move?_eq_none he hm]
          refine ⟨nofun, fun p hp => ?_⟩
          obtain rfl := Option.some.inj hp
          rfl
      | some m =>
          rw [isUnknownKind, hm, Entry.words_of_move? he hm]
          refine ⟨fun hnone => ?_, fun p hp => ?_⟩
          · obtain ⟨parts, hparts⟩ := (ih hes).1 hnone
            rw [hparts]
            exact ⟨_, rfl⟩
          · rw [(ih hes).2 p hp]
            rfl

/-! ### Blanks and digits -/

/-- No digit of any script has a code point in a range. -/
def isFarFromDigits (low high : Nat) : Bool := zeros.all fun z => high < z || z + 10 ≤ low

/-- A character out of such a range is no digit. -/
lemma isDigit_of_isFarFromDigits {c : Char} {low high : Nat}
    (hfar : isFarFromDigits low high = true) (hlow : low ≤ c.toNat) (hhigh : c.toNat ≤ high) :
    isDigit c = false := by
  have hnone : digitValue? c = none := by
    rw [digitValue?, List.findSome?_eq_none_iff]
    intro z hz
    have hz := List.all_eq_true.1 hfar z hz
    rw [Bool.or_eq_true, decide_eq_true_eq, decide_eq_true_eq] at hz
    exact if_neg (by omega)
  rw [isDigit, hnone]
  rfl

/-- A blank is no digit. -/
lemma isDigit_of_isBlank {c : Char} (h : isBlank c = true) : isDigit c = false := by
  unfold isBlank isSpace at h
  simp only [Bool.or_eq_true, Bool.and_eq_true, decide_eq_true_eq, beq_iff_eq] at h
  -- the blanks lie in four ranges that no digits lie in
  have hrange : c.toNat ≤ 32 ∨ (0x85 ≤ c.toNat ∧ c.toNat ≤ 0xA0)
      ∨ (0x1680 ≤ c.toNat ∧ c.toNat ≤ 0x1680) ∨ (0x2000 ≤ c.toNat ∧ c.toNat ≤ 0x3000) := by omega
  rcases hrange with hhigh | ⟨hlow, hhigh⟩ | ⟨hlow, hhigh⟩ | ⟨hlow, hhigh⟩
  · exact isDigit_of_isFarFromDigits (by decide) (Nat.zero_le _) hhigh
  · exact isDigit_of_isFarFromDigits (by decide) hlow hhigh
  · exact isDigit_of_isFarFromDigits (by decide) hlow hhigh
  · exact isDigit_of_isFarFromDigits (by decide) hlow hhigh

/-- A word is made of digits, after a minus sign or without one. -/
def IsLiteralWord (w : List Char) : Prop :=
  ∃ digits, digits ≠ [] ∧ (∀ c ∈ digits, isDigit c = true) ∧ (w = digits ∨ w = '-' :: digits)

/-- A run of digits ends at the end of a text or before a blank. -/
lemma span_digits {digits r : List Char} (hdigits : ∀ c ∈ digits, isDigit c = true)
    (hr : ∀ c ∈ r.head?, isBlank c = true) :
    (digits ++ r).takeWhile isDigit = digits ∧ (digits ++ r).dropWhile isDigit = r := by
  rw [List.takeWhile_append_of_pos hdigits, List.dropWhile_append_of_pos hdigits]
  cases r with
  | nil => exact ⟨List.append_nil digits, rfl⟩
  | cons c r =>
      have hc : ¬isDigit c = true := by simp [isDigit_of_isBlank (hr c rfl)]
      rw [List.takeWhile_cons_of_neg hc, List.dropWhile_cons_of_neg hc]
      exact ⟨List.append_nil digits, rfl⟩

/-! ### Scanning -/

/-- A literal after at least one blank is found as far as it goes. -/
lemma literalAfterBlanks?_append {b w r : List Char} (hb : b ≠ [])
    (hblank : ∀ c ∈ b, isBlank c = true) (hw : IsLiteralWord w)
    (hr : ∀ c ∈ r.head?, isBlank c = true) :
    literalAfterBlanks? (b ++ (w ++ r)) = some (w, r) := by
  obtain ⟨digits, hne, hdigits, hw⟩ := hw
  obtain ⟨htake, hdrop⟩ := span_digits hdigits hr
  obtain ⟨d, digits, rfl⟩ := List.exists_cons_of_ne_nil hne
  have hd := (List.forall_mem_cons.1 hdigits).1
  have hlength : ∀ t : List Char, ¬t.length = (b ++ t).length := fun t => by
    simpa using hb
  have hskip : ∀ (c : Char) (t : List Char), isBlank c = false →
      (b ++ c :: t).dropWhile isBlank = c :: t := fun c t hc => by
    rw [List.dropWhile_append_of_pos hblank, List.dropWhile_cons_of_neg (by simp [hc])]
  rcases hw with rfl | rfl
  · have hdblank : isBlank d = false := by
      by_contra hno
      rw [isDigit_of_isBlank (eq_true_of_ne_false hno)] at hd
      cases hd
    rw [List.cons_append] at htake hdrop ⊢
    rw [literalAfterBlanks?]
    simp only [hskip d _ hdblank, if_neg (hlength _)]
    split
    · next t hminus =>
      -- a digit is no minus sign
      rw [(List.cons.inj hminus).1] at hd
      exact absurd hd (by decide)
    · simp only [htake, hdrop]
      rfl
  · rw [List.cons_append, literalAfterBlanks?]
    simp only [hskip '-' _ (by decide +kernel), if_neg (hlength _), htake, hdrop]
    rfl

/-- Blanks are skipped. -/
lemma scanLiterals_blanks {b s : List Char} (hb : ∀ c ∈ b, isBlank c = true) :
    scanLiterals (b ++ s) = scanLiterals s := by
  induction b with
  | nil => rfl
  | cons c b ih =>
      rw [List.forall_mem_cons] at hb
      have hletter : (Move.ofLetter? c).isSome = false := by
        rw [Option.isSome_eq_false_iff, Option.isNone_iff_eq_none,
          Option.eq_none_iff_forall_ne_some]
        intro m hm
        rw [Move.ofLetter?_eq_some_iff.1 hm, Move.isBlank_letter] at hb
        exact absurd hb.1 (by decide)
      rw [List.cons_append, scanLiterals, ← ih hb.2]
      split
      · next hsome _ =>
        rw [hletter] at hsome
        cases hsome
      · rfl

/-- A literal after a letter is found. -/
lemma scanLiterals_letter {m : Move} {s w r : List Char} (h : literalAfterBlanks? s = some (w, r)) :
    scanLiterals (m.letter :: s) = w :: scanLiterals r := by
  have hletter : (Move.ofLetter? m.letter).isSome = true := by rw [Move.ofLetter?_letter]; rfl
  rw [scanLiterals]
  split
  · next digits r' hfound =>
    rw [h] at hfound
    cases hfound
    rfl
  · next hno => exact (hno _ _ hletter h).elim

/-- A word that names a kind is its letter. -/
lemma eq_letter_of_readMove {w : List Char} {m : Move} (h : readMove w = .ok m) :
    w = [m.letter] := by
  rw [readMove] at h
  split at h
  · next m' hm =>
    obtain rfl := Except.ok.inj h
    rw [← String.ofList_inj, Move.ofText?_eq_some_iff.1 hm]
    rfl
  · cases h

/-- The literals that are found in the text of a trace are those of its flips. -/
lemma mapM_scanLiterals {ws : List (List Char)} {flips : List Flip}
    (hread : readPairs ws = .ok flips) (heven : ¬ws.length % 2 = 1)
    (hliteral : ∀ (i : Nat) w, ws[2 * i + 1]? = some w → IsLiteralWord w) {s : List Char}
    (hs : words s = ws) : (scanLiterals s).mapM readWord = .ok (flips.map Flip.literal) := by
  fun_induction readPairs ws generalizing s flips with
  | case1 kind literal ws ih =>
      obtain ⟨m, hm, hread⟩ := exists_of_bind_eq_ok hread
      obtain ⟨l, hl, hread⟩ := exists_of_bind_eq_ok hread
      obtain ⟨others, hothers, hread⟩ := exists_of_bind_eq_ok hread
      obtain rfl := Except.ok.inj hread
      obtain rfl := eq_letter_of_readMove hm
      -- the letter, at least one blank and the literal come first
      obtain ⟨b, r, rfl, hb, -, -, hr, hwords⟩ := exists_of_wordsBy_eq_cons hs
      obtain ⟨gap, rest, rfl, hgap, hne, hw, hrest, hwords⟩ := exists_of_wordsBy_eq_cons hwords
      have hgap' : gap ≠ [] := by
        rintro rfl
        obtain ⟨c, literal, rfl⟩ := List.exists_cons_of_ne_nil hne
        have hblank := hr c rfl
        rw [(List.forall_mem_cons.1 hw).1] at hblank
        cases hblank
      have hfound := literalAfterBlanks?_append hgap' hgap (hliteral 0 literal rfl) hrest
      have htail := ih hothers (by rw [List.length_cons, List.length_cons] at heven; omega)
        (fun i w hi => hliteral (i + 1) w hi) hwords
      rw [scanLiterals_blanks hb, List.singleton_append, scanLiterals_letter hfound,
        List.mapM_cons, hl, htail]
      rfl
  | case2 ws hno =>
      obtain rfl : ws = [] := by
        match ws with
        | [] => rfl
        | [_] => exact absurd rfl heven
        | kind :: literal :: ws => exact (hno kind literal ws rfl).elim
      obtain rfl := Except.ok.inj hread
      have hblank := scanLiterals_blanks (s := []) (forall_of_wordsBy_eq_nil hs)
      rw [List.append_nil] at hblank
      rw [hblank, scanLiterals]
      rfl

/-! ### Round trips -/

/-- Entries cannot be written because of the first one that names no kind. -/
lemma entriesText_eq_error_iff {es : List Entry} {ps : List (Json × Json)}
    (h : es.mapM Entry.pair = .ok ps) (fault : Fault) :
    entriesText es = .error fault ↔ ∃ p, ps.find? isUnknownKind = some p
      ∧ fault = .unknownKind p.1.plainString := by
  obtain ⟨hknown, hunknown⟩ := mapM_words_of_find? h
  rw [entriesText]
  cases hp : ps.find? isUnknownKind with
  | none =>
      obtain ⟨parts, hparts⟩ := hknown hp
      rw [hparts]
      exact iff_of_false nofun nofun
  | some p =>
      rw [hunknown p hp]
      constructor
      · intro hfault
        cases hfault
        exact ⟨p, rfl, rfl⟩
      · rintro ⟨q, hq, rfl⟩
        cases hq
        rfl

/-- The entries of flips are written as the flips are. -/
lemma entriesText_ofFlip (flips : List Flip) :
    entriesText (flips.map Entry.ofFlip) = .ok (traceText flips) := by
  have hparts : (flips.map Entry.ofFlip).mapM Entry.words = .ok (flips.map Flip.words) :=
    mapM_map_eq_ok fun f _ => Entry.words_ofFlip f
  rw [entriesText, hparts, traceText, traceChars, List.flatMap_def]
  rfl

/-- **Traces as text.** Entries of two parts, of any kinds, are written unless a kind is not one of
the three letters, and the first such kind is what the failure is about. The entries of flips, with
any literals, are written, and the text is read back as these flips, as long as the literals do not
have more digits than may be read at all. Last, let a text be read as a trace, whatever blanks stand
between and around its words. If the words of the literals are digits of any script, perhaps with
zeros in front, after a minus sign or without one, then the literals that are found in the text
without regard to its words are those of the trace, in order. -/
theorem trace_round_trip :
    (∀ (es : List Entry) (ps : List (Json × Json)), es.mapM Entry.pair = .ok ps →
        ((∃ fault, entriesText es = .error fault) ↔ ∃ p ∈ ps, ∀ m : Move, p.1 ≠ .str m.text)
        ∧ ∀ fault, entriesText es = .error fault → ∃ done kind literal rest,
          ps = done ++ (kind, literal) :: rest ∧ (∀ p ∈ done, ∃ m : Move, p.1 = .str m.text)
          ∧ (∀ m : Move, kind ≠ .str m.text) ∧ fault = .unknownKind kind.plainString)
      ∧ (∀ flips : List Flip, ∃ text, entriesText (flips.map Entry.ofFlip) = .ok text
        ∧ ((∀ f ∈ flips, (natText f.literal.natAbs).length ≤ digitLimit) →
          readTrace text.toList = .ok flips))
      ∧ ∀ (s : List Char) (flips : List Flip), readTrace s = .ok flips →
        (∀ (i : Nat) w, (words s)[2 * i + 1]? = some w → IsLiteralWord w) →
        scanTrace s = .ok (flips.map Flip.literal) := by
  refine ⟨fun es ps h => ⟨⟨?_, ?_⟩, fun fault hfault => ?_⟩, fun flips => ?_,
    fun s flips hs hliteral => ?_⟩
  · rintro ⟨fault, hfault⟩
    obtain ⟨p, hp, -⟩ := (entriesText_eq_error_iff h fault).1 hfault
    exact ⟨p, List.mem_of_find?_eq_some hp, isUnknownKind_iff.1 (List.find?_some hp)⟩
  · rintro ⟨p, hp, hunknown⟩
    obtain ⟨q, hq⟩ := Option.isSome_iff_exists.1
      (List.find?_isSome.2 ⟨p, hp, isUnknownKind_iff.2 hunknown⟩)
    exact ⟨_, (entriesText_eq_error_iff h _).2 ⟨q, hq, rfl⟩⟩
  · obtain ⟨⟨kind, literal⟩, hp, rfl⟩ := (entriesText_eq_error_iff h fault).1 hfault
    obtain ⟨hunknown, done, rest, rfl, hdone⟩ := List.find?_eq_some_iff_append.1 hp
    refine ⟨done, kind, literal, rest, rfl, fun p hp => ?_, isUnknownKind_iff.1 hunknown, rfl⟩
    by_contra hno
    have hp' := hdone p hp
    rw [isUnknownKind_iff.2 fun m hm => hno ⟨m, hm⟩] at hp'
    cases hp'
  · exact ⟨traceText flips, entriesText_ofFlip flips, readTrace_traceText⟩
  · rw [readTrace] at hs
    split at hs
    · cases hs
    · next heven => exact mapM_scanLiterals hs heven hliteral rfl

/-- Two entries are not written because of the letter of the second one, and a flip is written and
read back. In a text with tabs, line breaks and a leading zero the literals are found that its trace
has. -/
theorem trace_round_trip_of_spellings :
    (∃ fault, entriesText [⟨.arr [.str "N", .int 1]⟩, ⟨.arr [.str "X", .int 2]⟩] = .error fault)
      ∧ (∃ text, entriesText [Entry.ofFlip ⟨.zeroBreak, -1⟩] = .ok text
        ∧ readTrace text.toList = .ok [⟨.zeroBreak, -1⟩])
      ∧ readTrace "\tN  -03\nG 5".toList = .ok [⟨.noise, -3⟩, ⟨.greedy, 5⟩]
      ∧ scanTrace "\tN  -03\nG 5".toList = .ok [-3, 5] := by
  obtain ⟨hfails, hwritten, hscanned⟩ := trace_round_trip
  have hread : readTrace "\tN  -03\nG 5".toList = .ok [⟨.noise, -3⟩, ⟨.greedy, 5⟩] :=
    eq_ok_of_toOption (by decide +kernel)
  have hwords : words "\tN  -03\nG 5".toList = [['N'], ['-', '0', '3'], ['G'], ['5']] := by
    decide +kernel
  refine ⟨?_, ?_, hread, hscanned _ _ hread fun i w hw => ?_⟩
  · refine (hfails _ [(.str "N", .int 1), (.str "X", .int 2)] rfl).1.2
      ⟨(.str "X", .int 2), by simp, fun m hm => ?_⟩
    have hx : Entry.move? (.str "X") = none := by decide +kernel
    exact Entry.move?_eq_none_iff.1 hx m hm
  · obtain ⟨text, htext, hback⟩ := hwritten [⟨.zeroBreak, -1⟩]
    exact ⟨text, htext, hback (by decide +kernel)⟩
  · have hdigit : isDigit '0' = true ∧ isDigit '3' = true ∧ isDigit '5' = true := by decide
    rw [hwords] at hw
    match i with
    | 0 =>
        obtain rfl := Option.some.inj hw
        exact ⟨['0', '3'], List.cons_ne_nil _ _, by simp [hdigit], .inr rfl⟩
    | 1 =>
        obtain rfl := Option.some.inj hw
        exact ⟨['5'], List.cons_ne_nil _ _, by simp [hdigit], .inl rfl⟩
    | i + 2 => cases hw

end LocalSat
