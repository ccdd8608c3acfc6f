/-
Logs of questions.

* `Reply.call`: the entry of an answered question in a log;
* `Replies.logged`: a logged source answers as the source does, and its log grows by the
  questions, in order;
* a logged source is lawful if the source is.
-/
import LocalSat.Proofs.Random.Replies
import LocalSat.Random.Script

namespace LocalSat

variable {γ : Type}

/-- The entry of a question in a log. -/
def Reply.call : Reply → Call
  | .coin chance _ => .coin (.float chance)
  | .index length _ => .index (.int length)

/-- A question that a logged source has answered was answered by the source, and is noted. -/
lemma Logged.ask_eq_ok {α : Type} {call : Call} {question : EStateM Fault γ α} {g g' : Logged γ}
    {a : α} (h : Logged.ask call question g = .ok a g') :
    question g.source = .ok a g'.source ∧ g'.calls = g.calls.push call := by
  rw [Logged.ask] at h
  split at h
  · next b source hq =>
    cases h
    exact ⟨hq, rfl⟩
  · cases h

variable [RandomSource γ]

/-- A logged source answers as the source does, and notes the questions in order. -/
lemma Replies.logged {g g' : Logged γ} {qs : List Reply} (h : Replies g qs g') :
    Replies g.source qs g'.source ∧ g'.calls.toList = g.calls.toList ++ qs.map Reply.call := by
  induction h with
  | nil g => exact ⟨.nil g.source, by simp⟩
  | coin hcoin _ ih =>
      obtain ⟨hanswer, hcalls⟩ := Logged.ask_eq_ok hcoin
      refine ⟨.coin hanswer ih.1, ?_⟩
      rw [ih.2, hcalls, Array.toList_push, List.append_assoc]
      rfl
  | index hindex _ ih =>
      obtain ⟨hanswer, hcalls⟩ := Logged.ask_eq_ok hindex
      refine ⟨.index hanswer ih.1, ?_⟩
      rw [ih.2, hcalls, Array.toList_push, List.append_assoc]
      rfl

/-- A logged source is lawful if the source is. -/
instance [LawfulSource γ] : LawfulSource (Logged γ) where
  coin_ok chance g := by
    obtain ⟨heads, source, h⟩ := LawfulSource.coin_ok chance g.source
    have hask : Logged.ask (.coin (.float chance)) (RandomSource.coin chance) g
        = .ok heads ⟨source, g.calls.push (.coin (.float chance))⟩ := by
      rw [Logged.ask, h]
    exact ⟨heads, _, hask⟩
  index_ok length g hlength := by
    obtain ⟨i, source, h, hi⟩ := LawfulSource.index_ok length g.source hlength
    have hask : Logged.ask (.index (.int length)) (RandomSource.index length) g
        = .ok i ⟨source, g.calls.push (.index (.int length))⟩ := by
      rw [Logged.ask, h]
    exact ⟨i, _, hask, hi⟩

end LocalSat
