import Chronicle.Proofs.Engine.Protocol
import Chronicle.Proofs.Engine.Revising
import Chronicle.Proofs.Program.Timeliness

/-!
# Dialogues

What a program asks, what it is told, and what comes of it, whoever else acts on the store between
two of its requests.
-/

namespace Chronicle

/-- A request with its answer. -/
structure Asked where
  request : Request
  answer : request.Answer

namespace Asked

/-- The request only looks, or it is a commit that was refused. -/
def LeavesStore : Asked → Prop
  | ⟨.commit _ _ _, .error _⟩ => True
  | ⟨request, _⟩ => request.isInquiry = true

theorem LeavesStore.of_looksAway {asked : Asked} (h : asked.request.looksAway = true) :
    asked.LeavesStore := by
  obtain ⟨request, answer⟩ := asked
  cases request <;> first | exact rfl | cases h

theorem LeavesStore.store {request : Request} {answer : request.Answer} {world after : World}
    (leaves : LeavesStore ⟨request, answer⟩)
    (answered : World.answer request world = (.ok answer, after)) : after.store = world.store := by
  cases request with
  | commit ref expected commit =>
      cases answer with
      | ok version => cases leaves
      | error error =>
          rcases World.answer_commit answered with ⟨cause, -, rfl⟩ | ⟨version, now, record, hresult, -⟩
          · rfl
          · cases hresult
  | _ => exact World.store_of_inquiry leaves answered

end Asked

namespace Program

variable {α β : Type}

/-- With these answers the program comes to this result.  A request without an answer ends it. -/
inductive Dialogue : Program α → List Asked → Except Crash α → Prop where
  | done (value : α) : Dialogue (.done value) [] (.ok value)
  | ask {request : Request} {next : request.Answer → Program α} {asked : List Asked}
      {result : Except Crash α} (answer : request.Answer)
      (rest : Dialogue (next answer) asked result) :
      Dialogue (.ask request next) (⟨request, answer⟩ :: asked) result
  | unanswered {request : Request} {next : request.Answer → Program α} (cause : Crash) :
      Dialogue (.ask request next) [] (.error cause)
  | crash (cause : Crash) : Dialogue (.crash cause) [] (.error cause)

namespace Dialogue

theorem of_bind {program : Program α} {next : α → Program β} {asked : List Asked}
    {result : Except Crash β} (dialogue : (program >>= next).Dialogue asked result) :
    (∃ first value second, program.Dialogue first (.ok value) ∧
        (next value).Dialogue second result ∧ asked = first ++ second) ∨
      ∃ cause, program.Dialogue asked (.error cause) ∧ result = .error cause := by
  induction program generalizing asked with
  | done value => exact .inl ⟨[], value, asked, .done value, dialogue, rfl⟩
  | ask request rest ih =>
      cases dialogue with
      | ask answer dialogue =>
          rcases ih answer dialogue with ⟨first, value, second, hfirst, hsecond, rfl⟩ |
            ⟨cause, hfirst, rfl⟩
          · exact .inl ⟨_, value, second, .ask answer hfirst, hsecond, rfl⟩
          · exact .inr ⟨cause, .ask answer hfirst, rfl⟩
      | unanswered cause => exact .inr ⟨cause, .unanswered cause, rfl⟩
  | crash cause =>
      cases dialogue
      exact .inr ⟨cause, .crash cause, rfl⟩

theorem of_done {value : α} {asked : List Asked} {result : Except Crash α}
    (dialogue : (pure value : Program α).Dialogue asked result) :
    asked = [] ∧ result = .ok value := by
  cases dialogue
  exact ⟨rfl, rfl⟩

theorem of_crash {cause : Crash} {asked : List Asked} {result : Except Crash α}
    (dialogue : (.crash cause : Program α).Dialogue asked result) :
    asked = [] ∧ result = .error cause := by
  cases dialogue
  exact ⟨rfl, rfl⟩

theorem of_looksAway {program : Program α} {asked : List Asked} {result : Except Crash α}
    (dialogue : program.Dialogue asked result) (looksAway : program.LooksAway) :
    ∀ talk ∈ asked, talk.request.looksAway = true := by
  induction dialogue with
  | ask answer rest ih =>
      intro talk hmem
      rcases List.mem_cons.1 hmem with rfl | hlater
      · exact looksAway.1
      · exact ih (looksAway.2 answer) talk hlater
  | _ => exact fun _ hnone => nomatch hnone

/-! ### Up to a certain talk -/

section

variable {early late : List Asked} {talk : Asked}

theorem not_done {value : α} {result : Except Crash α} :
    ¬(pure value : Program α).Dialogue (early ++ talk :: late) result := by
  intro dialogue
  have hnone := dialogue.of_done.1
  simp at hnone

/-- It is the first talk, or a later one. -/
theorem of_request {request : Request} {next : request.Answer → Program β} {result : Except Crash β}
    (dialogue : (Program.request request >>= next).Dialogue (early ++ talk :: late) result) :
    ∃ answer, (early = [] ∧ talk = ⟨request, answer⟩ ∧ (next answer).Dialogue late result) ∨
      ∃ front, early = ⟨request, answer⟩ :: front ∧
        (next answer).Dialogue (front ++ talk :: late) result := by
  generalize hall : early ++ talk :: late = asked at dialogue
  cases dialogue with
  | unanswered cause => simp at hall
  | @ask _ _ rest _ answer dialogue =>
      refine ⟨answer, ?_⟩
      rcases List.append_eq_cons_iff.1 hall with ⟨rfl, hcons⟩ | ⟨front, rfl, rfl⟩
      · obtain ⟨rfl, rfl⟩ := List.cons.inj hcons
        exact .inl ⟨rfl, rfl, dialogue⟩
      · exact .inr ⟨front, rfl, dialogue⟩

theorem of_other {request : Request} {next : request.Answer → Program β} {result : Except Crash β}
    (dialogue : (Program.request request >>= next).Dialogue (early ++ talk :: late) result)
    (hother : talk.request ≠ request) :
    ∃ answer front, early = ⟨request, answer⟩ :: front ∧
      (next answer).Dialogue (front ++ talk :: late) result := by
  obtain ⟨answer, ⟨-, rfl, -⟩ | ⟨front, hearly, dialogue⟩⟩ := dialogue.of_request
  · exact absurd rfl hother
  · exact ⟨answer, front, hearly, dialogue⟩

/-- The first program does not come to ask that. -/
theorem of_looksAway_bind {program : Program α} {next : α → Program β} {result : Except Crash β}
    (dialogue : (program >>= next).Dialogue (early ++ talk :: late) result)
    (looksAway : program.LooksAway) (hother : talk.request.looksAway = false) :
    ∃ first value front, early = first ++ front ∧ program.Dialogue first (.ok value) ∧
      (next value).Dialogue (front ++ talk :: late) result := by
  rcases dialogue.of_bind with ⟨first, value, second, hfirst, hsecond, hsplit⟩ | ⟨cause, hfirst, -⟩
  · rcases append_eq_split hsplit.symm with ⟨rest, -, rfl⟩ | ⟨front, rfl, rfl⟩
    · have hlooks := hfirst.of_looksAway looksAway talk (by simp)
      rw [hother] at hlooks
      cases hlooks
    · exact ⟨first, value, front, rfl, hfirst, hsecond⟩
  · have hlooks := hfirst.of_looksAway looksAway talk (by simp)
    rw [hother] at hlooks
    cases hlooks

end

end Dialogue

end Program

end Chronicle
