import Chronicle.Engine.Basic
import Chronicle.Proofs.Program.Answers

/-!
# Revisions keep a charter

A revision commits at most once, and then returns at once; whatever else it returns, it has
committed nothing.
-/

namespace Chronicle

namespace Charter

def AdmitsInquiries (charter : Charter) : Prop :=
  ∀ request, request.isInquiry = true → charter.admits request

theorem AdmitsInquiries.permits {charter : Charter} (hinquiries : charter.AdmitsInquiries)
    {request : Request} (hrequest : request.isInquiry = true) (knowledge : Knowledge) :
    charter.permits knowledge request := by
  cases request with
  | createRun new => cases hrequest
  | commit ref expected commit => cases hrequest
  | _ => exact hinquiries _ hrequest

end Charter

theorem Program.Keeps.inquire {charter : Charter} {β : Type} {post : β → Knowledge → Prop}
    {request : Request} {next : request.Answer → Program β} {knowledge : Knowledge}
    (hinquiries : charter.AdmitsInquiries) (hrequest : request.isInquiry = true)
    (hundecided : charter.undecided knowledge.accepted)
    (hnext : ∀ answer, knowledge.Credible request answer →
      (next answer).Keeps charter post (knowledge.learn request answer)) :
    (Program.request request >>= next).Keeps charter post knowledge :=
  .request hundecided (hinquiries.permits hrequest knowledge) hnext

namespace Revision

variable {α : Type}

/-- The revision can end with the commit. -/
def Writes : Revision α → Commit → Prop
  | .keep _, _ => False
  | .write written, commit => written = commit
  | .writeAt written, commit => ∃ now, written now = commit

/-- What a revision that returned has committed, after what was accepted before. -/
def Told (reviser : Reviser α) (ref : RunRef) (before : List Acceptance) :
    Except EngineError (Revised α) → Knowledge → Prop
  | .ok (.written version), later =>
      ∃ expected commit, later.accepted = before ++ [⟨ref, expected, commit, version⟩]
  | .ok (.kept reason), later =>
      later.accepted = before ∧ ∃ run ledger, reviser run ledger = .keep reason
  | .error _, later => later.accepted = before

variable {charter : Charter}

theorem outcome_keeps {post : Except α Commit → Knowledge → Prop} {revision : Revision α}
    {knowledge : Knowledge} (hinquiries : charter.AdmitsInquiries)
    (hundecided : charter.undecided knowledge.accepted)
    (hkept : ∀ reason, revision = .keep reason → post (.error reason) knowledge)
    (hwritten : ∀ commit, revision.Writes commit → post (.ok commit) knowledge) :
    revision.outcome.Keeps charter post knowledge := by
  cases revision with
  | keep reason => exact hkept reason rfl
  | write commit => exact hwritten commit rfl
  | writeAt commit =>
      apply Program.Keeps.inquire hinquiries
      · rfl
      · exact hundecided
      · intro now _
        exact hwritten (commit now) ⟨now, rfl⟩

theorem attempt_keeps {ref : RunRef} {reviser : Reviser α} (hinquiries : charter.AdmitsInquiries)
    {before : List Acceptance} (hundecided : charter.undecided before) (rounds : Nat)
    (knowledge : Knowledge) (hbefore : knowledge.accepted = before)
    (hwarrants : ∀ (run : Run) (history : List HistoryEvent) (commit : Commit), run.ref = ref →
      (∀ earlier, knowledge.history = some (ref, earlier) → earlier <+: history) →
      (reviser run (.ofHistory history)).Writes commit →
      charter.warrants run history commit ∧ commit.newRuns = []) :
    (Revision.attempt ref reviser rounds).Keeps charter (Told reviser ref before) knowledge := by
  -- a round that another writer has forestalled starts over with more knowledge
  induction rounds generalizing knowledge with
  | zero => exact hbefore
  | succ rounds ih =>
      unfold Revision.attempt
      apply Program.Keeps.inquire hinquiries
      · rfl
      · exact hbefore ▸ hundecided
      intro got href
      cases got with
      | error error => exact hbefore
      | ok run =>
          simp only
          split
          · exact hbefore
          apply Program.Keeps.inquire hinquiries
          · rfl
          · exact hbefore ▸ hundecided
          intro read hgrown
          cases read with
          | error error => exact hbefore
          | ok history =>
              apply Program.Keeps.bind
              apply outcome_keeps hinquiries
              · exact hbefore ▸ hundecided
              · intro reason hkept
                exact ⟨hbefore, run, _, hkept⟩
              · intro commit hwrites
                obtain ⟨hwarranted, hnone⟩ := hwarrants run history commit href hgrown hwrites
                have hids : commit.newRunIds = [] := by simp [Commit.newRunIds, hnone]
                apply Program.Keeps.request
                · exact hbefore ▸ hundecided
                · exact ⟨run, history, rfl, href, rfl, rfl, hwarranted, by simp [hids],
                    by simp [hids]⟩
                · intro answer _
                  cases answer with
                  | ok version => exact ⟨history.length, commit, hbefore ▸ rfl⟩
                  | error error =>
                      cases error with
                      | versionConflict expected found =>
                          -- later histories extend the one that was read in this round
                          apply ih
                          · exact hbefore
                          · intro later events other hlater hextends hother
                            apply hwarrants later events other hlater _ hother
                            intro earlier hearlier
                            exact (hgrown earlier hearlier).trans (hextends history rfl)
                      | _ => exact hbefore

end Revision

end Chronicle
