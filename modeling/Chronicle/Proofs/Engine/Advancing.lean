import Chronicle.Proofs.Engine.Notices
import Chronicle.Proofs.Replay.Acceptance
import Chronicle.Proofs.Replay.Stops

/-!
# Workflow tasks keep a charter

A workflow task commits at most once: what the replay of the history asks for, or the failure of a
run whose input its workflow cannot read.
-/

namespace Chronicle

namespace Engine

/-- The commit is what the workflow decided on the history. -/
def Decided (engine : Engine) (ref : RunRef) (run : Run) (history : List HistoryEvent)
    (commit : Commit) : Prop :=
  run.ref = ref ∧ ∃ outcome now,
    replay engine.limits.replayLimit engine.registry ref history = .ok outcome ∧
    outcome.closed = false ∧ outcome.newCommands ≠ [] ∧
    (Decision.build run (.ofHistory history) outcome.newCommands now).Yields (.ok commit)

def undecodable (reason : String) : Failure :=
  (Failure.application s!"workflow input does not decode: {reason}").withCode invalidInput

/-- The commit fails a run whose workflow cannot read its input. -/
def Refused (engine : Engine) (ref : RunRef) (run : Run) (history : List HistoryEvent)
    (commit : Commit) : Prop :=
  run.ref = ref ∧ ∃ reason,
    replay engine.limits.replayLimit engine.registry ref history =
      .error (.error (.registry (.undecodableInput reason))) ∧
    (forceClose (.workflowFailed (undecodable reason))
      ⟨.failed, none, some (undecodable reason)⟩ run (.ofHistory history)).Writes commit

/-- What a workflow task that returned has committed, after what was accepted before. -/
def Told (ref : RunRef) (before : List Acceptance) :
    Except EngineError TaskResult → Knowledge → Prop
  | .ok result, later =>
      if 0 < result.eventsWritten then
        ∃ expected commit version, later.accepted = before ++ [⟨ref, expected, commit, version⟩]
      else later.accepted = before
  | .error _, later => later.accepted = before

theorem Decided.batch {engine : Engine} {ref : RunRef} {run : Run} {history : List HistoryEvent}
    {commit : Commit} (decided : engine.Decided ref run history commit) :
    commit.Tidy ∧ 0 < commit.events.length := by
  obtain ⟨-, outcome, now, hreplay, -, hsome, hyields⟩ := decided
  obtain ⟨hkeyed, hcut⟩ := Replay.decided_of_replay hreplay
  obtain ⟨recorded, rejected, batch⟩ := Decision.batch_of_build hyields
  refine ⟨batch.tidy, ?_⟩
  have hkeys := congrArg List.length batch.keys
  rw [hcut, List.length_map, List.length_map] at hkeys
  rw [batch.events, List.length_append]
  cases hcommands : outcome.newCommands with
  | nil => exact absurd hcommands hsome
  | cons command rest =>
      obtain ⟨key, hkey⟩ := Option.isSome_iff_exists.1
        (hkeyed command (hcommands ▸ List.mem_cons_self))
      rw [hcommands, List.filterMap_cons_some hkey, List.length_cons] at hkeys
      omega

variable {charter : Charter} {engine : Engine} {ref : RunRef} {before : List Acceptance}

theorem failInvalidInput_keeps (hinquiries : charter.AdmitsInquiries)
    (hundecided : charter.undecided before)
    (hrefused : ∀ run history commit, engine.Refused ref run history commit →
      charter.warrants run history commit)
    {knowledge : Knowledge} (hbefore : knowledge.accepted = before) {earlier : List HistoryEvent}
    (hearlier : knowledge.history = some (ref, earlier)) {reason : String}
    (hreplay : replay engine.limits.replayLimit engine.registry ref earlier =
      .error (.error (.registry (.undecodableInput reason)))) :
    (engine.failInvalidInput ref reason).Keeps charter (Told ref before) knowledge := by
  unfold failInvalidInput revise
  apply Program.Keeps.bind
  apply (Revision.attempt_keeps hinquiries hundecided engine.rounds knowledge hbefore ?_).weaken
  · intro result later htold
    cases result with
    | error error =>
        cases error with
        | runClosed closed => exact htold
        | _ => exact htold
    | ok revised =>
        cases revised with
        | kept reason =>
            obtain ⟨-, run, ledger, hkept⟩ := htold
            cases hkept
        | written version =>
            obtain ⟨expected, commit, haccepted⟩ := htold
            exact ⟨expected, commit, version, haccepted⟩
  · intro run history commit href hgrown hwrites
    obtain ⟨-, hnewRuns, -⟩ := tidy_of_forceClose rfl rfl hwrites
    have hgrew := hgrown earlier hearlier
    exact ⟨hrefused run history commit
      ⟨href, reason, Replay.undecodable_of_prefix hgrew hreplay, hwrites⟩, hnewRuns⟩

theorem commitDecision_keeps (hinquiries : charter.AdmitsInquiries)
    (hundecided : charter.undecided before) {run : Run} {history : List HistoryEvent}
    {outcome : ReplayOutcome} {again : Program (Except EngineError TaskResult)}
    (hdecided : ∀ commit, engine.Decided ref run history commit →
      charter.warrants run history commit)
    (href : run.ref = ref)
    (hreplay : replay engine.limits.replayLimit engine.registry ref history = .ok outcome)
    (hopen : outcome.closed = false) (hsome : outcome.newCommands ≠ [])
    {knowledge : Knowledge} (hbefore : knowledge.accepted = before)
    (hrun : knowledge.run = some run) (hhistory : knowledge.history = some (ref, history))
    (hagain : ∀ later : Knowledge, later.accepted = before →
      again.Keeps charter (Told ref before) later) :
    (commitDecision run history outcome.newCommands again).Keeps charter (Told ref before)
      knowledge := by
  unfold commitDecision
  apply Program.Keeps.inquire hinquiries
  · rfl
  · exact hbefore ▸ hundecided
  intro now _
  have hbuilt : (Decision.build run (.ofHistory history) outcome.newCommands now).Keeps charter _
      knowledge := Decision.build_keeps hinquiries (hbefore ▸ hundecided) run _ _ now
  apply Program.Keeps.bind
  apply hbuilt.yields.weaken
  intro result later hresult
  obtain ⟨⟨drew, howned⟩, hyields⟩ := hresult
  have hlater : later.accepted = before := drew.accepted.trans hbefore
  cases result with
  | error error => exact hlater
  | ok commit =>
      have decided : engine.Decided ref run history commit :=
        ⟨href, outcome, now, hreplay, hopen, hsome, hyields⟩
      obtain ⟨hdistinct, hdrawn⟩ := howned commit rfl
      apply Program.Keeps.request
      · exact hlater ▸ hundecided
      · exact ⟨run, history, drew.run.trans hrun, rfl, by rw [href, drew.history, hhistory], rfl,
          hdecided commit decided, hdistinct, hdrawn⟩
      intro answer _
      cases answer with
      | ok version =>
          show if 0 < commit.events.length then _ else _
          rw [if_pos decided.batch.2]
          refine ⟨history.length, commit, version, ?_⟩
          rw [← hlater, ← href]
          rfl
      | error error =>
          cases error with
          | versionConflict expected found =>
              apply hagain
              exact hlater
          | alreadyStarted workflowId runId =>
              apply hagain
              exact hlater
          | _ => exact hlater

theorem decide_keeps (hinquiries : charter.AdmitsInquiries)
    (hundecided : charter.undecided before)
    (hdecided : ∀ run history commit, engine.Decided ref run history commit →
      charter.warrants run history commit)
    (hrefused : ∀ run history commit, engine.Refused ref run history commit →
      charter.warrants run history commit)
    {run : Run} {history : List HistoryEvent} {again : Program (Except EngineError TaskResult)}
    (href : run.ref = ref) {knowledge : Knowledge} (hbefore : knowledge.accepted = before)
    (hrun : knowledge.run = some run) (hhistory : knowledge.history = some (ref, history))
    (hagain : ∀ later : Knowledge, later.accepted = before →
      again.Keeps charter (Told ref before) later) :
    (engine.decide run ref history again).Keeps charter (Told ref before) knowledge := by
  unfold decide
  split
  · show charter.undecided knowledge.accepted
    rw [hbefore]
    exact hundecided
  · rename_i reason hreplay
    exact failInvalidInput_keeps hinquiries hundecided hrefused hbefore hhistory hreplay
  · exact hbefore
  · rename_i outcome hreplay
    split
    · exact hbefore
    · rename_i hopen
      split
      · exact hbefore
      · rename_i hsome
        apply commitDecision_keeps hinquiries hundecided (hdecided run history) href hreplay
        · simpa using hopen
        · simpa using hsome
        · exact hbefore
        · exact hrun
        · exact hhistory
        · exact hagain

/-- A workflow task commits only what its replay decided or what its input refuses. -/
theorem advance_keeps (hinquiries : charter.AdmitsInquiries)
    (hundecided : charter.undecided before)
    (hdecided : ∀ run history commit, engine.Decided ref run history commit →
      charter.warrants run history commit)
    (hrefused : ∀ run history commit, engine.Refused ref run history commit →
      charter.warrants run history commit)
    (rounds : Nat) {knowledge : Knowledge} (hbefore : knowledge.accepted = before) :
    (engine.advance ref rounds).Keeps charter (Told ref before) knowledge := by
  induction rounds generalizing knowledge with
  | zero => exact hbefore
  | succ rounds ih =>
      unfold advance
      apply Program.Keeps.inquire hinquiries
      · rfl
      · exact hbefore ▸ hundecided
      intro got href
      cases got with
      | error error => exact hbefore
      | ok run =>
          simp only
          split
          · exact hbefore
          apply Program.Keeps.inquire hinquiries
          · rfl
          · exact hbefore ▸ hundecided
          intro read _
          cases read with
          | error error => exact hbefore
          | ok history =>
              simp only
              split
              · exact hbefore
              · apply decide_keeps hinquiries hundecided hdecided hrefused href
                · exact hbefore
                · rfl
                · rfl
                · -- after a conflict the task starts over, and has still committed nothing
                  intro later hlater
                  exact ih hlater

theorem processTask_keeps (hinquiries : charter.AdmitsInquiries)
    (hundecided : charter.undecided before)
    (hdecided : ∀ run history commit, engine.Decided ref run history commit →
      charter.warrants run history commit)
    (hrefused : ∀ run history commit, engine.Refused ref run history commit →
      charter.warrants run history commit)
    {knowledge : Knowledge} (hbefore : knowledge.accepted = before) :
    (engine.processTask ref).Keeps charter (Told ref before) knowledge :=
  advance_keeps hinquiries hundecided hdecided hrefused engine.rounds hbefore

end Engine

end Chronicle
