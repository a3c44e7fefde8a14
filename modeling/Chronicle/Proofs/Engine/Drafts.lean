import Chronicle.Engine.Decision
import Chronicle.Proofs.Engine.Revising

/-!
# Drafts of decisions

A decision is drafted command by command.  The runs that it begins have ids that were drawn on
the way, and its events record its commands in their order; after them stand at most the failures
of the children that were rejected, and none if the run closes.
-/

namespace Chronicle

/-! ## Ids of new runs -/

/-- Between the two, run ids were drawn, and nothing else was learnt that the program keeps. -/
structure Knowledge.Drew (before after : Knowledge) : Prop where
  drawn : before.drawn ⊆ after.drawn
  run : after.run = before.run
  history : after.history = before.history
  accepted : after.accepted = before.accepted

namespace Knowledge

theorem Drew.refl (knowledge : Knowledge) : Drew knowledge knowledge :=
  ⟨fun _ hmem => hmem, rfl, rfl, rfl⟩

theorem Drew.trans {first second third : Knowledge} (early : Drew first second)
    (late : Drew second third) : Drew first third :=
  ⟨fun _ hmem => late.drawn (early.drawn hmem), late.run.trans early.run,
    late.history.trans early.history, late.accepted.trans early.accepted⟩

theorem Drew.freshRunId (knowledge : Knowledge) (runId : Uuid) :
    Drew knowledge (knowledge.learn .freshRunId runId) :=
  ⟨fun _ hmem => List.mem_cons_of_mem _ hmem, rfl, rfl, rfl⟩

theorem Drew.currentRun (knowledge : Knowledge) (workflowId : String)
    (answer : Except StoreError Run) :
    Drew knowledge (knowledge.learn (.currentRun workflowId) answer) := by
  cases answer <;> exact .refl knowledge

end Knowledge

namespace Decision

/-- The runs that the commit begins have ids of their own that were drawn for them. -/
def Owned (commit : Commit) (knowledge : Knowledge) : Prop :=
  commit.newRunIds.Nodup ∧ ∀ runId ∈ commit.newRunIds, runId ∈ knowledge.drawn

theorem Owned.later {commit : Commit} {before after : Knowledge} (owned : Owned commit before)
    (drew : before.Drew after) : Owned commit after :=
  ⟨owned.1, fun runId hmem => drew.drawn (owned.2 runId hmem)⟩

theorem Owned.of_newRuns {first second : Commit} {knowledge : Knowledge}
    (owned : Owned first knowledge) (hsame : second.newRuns = first.newRuns) :
    Owned second knowledge := by
  unfold Owned Commit.newRunIds at *
  rw [hsame]
  exact owned

theorem Owned.add {first second : Commit} {knowledge : Knowledge}
    (owned : Owned first knowledge) (new : NewRun) (hnew : new.ref.runId ∉ knowledge.drawn)
    (hadded : second.newRuns = first.newRuns ++ [new]) :
    Owned second (knowledge.learn .freshRunId new.ref.runId) := by
  have hids : second.newRunIds = first.newRunIds ++ [new.ref.runId] := by
    simp [Commit.newRunIds, hadded]
  constructor
  · rw [hids, List.nodup_append]
    refine ⟨owned.1, by simp, ?_⟩
    intro first hfirst second hsecond heq
    rw [List.mem_singleton.1 hsecond] at heq
    exact hnew (owned.2 _ (heq ▸ hfirst))
  · intro runId hmem
    rw [hids] at hmem
    rcases List.mem_append.1 hmem with hold | hlast
    · exact List.mem_cons_of_mem _ (owned.2 runId hold)
    · rw [List.mem_singleton.1 hlast]
      exact List.mem_cons_self

variable {charter : Charter} {before : List Acceptance}

theorem nextRun_keeps (hinquiries : charter.AdmitsInquiries)
    (hundecided : charter.undecided before) (run : Run) (failure : Option Failure) (now : Instant)
    {commit : Commit} {knowledge : Knowledge} (hbefore : knowledge.accepted = before)
    (owned : Owned commit knowledge) :
    (nextRun run failure now).Keeps charter
      (fun next later => knowledge.Drew later ∧
        ∀ closed : Commit, closed.newRuns = commit.newRuns ++ next.toList → Owned closed later)
      knowledge := by
  have hsame : ∀ closed : Commit, closed.newRuns = commit.newRuns ++ [] → Owned closed knowledge := by
    intro closed hclosed
    exact owned.of_newRuns (by simpa using hclosed)
  unfold nextRun
  split
  · exact ⟨.refl knowledge, hsame⟩
  · rename_i attempt delay _
    split
    · apply Program.Keeps.inquire hinquiries
      · rfl
      · exact hbefore ▸ hundecided
      · intro runId hnew
        refine ⟨.freshRunId knowledge runId, ?_⟩
        intro closed hclosed
        exact owned.add (run.continuation runId attempt delay) hnew hclosed
    · show charter.undecided knowledge.accepted
      rw [hbefore]
      exact hundecided

/-- What every command leaves: drawn ids, and a draft that owns its new runs. -/
def Drafted (knowledge : Knowledge) (result : Except EngineError Draft) (later : Knowledge) :
    Prop :=
  knowledge.Drew later ∧ ∀ draft, result = .ok draft → Owned draft.commit later

theorem Drafted.here {knowledge : Knowledge} {before after : Draft}
    (owned : Owned before.commit knowledge)
    (hsame : after.commit.newRuns = before.commit.newRuns) :
    Drafted knowledge (.ok after) knowledge := by
  refine ⟨.refl knowledge, ?_⟩
  intro draft hdraft
  cases hdraft
  exact owned.of_newRuns hsame

def resolveChild (run : Run) (draft : Draft) (workflowId workflowType : String) (input : Json)
    (taskQueue : Option String) (options : WorkflowOptions) :
    Except EngineError Bool → Program (Except EngineError Draft)
  | .error error => return .error error
  | .ok true =>
      let failure := Failure.application s!"workflow {workflowId} is already running"
      return .ok (rejectChild draft workflowId workflowType (failure.withCode childAlreadyStarted))
  | .ok false => do
      let runId ← .request .freshRunId
      return .ok (acceptChild run draft workflowId workflowType input taskQueue options runId)

theorem startChild_cases (run : Run) (draft : Draft) (workflowId workflowType : String)
    (input : Json) (taskQueue : Option String) (options : WorkflowOptions) :
    let started := startChild run draft workflowId workflowType input taskQueue options
    let named := { draft with children := workflowId :: draft.children }
    (∃ failure, started = return .ok (rejectChild draft workflowId workflowType failure)) ∨
      started = resolveChild run named workflowId workflowType input taskQueue options (.ok true) ∨
      workflowId ∉ draft.children ∧ started = isRunning workflowId >>=
        resolveChild run named workflowId workflowType input taskQueue options := by
  intro started named
  cases hcron : options.cronSchedule.map CronSchedule.parse with
  | none =>
      right
      cases hrepeated : draft.children.contains workflowId with
      | true =>
          left
          simp only [started, startChild, hcron, hrepeated, if_true]
          rfl
      | false =>
          right
          refine ⟨by simpa using hrepeated, ?_⟩
          simp only [started, startChild, hcron, hrepeated, Bool.false_eq_true, if_false]
          rfl
  | some parsed =>
      cases parsed with
      | error cause =>
          left
          simp only [started, startChild, hcron]
          exact ⟨_, rfl⟩
      | ok schedule =>
          right
          cases hrepeated : draft.children.contains workflowId with
          | true =>
              left
              simp only [started, startChild, hcron, hrepeated, if_true]
              rfl
          | false =>
              right
              refine ⟨by simpa using hrepeated, ?_⟩
              simp only [started, startChild, hcron, hrepeated, Bool.false_eq_true, if_false]
              rfl

/-- A child is rejected, before its workflow id is taken or after, or it is accepted. -/
theorem draft_of_startChild {run : Run} {draft next : Draft} {workflowId workflowType : String}
    {input : Json} {taskQueue : Option String} {options : WorkflowOptions}
    (h : (startChild run draft workflowId workflowType input taskQueue options).Yields (.ok next)) :
    (∃ failure, next = rejectChild draft workflowId workflowType failure ∨
      next = rejectChild { draft with children := workflowId :: draft.children } workflowId
        workflowType failure) ∨
      workflowId ∉ draft.children ∧ ∃ runId,
        next = acceptChild run { draft with children := workflowId :: draft.children } workflowId
          workflowType input taskQueue options runId := by
  rcases startChild_cases run draft workflowId workflowType input taskQueue options with
    ⟨failure, hrejected⟩ | hrepeated | ⟨hnew, hasked⟩
  · rw [hrejected] at h
    cases h.eq_of_pure
    exact .inl ⟨failure, .inl rfl⟩
  · rw [hrepeated] at h
    cases h.eq_of_pure
    exact .inl ⟨_, .inr rfl⟩
  · rw [hasked] at h
    obtain ⟨running, -, hresolved⟩ := h.of_bind
    unfold resolveChild at hresolved
    split at hresolved
    · cases hresolved.eq_of_pure
    · cases hresolved.eq_of_pure
      exact .inl ⟨_, .inr rfl⟩
    · obtain ⟨runId, -, hnext⟩ := hresolved.of_bind
      cases hnext.eq_of_pure
      exact .inr ⟨hnew, runId, rfl⟩

theorem startChild_keeps (hinquiries : charter.AdmitsInquiries)
    (hundecided : charter.undecided before) (run : Run) (draft : Draft)
    (workflowId workflowType : String) (input : Json) (taskQueue : Option String)
    (options : WorkflowOptions) {knowledge : Knowledge} (hbefore : knowledge.accepted = before)
    (owned : Owned draft.commit knowledge) :
    (startChild run draft workflowId workflowType input taskQueue options).Keeps charter
      (Drafted knowledge) knowledge := by
  have hresolve : ∀ running later, knowledge.Drew later →
      (resolveChild run { draft with children := workflowId :: draft.children } workflowId
        workflowType input taskQueue options running).Keeps charter (Drafted knowledge) later := by
    intro running later drew
    have hlater := owned.later drew
    unfold resolveChild
    split
    · exact ⟨drew, by simp⟩
    · refine ⟨drew, ?_⟩
      intro rejected hrejected
      cases hrejected
      exact hlater.of_newRuns rfl
    · apply Program.Keeps.inquire hinquiries
      · rfl
      · rw [drew.accepted, hbefore]
        exact hundecided
      · intro runId hnew
        refine ⟨drew.trans (.freshRunId later runId), ?_⟩
        intro accepted haccepted
        cases haccepted
        exact hlater.add { NewRun.first ⟨workflowId, runId⟩ workflowType
          (taskQueue.getD run.taskQueue) input options with parent := some run.ref } hnew rfl
  rcases startChild_cases run draft workflowId workflowType input taskQueue options with
    ⟨failure, hrejected⟩ | hrepeated | ⟨-, hasked⟩
  · rw [hrejected]
    exact Drafted.here owned rfl
  · rw [hrepeated]
    exact hresolve _ knowledge (.refl knowledge)
  · rw [hasked]
    apply Program.Keeps.bind
    unfold isRunning
    apply Program.Keeps.inquire hinquiries
    · rfl
    · exact hbefore ▸ hundecided
    · intro answer _
      have drew := Knowledge.Drew.currentRun knowledge workflowId answer
      split <;> exact hresolve _ _ drew

theorem addCommand_keeps (hinquiries : charter.AdmitsInquiries)
    (hundecided : charter.undecided before) (run : Run) (ledger : Ledger) (now : Instant)
    (draft : Draft) (command : Command) {knowledge : Knowledge}
    (hbefore : knowledge.accepted = before) (owned : Owned draft.commit knowledge) :
    (addCommand run ledger now draft command).Keeps charter (Drafted knowledge) knowledge := by
  cases command with
  | startChild workflowId workflowType input taskQueue options =>
      exact startChild_keeps hinquiries hundecided run draft workflowId workflowType input taskQueue
        options hbefore owned
  | complete result =>
      apply Program.Keeps.bind
      apply (nextRun_keeps hinquiries hundecided run none now hbefore owned).weaken
      intro next later hnext
      refine ⟨hnext.1, ?_⟩
      intro closed hclosed
      cases hclosed
      exact hnext.2 _ rfl
  | fail failure =>
      apply Program.Keeps.bind
      apply (nextRun_keeps hinquiries hundecided run (some failure) now hbefore owned).weaken
      intro next later hnext
      refine ⟨hnext.1, ?_⟩
      intro closed hclosed
      cases hclosed
      exact hnext.2 _ rfl
  | cancel reason =>
      refine ⟨.refl knowledge, ?_⟩
      intro closed hclosed
      cases hclosed
      exact owned.of_newRuns (by simp [closeWith, close, Draft.record])
  | _ => exact Drafted.here owned rfl

theorem addCommands_keeps (hinquiries : charter.AdmitsInquiries)
    (hundecided : charter.undecided before) (run : Run) (ledger : Ledger) (now : Instant)
    (commands : List Command) (draft : Draft) {knowledge : Knowledge}
    (hbefore : knowledge.accepted = before) (owned : Owned draft.commit knowledge) :
    (addCommands run ledger now draft commands).Keeps charter (Drafted knowledge) knowledge := by
  induction commands generalizing draft knowledge with
  | nil => exact Drafted.here owned rfl
  | cons command rest ih =>
      unfold addCommands
      apply Program.Keeps.bind
      apply (addCommand_keeps hinquiries hundecided run ledger now draft command hbefore
        owned).weaken
      intro result later hresult
      obtain ⟨drew, hdrafted⟩ := hresult
      cases result with
      | error error => exact ⟨drew, by simp⟩
      | ok next =>
          have hnext := hdrafted next rfl
          simp only
          split
          · refine ⟨drew, ?_⟩
            intro last hlast
            cases hlast
            exact hnext
          · apply (ih next (drew.accepted.trans hbefore) hnext).weaken
            intro last final hfinal
            exact ⟨drew.trans hfinal.1, hfinal.2⟩

theorem build_keeps (hinquiries : charter.AdmitsInquiries) {knowledge : Knowledge}
    (hundecided : charter.undecided knowledge.accepted) (run : Run) (ledger : Ledger)
    (commands : List Command) (now : Instant) :
    (build run ledger commands now).Keeps charter
      (fun result later => knowledge.Drew later ∧
        ∀ commit, result = .ok commit → Owned commit later) knowledge := by
  unfold build
  apply Program.Keeps.bind
  have owned : Owned Draft.empty.commit knowledge := ⟨List.nodup_nil, by simp [Draft.empty,
    Commit.empty, Commit.ofEvents, Commit.newRunIds]⟩
  apply (addCommands_keeps hinquiries hundecided run ledger now commands .empty rfl owned).weaken
  intro result later hresult
  obtain ⟨drew, hdrafted⟩ := hresult
  cases result with
  | error error => exact ⟨drew, by simp⟩
  | ok draft =>
      refine ⟨drew, ?_⟩
      intro commit hcommit
      cases hcommit
      apply (hdrafted draft rfl).of_newRuns
      unfold finish
      split <;> rfl

end Decision

end Chronicle
