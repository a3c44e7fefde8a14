import Chronicle.Proofs.Engine.Advancing

/-!
# The offspring of a commit

The runs that a commit begins are children of its run, and at most one run that continues it when it
closes.  The children have workflow ids of their own; a child that is not started is reported as
failed at the end of the same commit, unless the run closes.
-/

namespace Chronicle

namespace Event

/-- Workflow id of a child that was asked for and not started. -/
def refusedChild? : Event → Option String
  | .childStarted workflowId runId _ => if runId = .nil then some workflowId else none
  | _ => none

/-- Workflow id of a child whose rejection is reported. -/
def rejectedChild? : Event → Option String
  | .childFailed workflowId runId _ => if runId = .nil then some workflowId else none
  | _ => none

theorem isChildReport_of_key? {event : Event} (h : event.key? ≠ none) :
    event.isChildReport = false := by
  cases event <;> simp_all [key?, isChildReport]

end Event

namespace Commit

/-- The new runs are the children that the events start. -/
structure Bears (commit : Commit) (run : Run) (children : List NewRun) : Prop where
  begun : ∀ child ∈ children, child.parent = some run.ref ∧ child.attempt = 1 ∧
    Event.childStarted child.ref.workflowId child.ref.runId child.workflowType ∈ commit.events
  started : ∀ workflowId runId workflowType,
    Event.childStarted workflowId runId workflowType ∈ commit.events → runId ≠ .nil →
    ⟨workflowId, runId⟩ ∈ children.map NewRun.ref
  distinct : (children.map fun child => child.ref.workflowId).Nodup

/-- After all that was recorded, each child that was refused is reported as failed, in order; a
commit that closes its run reports none. -/
def Answers (commit : Commit) : Prop :=
  ∃ recorded rejected, commit.events = recorded ++ rejected ∧
    (∀ event ∈ recorded, event.isChildReport = false) ∧
    rejected.map Event.rejectedChild? =
      if commit.closing.isSome then [] else (recorded.filterMap Event.refusedChild?).map some

/-- A run that continues the one that closes is planned for by its retries and its schedule. -/
def Continues (run : Run) (closing : Closing) (next : Option NewRun) : Prop :=
  ∀ new ∈ next, (closing.failure.isSome = true → closing.status = .failed) ∧
    ∃ now runId attempt delay,
      Decision.continuationPlan? run closing.failure now = some (attempt, delay) ∧
      new = run.continuation runId attempt delay

/-- What a commit brings forth that is built from a run and its ledger. -/
structure Begets (commit : Commit) (run : Run) (ledger : Ledger) (children : List NewRun)
    (next : Option NewRun) : Prop where
  tidy : commit.Tidy
  newRuns : commit.newRuns = children ++ next.toList
  bears : commit.Bears run children
  continues : ∀ new ∈ next, ∃ closing, commit.closing = some closing ∧ Continues run closing next
  told : commit.Tells run ledger next.isSome
  answers : (∀ child ∈ children, child.ref.runId ≠ .nil) → commit.Answers

theorem Bears.extend {first second : Commit} {run : Run} {children : List NewRun} {added : List Event}
    (bears : first.Bears run children) (hevents : second.events = first.events ++ added)
    (hplain : ∀ event ∈ added, ∀ workflowId runId workflowType,
      event ≠ .childStarted workflowId runId workflowType) : second.Bears run children where
  begun := by
    intro child hmem
    obtain ⟨hparent, hattempt, hstarted⟩ := bears.begun child hmem
    exact ⟨hparent, hattempt, hevents ▸ List.mem_append_left _ hstarted⟩
  started := by
    intro workflowId runId workflowType hmem
    rw [hevents] at hmem
    rcases List.mem_append.1 hmem with hold | hnew
    · exact bears.started workflowId runId workflowType hold
    · exact absurd rfl (hplain _ hnew workflowId runId workflowType)
  distinct := bears.distinct

/-! ## Notices -/

/-- A commit that starts no child and begins no run has no offspring. -/
theorem Begets.of_childless {commit : Commit} {run : Run} {ledger : Ledger} (tidy : commit.Tidy)
    (hnewRuns : commit.newRuns = []) (told : commit.Tells run ledger false)
    (hchildless : ∀ event ∈ commit.events, event.isChildReport = false ∧
      ∀ workflowId runId workflowType, event ≠ .childStarted workflowId runId workflowType) :
    commit.Begets run ledger [] none where
  tidy := tidy
  newRuns := hnewRuns
  bears := by
    refine ⟨by simp, ?_, by simp⟩
    intro workflowId runId workflowType hmem
    exact absurd rfl ((hchildless _ hmem).2 workflowId runId workflowType)
  continues := by simp
  told := told
  answers := by
    intro _
    refine ⟨commit.events, [], by simp, fun event hmem => (hchildless event hmem).1, ?_⟩
    have hnone : commit.events.filterMap Event.refusedChild? = [] := by
      rw [List.filterMap_eq_nil_iff]
      intro event hmem
      cases event with
      | childStarted workflowId runId workflowType =>
          exact absurd rfl ((hchildless _ hmem).2 workflowId runId workflowType)
      | _ => rfl
    simp [hnone]

theorem Dispatch.begets {commit : Commit} {run : Run} {ledger : Ledger}
    (dispatch : commit.Dispatch run ledger) : commit.Begets run ledger [] none := by
  apply Begets.of_childless dispatch.tidy dispatch.newRuns dispatch.told
  intro event hmem
  refine ⟨dispatch.reports event hmem, ?_⟩
  rintro workflowId runId workflowType rfl
  cases dispatch.keyless _ hmem

end Commit

theorem Engine.Refused.begets {engine : Engine} {ref : RunRef} {run : Run}
    {history : List HistoryEvent} {commit : Commit}
    (refused : engine.Refused ref run history commit) :
    commit.Begets run (.ofHistory history) [] none := by
  obtain ⟨-, reason, -, hwrites⟩ := refused
  obtain ⟨htidy, hnewRuns, hevents⟩ := Engine.tidy_of_forceClose rfl rfl hwrites
  apply Commit.Begets.of_childless htidy hnewRuns (Engine.tells_of_forceClose hwrites).2
  intro event hmem
  rw [hevents] at hmem
  rw [List.mem_singleton.1 hmem]
  exact ⟨rfl, by simp⟩

/-! ## Drafts -/

namespace Decision

variable {run : Run} {ledger : Ledger} {now : Instant}

/-- The draft of an open run begins the children that were accepted so far. -/
structure Brood (run : Run) (draft : Draft) : Prop where
  isOpen : draft.commit.closing = none
  silent : draft.commit.notifications = []
  bears : draft.commit.Bears run draft.commit.newRuns
  named : ∀ child ∈ draft.commit.newRuns, child.ref.workflowId ∈ draft.children
  refused : (∀ child ∈ draft.commit.newRuns, child.ref.runId ≠ .nil) →
    draft.trailing.map Event.rejectedChild? =
      (draft.commit.events.filterMap Event.refusedChild?).map some

/-- What a draft can come to: it stays open, or it is closed, with or without a run to follow. -/
inductive Drawn (run : Run) (ledger : Ledger) : Draft → Prop where
  | stays {draft : Draft} (brood : Brood run draft) : Drawn run ledger draft
  | closes {draft : Draft} {event : Event} {closing : Closing} {next : Option NewRun}
      (brood : Brood run draft) (ends : event.closing? = some closing)
      (continues : Commit.Continues run closing next) :
      Drawn run ledger (closeWith run ledger draft event closing next)

theorem Brood.empty : Brood run .empty where
  isOpen := rfl
  silent := rfl
  bears := ⟨fun _ hmem => (nomatch hmem), fun _ _ _ hmem => (nomatch hmem), List.nodup_nil⟩
  named := fun _ hmem => (nomatch hmem)
  refused := fun _ => rfl

theorem Brood.plain {draft next : Draft} {event : Event} (brood : Brood run draft)
    (hevents : next.commit.events = draft.commit.events ++ [event])
    (hplain : ∀ workflowId runId workflowType, event ≠ .childStarted workflowId runId workflowType)
    (hclosing : next.commit.closing = draft.commit.closing)
    (hnotifications : next.commit.notifications = draft.commit.notifications)
    (hnewRuns : next.commit.newRuns = draft.commit.newRuns) (hchildren : next.children = draft.children)
    (htrailing : next.trailing = draft.trailing) : Brood run next where
  isOpen := hclosing ▸ brood.isOpen
  silent := hnotifications ▸ brood.silent
  bears := by
    rw [hnewRuns]
    exact brood.bears.extend hevents (by simpa using hplain)
  named := by
    rw [hnewRuns, hchildren]
    exact brood.named
  refused := by
    rw [hnewRuns, htrailing, hevents, List.filterMap_append]
    have hnone : event.refusedChild? = none := by
      cases event with
      | childStarted workflowId runId workflowType => exact absurd rfl (hplain _ _ _)
      | _ => rfl
    simpa [hnone] using brood.refused

/-- A rejected child keeps its place among the events, and its failure among the trailing ones. -/
theorem Brood.reject {draft : Draft} (brood : Brood run draft) (workflowId workflowType : String)
    (failure : Failure) : Brood run (rejectChild draft workflowId workflowType failure) where
  isOpen := brood.isOpen
  silent := brood.silent
  bears := by
    constructor
    · intro child hmem
      obtain ⟨hparent, hattempt, hstarted⟩ := brood.bears.begun child hmem
      exact ⟨hparent, hattempt, List.mem_append_left _ hstarted⟩
    · intro otherId runId otherType hmem hgenuine
      rcases List.mem_append.1 hmem with hold | hnew
      · exact brood.bears.started otherId runId otherType hold hgenuine
      · simp only [List.mem_singleton, Event.childStarted.injEq] at hnew
        exact absurd hnew.2.1 hgenuine
    · exact brood.bears.distinct
  named := brood.named
  refused := by
    intro hgenuine
    have hbefore := brood.refused hgenuine
    show (draft.trailing ++ [_]).map Event.rejectedChild? =
      ((draft.commit.events ++ [_]).filterMap Event.refusedChild?).map some
    simp [hbefore, Event.rejectedChild?, Event.refusedChild?]

/-- A child is accepted under a workflow id that no other child was named by. -/
theorem Brood.accept {draft : Draft} (brood : Brood run draft) {workflowId : String}
    (hnew : workflowId ∉ draft.children) (workflowType : String) (input : Json)
    (taskQueue : Option String) (options : WorkflowOptions) (runId : Uuid) :
    Brood run (acceptChild run { draft with children := workflowId :: draft.children } workflowId
      workflowType input taskQueue options runId) where
  isOpen := brood.isOpen
  silent := brood.silent
  bears := by
    constructor
    · intro child hmem
      rcases List.mem_append.1 hmem with hold | hlast
      · obtain ⟨hparent, hattempt, hstarted⟩ := brood.bears.begun child hold
        exact ⟨hparent, hattempt, List.mem_append_left _ hstarted⟩
      · rw [List.mem_singleton.1 hlast]
        exact ⟨rfl, rfl, List.mem_append_right _ (List.mem_singleton_self _)⟩
    · intro otherId otherRun otherType hmem hgenuine
      rw [acceptChild, List.map_append]
      rcases List.mem_append.1 hmem with hold | hlast
      · exact List.mem_append_left _ (brood.bears.started otherId otherRun otherType hold hgenuine)
      · simp only [List.mem_singleton, Event.childStarted.injEq] at hlast
        rw [hlast.1, hlast.2.1]
        exact List.mem_append_right _ (List.mem_singleton_self _)
    · rw [acceptChild, List.map_append, List.nodup_append]
      refine ⟨brood.bears.distinct, List.pairwise_singleton _ _, ?_⟩
      intro first hfirst second hsecond heq
      obtain ⟨child, hchild, hid⟩ := List.mem_map.1 hfirst
      rw [List.map_singleton, List.mem_singleton] at hsecond
      have hsame : child.ref.workflowId = workflowId := hid.trans (heq.trans hsecond)
      exact hnew (hsame ▸ brood.named child hchild)
  named := by
    intro child hmem
    rcases List.mem_append.1 hmem with hold | hlast
    · exact List.mem_cons_of_mem _ (brood.named child hold)
    · rw [List.mem_singleton.1 hlast]
      exact List.mem_cons_self
  refused := by
    intro hgenuine
    have hnil : runId ≠ .nil := hgenuine _ (List.mem_append_right _ (List.mem_singleton_self _))
    have hbefore := brood.refused fun child hmem => hgenuine child (List.mem_append_left _ hmem)
    show draft.trailing.map Event.rejectedChild? =
      ((draft.commit.events ++ [_]).filterMap Event.refusedChild?).map some
    simp [hbefore, Event.refusedChild?, hnil]

theorem Brood.startChild {draft next : Draft} {workflowId workflowType : String} {input : Json}
    {taskQueue : Option String} {options : WorkflowOptions} (brood : Brood run draft)
    (h : (Decision.startChild run draft workflowId workflowType input taskQueue
      options).Yields (.ok next)) : Brood run next := by
  have named : Brood run { draft with children := workflowId :: draft.children } :=
    ⟨brood.isOpen, brood.silent, brood.bears,
      fun child hmem => List.mem_cons_of_mem _ (brood.named child hmem), brood.refused⟩
  rcases draft_of_startChild h with ⟨failure, rfl | rfl⟩ | ⟨hunnamed, runId, rfl⟩
  · exact brood.reject workflowId workflowType failure
  · exact named.reject workflowId workflowType failure
  · exact brood.accept hunnamed workflowType input taskQueue options runId

theorem continues_of_nextRun {failure : Option Failure} {closing : Closing}
    {next : Option NewRun} (hfailure : closing.failure = failure)
    (hfailed : failure.isSome = true → closing.status = .failed)
    (h : (nextRun run failure now).Yields next) : Commit.Continues run closing next := by
  unfold nextRun at h
  split at h
  · cases h.eq_of_pure
    simp [Commit.Continues]
  · rename_i attempt delay hplan
    split at h
    · obtain ⟨runId, -, hnext⟩ := h.of_bind
      cases hnext.eq_of_pure
      rintro new ⟨⟩
      exact ⟨hfailure ▸ hfailed, now, runId, attempt, delay, hfailure ▸ hplan, rfl⟩
    · cases h

theorem Brood.addCommand {draft next : Draft} {command : Command} (brood : Brood run draft)
    (h : (Decision.addCommand run ledger now draft command).Yields (.ok next)) :
    Drawn run ledger next := by
  cases command with
  | startChild workflowId workflowType input taskQueue options => exact .stays (brood.startChild h)
  | complete result =>
      obtain ⟨continued, hcontinued, hnext⟩ := h.of_bind
      cases hnext.eq_of_pure
      exact .closes brood rfl (continues_of_nextRun rfl (by simp) hcontinued)
  | fail failure =>
      obtain ⟨continued, hcontinued, hnext⟩ := h.of_bind
      cases hnext.eq_of_pure
      exact .closes brood rfl (continues_of_nextRun rfl (fun _ => rfl) hcontinued)
  | cancel reason =>
      cases h.eq_of_pure
      exact .closes brood rfl (by simp [Commit.Continues])
  | awaitSignal signalName =>
      cases h.eq_of_pure
      exact .stays brood
  | awaitCondition conditionId timeout =>
      cases h.eq_of_pure
      exact .stays brood
  | _ =>
      cases h.eq_of_pure
      exact .stays (brood.plain rfl (by simp) rfl rfl rfl rfl rfl)

theorem drawn_of_addCommands {draft : Draft} {commands : List Command}
    (h : (Decision.addCommands run ledger now .empty commands).Yields (.ok draft)) :
    Drawn run ledger draft := by
  refine addCommands_induction ?_ rfl (.stays .empty) h
  intro before after command hopen drawn hadded
  cases drawn with
  | stays brood => exact brood.addCommand hadded
  | closes brood ends continues => cases hopen

theorem finish_closed {draft : Draft} {closing : Closing} (h : draft.commit.closing = some closing) :
    finish run draft = draft.commit := by
  simp [finish, h]

/-- While the run stays open, the rejections follow what was recorded. -/
theorem finish_open (run : Run) {draft : Draft} (h : draft.commit.closing = none) :
    (finish run draft).events = draft.commit.events ++ draft.trailing ∧
      (finish run draft).newRuns = draft.commit.newRuns ∧ (finish run draft).closing = none ∧
      (finish run draft).notifications = draft.commit.notifications := by
  unfold finish
  split
  · rename_i hnothing
    have htrailing : draft.trailing = [] := by simpa [h] using hnothing
    simp [htrailing, h]
  · exact ⟨rfl, rfl, h, rfl⟩

theorem Brood.begets_finish {draft : Draft} (brood : Brood run draft)
    (tidy : (finish run draft).Tidy)
    (hkeyed : ∀ event ∈ draft.commit.events, event.isChildReport = false)
    (hrejections : ∀ event ∈ draft.trailing, isRejection event = true) :
    (finish run draft).Begets run ledger draft.commit.newRuns none := by
  obtain ⟨hevents, hnewRuns, hopen, hnotifications⟩ := finish_open run brood.isOpen
  refine ⟨tidy, by simp [hnewRuns], ?_, by simp, ?_, ?_⟩
  · apply brood.bears.extend hevents
    rintro event hmem workflowId runId workflowType rfl
    cases hrejections _ hmem
  · rw [Commit.Tells, hopen, hnotifications, brood.silent]
  · intro hgenuine
    exact ⟨_, _, hevents, hkeyed, by simp [hopen, brood.refused hgenuine]⟩

theorem Brood.begets_closeWith {draft : Draft} {event : Event} {closing : Closing}
    {next : Option NewRun} (brood : Brood run draft) (ends : event.closing? = some closing)
    (continues : Commit.Continues run closing next)
    (tidy : (closeWith run ledger draft event closing next).commit.Tidy)
    (hkeyed : ∀ other ∈ (closeWith run ledger draft event closing next).commit.events,
      other.isChildReport = false) :
    (finish run (closeWith run ledger draft event closing next)).Begets run ledger
      draft.commit.newRuns next := by
  have hfinish : finish run (closeWith run ledger draft event closing next) =
      (closeWith run ledger draft event closing next).commit := finish_closed rfl
  rw [hfinish]
  refine ⟨tidy, rfl, ?_, fun new _ => ⟨closing, rfl, continues⟩, ?_, ?_⟩
  · apply brood.bears.extend (show _ = draft.commit.events ++ [event] from rfl)
    rintro other hmem workflowId runId workflowType rfl
    rw [List.mem_singleton] at hmem
    rw [← hmem] at ends
    cases ends
  · have htold := notifications_close (draft.record event).commit run ledger closing next
    have hsilent : (draft.record event).commit.notifications = [] := brood.silent
    rw [hsilent, List.nil_append] at htold
    exact htold
  · exact fun _ => ⟨_, [], (List.append_nil _).symm, hkeyed, rfl⟩

/-- What a decision brings forth. -/
theorem begets_of_build {commands : List Command} {commit : Commit}
    (h : (build run ledger commands now).Yields (.ok commit)) :
    ∃ children next, commit.Begets run ledger children next := by
  obtain ⟨_, _, batch⟩ := batch_of_build h
  obtain ⟨draft, rfl, hadded⟩ := draft_of_build h
  have records := Records.empty.addCommands rfl hadded
  have hkeyed : ∀ event ∈ draft.commit.events, event.isChildReport = false :=
    fun event hmem => Event.isChildReport_of_key? (records.key?_ne_none hmem)
  obtain brood | ⟨brood, ends, continues⟩ := drawn_of_addCommands hadded
  · exact ⟨_, _, brood.begets_finish batch.tidy hkeyed records.trailing⟩
  · exact ⟨_, _, brood.begets_closeWith ends continues records.tidy hkeyed⟩

end Decision

end Chronicle
