import Mathlib.Data.List.Basic
import Chronicle.Proofs.Engine.Drafts
import Chronicle.Proofs.Replay.Emission

/-!
# Batches of events

What is common to all commits: a batch never starts a run, and it closes the run exactly if its
last event says how the run ends.  The batch of a decision records the decided commands in their
order, and then the failures of the children that it rejected.
-/

namespace Chronicle

namespace Event

def isStart : Event → Bool
  | .workflowStarted .. => true
  | _ => false

/-- How a run ends with the event. -/
def closing? : Event → Option Closing
  | .workflowCompleted result => some ⟨.completed, some result, none⟩
  | .workflowFailed failure => some ⟨.failed, none, some failure⟩
  | .workflowCancelled reason => some ⟨.cancelled, none, some (.ofKind .cancelled reason)⟩
  | .workflowTimedOut =>
      some ⟨.timedOut, none, some (.ofKind .timeout "workflow execution timed out")⟩
  | .workflowTerminated reason => some ⟨.terminated, none, some (.ofKind .terminated reason)⟩
  | _ => none

def isAnnouncement : Event → Bool
  | .cancellationRequested _ | .childCompleted .. | .childFailed .. => true
  | _ => false

theorem isSome_closing? (event : Event) : event.closing?.isSome = event.isClose := by
  cases event <;> rfl

theorem closing?_eq_none {event : Event} (h : event.isClose = false) : event.closing? = none := by
  cases event <;> simp_all [isClose, closing?]

theorem isClosed_of_closing? {event : Event} {closing : Closing}
    (h : event.closing? = some closing) : closing.status.isClosed = true := by
  cases event <;> simp_all [closing?] <;> (subst h; rfl)

theorem isStart_of_isAnnouncement {event : Event} (h : event.isAnnouncement = true) :
    event.isStart = false := by
  cases event <;> simp_all [isAnnouncement, isStart]

theorem isClose_of_isAnnouncement {event : Event} (h : event.isAnnouncement = true) :
    event.isClose = false := by
  cases event <;> simp_all [isAnnouncement, isClose]

theorem key?_of_isAnnouncement {event : Event} (h : event.isAnnouncement = true) :
    event.key? = none := by
  cases event <;> simp_all [isAnnouncement, key?]

end Event

namespace Commit

/-- A commit that fits into the history of an open run. -/
structure Tidy (commit : Commit) : Prop where
  starts : ∀ event ∈ commit.events, event.isStart = false
  inner : ∀ event ∈ commit.events.dropLast, event.isClose = false
  closing : commit.closing = commit.events.getLast?.bind Event.closing?
  announced : ∀ notification ∈ commit.notifications, notification.event.isAnnouncement = true

theorem Tidy.plain {commit : Commit} (tidy : Tidy commit) (hopen : commit.closing = none) :
    ∀ event ∈ commit.events, event.isClose = false := by
  intro event hmem
  have hclosing := tidy.closing
  rw [hopen] at hclosing
  cases hlast : commit.events.getLast? with
  | none =>
      rw [List.getLast?_eq_none_iff.1 hlast] at hmem
      cases hmem
  | some last =>
      rw [hlast, Option.bind_some] at hclosing
      have hsplit := List.dropLast_append_getLast? last hlast
      rw [← hsplit] at hmem
      rcases List.mem_append.1 hmem with hinner | hend
      · exact tidy.inner event hinner
      · rw [List.mem_singleton.1 hend, ← Event.isSome_closing?, ← hclosing]
        rfl

theorem Tidy.add {first second : Commit} {event : Event} (tidy : Tidy first)
    (hopen : first.closing = none) (hstart : event.isStart = false)
    (hevents : second.events = first.events ++ [event]) (hclosing : second.closing = event.closing?)
    (hannounced : ∀ notification ∈ second.notifications,
      notification.event.isAnnouncement = true) : Tidy second where
  starts := by
    rw [hevents]
    intro other hmem
    rcases List.mem_append.1 hmem with hold | hnew
    · exact tidy.starts other hold
    · rw [List.mem_singleton.1 hnew]
      exact hstart
  inner := by
    rw [hevents, List.dropLast_concat]
    exact tidy.plain hopen
  closing := by
    rw [hclosing, hevents]
    simp
  announced := hannounced

theorem Tidy.empty : Tidy .empty where
  starts := by simp [Commit.empty, Commit.ofEvents]
  inner := by simp [Commit.empty, Commit.ofEvents]
  closing := rfl
  announced := by simp [Commit.empty, Commit.ofEvents]

theorem Tidy.single {commit : Commit} {event : Event} (hevents : commit.events = [event])
    (hstart : event.isStart = false) (hclosing : commit.closing = event.closing?)
    (hannounced : ∀ notification ∈ commit.notifications,
      notification.event.isAnnouncement = true) : Tidy commit :=
  Tidy.empty.add rfl hstart hevents hclosing hannounced

theorem Tidy.extend {first second : Commit} {events : List Event} (tidy : Tidy first)
    (hopen : first.closing = none) (hevents : second.events = first.events ++ events)
    (hclosing : second.closing = none) (hnotifications : second.notifications = first.notifications)
    (hplain : ∀ event ∈ events, event.isStart = false ∧ event.isClose = false) : Tidy second := by
  induction events generalizing first with
  | nil =>
      rw [List.append_nil] at hevents
      have hsame := tidy.closing
      rw [hopen] at hsame
      constructor
      · rw [hevents]
        exact tidy.starts
      · rw [hevents]
        exact tidy.inner
      · rw [hclosing, hevents]
        exact hsame
      · rw [hnotifications]
        exact tidy.announced
  | cons event rest ih =>
      obtain ⟨hstart, hclose⟩ := hplain event List.mem_cons_self
      have hadded : Tidy { first with events := first.events ++ [event] } := by
        refine tidy.add hopen hstart rfl ?_ tidy.announced
        rw [Event.closing?_eq_none hclose]
        exact hopen
      apply ih hadded hopen
      · rw [hevents]
        simp
      · exact hnotifications
      · exact fun other hmem => hplain other (List.mem_cons_of_mem _ hmem)

end Commit

namespace Decision

/-- The failure of a child that was never started. -/
def isRejection : Event → Bool
  | .childFailed _ runId _ => runId = .nil
  | _ => false

/-- What every command leaves true that is added to a draft of a run still open. -/
theorem addCommands_induction {run : Run} {ledger : Ledger} {now : Instant} {holds : Draft → Prop}
    (hstep : ∀ before after command, before.commit.closing = none → holds before →
      (addCommand run ledger now before command).Yields (.ok after) → holds after)
    {draft next : Draft} {commands : List Command} (hopen : draft.commit.closing = none)
    (hdraft : holds draft) (h : (addCommands run ledger now draft commands).Yields (.ok next)) :
    holds next := by
  induction commands generalizing draft with
  | nil =>
      cases h.eq_of_pure
      exact hdraft
  | cons command rest ih =>
      unfold addCommands at h
      obtain ⟨result, hadded, hrest⟩ := h.of_bind
      cases result with
      | error error => cases hrest.eq_of_pure
      | ok middle =>
          have hmiddle := hstep draft middle command hopen hdraft hadded
          simp only at hrest
          split at hrest
          · cases hrest.eq_of_pure
            exact hmiddle
          · rename_i hstill
            exact ih (by simpa using hstill) hmiddle hrest

theorem draft_of_build {run : Run} {ledger : Ledger} {commands : List Command} {now : Instant}
    {commit : Commit} (h : (build run ledger commands now).Yields (.ok commit)) :
    ∃ draft, commit = finish run draft ∧
      (addCommands run ledger now .empty commands).Yields (.ok draft) := by
  unfold build at h
  obtain ⟨result, hadded, hdone⟩ := h.of_bind
  cases result with
  | error error => cases hdone.eq_of_pure
  | ok draft =>
      cases hdone.eq_of_pure
      exact ⟨draft, rfl, hadded⟩

/-- The draft records the commands that were decided so far. -/
structure Records (draft : Draft) (commands : List Command) : Prop where
  keys : draft.commit.events.map Event.key? = (commands.filterMap Command.key?).map some
  tidy : draft.commit.Tidy
  closing : draft.commit.closing.isSome = commands.any Command.isTerminal
  silent : draft.commit.closing = none → draft.commit.notifications = []
  trailing : ∀ event ∈ draft.trailing, isRejection event = true

theorem Records.empty : Records .empty [] where
  keys := rfl
  tidy := .empty
  closing := rfl
  silent := fun _ => rfl
  trailing := by simp [Draft.empty]

theorem Records.key?_ne_none {draft : Draft} {commands : List Command} {event : Event}
    (records : Records draft commands) (hmem : event ∈ draft.commit.events) :
    event.key? ≠ none := by
  intro hnone
  have hkey := List.mem_map_of_mem (f := Event.key?) hmem
  rw [records.keys, hnone] at hkey
  simp at hkey

theorem Records.skip {draft : Draft} {commands : List Command} {command : Command}
    (records : Records draft commands) (hkey : command.key? = none)
    (hterminal : command.isTerminal = false) : Records draft (commands ++ [command]) where
  keys := by
    have hkeys : (commands ++ [command]).filterMap Command.key? =
        commands.filterMap Command.key? := by
      simp [List.filterMap_append, hkey]
    rw [hkeys, records.keys]
  tidy := records.tidy
  closing := by
    rw [records.closing, List.any_append, List.any_cons, List.any_nil, hterminal, Bool.or_false,
      Bool.or_false]
  silent := records.silent
  trailing := records.trailing

theorem Records.record {draft next : Draft} {commands : List Command} {command : Command}
    {event : Event} (records : Records draft commands) (hopen : draft.commit.closing = none)
    (hkey : event.key? = command.key?) (hsome : command.key?.isSome = true)
    (hterminal : command.isTerminal = false) (hstart : event.isStart = false)
    (hclose : event.isClose = false)
    (hevents : next.commit.events = draft.commit.events ++ [event])
    (hclosing : next.commit.closing = draft.commit.closing)
    (hnotifications : next.commit.notifications = draft.commit.notifications)
    (htrailing : ∀ event ∈ next.trailing, event ∈ draft.trailing ∨ isRejection event = true) :
    Records next (commands ++ [command]) where
  keys := by
    obtain ⟨key, hkey'⟩ := Option.isSome_iff_exists.1 hsome
    rw [hevents, List.map_append, records.keys]
    simp [hkey, hkey']
  tidy := by
    refine records.tidy.add hopen hstart hevents ?_ ?_
    · rw [hclosing, hopen, Event.closing?_eq_none hclose]
    · rw [hnotifications]
      exact records.tidy.announced
  closing := by
    have hdone := records.closing
    rw [hopen] at hdone
    rw [hclosing, hopen, List.any_append, ← hdone]
    simp [hterminal]
  silent := by
    intro _
    rw [hnotifications]
    exact records.silent hopen
  trailing := by
    intro event hmem
    rcases htrailing event hmem with hold | hnew
    · exact records.trailing event hold
    · exact hnew

theorem announced_close (commit : Commit) (run : Run) (ledger : Ledger) (closing : Closing)
    (next : Option NewRun)
    (h : ∀ notification ∈ commit.notifications, notification.event.isAnnouncement = true) :
    ∀ notification ∈ (close commit run ledger closing next).notifications,
      notification.event.isAnnouncement = true := by
  intro notification hmem
  unfold close at hmem
  simp only [List.append_assoc, List.mem_append, List.mem_map] at hmem
  rcases hmem with hold | ⟨child, -, hchild⟩ | hreport
  · exact h notification hold
  · rw [← hchild]
    rfl
  · split at hreport
    · rw [List.mem_singleton.1 hreport]
      unfold reportToParent
      split <;> rfl
    · cases hreport

theorem Records.closeWith {draft : Draft} {commands : List Command} {command : Command}
    {event : Event} {closing : Closing} (records : Records draft commands)
    (hopen : draft.commit.closing = none) (hkey : event.key? = command.key?)
    (hsome : command.key?.isSome = true) (hterminal : command.isTerminal = true)
    (hstart : event.isStart = false) (hclosing : event.closing? = some closing) (run : Run)
    (ledger : Ledger) (next : Option NewRun) :
    Records (closeWith run ledger draft event closing next) (commands ++ [command]) where
  keys := by
    obtain ⟨key, hkey'⟩ := Option.isSome_iff_exists.1 hsome
    show (draft.commit.events ++ [event]).map Event.key? = _
    rw [List.map_append, records.keys]
    simp [hkey, hkey']
  tidy := by
    refine records.tidy.add hopen hstart rfl hclosing.symm ?_
    exact announced_close _ run ledger closing next records.tidy.announced
  closing := by
    simp [Decision.closeWith, close, hterminal]
  silent := fun hnone => by
    cases hnone
  trailing := records.trailing

theorem Records.rejectChild {draft : Draft} {commands : List Command}
    (records : Records draft commands) (hopen : draft.commit.closing = none)
    (workflowId workflowType : String) (input : Json) (taskQueue : Option String)
    (options : WorkflowOptions) (failure : Failure) :
    Records (rejectChild draft workflowId workflowType failure)
      (commands ++ [.startChild workflowId workflowType input taskQueue options]) := by
  have htrailing : ∀ event ∈ draft.trailing ++ [.childFailed workflowId .nil failure],
      event ∈ draft.trailing ∨ isRejection event = true := by
    intro event hmem
    rcases List.mem_append.1 hmem with hold | hnew
    · exact .inl hold
    · rw [List.mem_singleton.1 hnew]
      exact .inr rfl
  exact records.record hopen rfl rfl rfl rfl rfl rfl rfl rfl htrailing

theorem Records.startChild {draft next : Draft} {commands : List Command} {run : Run}
    {workflowId workflowType : String} {input : Json} {taskQueue : Option String}
    {options : WorkflowOptions} (records : Records draft commands)
    (hopen : draft.commit.closing = none)
    (h : (Decision.startChild run draft workflowId workflowType input taskQueue
      options).Yields (.ok next)) :
    Records next
      (commands ++ [.startChild workflowId workflowType input taskQueue options]) := by
  have hnamed : Records { draft with children := workflowId :: draft.children } commands :=
    ⟨records.keys, records.tidy, records.closing, records.silent, records.trailing⟩
  rcases draft_of_startChild h with ⟨failure, rfl | rfl⟩ | ⟨-, runId, rfl⟩
  · exact records.rejectChild hopen workflowId workflowType input taskQueue options failure
  · exact hnamed.rejectChild hopen workflowId workflowType input taskQueue options failure
  · exact hnamed.record hopen rfl rfl rfl rfl rfl rfl rfl rfl fun event hmem => .inl hmem

theorem Records.addCommand {draft next : Draft} {commands : List Command} {command : Command}
    {run : Run} {ledger : Ledger} {now : Instant} (records : Records draft commands)
    (hopen : draft.commit.closing = none)
    (h : (Decision.addCommand run ledger now draft command).Yields (.ok next)) :
    Records next (commands ++ [command]) := by
  cases command with
  | startChild workflowId workflowType input taskQueue options => exact records.startChild hopen h
  | complete result =>
      obtain ⟨continued, -, hnext⟩ := h.of_bind
      cases hnext.eq_of_pure
      exact records.closeWith hopen rfl rfl rfl rfl rfl run ledger continued
  | fail failure =>
      obtain ⟨continued, -, hnext⟩ := h.of_bind
      cases hnext.eq_of_pure
      exact records.closeWith hopen rfl rfl rfl rfl rfl run ledger continued
  | cancel reason =>
      cases h.eq_of_pure
      exact records.closeWith hopen rfl rfl rfl rfl rfl run ledger none
  | awaitSignal signalName =>
      cases h.eq_of_pure
      exact records.skip rfl rfl
  | awaitCondition conditionId timeout =>
      cases h.eq_of_pure
      exact records.skip rfl rfl
  | _ =>
      cases h.eq_of_pure
      exact records.record hopen rfl rfl rfl rfl rfl rfl rfl rfl fun event hmem => .inl hmem

theorem Records.addCommands {draft next : Draft} {commands rest : List Command} {run : Run}
    {ledger : Ledger} {now : Instant} (records : Records draft commands)
    (hopen : draft.commit.closing = none)
    (h : (Decision.addCommands run ledger now draft rest).Yields (.ok next)) :
    Records next (commands ++ Command.untilTerminal rest) := by
  induction rest generalizing draft commands with
  | nil =>
      cases h.eq_of_pure
      simpa [Command.untilTerminal] using records
  | cons command rest ih =>
      unfold Decision.addCommands at h
      obtain ⟨result, hadded, hrest⟩ := h.of_bind
      cases result with
      | error error =>
          cases hrest.eq_of_pure
      | ok middle =>
          have hmiddle := records.addCommand hopen hadded
          have hclosing := hmiddle.closing
          have hdone := records.closing
          rw [hopen] at hdone
          rw [List.any_append, ← hdone] at hclosing
          simp only [Option.isSome_none, Bool.false_or, List.any_cons, List.any_nil,
            Bool.or_false] at hclosing
          unfold Command.untilTerminal
          simp only at hrest
          cases hterminal : command.isTerminal with
          | true =>
              -- the draft is closed, and the commands that are left are dropped
              rw [hclosing, hterminal, if_pos rfl] at hrest
              cases hrest.eq_of_pure
              simpa using hmiddle
          | false =>
              rw [hterminal] at hclosing
              rw [hclosing, if_neg Bool.false_ne_true] at hrest
              have hlast := ih hmiddle (by simpa using hclosing) hrest
              simpa using hlast

/-- The batch of a decision. -/
structure Batch (commands : List Command) (commit : Commit) (recorded rejected : List Event) :
    Prop where
  events : commit.events = recorded ++ rejected
  keys : recorded.map Event.key? =
    ((Command.untilTerminal commands).filterMap Command.key?).map some
  rejections : ∀ event ∈ rejected, isRejection event = true
  tidy : commit.Tidy
  closing : commit.closing.isSome = (Command.untilTerminal commands).any Command.isTerminal
  /-- A run that closes hears nothing of the children that were rejected. -/
  last : commit.closing.isSome = true → rejected = []
  silent : commit.closing = none → commit.notifications = []

theorem plain_of_isRejection {event : Event} (h : isRejection event = true) :
    event.isStart = false ∧ event.isClose = false := by
  cases event <;> simp_all [isRejection, Event.isStart, Event.isClose]

theorem key?_of_isRejection {event : Event} (h : isRejection event = true) :
    event.key? = none := by
  cases event <;> simp_all [isRejection, Event.key?]

theorem Batch.inner {commands : List Command} {commit : Commit} {recorded rejected : List Event}
    (batch : Batch commands commit recorded rejected) :
    ∀ event ∈ recorded.dropLast, event.isClose = false := by
  intro event hmem
  apply batch.tidy.inner event
  rw [batch.events]
  cases rejected with
  | nil => simpa using hmem
  | cons first rest =>
      rw [List.dropLast_append_of_ne_nil (List.cons_ne_nil first rest)]
      exact List.mem_append_left _ ((List.dropLast_prefix recorded).subset hmem)

theorem batch_of_build {run : Run} {ledger : Ledger} {commands : List Command} {now : Instant}
    {commit : Commit} (h : (build run ledger commands now).Yields (.ok commit)) :
    ∃ recorded rejected, Batch commands commit recorded rejected := by
  obtain ⟨draft, rfl, hadded⟩ := draft_of_build h
  have records := Records.empty.addCommands rfl hadded
  rw [List.nil_append] at records
  unfold finish
  split
  · rename_i hnothing
    exact ⟨draft.commit.events, [], by simp, records.keys, by simp, records.tidy,
      records.closing, fun _ => rfl, records.silent⟩
  · rename_i hrejected
    have hopen : draft.commit.closing = none := by
      simp only [Bool.or_eq_true, not_or, Option.isSome_iff_ne_none, ne_eq,
        Decidable.not_not] at hrejected
      exact hrejected.2
    have htidy : Commit.Tidy { draft.commit with
        events := draft.commit.events ++ draft.trailing
        tasks := draft.commit.tasks ++ [run.workflowTask] } :=
      records.tidy.extend hopen rfl hopen rfl
        fun event hmem => plain_of_isRejection (records.trailing event hmem)
    exact ⟨draft.commit.events, draft.trailing, rfl, records.keys, records.trailing, htidy,
      records.closing, fun hclosed => by simp [hopen] at hclosed, records.silent⟩

end Decision

end Chronicle
