import Chronicle.Engine.TimerService
import Chronicle.Proofs.Engine.Batches
import Chronicle.Worker.Attempt

/-!
# Notices

The commits that are made without running workflow code: they record what happened to a run, and
never what the workflow asked for.  They tell other runs nothing but that their run has ended.
-/

namespace Chronicle

/-- The event tells a parent how a child has ended. -/
def Event.isChildReport : Event → Bool
  | .childCompleted .. | .childFailed .. => true
  | _ => false

namespace Decision

/-- What others are told when a run ends: its open children, and its parent unless another run
continues it. -/
def farewells (run : Run) (ledger : Ledger) (closing : Closing) (continued : Bool) :
    List Notification :=
  (ledger.children.map fun child =>
      ⟨child, .cancellationRequested s!"parent {run.ref.workflowId} closed"⟩) ++
    if continued then []
    else run.parent.toList.map fun parent => ⟨parent, reportToParent run closing⟩

theorem notifications_close (commit : Commit) (run : Run) (ledger : Ledger) (closing : Closing)
    (next : Option NewRun) : (close commit run ledger closing next).notifications =
      commit.notifications ++ farewells run ledger closing next.isSome := by
  unfold close farewells
  cases next <;> cases run.parent <;> simp

end Decision

/-- The commit tells others that its run has ended, if it has. -/
def Commit.Tells (commit : Commit) (run : Run) (ledger : Ledger) (continued : Bool) : Prop :=
  commit.notifications = match commit.closing with
    | none => []
    | some closing => Decision.farewells run ledger closing continued

/-- A commit that records no command and begins no run. -/
structure Commit.Notice (commit : Commit) : Prop where
  tidy : commit.Tidy
  newRuns : commit.newRuns = []
  keyless : ∀ event ∈ commit.events, event.key? = none

/-- A notice that is built from a run and its ledger. -/
structure Commit.Dispatch (commit : Commit) (run : Run) (ledger : Ledger) : Prop extends
    Commit.Notice commit where
  reports : ∀ event ∈ commit.events, event.isChildReport = false
  told : commit.Tells run ledger false

namespace Reviser

variable {α : Type}

def GivesNotice (reviser : Reviser α) : Prop :=
  ∀ run ledger commit, (reviser run ledger).Writes commit → commit.Notice

def Dispatches (reviser : Reviser α) : Prop :=
  ∀ run ledger commit, (reviser run ledger).Writes commit → commit.Dispatch run ledger

theorem Dispatches.givesNotice {reviser : Reviser α} (dispatches : reviser.Dispatches) :
    reviser.GivesNotice :=
  fun run ledger commit hwrites => (dispatches run ledger commit hwrites).toNotice

end Reviser

theorem Commit.Dispatch.single {commit : Commit} {run : Run} {ledger : Ledger} {event : Event}
    (hevents : commit.events = [event]) (hstart : event.isStart = false)
    (hclose : event.isClose = false) (hkey : event.key? = none) (hreport : event.isChildReport = false)
    (hclosing : commit.closing = none) (hnewRuns : commit.newRuns = [])
    (hnotifications : commit.notifications = []) : commit.Dispatch run ledger where
  tidy := by
    refine .single hevents hstart ?_ ?_
    · rw [hclosing, Event.closing?_eq_none hclose]
    · simp [hnotifications]
  newRuns := hnewRuns
  keyless := by simp [hevents, hkey]
  reports := by simp [hevents, hreport]
  told := by simp [Commit.Tells, hclosing, hnotifications]

/-! ## Revisions of the engine -/

namespace Engine

theorem noticeCommit_dispatches {event : Event} (hstart : event.isStart = false)
    (hclose : event.isClose = false) (hkey : event.key? = none) (hreport : event.isChildReport = false) :
    Reviser.Dispatches (noticeCommit event) := by
  intro run ledger commit hwrites
  cases hwrites
  exact .single rfl hstart hclose hkey hreport rfl rfl rfl

theorem tidy_of_forceClose {event : Event} {closing : Closing} {run : Run} {ledger : Ledger}
    {commit : Commit} (hstart : event.isStart = false) (hclosing : event.closing? = some closing)
    (hwrites : (forceClose event closing run ledger).Writes commit) :
    commit.Tidy ∧ commit.newRuns = [] ∧ commit.events = [event] := by
  cases hwrites
  refine ⟨.single rfl hstart hclosing.symm ?_, rfl, rfl⟩
  apply Decision.announced_close
  simp [Commit.ofEvents]

/-- A run that is closed from outside bids everybody farewell. -/
theorem tells_of_forceClose {event : Event} {closing : Closing} {run : Run} {ledger : Ledger}
    {commit : Commit} (hwrites : (forceClose event closing run ledger).Writes commit) :
    commit.closing = some closing ∧ commit.Tells run ledger false := by
  cases hwrites
  exact ⟨rfl, Decision.notifications_close (.ofEvents [event]) run ledger closing none⟩

theorem forceClose_dispatches {event : Event} {closing : Closing} (hstart : event.isStart = false)
    (hclosing : event.closing? = some closing) (hkey : event.key? = none) :
    Reviser.Dispatches (forceClose event closing) := by
  intro run ledger commit hwrites
  obtain ⟨htidy, hnewRuns, hevents⟩ := tidy_of_forceClose hstart hclosing hwrites
  have hreport : event.isChildReport = false := by
    cases event <;> simp_all [Event.isChildReport, Event.closing?]
  exact ⟨⟨htidy, hnewRuns, by simp [hevents, hkey]⟩, by simp [hevents, hreport],
    (tells_of_forceClose hwrites).2⟩

end Engine

/-! ## Outcomes of attempts -/

namespace AttemptOutcome

theorem lastRevision_dispatch {run : Run} {ledger : Ledger} {activityId : String} {attempt : Nat}
    {event : Event} {commit : Commit} (hstart : event.isStart = false)
    (hclose : event.isClose = false) (hkey : event.key? = none) (hreport : event.isChildReport = false)
    (hwrites : (lastRevision run activityId attempt event).Writes commit) :
    commit.Dispatch run ledger := by
  cases hwrites
  exact .single rfl hstart hclose hkey hreport rfl rfl rfl

theorem retryRevision_dispatch {run : Run} {ledger : Ledger} {state : ActivityState}
    {activityId : String} {attempt : Nat} {delay : Span} {event : Event} {commit : Commit}
    (hstart : event.isStart = false) (hclose : event.isClose = false) (hkey : event.key? = none)
    (hreport : event.isChildReport = false)
    (hwrites : (retryRevision run state activityId attempt delay event).Writes commit) :
    commit.Dispatch run ledger := by
  unfold retryRevision at hwrites
  simp only at hwrites
  split at hwrites
  · cases hwrites
    exact .single rfl hstart hclose hkey hreport rfl rfl rfl
  · obtain ⟨now, hcommit⟩ := hwrites
    cases hcommit
    exact .single rfl hstart hclose hkey hreport rfl rfl rfl

theorem failureRevision_dispatch {run : Run} {ledger : Ledger} {state : ActivityState}
    {activityId : String} {attempt : Nat} {failure : ActivityFailure} {event : Bool → Bool → Event}
    {commit : Commit}
    (hstart : ∀ willRetry exhausted, (event willRetry exhausted).isStart = false)
    (hclose : ∀ willRetry exhausted, (event willRetry exhausted).isClose = false)
    (hkey : ∀ willRetry exhausted, (event willRetry exhausted).key? = none)
    (hreport : ∀ willRetry exhausted, (event willRetry exhausted).isChildReport = false)
    (hwrites : (failureRevision run state activityId attempt failure event).Writes commit) :
    commit.Dispatch run ledger := by
  unfold failureRevision at hwrites
  split at hwrites
  · exact retryRevision_dispatch (hstart _ _) (hclose _ _) (hkey _ _) (hreport _ _) hwrites
  · exact lastRevision_dispatch (hstart _ _) (hclose _ _) (hkey _ _) (hreport _ _) hwrites

theorem reviser_dispatches (activityId : String) (attempt : Nat) (outcome : AttemptOutcome) :
    Reviser.Dispatches (reviser activityId attempt outcome) := by
  intro run ledger commit hwrites
  unfold reviser at hwrites
  split at hwrites
  · cases hwrites
  · split at hwrites
    · cases outcome with
      | completed result => exact lastRevision_dispatch rfl rfl rfl rfl hwrites
      | failed failure =>
          exact failureRevision_dispatch (fun _ _ => rfl) (fun _ _ => rfl) (fun _ _ => rfl)
            (fun _ _ => rfl) hwrites
      | timedOut timeout =>
          exact failureRevision_dispatch (fun _ _ => rfl) (fun _ _ => rfl) (fun _ _ => rfl)
            (fun _ _ => rfl) hwrites
    · cases hwrites

end AttemptOutcome

/-! ## Activities and timers -/

def beatTimers (work : ActivityTask) (now : Instant) : List Timer :=
  match work.options.heartbeatTimeout with
  | none => []
  | some timeout =>
      [⟨work.run, now.after timeout, .activityHeartbeat work.activityId work.attempt⟩]

namespace ActivityService

variable {work : ActivityTask} {run : Run} {ledger : Ledger} {commit : Commit}

theorem startReviser_cases {workerId : String}
    (hwrites : (startReviser workerId work run ledger).Writes commit) :
    ledger.isAttemptOpen work.activityId work.attempt = true ∧
      (ledger.activity? work.activityId).any ActivityState.started = false ∧
      ∃ now, commit = { Commit.ofEvents [.activityStarted work.activityId work.attempt workerId] with
        cancelledTimers := [.activityPickup work.activityId]
        timers := startTimers work now } := by
  unfold startReviser at hwrites
  split at hwrites
  · cases hwrites
  · rename_i hopen
    split at hwrites
    · cases hwrites
    · rename_i hwaits
      obtain ⟨now, hcommit⟩ := hwrites
      exact ⟨by simpa using hopen, by simpa using hwaits, now, hcommit.symm⟩

theorem heartbeatReviser_cases {details : Option Json}
    (hwrites : (heartbeatReviser work details run ledger).Writes commit) :
    ledger.isAttemptOpen work.activityId work.attempt = true ∧
      ∃ now, commit =
        { Commit.ofEvents [.activityHeartbeat work.activityId work.attempt details] with
          timers := beatTimers work now } := by
  unfold heartbeatReviser at hwrites
  split at hwrites
  · cases hwrites
  · rename_i hopen
    refine ⟨by simpa using hopen, ?_⟩
    unfold beatTimers
    cases htimeout : work.options.heartbeatTimeout with
    | none =>
        simp only [htimeout] at hwrites
        -- no time is written
        exact ⟨⟨0, 0⟩, hwrites.symm⟩
    | some timeout =>
        simp only [htimeout] at hwrites
        obtain ⟨now, hcommit⟩ := hwrites
        exact ⟨now, hcommit.symm⟩

theorem startReviser_dispatches (workerId : String) (work : ActivityTask) :
    Reviser.Dispatches (startReviser workerId work) := by
  intro run ledger commit hwrites
  obtain ⟨-, -, now, rfl⟩ := startReviser_cases hwrites
  exact .single rfl rfl rfl rfl rfl rfl rfl rfl

theorem heartbeatReviser_dispatches (work : ActivityTask) (details : Option Json) :
    Reviser.Dispatches (heartbeatReviser work details) := by
  intro run ledger commit hwrites
  obtain ⟨-, now, rfl⟩ := heartbeatReviser_cases hwrites
  exact .single rfl rfl rfl rfl rfl rfl rfl rfl

end ActivityService

namespace TimerService

variable {run : Run} {ledger : Ledger} {commit : Commit}

theorem workflowTimer_cases {timerId : String}
    (hwrites : (workflowTimer timerId run ledger).Writes commit) :
    ledger.isTimerPending timerId = true ∧
      commit = { Commit.ofEvents [.timerFired timerId] with tasks := [run.workflowTask] } := by
  unfold workflowTimer at hwrites
  split at hwrites
  · rename_i hpending
    exact ⟨hpending, hwrites.symm⟩
  · cases hwrites

theorem pickupTimeout_cases {activityId : String}
    (hwrites : (pickupTimeout activityId run ledger).Writes commit) :
    ∃ state, ledger.activity? activityId = some state ∧ state.closed = false ∧
      state.started = false ∧
      commit = { Commit.ofEvents
          [.activityTimedOut activityId state.attempt .scheduleToStart false false] with
        tasks := [run.workflowTask]
        cancelledActivities := [activityId] } := by
  unfold pickupTimeout at hwrites
  split at hwrites
  · cases hwrites
  · rename_i state hstate
    split at hwrites
    · cases hwrites
    · rename_i hwaiting
      simp only [Bool.or_eq_true, not_or, Bool.not_eq_true] at hwaiting
      exact ⟨state, hstate, hwaiting.1, hwaiting.2, hwrites.symm⟩

theorem workflowTimer_dispatches (timerId : String) :
    Reviser.Dispatches (workflowTimer timerId) := by
  intro run ledger commit hwrites
  obtain ⟨-, rfl⟩ := workflowTimer_cases hwrites
  exact .single rfl rfl rfl rfl rfl rfl rfl rfl

theorem pickupTimeout_dispatches (activityId : String) :
    Reviser.Dispatches (pickupTimeout activityId) := by
  intro run ledger commit hwrites
  obtain ⟨state, -, -, -, rfl⟩ := pickupTimeout_cases hwrites
  exact .single rfl rfl rfl rfl rfl rfl rfl rfl

end TimerService

end Chronicle
