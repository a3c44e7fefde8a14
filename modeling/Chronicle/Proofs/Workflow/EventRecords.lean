import Chronicle.Proofs.Workflow.Records
import Chronicle.Workflow.EventRecord

/-!
# Records of commands and history events

A command or an event is told by its type, and each of them is read back.
-/

namespace Chronicle

open Json (RoundTrips)

/-! ## Commands -/

def Command.IsStorable : Command → Prop
  | .scheduleActivity _ _ _ options => options.IsStorable
  | .startTimer _ duration => duration.IsStorable
  | .startChild _ _ _ _ options => options.IsStorable
  | .awaitCondition _ timeout => ∀ limit ∈ timeout, limit.IsStorable
  | .fail failure => failure.IsStorable
  | .cancelTimer _ | .cancelActivity _ | .awaitSignal _ | .complete _ | .cancel _ => True

theorem Command.ofJson?_toJson {command : Command} (h : command.IsStorable) :
    ofJson? command.toJson = some command := by
  -- every step is kept as a proof, for a check by evaluation compares the keys character by character
  cases command with
  | scheduleActivity _ _ _ options =>
      simp -implicitDefEqProofs [toJson, ofJson?, ActivityOptions.roundTrips.written options h]
  | startTimer _ duration =>
      simp -implicitDefEqProofs [toJson, ofJson?, Span.roundTrips.written duration h]
  | startChild _ _ _ _ options =>
      simp -implicitDefEqProofs [toJson, ofJson?, WorkflowOptions.roundTrips.written options h]
  | awaitCondition _ timeout =>
      simp -implicitDefEqProofs [toJson, ofJson?, Span.roundTrips.nullable rfl h]
  | fail failure =>
      simp -implicitDefEqProofs [toJson, ofJson?, Failure.tagged_roundTrips.written failure h]
  | _ => simp -implicitDefEqProofs [toJson, ofJson?]

theorem Command.isStorable_of_ofJson? {json : Json} {command : Command}
    (h : ofJson? json = some command) : command.IsStorable := by
  unfold ofJson? at h
  simp only [↓Json.bind_eq_some] at h
  obtain ⟨tag, -, h⟩ := h
  split at h
  all_goals try simp only [↓Json.bind_eq_some, Option.some.injEq] at h
  · obtain ⟨_, -, _, -, _, -, _, hoptions, rfl⟩ := h
    exact ActivityOptions.roundTrips.required hoptions
  · obtain ⟨_, -, _, hduration, rfl⟩ := h
    exact Span.roundTrips.required hduration
  · obtain ⟨_, -, rfl⟩ := h
    trivial
  · obtain ⟨_, -, _, -, _, -, _, -, _, hoptions, rfl⟩ := h
    exact WorkflowOptions.roundTrips.defaulted WorkflowOptions.standard_isStorable hoptions
  · obtain ⟨_, -, rfl⟩ := h
    trivial
  · obtain ⟨_, -, rfl⟩ := h
    trivial
  · obtain ⟨_, -, _, htimeout, rfl⟩ := h
    exact Span.roundTrips.optional htimeout
  · obtain ⟨_, -, rfl⟩ := h
    trivial
  · obtain ⟨_, hfailure, rfl⟩ := h
    exact Failure.tagged_roundTrips.required hfailure
  · obtain ⟨_, -, rfl⟩ := h
    trivial
  · cases h

theorem Command.roundTrips : RoundTrips toJson ofJson? IsStorable where
  written _ := ofJson?_toJson
  accepted _ _ := isStorable_of_ofJson?

/-! ## Events -/

namespace Event

def IsStorable : Event → Prop
  | .workflowStarted _ _ _ attempt parent options =>
      attempt < 2 ^ 32 ∧ (∀ ref ∈ parent, ref.IsStorable) ∧ options.IsStorable
  | .workflowFailed failure => failure.IsStorable
  | .activityScheduled _ _ _ _ options => options.IsStorable
  | .activityStarted _ attempt _ => attempt < 2 ^ 32
  | .activityHeartbeat _ attempt details => attempt < 2 ^ 32 ∧ details ≠ some .null
  | .activityCompleted _ attempt _ => attempt < 2 ^ 32
  | .activityFailed _ attempt failure _ _ => attempt < 2 ^ 32 ∧ failure.IsStorable
  | .activityTimedOut _ attempt _ _ _ => attempt < 2 ^ 32
  | .timerStarted _ fireAt duration => fireAt.IsProper ∧ duration.IsStorable
  | .signalReceived signal => signal.IsStorable
  | .childStarted _ runId _ => runId.IsProper
  | .childCompleted _ runId _ => runId.IsProper
  | .childFailed _ runId failure => runId.IsProper ∧ failure.IsStorable
  | .workflowCompleted _ | .workflowCancelled _ | .workflowTimedOut | .workflowTerminated _
  | .cancellationRequested _ | .activityCancelled _ | .timerFired _ | .timerCancelled _ => True

theorem ofJson?_toJson {event : Event} (h : event.IsStorable) :
    ofJson? event.toJson = some event := by
  have hword : ∀ attempt < 2 ^ 32, Json.word? 32 (.ofNat attempt) = some attempt :=
    (Json.word_roundTrips 32).written
  cases event with
  | workflowStarted _ _ _ attempt parent options =>
      obtain ⟨hattempt, hparent, hoptions⟩ := h
      simp -implicitDefEqProofs [toJson, tagged, ofJson?, workflowOfJson?, hword attempt hattempt,
        RunRef.roundTrips.nullable rfl hparent, WorkflowOptions.roundTrips.written options hoptions]
  | workflowFailed failure =>
      simp -implicitDefEqProofs [toJson, tagged, ofJson?, workflowOfJson?,
        Failure.tagged_roundTrips.written failure h]
  | signalReceived signal =>
      simp -implicitDefEqProofs [toJson, tagged, ofJson?, workflowOfJson?,
        Signal.roundTrips.written signal h]
  | workflowCompleted | workflowCancelled | workflowTimedOut | workflowTerminated
  | cancellationRequested =>
      simp -implicitDefEqProofs [toJson, tagged, ofJson?, workflowOfJson?]
  | activityScheduled _ _ _ _ options =>
      simp -implicitDefEqProofs [toJson, tagged, ofJson?, workflowOfJson?, activityOfJson?,
        ActivityOptions.roundTrips.written options h]
  | activityStarted _ attempt _ | activityCompleted _ attempt _ =>
      simp -implicitDefEqProofs [toJson, tagged, ofJson?, workflowOfJson?, activityOfJson?,
        hword attempt h]
  | activityHeartbeat _ attempt details =>
      simp -implicitDefEqProofs [toJson, tagged, ofJson?, workflowOfJson?, activityOfJson?,
        hword attempt h.1, Json.nullable_orNull h.2]
  | activityFailed _ attempt failure _ _ =>
      simp -implicitDefEqProofs [toJson, tagged, ofJson?, workflowOfJson?, activityOfJson?,
        hword attempt h.1, ActivityFailure.roundTrips.written failure h.2]
  | activityTimedOut _ attempt timeout _ _ =>
      have htimeout : TimeoutType.ofTaggedJson? timeout.toJson = some timeout := by
        cases timeout <;> rfl
      simp -implicitDefEqProofs [toJson, tagged, ofJson?, workflowOfJson?, activityOfJson?,
        hword attempt h, htimeout]
  | activityCancelled =>
      simp -implicitDefEqProofs [toJson, tagged, ofJson?, workflowOfJson?, activityOfJson?]
  | timerStarted _ fireAt duration =>
      simp -implicitDefEqProofs [toJson, tagged, ofJson?, workflowOfJson?, activityOfJson?,
        timerOfJson?, Instant.roundTrips.written fireAt h.1, Span.roundTrips.written duration h.2]
  | timerFired | timerCancelled =>
      simp -implicitDefEqProofs [toJson, tagged, ofJson?, workflowOfJson?, activityOfJson?,
        timerOfJson?]
  | childStarted _ runId _ | childCompleted _ runId _ =>
      simp -implicitDefEqProofs [toJson, tagged, ofJson?, workflowOfJson?, activityOfJson?,
        timerOfJson?, childOfJson?, Uuid.roundTrips.written runId h]
  | childFailed _ runId failure =>
      simp -implicitDefEqProofs [toJson, tagged, ofJson?, workflowOfJson?, activityOfJson?,
        timerOfJson?, childOfJson?, Uuid.roundTrips.written runId h.1,
        Failure.tagged_roundTrips.written failure h.2]

theorem isStorable_of_workflowOfJson? {tag : String} {json : Json} {event : Event}
    (h : workflowOfJson? tag json = some event) : event.IsStorable := by
  unfold workflowOfJson? at h
  split at h
  all_goals try simp only [↓Json.bind_eq_some, Option.some.injEq] at h
  · obtain ⟨_, -, _, -, _, -, _, hattempt, _, hparent, _, hoptions, rfl⟩ := h
    exact ⟨(Json.word_roundTrips 32).defaulted (by decide) hattempt,
      RunRef.roundTrips.optional hparent,
      WorkflowOptions.roundTrips.defaulted WorkflowOptions.standard_isStorable hoptions⟩
  · obtain ⟨_, -, rfl⟩ := h
    trivial
  · obtain ⟨_, hfailure, rfl⟩ := h
    exact Failure.tagged_roundTrips.required hfailure
  · obtain ⟨_, -, rfl⟩ := h
    trivial
  · obtain rfl := h
    trivial
  · obtain ⟨_, -, rfl⟩ := h
    trivial
  · obtain ⟨_, -, rfl⟩ := h
    trivial
  · obtain ⟨_, hsignal, rfl⟩ := h
    exact Signal.roundTrips.required hsignal
  · cases h

theorem isStorable_of_activityOfJson? {tag : String} {json : Json} {event : Event}
    (h : activityOfJson? tag json = some event) : event.IsStorable := by
  unfold activityOfJson? at h
  simp only [↓Json.bind_eq_some] at h
  obtain ⟨_, -, h⟩ := h
  split at h
  all_goals try simp only [↓Json.bind_eq_some, Option.some.injEq] at h
  · obtain ⟨_, -, _, -, _, -, _, hoptions, rfl⟩ := h
    exact ActivityOptions.roundTrips.required hoptions
  · obtain ⟨_, -, _, hattempt, rfl⟩ := h
    exact (Json.word_roundTrips 32).required hattempt
  · obtain ⟨_, hdetails, _, hattempt, rfl⟩ := h
    exact ⟨(Json.word_roundTrips 32).required hattempt, Json.ne_null_of_optional hdetails⟩
  · obtain ⟨_, -, _, hattempt, rfl⟩ := h
    exact (Json.word_roundTrips 32).required hattempt
  · obtain ⟨_, hfailure, _, hattempt, _, -, _, -, rfl⟩ := h
    exact ⟨(Json.word_roundTrips 32).required hattempt,
      ActivityFailure.roundTrips.required hfailure⟩
  · obtain ⟨_, -, _, hattempt, _, -, _, -, rfl⟩ := h
    exact (Json.word_roundTrips 32).required hattempt
  · obtain rfl := h
    trivial
  · cases h

theorem isStorable_of_timerOfJson? {tag : String} {json : Json} {event : Event}
    (h : timerOfJson? tag json = some event) : event.IsStorable := by
  unfold timerOfJson? at h
  simp only [↓Json.bind_eq_some] at h
  obtain ⟨_, -, h⟩ := h
  split at h
  all_goals try simp only [↓Json.bind_eq_some, Option.some.injEq] at h
  · obtain ⟨_, hfire, _, hduration, rfl⟩ := h
    exact ⟨Instant.roundTrips.required hfire, Span.roundTrips.required hduration⟩
  · obtain rfl := h
    trivial
  · obtain rfl := h
    trivial
  · cases h

theorem isStorable_of_childOfJson? {tag : String} {json : Json} {event : Event}
    (h : childOfJson? tag json = some event) : event.IsStorable := by
  unfold childOfJson? at h
  simp only [↓Json.bind_eq_some] at h
  obtain ⟨_, -, _, hrun, h⟩ := h
  have hrun := Uuid.roundTrips.required hrun
  split at h
  all_goals try simp only [↓Json.bind_eq_some, Option.some.injEq] at h
  · obtain ⟨_, -, rfl⟩ := h
    exact hrun
  · obtain ⟨_, -, rfl⟩ := h
    exact hrun
  · obtain ⟨_, hfailure, rfl⟩ := h
    exact ⟨hrun, Failure.tagged_roundTrips.required hfailure⟩
  · cases h

theorem roundTrips : RoundTrips toJson ofJson? IsStorable where
  written _ := ofJson?_toJson
  accepted json event h := by
    simp only [ofJson?, ↓Json.bind_eq_some, Option.orElse_eq_orElse,
      Option.orElse_eq_or, Option.or_eq_some_iff] at h
    obtain ⟨tag, -, h⟩ := h
    rcases h with hworkflow | ⟨-, hactivity | ⟨-, htimer | ⟨-, hchild⟩⟩⟩
    · exact isStorable_of_workflowOfJson? hworkflow
    · exact isStorable_of_activityOfJson? hactivity
    · exact isStorable_of_timerOfJson? htimer
    · exact isStorable_of_childOfJson? hchild

end Event

structure HistoryEvent.IsStorable (event : HistoryEvent) : Prop where
  eventId : event.eventId < 2 ^ 64
  timestamp : event.timestamp.IsProper
  formatVersion : event.formatVersion < 2 ^ 16
  event : event.event.IsStorable

theorem HistoryEvent.roundTrips : RoundTrips toJson ofJson? IsStorable where
  written event h := by
    simp -implicitDefEqProofs [toJson, ofJson?, (Json.word_roundTrips 64).written _ h.eventId,
      Instant.roundTrips.written _ h.timestamp, (Json.word_roundTrips 16).written _ h.formatVersion,
      Event.roundTrips.written _ h.event]
  accepted json event h := by
    unfold ofJson? at h
    simp only [↓Json.bind_eq_some] at h
    obtain ⟨_, hid, _, htimestamp, _, hversion, _, hevent, hrecord⟩ := h
    obtain rfl := Option.some.inj hrecord
    exact ⟨(Json.word_roundTrips 64).required hid, Instant.roundTrips.required htimestamp,
      (Json.word_roundTrips 16).required hversion, Event.roundTrips.required hevent⟩

end Chronicle
