import Chronicle.Proofs.Workflow.EventRecords
import Chronicle.Store.Task
import Chronicle.Store.Timer
import Chronicle.Workflow.Run

/-!
# Records of the store

Runs, and what tasks and timers carry, are read back.
-/

namespace Chronicle

open Json (RoundTrips)

structure Run.IsStorable (run : Run) : Prop where
  ref : run.ref.IsStorable
  result : run.result ≠ some .null
  failure : ∀ failure ∈ run.failure, failure.IsStorable
  attempt : run.attempt < 2 ^ 32
  parent : ∀ parent ∈ run.parent, parent.IsStorable
  options : run.options.IsStorable
  startTime : run.startTime.IsProper
  closeTime : ∀ time ∈ run.closeTime, time.IsProper
  historyLength : run.historyLength < 2 ^ 64
  nextRunId : ∀ runId ∈ run.nextRunId, runId.IsProper

theorem Run.roundTrips : RoundTrips toJson ofJson? IsStorable where
  written run h := by
    have hstatus : RunStatus.ofJson? run.status.toJson = some run.status := by
      cases run.status <;> rfl
    simp -implicitDefEqProofs [toJson, ofJson?, RunRef.roundTrips.written _ h.ref, hstatus,
      Json.nullable_orNull h.result, Failure.roundTrips.nullable rfl h.failure,
      (Json.word_roundTrips 32).written _ h.attempt, RunRef.roundTrips.nullable rfl h.parent,
      WorkflowOptions.roundTrips.written _ h.options, Instant.roundTrips.written _ h.startTime,
      Instant.roundTrips.nullable rfl h.closeTime,
      (Json.word_roundTrips 64).written _ h.historyLength,
      Uuid.roundTrips.nullable rfl h.nextRunId]
  accepted json run h := by
    unfold ofJson? at h
    simp only [↓Json.bind_eq_some] at h
    obtain ⟨_, href, _, -, _, -, _, -, _, -, _, hresult, _, hfailure, _, hattempt, _, hparent, _,
      hoptions, _, hstart, _, hclose, _, hlength, _, hnext, hrun⟩ := h
    obtain rfl := Option.some.inj hrun
    exact {
      ref := RunRef.roundTrips.required href
      result := Json.ne_null_of_optional hresult
      failure := Failure.roundTrips.optional hfailure
      attempt := (Json.word_roundTrips 32).required hattempt
      parent := RunRef.roundTrips.optional hparent
      options := WorkflowOptions.roundTrips.required hoptions
      startTime := Instant.roundTrips.required hstart
      closeTime := Instant.roundTrips.optional hclose
      historyLength := (Json.word_roundTrips 64).required hlength
      nextRunId := Uuid.roundTrips.optional hnext }

/-! ## Tasks and timers -/

def Work.IsStorable : Work → Prop
  | .workflow run _ => run.IsStorable
  | .activity task => task.run.IsStorable ∧ task.options.IsStorable ∧ task.attempt < 2 ^ 32

theorem Work.roundTrips : RoundTrips toJson ofJson? IsStorable where
  written work h := by
    cases work with
    | workflow run workflowType =>
        have hkind : TaskKind.ofTag? (.text "workflow") = some .workflow := rfl
        simp -implicitDefEqProofs [toJson, ofJson?, hkind, RunRef.roundTrips.written run h]
    | activity task =>
        obtain ⟨hrun, hoptions, hattempt⟩ := h
        have hkind : TaskKind.ofTag? (.text "activity") = some .activity := rfl
        simp -implicitDefEqProofs [toJson, ofJson?, hkind, RunRef.roundTrips.written _ hrun,
          ActivityOptions.roundTrips.written _ hoptions,
          (Json.word_roundTrips 32).written _ hattempt]
  accepted json work h := by
    unfold ofJson? at h
    simp only [↓Json.bind_eq_some] at h
    obtain ⟨kind, -, _, hrun, h⟩ := h
    have hrun := RunRef.roundTrips.required hrun
    cases kind with
    | workflow =>
        simp only [↓Json.bind_eq_some, Option.some.injEq] at h
        obtain ⟨_, -, rfl⟩ := h
        exact hrun
    | activity =>
        simp only [↓Json.bind_eq_some, Option.some.injEq] at h
        obtain ⟨_, -, _, -, _, -, _, hoptions, _, hattempt, rfl⟩ := h
        exact ⟨hrun, ActivityOptions.roundTrips.required hoptions,
          (Json.word_roundTrips 32).required hattempt⟩

def TimerPurpose.IsStorable : TimerPurpose → Prop
  | .activityAttempt _ attempt | .activityHeartbeat _ attempt => attempt < 2 ^ 32
  | .workflowTimer _ | .activityPickup _ | .runTimeout => True

theorem TimerPurpose.roundTrips : RoundTrips toJson ofJson? IsStorable where
  written purpose h := by
    cases purpose with
    | activityAttempt _ attempt | activityHeartbeat _ attempt =>
        simp -implicitDefEqProofs [toJson, ofJson?, (Json.word_roundTrips 32).written attempt h]
    | _ => simp -implicitDefEqProofs [toJson, ofJson?]
  accepted json purpose h := by
    unfold ofJson? at h
    simp only [↓Json.bind_eq_some] at h
    obtain ⟨tag, -, h⟩ := h
    split at h
    all_goals try simp only [↓Json.bind_eq_some, Option.some.injEq] at h
    · obtain ⟨_, -, rfl⟩ := h
      trivial
    · obtain ⟨_, -, rfl⟩ := h
      trivial
    · obtain ⟨_, -, _, hattempt, rfl⟩ := h
      exact (Json.word_roundTrips 32).required hattempt
    · obtain ⟨_, -, _, hattempt, rfl⟩ := h
      exact (Json.word_roundTrips 32).required hattempt
    · obtain rfl := h
      trivial
    · cases h

end Chronicle
