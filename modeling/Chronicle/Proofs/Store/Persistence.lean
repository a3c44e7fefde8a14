import Chronicle.Proofs.Json.Formats
import Chronicle.Proofs.Store.Records

/-!
# What is stored is read back

The formats of all records that are stored.
-/

namespace Chronicle

open Json (Format)

/-! ## Options and failures -/

def RetryPolicy.format : Format RetryPolicy where
  write := toJson
  read := ofJson?
  storable := IsStorable
  keys := ["initial_interval", "backoff_coefficient", "maximum_interval", "maximum_attempts",
    "non_retryable_error_codes", "jitter"]
  defaulted _ := ["non_retryable_error_codes", "jitter"]
  brief policy := { policy with permanentCodes := [], jitter := .ofNat 0 }

theorem RetryPolicy.format_persists : format.Persists := by
  refine Format.persists roundTrips ?_ ?_
  · intro json keys hkeys
    simp only [format, List.forall_mem_cons] at hkeys
    simp [format, ofJson?, hkeys]
  · intro json policy h
    unfold format ofJson? at h
    simp only [↓Json.bind_eq_some] at h
    obtain ⟨_, hinitial, _, hcoefficient, _, hmaximum, _, hattempts, _, -, _, -, hpolicy⟩ := h
    obtain rfl := Option.some.inj hpolicy
    simp [format, ofJson?, hinitial, hcoefficient, hmaximum, hattempts]

def ActivityOptions.format : Format ActivityOptions where
  write := toJson
  read := ofJson?
  storable := IsStorable
  keys := ["retry_policy", "task_queue", "schedule_to_start_timeout", "start_to_close_timeout",
    "heartbeat_timeout"]
  defaulted _ := ["task_queue", "schedule_to_start_timeout", "heartbeat_timeout"]
  brief options :=
    { options with taskQueue := none, pickupTimeout := none, heartbeatTimeout := none }

theorem ActivityOptions.format_persists : format.Persists := by
  refine Format.persists roundTrips ?_ ?_
  · intro json keys hkeys
    simp only [format, List.forall_mem_cons] at hkeys
    simp [format, ofJson?, hkeys]
  · intro json options h
    unfold format ofJson? at h
    simp only [↓Json.bind_eq_some] at h
    obtain ⟨_, hretry, _, -, _, -, _, hattempt, _, -, hoptions⟩ := h
    obtain rfl := Option.some.inj hoptions
    simp [format, ofJson?, hretry, hattempt]

def WorkflowOptions.format : Format WorkflowOptions where
  write := toJson
  read := ofJson?
  storable := IsStorable
  keys := ["retry_policy", "cron_schedule", "execution_timeout"]
  defaulted _ := ["retry_policy", "cron_schedule", "execution_timeout"]
  brief _ := standard

theorem WorkflowOptions.format_persists : format.Persists := by
  refine Format.persists roundTrips ?_ ?_
  · intro json keys hkeys
    simp only [format, List.forall_mem_cons] at hkeys
    simp [format, ofJson?, Json.isObject_without, hkeys]
  · intro json options h
    simp only [format, ofJson?, Option.ite_none_left_eq_some] at h
    simp [format, ofJson?, Json.isObject_without, h.1, standard]

def ActivityFailure.format : Format ActivityFailure where
  write := toJson
  read := ofJson?
  storable := IsStorable
  keys := ["message", "code", "retryable", "details"]
  defaulted _ := ["code", "details"]
  brief failure := { failure with code := none, details := none }

theorem ActivityFailure.format_persists : format.Persists := by
  refine Format.persists roundTrips ?_ ?_
  · intro json keys hkeys
    simp only [format, List.forall_mem_cons] at hkeys
    simp [format, ofJson?, hkeys]
  · intro json failure h
    unfold format ofJson? at h
    simp only [↓Json.bind_eq_some] at h
    obtain ⟨_, hmessage, _, -, _, hretryable, _, -, hfailure⟩ := h
    obtain rfl := Option.some.inj hfailure
    simp [format, ofJson?, hmessage, hretryable]

def Failure.format : Format Failure where
  write := toJson
  read := ofJson?
  storable := IsStorable
  keys := ["kind", "message", "code", "retryable", "details"]
  defaulted _ := ["code", "retryable", "details"]
  brief failure := .ofKind failure.kind failure.message

theorem Failure.format_persists : format.Persists := by
  refine Format.persists roundTrips ?_ ?_
  · intro json keys hkeys
    simp only [format, List.forall_mem_cons] at hkeys
    simp [format, ofJson?, readWith, hkeys]
  · intro json failure h
    unfold format ofJson? readWith at h
    simp only [↓Json.bind_eq_some] at h
    obtain ⟨_, hkind, _, hmessage, _, -, _, -, _, -, hfailure⟩ := h
    obtain rfl := Option.some.inj hfailure
    simp [format, ofJson?, readWith, hkind, hmessage, ofKind]

/-! ## Signals and fan-ins -/

def Signal.format : Format Signal where
  write := toJson
  read := ofJson?
  storable := IsStorable
  keys := ["name", "payload", "sent_at"]

theorem Signal.format_persists : format.Persists := by
  refine Format.persists_of_full roundTrips (fun _ => ⟨rfl, rfl⟩) fun json keys hkeys => ?_
  simp only [format, List.forall_mem_cons] at hkeys
  simp [format, ofJson?, hkeys]

def FanIn.format : Format FanIn where
  write := toJson
  read := ofJson?
  storable _ := True
  keys := ["order", "results"]

theorem FanIn.format_persists : format.Persists := by
  refine Format.persists_of_full roundTrips (fun _ => ⟨rfl, rfl⟩) fun json keys hkeys => ?_
  simp only [format, List.forall_mem_cons] at hkeys
  simp [format, ofJson?, hkeys]

/-! ## Commands and events -/

namespace Command

def defaultedKeys : Command → List String
  | .startChild .. => ["task_queue", "options"]
  | .awaitCondition .. => ["timeout"]
  | _ => []

def brief : Command → Command
  | .startChild workflowId workflowType input _ _ =>
      .startChild workflowId workflowType input none .standard
  | .awaitCondition conditionId _ => .awaitCondition conditionId none
  | command => command

def format : Format Command where
  write := toJson
  read := ofJson?
  storable := IsStorable
  keys := ["type", "activity_id", "activity_type", "input", "options", "timer_id", "duration",
    "workflow_id", "workflow_type", "task_queue", "signal_name", "condition_id", "timeout",
    "result", "error", "reason"]
  defaulted := defaultedKeys
  brief := brief

theorem ofJson?_without {json : Json} {command : Command} (h : ofJson? json = some command) :
    ofJson? (json.without command.defaultedKeys) = some command.brief := by
  have hread := h
  unfold ofJson? at h
  simp only [↓Json.bind_eq_some] at h
  obtain ⟨tag, htag, h⟩ := h
  cases command with
  | startChild workflowId workflowType input taskQueue options =>
      split at h <;> simp only [↓Json.bind_eq_some, Option.some.injEq, reduceCtorEq, and_false,
        exists_false] at h
      obtain ⟨_, hid, _, htype, _, hinput, _, -, _, -, hcommand⟩ := h
      cases hcommand
      simp [defaultedKeys, brief, ofJson?, htag, hid, htype, hinput]
  | awaitCondition conditionId timeout =>
      split at h <;> simp only [↓Json.bind_eq_some, Option.some.injEq, reduceCtorEq, and_false,
        exists_false] at h
      obtain ⟨_, hid, _, -, hcommand⟩ := h
      cases hcommand
      simp [defaultedKeys, brief, ofJson?, htag, hid]
  | _ => simpa [defaultedKeys, brief, Json.without_nil] using hread

theorem format_persists : format.Persists := by
  refine Format.persists roundTrips ?_ fun _ _ => ofJson?_without
  intro json keys hkeys
  simp only [format, List.forall_mem_cons] at hkeys
  unfold format ofJson?
  simp [hkeys]

end Command

namespace Event

def defaultedKeys : Event → List String
  | .workflowStarted .. => ["attempt", "parent", "options"]
  | .activityHeartbeat .. => ["details"]
  | .activityFailed .. | .activityTimedOut .. => ["attempts_exhausted"]
  | _ => []

def brief : Event → Event
  | .workflowStarted workflowType input taskQueue _ _ _ =>
      .workflowStarted workflowType input taskQueue 1 none .standard
  | .activityHeartbeat activityId attempt _ => .activityHeartbeat activityId attempt none
  | .activityFailed activityId attempt failure willRetry _ =>
      .activityFailed activityId attempt failure willRetry false
  | .activityTimedOut activityId attempt timeout willRetry _ =>
      .activityTimedOut activityId attempt timeout willRetry false
  | event => event

def format : Format Event where
  write := toJson
  read := ofJson?
  storable := IsStorable
  keys := ["type", "workflow_type", "input", "task_queue", "attempt", "parent", "options", "result",
    "error", "reason", "signal", "activity_id", "activity_type", "worker_id", "details",
    "will_retry", "attempts_exhausted", "timeout_type", "timer_id", "fire_at", "duration",
    "workflow_id", "run_id"]
  defaulted := defaultedKeys
  brief := brief

theorem ofJson?_without {json : Json} {event : Event} (h : ofJson? json = some event) :
    ofJson? (json.without event.defaultedKeys) = some event.brief := by
  have hread := h
  unfold ofJson? workflowOfJson? activityOfJson? timerOfJson? childOfJson? at h
  simp only [↓Json.bind_eq_some, Option.orElse_eq_orElse,
    Option.orElse_eq_or, Option.or_eq_some_iff] at h
  obtain ⟨tag, htag, h⟩ := h
  -- of the readers of all types only that of the event's own can have read it
  cases event with
  | workflowStarted =>
      rcases h with h | ⟨-, ⟨_, -, h⟩ | ⟨-, ⟨_, -, h⟩ | ⟨-, _, -, _, -, h⟩⟩⟩ <;>
        split at h <;> simp only [↓Json.bind_eq_some, Option.some.injEq, reduceCtorEq, and_false,
          exists_false] at h
      obtain ⟨_, htype, _, hinput, _, hqueue, _, -, _, -, _, -, hevent⟩ := h
      cases hevent
      simp [defaultedKeys, brief, ofJson?, workflowOfJson?, htag, htype, hinput, hqueue]
  | activityHeartbeat =>
      rcases h with h | ⟨-, ⟨_, hid, h⟩ | ⟨-, ⟨_, -, h⟩ | ⟨-, _, -, _, -, h⟩⟩⟩ <;>
        split at h <;> simp only [↓Json.bind_eq_some, Option.some.injEq, reduceCtorEq, and_false,
          exists_false] at h
      obtain ⟨_, -, _, hattempt, hevent⟩ := h
      cases hevent
      simp [defaultedKeys, brief, ofJson?, workflowOfJson?, activityOfJson?, htag, hid, hattempt]
  | activityFailed =>
      rcases h with h | ⟨-, ⟨_, hid, h⟩ | ⟨-, ⟨_, -, h⟩ | ⟨-, _, -, _, -, h⟩⟩⟩ <;>
        split at h <;> simp only [↓Json.bind_eq_some, Option.some.injEq, reduceCtorEq, and_false,
          exists_false] at h
      obtain ⟨_, hfailure, _, hattempt, _, hretry, _, -, hevent⟩ := h
      cases hevent
      simp [defaultedKeys, brief, ofJson?, workflowOfJson?, activityOfJson?, htag, hid, hfailure,
        hattempt, hretry]
  | activityTimedOut =>
      rcases h with h | ⟨-, ⟨_, hid, h⟩ | ⟨-, ⟨_, -, h⟩ | ⟨-, _, -, _, -, h⟩⟩⟩ <;>
        split at h <;> simp only [↓Json.bind_eq_some, Option.some.injEq, reduceCtorEq, and_false,
          exists_false] at h
      obtain ⟨_, htimeout, _, hattempt, _, hretry, _, -, hevent⟩ := h
      cases hevent
      simp [defaultedKeys, brief, ofJson?, workflowOfJson?, activityOfJson?, htag, hid, htimeout,
        hattempt, hretry]
  | _ => simpa [defaultedKeys, brief, Json.without_nil] using hread

theorem format_persists : format.Persists := by
  refine Format.persists roundTrips ?_ fun _ _ => ofJson?_without
  intro json keys hkeys
  simp only [format, List.forall_mem_cons] at hkeys
  unfold format ofJson? workflowOfJson? activityOfJson? timerOfJson? childOfJson?
  simp [hkeys]

end Event

def HistoryEvent.format : Format HistoryEvent where
  write := toJson
  read := ofJson?
  storable := IsStorable
  keys := ["event_id", "timestamp", "format_version", "event"]

theorem HistoryEvent.format_persists : format.Persists := by
  refine Format.persists_of_full roundTrips (fun _ => ⟨rfl, rfl⟩) fun json keys hkeys => ?_
  simp only [format, List.forall_mem_cons] at hkeys
  simp [format, ofJson?, hkeys]

/-! ## Runs, tasks and timers -/

def Run.format : Format Run where
  write := toJson
  read := ofJson?
  storable := IsStorable
  keys := ["id", "workflow_type", "task_queue", "status", "input", "result", "error", "attempt",
    "parent", "options", "start_time", "close_time", "history_length", "next_run_id"]
  defaulted _ := ["result", "error", "parent", "close_time", "next_run_id"]
  brief run :=
    { run with result := none, failure := none, parent := none, closeTime := none, nextRunId := none }

theorem Run.format_persists : format.Persists := by
  refine Format.persists roundTrips ?_ ?_
  · intro json keys hkeys
    simp only [format, List.forall_mem_cons] at hkeys
    obtain ⟨href, htype, hqueue, hstatus, hinput, hresult, hfailure, hattempt, hparent, hoptions,
      hstart, hclose, hlength, hnext, -⟩ := hkeys
    change ofJson? (json.without keys) = ofJson? json
    unfold ofJson?
    rw [Json.required_without href, Json.required_without htype, Json.required_without hqueue,
      Json.required_without hstatus, Json.required_without hinput, Json.optional_without hresult,
      Json.optional_without hfailure, Json.required_without hattempt,
      Json.optional_without hparent, Json.required_without hoptions, Json.required_without hstart,
      Json.optional_without hclose, Json.required_without hlength, Json.optional_without hnext]
  · intro json run h
    unfold format ofJson? at h
    simp only [↓Json.bind_eq_some] at h
    obtain ⟨_, href, _, htype, _, hqueue, _, hstatus, _, hinput, _, -, _, -, _, hattempt, _, -, _,
      hoptions, _, hstart, _, -, _, hlength, _, -, hrun⟩ := h
    obtain rfl := Option.some.inj hrun
    simp [format, ofJson?, href, htype, hqueue, hstatus, hinput, hattempt, hoptions, hstart, hlength]

def Work.format : Format Work where
  write := toJson
  read := ofJson?
  storable := IsStorable
  keys := ["kind", "instance", "workflow_type", "activity_id", "activity_type", "input", "options",
    "attempt"]

theorem Work.format_persists : format.Persists := by
  refine Format.persists_of_full roundTrips (fun _ => ⟨rfl, rfl⟩) fun json keys hkeys => ?_
  simp only [format, List.forall_mem_cons] at hkeys
  simp [format, ofJson?, hkeys]

def TimerPurpose.format : Format TimerPurpose where
  write := toJson
  read := ofJson?
  storable := IsStorable
  keys := ["purpose", "timer_id", "activity_id", "attempt"]

theorem TimerPurpose.format_persists : format.Persists := by
  refine Format.persists_of_full roundTrips (fun _ => ⟨rfl, rfl⟩) fun json keys hkeys => ?_
  simp only [format, List.forall_mem_cons] at hkeys
  unfold format ofJson?
  simp [hkeys]

/-! ## All formats -/

/--
Every record is read back as it was written, and written again as it was read.  A record may come
with fields that its reader does not know and without those that have defaults, its identifiers and
instants in any of their spellings.
-/
theorem formats_persist :
    HistoryEvent.format.Persists ∧ Event.format.Persists ∧ Command.format.Persists ∧
      Work.format.Persists ∧ TimerPurpose.format.Persists ∧ Run.format.Persists ∧
      WorkflowOptions.format.Persists ∧ ActivityOptions.format.Persists ∧
      RetryPolicy.format.Persists ∧ Failure.format.Persists ∧ ActivityFailure.format.Persists ∧
      Signal.format.Persists ∧ FanIn.format.Persists ∧
      (∀ uuid : Uuid, uuid.IsProper → ∀ spelling ∈ uuid.spellings,
        Uuid.parse? spelling = some uuid) ∧
      (∀ instant : Instant, instant.IsProper → ∀ mark ∈ Timestamp.marks, ∀ zone ∈ Timestamp.zones,
        Timestamp.parse? (Timestamp.spelled mark zone instant) = some instant) :=
  ⟨HistoryEvent.format_persists, Event.format_persists, Command.format_persists,
    Work.format_persists, TimerPurpose.format_persists, Run.format_persists,
    WorkflowOptions.format_persists, ActivityOptions.format_persists, RetryPolicy.format_persists,
    Failure.format_persists, ActivityFailure.format_persists, Signal.format_persists,
    FanIn.format_persists, fun _ proper _ h => Uuid.parse?_spelling proper h,
    fun _ proper _ hmark _ hzone => Timestamp.parse?_spelled hmark hzone proper⟩

/-- The first event of a child's run, which is retried and limited to an hour. -/
def firstEvent : HistoryEvent where
  eventId := 1
  timestamp := ⟨1704067200, 250000000⟩
  formatVersion := 1
  event := .workflowStarted "order" (.list [.null, .bool true]) "default" 1
    (some ⟨"parent", .generated 0 1⟩) ⟨some .exponential, none, some (.ofSeconds 3600)⟩

theorem firstEvent_persists :
    HistoryEvent.format.storable firstEvent ∧
      HistoryEvent.format.read (HistoryEvent.format.write firstEvent) = some firstEvent := by
  have hpolicy : RetryPolicy.exponential.IsStorable :=
    { initialInterval := ⟨1000, by decide, rfl⟩
      coefficient := by decide
      maximumInterval := ⟨100000, by decide, rfl⟩
      maximumAttempts := by decide
      jitter := by decide }
  have hoptions : WorkflowOptions.IsStorable ⟨some .exponential, none, some (.ofSeconds 3600)⟩ :=
    { retryPolicy := fun _ h => Option.some.inj h ▸ hpolicy
      executionTimeout := fun _ h => Option.some.inj h ▸ ⟨3600000, by decide, rfl⟩ }
  have hparent : RunRef.IsStorable ⟨"parent", .generated 0 1⟩ := by
    simp only [RunRef.IsStorable, Uuid.IsProper, Uuid.generated]
    decide
  have hstorable : HistoryEvent.format.storable firstEvent :=
    { eventId := by decide
      timestamp := ⟨⟨by decide +kernel, by decide +kernel⟩, .inl (by decide)⟩
      formatVersion := by decide
      event := ⟨by decide, fun _ h => Option.some.inj h ▸ hparent, hoptions⟩ }
  exact ⟨hstorable, formats_persist.1.written firstEvent hstorable⟩

-- a policy without the later fields, and with one that is not known
example :
    RetryPolicy.ofJson? (.object [("backoff_coefficient", .int 2), ("comment", .text "old"),
      ("initial_interval", .int 1000), ("maximum_attempts", .int 3),
      ("maximum_interval", .int 60000)]) =
      some ⟨.ofSeconds 1, .ofNat 2, .ofSeconds 60, 3, [], .ofNat 0⟩ := by decide +kernel

-- an instant of a clock two hours east
example :
    Signal.ofJson? (.object [("name", .text "go"), ("payload", .null),
      ("sent_at", .text "2024-1-1t02:00:00.5+0200")]) =
      some ⟨"go", .null, ⟨1704067200, 500000000⟩⟩ := by decide +kernel

end Chronicle
