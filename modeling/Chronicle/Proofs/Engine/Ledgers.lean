import Mathlib.Data.List.Induction
import Chronicle.Engine.Ledger
import Chronicle.Proofs.Store.Growth

/-!
# What a ledger says about one activity and one timer

The ledger of a history knows of an activity what the events of that activity make of it.  As long
as it is not scheduled again, its attempts only go up, and it stays closed once it is.
-/

namespace Chronicle

namespace Event

def schedules (activityId : String) : Event → Bool
  | .activityScheduled scheduled .. => scheduled = activityId
  | _ => false

end Event

namespace ActivityState

def close (state : ActivityState) : ActivityState := { state with closed := true }

/-- A change that counts only for the current attempt of an open activity. -/
def onAttempt (attempt : Nat) (change : ActivityState → ActivityState) (state : ActivityState) :
    ActivityState :=
  if !state.closed && state.attempt = attempt then change state else state

/-- What an event makes of the activity. -/
def follow (activityId : String) (known : Option ActivityState) (event : Event) :
    Option ActivityState :=
  if event.activityId? = some activityId then
    match event with
    | .activityScheduled _ activityType input taskQueue options =>
        some ⟨activityType, input, taskQueue, options, 1, false, false⟩
    | .activityStarted _ attempt _ =>
        known.map (onAttempt attempt fun state => { state with started := true })
    | .activityFailed _ attempt _ willRetry _ =>
        known.map (onAttempt attempt (Ledger.endAttempt willRetry))
    | .activityTimedOut _ attempt _ willRetry _ =>
        known.map (onAttempt attempt (Ledger.endAttempt willRetry))
    | .activityCompleted .. => known.map close
    | .activityCancelled _ => known.map close
    | _ => known
  else known

/-- Progress without another scheduling. -/
structure Advances (before after : ActivityState) : Prop where
  activityType : after.activityType = before.activityType
  input : after.input = before.input
  taskQueue : after.taskQueue = before.taskQueue
  options : after.options = before.options
  attempt : before.attempt ≤ after.attempt
  closed : before.closed = true → after.closed = true
  started : before.started = true → after.attempt = before.attempt → after.started = true

namespace Advances

theorem refl (state : ActivityState) : Advances state state :=
  ⟨rfl, rfl, rfl, rfl, Nat.le_refl _, fun h => h, fun h _ => h⟩

theorem trans {first second third : ActivityState} (early : Advances first second)
    (late : Advances second third) : Advances first third where
  activityType := late.activityType.trans early.activityType
  input := late.input.trans early.input
  taskQueue := late.taskQueue.trans early.taskQueue
  options := late.options.trans early.options
  attempt := Nat.le_trans early.attempt late.attempt
  closed := fun h => late.closed (early.closed h)
  started := by
    intro hstarted hattempt
    have hearly := early.attempt
    have hlate := late.attempt
    exact late.started (early.started hstarted (by omega)) (by omega)

theorem close (state : ActivityState) : Advances state state.close :=
  ⟨rfl, rfl, rfl, rfl, Nat.le_refl _, fun _ => rfl, fun h _ => h⟩

theorem endAttempt (willRetry : Bool) (state : ActivityState) :
    Advances state (Ledger.endAttempt willRetry state) := by
  cases willRetry with
  | true => exact ⟨rfl, rfl, rfl, rfl, Nat.le_succ _, fun h => h, fun _ h => by
      simp [Ledger.endAttempt] at h⟩
  | false => exact ⟨rfl, rfl, rfl, rfl, Nat.le_refl _, fun _ => rfl, fun h _ => h⟩

theorem start (state : ActivityState) : Advances state { state with started := true } :=
  ⟨rfl, rfl, rfl, rfl, Nat.le_refl _, fun h => h, fun _ _ => rfl⟩

theorem onAttempt {attempt : Nat} {change : ActivityState → ActivityState} {state : ActivityState}
    (advances : Advances state (change state)) : Advances state (state.onAttempt attempt change) := by
  unfold ActivityState.onAttempt
  split
  · exact advances
  · exact refl state

end Advances

theorem follow_advances {activityId : String} {state : ActivityState} {event : Event}
    (h : event.schedules activityId = false) :
    ∃ later, follow activityId (some state) event = some later ∧ state.Advances later := by
  unfold follow
  split
  · rename_i hsubject
    split
    · simp_all [Event.schedules, Event.activityId?]
    · exact ⟨_, rfl, (Advances.start state).onAttempt⟩
    · exact ⟨_, rfl, (Advances.endAttempt _ state).onAttempt⟩
    · exact ⟨_, rfl, (Advances.endAttempt _ state).onAttempt⟩
    · exact ⟨_, rfl, .close state⟩
    · exact ⟨_, rfl, .close state⟩
    · exact ⟨_, rfl, .refl state⟩
  · exact ⟨_, rfl, .refl state⟩

theorem follow_none {activityId : String} {event : Event} (h : event.schedules activityId = false) :
    follow activityId none event = none := by
  unfold follow
  split
  · split <;> simp_all [Event.schedules, Event.activityId?]
  · rfl

/-- An attempt that is started was started by the event, or before. -/
theorem started_of_follow {activityId : String} {known : Option ActivityState} {event : Event}
    {later : ActivityState} (h : follow activityId known event = some later)
    (hstarted : later.started = true) :
    (∃ workerId, event = .activityStarted activityId later.attempt workerId) ∨
      ∃ before, known = some before ∧ before.started = true ∧ before.attempt = later.attempt := by
  unfold follow at h
  split at h
  · rename_i hsubject
    split at h
    · cases h
      cases hstarted
    · rename_i started attempt workerId
      obtain ⟨before, rfl, rfl⟩ := Option.map_eq_some_iff.1 h
      have hid : started = activityId := by simpa [Event.activityId?] using hsubject
      unfold onAttempt at hstarted ⊢
      split
      · rename_i hcurrent
        simp only [Bool.and_eq_true, decide_eq_true_eq] at hcurrent
        exact .inl ⟨workerId, by rw [hid, hcurrent.2]⟩
      · rename_i hstale
        rw [if_neg hstale] at hstarted
        exact .inr ⟨before, rfl, hstarted, rfl⟩
    all_goals
      right
      first
      | obtain ⟨before, rfl, rfl⟩ := Option.map_eq_some_iff.1 h
        refine ⟨before, rfl, ?_⟩
        revert hstarted
        simp only [onAttempt, close, Ledger.endAttempt]
        grind
      | exact ⟨later, h, hstarted, rfl⟩
  · exact .inr ⟨later, h, hstarted, rfl⟩

theorem follow_other {activityId : String} {event : Event} (known : Option ActivityState)
    (h : event.activityId? ≠ some activityId) : follow activityId known event = known := by
  simp [follow, h]

end ActivityState

namespace Ledger

variable {α : Type}

theorem lookup_setEntry (key target : String) (value : α) (entries : List (String × α)) :
    (setEntry key value entries).lookup target =
      if target = key then some value else entries.lookup target := by
  unfold setEntry
  by_cases htarget : target = key
  · simp [htarget]
  · have hmiss : (target == key) = false := by simpa using htarget
    rw [List.lookup_cons, hmiss, if_neg htarget]
    induction entries with
    | nil => rfl
    | cons entry rest ih =>
        obtain ⟨other, found⟩ := entry
        by_cases hother : other = key
        · have hkey : (target == other) = false := by simpa [hother] using htarget
          simpa [List.filter_cons, hother, List.lookup_cons, hmiss] using ih
        · simp only [List.filter_cons, List.lookup_cons, bne_iff_ne, ne_eq, hother,
            not_false_eq_true, if_true]
          split <;> simp_all

theorem activity?_modifyActivity (ledger : Ledger) (activityId target : String)
    (change : ActivityState → ActivityState) :
    (ledger.modifyActivity activityId change).activity? target =
      if target = activityId then (ledger.activity? activityId).map change
      else ledger.activity? target := by
  unfold modifyActivity
  cases hstate : ledger.activity? activityId with
  | none =>
      by_cases htarget : target = activityId
      · simp [htarget, hstate]
      · simp [htarget]
  | some state =>
      simp only [activity?, lookup_setEntry]
      rfl

theorem activity?_modifyAttempt (ledger : Ledger) (activityId target : String) (attempt : Nat)
    (change : ActivityState → ActivityState) :
    (ledger.modifyAttempt activityId attempt change).activity? target =
      if target = activityId
        then (ledger.activity? activityId).map (ActivityState.onAttempt attempt change)
      else ledger.activity? target := by
  unfold modifyAttempt isAttemptOpen
  cases hstate : ledger.activity? activityId with
  | none =>
      by_cases htarget : target = activityId
      · simp [htarget, hstate]
      · simp [htarget]
  | some state =>
      simp only [Option.map_some, ActivityState.onAttempt]
      split
      · rw [activity?_modifyActivity, hstate]
        rfl
      · by_cases htarget : target = activityId
        · simp [htarget, hstate]
        · simp [htarget]

theorem activity?_apply (ledger : Ledger) (event : Event) (activityId : String) :
    (ledger.apply event).activity? activityId =
      ActivityState.follow activityId (ledger.activity? activityId) event := by
  unfold ActivityState.follow
  cases event with
  | activityScheduled scheduled activityType input taskQueue options =>
      simp only [apply, activity?, lookup_setEntry, Event.activityId?, Option.some.injEq]
      by_cases h : activityId = scheduled <;> simp [h, eq_comm]
  | activityStarted started attempt workerId =>
      simp only [apply, activity?_modifyAttempt, Event.activityId?, Option.some.injEq]
      by_cases h : activityId = started <;> simp [h, eq_comm]
  | activityFailed failed attempt failure willRetry exhausted =>
      simp only [apply, activity?_modifyAttempt, Event.activityId?, Option.some.injEq]
      by_cases h : activityId = failed <;> simp [h, eq_comm]
  | activityTimedOut late attempt timeout willRetry exhausted =>
      simp only [apply, activity?_modifyAttempt, Event.activityId?, Option.some.injEq]
      by_cases h : activityId = late <;> simp [h, eq_comm]
  | activityCompleted completed attempt result =>
      simp only [apply, activity?_modifyActivity, Event.activityId?, Option.some.injEq]
      by_cases h : activityId = completed <;> simp [h, eq_comm]
      rfl
  | activityCancelled cancelled =>
      simp only [apply, activity?_modifyActivity, Event.activityId?, Option.some.injEq]
      by_cases h : activityId = cancelled <;> simp [h, eq_comm]
      rfl
  | childStarted workflowId runId workflowType =>
      simp only [apply, Event.activityId?]
      split <;> rfl
  | activityHeartbeat beating attempt details =>
      simp [apply, Event.isClose]
  | _ => rfl

theorem ofHistory_append (first second : List HistoryEvent) :
    ofHistory (first ++ second) =
      second.foldl (fun ledger event => ledger.apply event.event) (ofHistory first) := by
  simp [ofHistory, List.foldl_append]

theorem activity?_ofHistory_append (first second : List HistoryEvent) (activityId : String) :
    (ofHistory (first ++ second)).activity? activityId =
      (second.map HistoryEvent.event).foldl (ActivityState.follow activityId)
        ((ofHistory first).activity? activityId) := by
  rw [ofHistory_append, List.foldl_map]
  induction second generalizing first with
  | nil => rfl
  | cons event rest ih =>
      have hstep := ih (first ++ [event])
      rw [ofHistory_append] at hstep
      simpa [activity?_apply] using hstep

theorem isAttemptOpen_iff {ledger : Ledger} {activityId : String} {attempt : Nat} :
    ledger.isAttemptOpen activityId attempt = true ↔
      ∃ state, ledger.activity? activityId = some state ∧ state.closed = false ∧
        state.attempt = attempt := by
  unfold isAttemptOpen
  cases ledger.activity? activityId <;> simp

end Ledger

/-! ## Activities that are scheduled once -/

/-- The history schedules the activity at most once. -/
def SchedulesOnce (activityId : String) (history : List HistoryEvent) : Prop :=
  history.countP (fun event => event.event.schedules activityId) ≤ 1

theorem SchedulesOnce.of_prefix {activityId : String} {first second : List HistoryEvent}
    (once : SchedulesOnce activityId second) (h : first <+: second) :
    SchedulesOnce activityId first :=
  Nat.le_trans h.sublist.countP_le once

namespace Ledger

theorem activity?_foldl_none {activityId : String} {events : List Event}
    (h : ∀ event ∈ events, event.schedules activityId = false) :
    events.foldl (ActivityState.follow activityId) none = none := by
  induction events with
  | nil => rfl
  | cons event rest ih =>
      rw [List.foldl_cons, ActivityState.follow_none (h event List.mem_cons_self)]
      exact ih fun other hmem => h other (List.mem_cons_of_mem _ hmem)

theorem activity?_foldl_advances {activityId : String} {events : List Event} {state : ActivityState}
    (h : ∀ event ∈ events, event.schedules activityId = false) :
    ∃ later, events.foldl (ActivityState.follow activityId) (some state) = some later ∧
      state.Advances later := by
  induction events generalizing state with
  | nil => exact ⟨state, rfl, .refl state⟩
  | cons event rest ih =>
      obtain ⟨middle, hmiddle, hearly⟩ :=
        @ActivityState.follow_advances activityId state event (h event List.mem_cons_self)
      obtain ⟨later, hlater, hlate⟩ :=
        @ih middle fun other hmem => h other (List.mem_cons_of_mem _ hmem)
      exact ⟨later, by rw [List.foldl_cons, hmiddle, hlater], hearly.trans hlate⟩

theorem schedules_of_activity? {activityId : String} {history : List HistoryEvent}
    {state : ActivityState} (h : (ofHistory history).activity? activityId = some state) :
    ∃ event ∈ history, event.event.schedules activityId = true := by
  cases hany : history.any fun event => event.event.schedules activityId with
  | true => simpa using hany
  | false =>
      have hempty := activity?_ofHistory_append [] history activityId
      have hstart : (ofHistory []).activity? activityId = none := rfl
      rw [List.nil_append, h, hstart, activity?_foldl_none] at hempty
      · cases hempty
      · intro event hmem
        obtain ⟨recorded, hrecorded, rfl⟩ := List.mem_map.1 hmem
        simpa using List.any_eq_false.1 hany recorded hrecorded

/-- Once an activity is scheduled, the rest of the history only takes it further. -/
theorem advances_of_once {activityId : String} {first second : List HistoryEvent}
    {state : ActivityState} (once : SchedulesOnce activityId (first ++ second))
    (h : (ofHistory first).activity? activityId = some state) :
    ∃ later, (ofHistory (first ++ second)).activity? activityId = some later ∧
      state.Advances later := by
  rw [activity?_ofHistory_append, h]
  apply activity?_foldl_advances
  intro event hmem
  obtain ⟨recorded, hrecorded, rfl⟩ := List.mem_map.1 hmem
  obtain ⟨scheduling, hmem, hschedules⟩ := schedules_of_activity? h
  have hfirst : 0 < first.countP fun event => event.event.schedules activityId :=
    List.countP_pos_iff.2 ⟨scheduling, hmem, hschedules⟩
  unfold SchedulesOnce at once
  rw [List.countP_append] at once
  have hsecond : second.countP (fun event => event.event.schedules activityId) = 0 := by omega
  have hnot := List.countP_eq_zero.1 hsecond recorded hrecorded
  simpa using hnot

theorem advances_of_prefix {activityId : String} {first second : List HistoryEvent}
    {state : ActivityState} (once : SchedulesOnce activityId second) (hinitial : first <+: second)
    (h : (ofHistory first).activity? activityId = some state) :
    ∃ later, (ofHistory second).activity? activityId = some later ∧ state.Advances later := by
  obtain ⟨rest, rfl⟩ := hinitial
  exact advances_of_once once h

theorem activity?_concat (history : List HistoryEvent) (event : HistoryEvent) (activityId : String) :
    (ofHistory (history ++ [event])).activity? activityId =
      ActivityState.follow activityId ((ofHistory history).activity? activityId) event.event := by
  rw [activity?_ofHistory_append]
  rfl

theorem activity?_number (history : List HistoryEvent) (now : Instant) (eventId : Nat)
    (events : List Event) (activityId : String) :
    (ofHistory (history ++ RunRecord.number now eventId events)).activity? activityId =
      events.foldl (ActivityState.follow activityId) ((ofHistory history).activity? activityId) := by
  rw [activity?_ofHistory_append, RunRecord.map_event_number]

/-- What the ledger knows of an activity was recorded when the activity was scheduled. -/
theorem scheduled_of_activity? {activityId : String} {history : List HistoryEvent}
    {state : ActivityState} (h : (ofHistory history).activity? activityId = some state) :
    Event.activityScheduled activityId state.activityType state.input state.taskQueue
      state.options ∈ history.map HistoryEvent.event := by
  induction history using List.reverseRecOn generalizing state with
  | nil => cases h
  | append_singleton earlier event ih =>
      rw [activity?_concat] at h
      rw [List.map_append, List.mem_append]
      cases hschedules : event.event.schedules activityId with
      | true =>
          right
          obtain ⟨eventId, timestamp, format, recorded⟩ := event
          cases recorded <;> simp_all [Event.schedules, ActivityState.follow, Event.activityId?]
          subst h
          simp
      | false =>
          left
          cases hstate : (ofHistory earlier).activity? activityId with
          | none =>
              rw [hstate, ActivityState.follow_none hschedules] at h
              cases h
          | some before =>
              obtain ⟨later, hlater, advances⟩ :=
                @ActivityState.follow_advances activityId before event.event hschedules
              rw [hstate, hlater, Option.some.injEq] at h
              subst h
              rw [advances.activityType, advances.input, advances.taskQueue, advances.options]
              exact ih hstate

/-- An activity that was scheduled once is known as it was scheduled then. -/
theorem activity?_of_scheduled {activityId activityType taskQueue : String} {input : Json}
    {options : ActivityOptions} {history : List HistoryEvent}
    (once : SchedulesOnce activityId history)
    (h : Event.activityScheduled activityId activityType input taskQueue options ∈
      history.map HistoryEvent.event) :
    ∃ state, (ofHistory history).activity? activityId = some state ∧
      state.activityType = activityType ∧ state.input = input ∧ state.taskQueue = taskQueue ∧
      state.options = options ∧ 1 ≤ state.attempt := by
  obtain ⟨event, hmem, hevent⟩ := List.mem_map.1 h
  obtain ⟨before, after, rfl⟩ := List.append_of_mem hmem
  have hstate : (ofHistory (before ++ [event])).activity? activityId =
      some ⟨activityType, input, taskQueue, options, 1, false, false⟩ := by
    rw [activity?_concat, hevent]
    simp [ActivityState.follow, Event.activityId?]
  have hinitial : before ++ [event] <+: before ++ event :: after := ⟨after, by simp⟩
  obtain ⟨later, hlater, advances⟩ := advances_of_prefix once hinitial hstate
  exact ⟨later, hlater, advances.activityType, advances.input, advances.taskQueue,
    advances.options, advances.attempt⟩

end Ledger

end Chronicle
