import Chronicle.Proofs.Engine.Attempts

/-!
# Tasks for attempts

An open activity of an open run always has one task in the queue, for its current attempt and with
what the activity was scheduled with.  The task comes with the commit that begins the attempt, and
is completed only by a worker that knows the attempt to be over.
-/

namespace Chronicle

open Relation (ReflTransGen)

/-! ## The tasks for one attempt -/

def Work.isAttempt (run : RunRef) (activityId : String) (attempt : Nat) : Work → Bool
  | .workflow .. => false
  | .activity task => task.run = run && task.activityId = activityId && task.attempt = attempt

theorem Work.isAttempt_iff {run : RunRef} {activityId : String} {attempt : Nat} {work : Work} :
    work.isAttempt run activityId attempt = true ↔
      ∃ task, work = .activity task ∧ task.run = run ∧ task.activityId = activityId ∧
        task.attempt = attempt := by
  cases work <;> simp [isAttempt, and_assoc]

/-- The tasks that a list of new ones has for the attempt. -/
def NewTask.suppliesFor (run : RunRef) (activityId : String) (attempt : Nat) (tasks : List NewTask) :
    List (String × Work) :=
  (tasks.filter fun task => task.work.isAttempt run activityId attempt).map fun task =>
    (task.taskQueue, task.work)

namespace TaskQueue

variable {run : RunRef} {activityId : String} {attempt : Nat}

/-- Queue and work of each task for the attempt, whether somebody holds it or not. -/
def tasksFor (run : RunRef) (activityId : String) (attempt : Nat) (slots : List TaskSlot) :
    List (String × Work) :=
  (slots.filter fun slot => slot.work.isAttempt run activityId attempt).map fun slot =>
    (slot.taskQueue, slot.work)

theorem tasksFor_enqueue (queue : TaskQueue) (task : NewTask) (now : Instant) :
    tasksFor run activityId attempt (queue.enqueue task now).1.slots =
      tasksFor run activityId attempt queue.slots ++
        NewTask.suppliesFor run activityId attempt [task] := by
  unfold tasksFor NewTask.suppliesFor
  rcases queue.enqueue_cases task now with ⟨hcovered, hslots, -⟩ | ⟨-, hslots, -⟩
  · rw [isCovered_eq] at hcovered
    cases hwork : task.work with
    | activity work => simp [hwork] at hcovered
    | workflow ref workflowType => simp [hslots, hwork, Work.isAttempt]
  · rw [hslots, List.filter_append, List.map_append]
    cases htask : task.work.isAttempt run activityId attempt <;> simp [htask]

theorem tasksFor_enqueueAll (now : Instant) (tasks : List NewTask) (queue : TaskQueue) :
    tasksFor run activityId attempt (enqueueAll now tasks queue).slots =
      tasksFor run activityId attempt queue.slots ++
        NewTask.suppliesFor run activityId attempt tasks := by
  induction tasks generalizing queue with
  | nil => simp [enqueueAll, NewTask.suppliesFor]
  | cons task rest ih =>
      have hrest := ih (queue.enqueue task now).1
      rw [tasksFor_enqueue] at hrest
      refine hrest.trans ?_
      unfold NewTask.suppliesFor
      rw [List.append_assoc, ← List.map_append, ← List.filter_append]
      rfl

theorem tasksFor_withdraw (queue : TaskQueue) {selected : Work → Bool}
    (hother : ∀ work, work.isAttempt run activityId attempt = true → selected work = false) :
    tasksFor run activityId attempt (queue.withdraw selected).slots =
      tasksFor run activityId attempt queue.slots := by
  unfold tasksFor
  rw [slots_withdraw, List.filter_filter]
  congr 1
  apply List.filter_congr
  intro slot _
  cases hwork : slot.work.isAttempt run activityId attempt with
  | false => rfl
  | true => simp [hother slot.work hwork]

theorem tasksFor_cancelActivities {target : RunRef} {activityIds : List String}
    (hother : run ≠ target ∨ activityId ∉ activityIds) (queue : TaskQueue) :
    tasksFor run activityId attempt (cancelActivities target activityIds queue).slots =
      tasksFor run activityId attempt queue.slots := by
  induction activityIds generalizing queue with
  | nil => rfl
  | cons first rest ih =>
      rw [List.mem_cons, not_or] at hother
      refine (ih (hother.imp_right And.right) (queue.cancelActivity target first)).trans ?_
      apply tasksFor_withdraw
      intro work hwork
      obtain ⟨task, rfl, rfl, rfl, -⟩ := Work.isAttempt_iff.1 hwork
      rw [← Bool.not_eq_true]
      simp only [Work.isActivityOf, Bool.and_eq_true, decide_eq_true_eq]
      rintro ⟨hrun, hactivity⟩
      exact hother.elim (fun h => h hrun) fun h => h.1 hactivity

theorem tasksFor_ownTasks {commit : Commit} {ref : RunRef}
    (hclosing : commit.closing = none ∨ run ≠ ref)
    (hother : run ≠ ref ∨ activityId ∉ commit.cancelledActivities) (now : Instant)
    (queue : TaskQueue) :
    tasksFor run activityId attempt (commit.ownTasks ref now queue).slots =
      tasksFor run activityId attempt queue.slots ++
        NewTask.suppliesFor run activityId attempt commit.tasks := by
  have hkept := @tasksFor_cancelActivities run activityId attempt ref commit.cancelledActivities hother
    (enqueueAll now commit.tasks queue)
  rw [tasksFor_enqueueAll] at hkept
  unfold Commit.ownTasks
  simp only
  split
  · rename_i hsome
    refine (tasksFor_withdraw _ ?_).trans hkept
    intro work hwork
    obtain ⟨task, rfl, rfl, -⟩ := Work.isAttempt_iff.1 hwork
    rcases hclosing with hnone | hne
    · simp [hnone] at hsome
    · exact decide_eq_false hne
  · exact hkept

theorem tasksFor_regrant (taskId : Uuid) (token : Option Uuid) (slots : List TaskSlot) :
    tasksFor run activityId attempt (regrant taskId token slots) =
      tasksFor run activityId attempt slots := by
  induction slots with
  | nil => rfl
  | cons slot rest ih =>
      simp only [tasksFor, regrant, List.map_cons, List.filter_cons] at ih ⊢
      by_cases htask : slot.taskId = taskId
      · simp only [htask, if_true]
        split <;> simp [ih]
      · simp only [htask, if_false]
        split <;> simp [ih]

theorem tasksFor_without {taskId : Uuid} {slots : List TaskSlot}
    (hother : ∀ slot ∈ slots, slot.taskId = taskId →
      slot.work.isAttempt run activityId attempt = false) :
    tasksFor run activityId attempt (without taskId slots) =
      tasksFor run activityId attempt slots := by
  unfold tasksFor without
  rw [List.filter_filter]
  congr 1
  apply List.filter_congr
  intro slot hmem
  by_cases htask : slot.taskId = taskId
  · simp [hother slot hmem htask]
  · simp [htask]

end TaskQueue

/-! ## What commits make of an activity -/

/-- The activity is not cancelled before it is scheduled. -/
def CancelsAfterwards (activityId : String) (history : List HistoryEvent) : Prop :=
  ∀ before event, before ++ [event] <+: history → event.event.schedules activityId = true →
    Event.activityCancelled activityId ∉ before.map HistoryEvent.event

theorem CancelsAfterwards.of_prefix {activityId : String} {first second : List HistoryEvent}
    (afterwards : CancelsAfterwards activityId second) (h : first <+: second) :
    CancelsAfterwards activityId first :=
  fun before event hinitial => afterwards before event (hinitial.trans h)

/-- The event announces another attempt. -/
def Event.repeats (activityId : String) (event : Event) : Bool :=
  match event.news? activityId with
  | some (.ended _ willRetry _) => willRetry
  | _ => false

theorem CancelsAfterwards.of_none {activityId : String} {history : List HistoryEvent}
    (h : Event.activityCancelled activityId ∉ history.map HistoryEvent.event) :
    CancelsAfterwards activityId history := by
  rintro before event hinitial - hmem
  have hearly := (List.prefix_append before [event]).trans hinitial
  exact h ((hearly.map HistoryEvent.event).subset hmem)

theorem CancelsAfterwards.not_mem {activityId : String} {history : List HistoryEvent}
    {before after : List Event} {scheduling : Event} {now : Instant} {eventId : Nat}
    (afterwards : CancelsAfterwards activityId
      (history ++ RunRecord.number now eventId (before ++ scheduling :: after)))
    (h : scheduling.schedules activityId = true) : Event.activityCancelled activityId ∉ before := by
  have hinitial : history ++ RunRecord.number now eventId before ++
      [HistoryEvent.ofEvent (eventId + before.length) now scheduling] <+:
        history ++ RunRecord.number now eventId (before ++ scheduling :: after) := by
    rw [RunRecord.number_append]
    exact ⟨RunRecord.number now (eventId + before.length + 1) after, by simp [RunRecord.number]⟩
  have hnot := afterwards _ _ hinitial h
  rw [List.map_append, RunRecord.map_event_number] at hnot
  exact fun hmem => hnot (List.mem_append_right _ hmem)

namespace ActivityState

variable {activityId : String} {known : Option ActivityState} {state later : ActivityState}
  {events : List Event}

/-- The task for the current attempt. -/
def work (state : ActivityState) (run : RunRef) (activityId : String) : Work :=
  .activity ⟨run, activityId, state.activityType, state.input, state.options, state.attempt⟩

theorem Advances.work_eq (advances : Advances state later) (hattempt : later.attempt = state.attempt)
    (run : RunRef) (activityId : String) : later.work run activityId = state.work run activityId := by
  simp [work, advances.activityType, advances.input, advances.options, hattempt]

theorem follow_attempt {event : Event} (hschedules : event.schedules activityId = false)
    (honce : event.repeats activityId = false) (h : follow activityId known event = some later) :
    ∃ state, known = some state ∧ state.Advances later ∧ later.attempt = state.attempt := by
  cases known with
  | none =>
      rw [follow_none hschedules] at h
      cases h
  | some state =>
      obtain ⟨next, hnext, advances⟩ := @follow_advances activityId state event hschedules
      rw [h, Option.some.injEq] at hnext
      subst hnext
      refine ⟨state, rfl, advances, ?_⟩
      unfold follow at h
      split at h
      · cases event <;> simp_all [Event.repeats, Event.news?, Event.activityId?, Event.schedules]
        all_goals
          subst h
          simp [onAttempt, close, Ledger.endAttempt]
          try split <;> rfl
      · cases h
        rfl

theorem foldl_attempt (hschedules : ∀ event ∈ events, event.schedules activityId = false)
    (honce : ∀ event ∈ events, event.repeats activityId = false)
    (h : events.foldl (follow activityId) known = some later) :
    ∃ state, known = some state ∧ state.Advances later ∧ later.attempt = state.attempt := by
  induction events generalizing known with
  | nil => exact ⟨later, h, .refl later, rfl⟩
  | cons event rest ih =>
      obtain ⟨middle, hmiddle, late, hlate⟩ :=
        ih (fun other hmem => hschedules other (List.mem_cons_of_mem _ hmem))
          (fun other hmem => honce other (List.mem_cons_of_mem _ hmem)) h
      obtain ⟨state, hstate, early, hearly⟩ := follow_attempt (hschedules event List.mem_cons_self)
        (honce event List.mem_cons_self) hmiddle
      exact ⟨state, hstate, early.trans late, hlate.trans hearly⟩

theorem closed_of_cancelled (hschedules : ∀ event ∈ events, event.schedules activityId = false)
    (hcancelled : Event.activityCancelled activityId ∈ events)
    (h : events.foldl (follow activityId) (some state) = some later) : later.closed = true := by
  obtain ⟨before, after, rfl⟩ := List.append_of_mem hcancelled
  obtain ⟨middle, hmiddle, -⟩ := @Ledger.activity?_foldl_advances activityId before state
    fun event hmem => hschedules event (List.mem_append_left _ hmem)
  have hfollow : follow activityId (some middle) (.activityCancelled activityId) =
      some middle.close := by simp [follow, Event.activityId?]
  obtain ⟨last, hlast, advances⟩ := @Ledger.activity?_foldl_advances activityId after middle.close
    fun event hmem => hschedules event (by simp [hmem])
  rw [List.foldl_append, hmiddle, List.foldl_cons, hfollow, hlast, Option.some.injEq] at h
  exact h ▸ advances.closed rfl

end ActivityState

/-- What the tasks of a commit are for an activity that is open after it. -/
inductive Commit.Supplies (commit : Commit) (run : RunRef) (activityId : String)
    (known : Option ActivityState) (later : ActivityState) : Prop where
  | kept {state : ActivityState} (before : known = some state) (advances : state.Advances later)
      (same : later.attempt = state.attempt)
      (nothing : NewTask.suppliesFor run activityId later.attempt commit.tasks = [])
  | renewed (fresh : ∀ state, known = some state → state.attempt < later.attempt)
      (supplied : NewTask.suppliesFor run activityId later.attempt commit.tasks =
        [(later.taskQueue, later.work run activityId)])

/-- A commit that neither schedules the activity nor announces an attempt supplies nothing. -/
theorem Commit.Supplies.untouched {commit : Commit} {run : RunRef} {activityId : String}
    {known : Option ActivityState} {later : ActivityState}
    (hlater : commit.events.foldl (ActivityState.follow activityId) known = some later)
    (hschedules : ∀ event ∈ commit.events, event.schedules activityId = false)
    (honce : ∀ event ∈ commit.events, event.repeats activityId = false)
    (hnothing : NewTask.suppliesFor run activityId later.attempt commit.tasks = []) :
    commit.Supplies run activityId known later := by
  obtain ⟨state, hstate, advances, hattempt⟩ := ActivityState.foldl_attempt hschedules honce hlater
  exact .kept hstate advances hattempt hnothing

section Attempts

variable {activityId other : String} {policy : RetryPolicy} {attempt : Nat}
  {delay : Option Span} {event : Event}

theorem EndsAttempt.repeats_of_ne (ends : EndsAttempt policy activityId attempt delay event)
    (hne : activityId ≠ other) : event.repeats other = false := by
  cases ends <;> simp [Event.repeats, Event.news?, hne]

theorem EndsAttempt.repeats_of_last (ends : EndsAttempt policy activityId attempt none event) :
    event.repeats other = false := by
  cases ends <;> simp [Event.repeats, Event.news?] <;> grind

end Attempts

/-- An attempt that is to be retried is supplied with the task for the next one. -/
theorem supplies_of_retried {run : Run} {history : List HistoryEvent} {activityId : String}
    {attempt : Nat} {state later : ActivityState} {event : Event} {delay : Span}
    {timers : List Timer} (attempted : AtAttempt history activityId attempt state)
    (ends : EndsAttempt state.options.retryPolicy activityId attempt (some delay) event)
    (hlater : ActivityState.follow activityId (some state) event = some later) :
    { AttemptOutcome.endCommit activityId attempt event with
      tasks := [⟨state.taskQueue, .activity ⟨run.ref, activityId, state.activityType,
        state.input, state.options, attempt + 1⟩, delay⟩]
      timers := timers : Commit }.Supplies run.ref activityId (some state) later := by
  rw [ends.follow_retry attempted.isOpen attempted.current, Option.some.injEq] at hlater
  subst hlater
  refine .renewed ?_ ?_
  · rintro known ⟨⟩
    simp [attempted.current]
  · simp [NewTask.suppliesFor, Work.isAttempt, ActivityState.work]

/-- An activity that nobody picked up in time is closed. -/
theorem closed_of_missed {history : List HistoryEvent} {activityId : String}
    {state later : ActivityState} (attempted : AtAttempt history activityId state.attempt state)
    (hlater : ActivityState.follow activityId ((Ledger.ofHistory history).activity? activityId)
      (.activityTimedOut activityId state.attempt .scheduleToStart false false) = some later) :
    later.closed = true := by
  rw [attempted.known] at hlater
  simp only [ActivityState.follow, Event.activityId?, if_true, Option.map_some,
    ActivityState.onAttempt, attempted.isOpen, Bool.not_false, Bool.true_and, decide_true,
    Ledger.endAttempt, Option.some.injEq] at hlater
  rw [← hlater]
  rfl

theorem Update.supplies {fires : Prop} {run : Run} {history : List HistoryEvent} {commit : Commit}
    (update : Update fires run history commit) (hclosing : commit.closing = none)
    {activityId : String} {later : ActivityState}
    (hlater : commit.events.foldl (ActivityState.follow activityId)
      ((Ledger.ofHistory history).activity? activityId) = some later)
    (hopen : later.closed = false) :
    activityId ∉ commit.cancelledActivities ∧
      commit.Supplies run.ref activityId ((Ledger.ofHistory history).activity? activityId) later := by
  cases update with
  | @reported event report =>
      refine ⟨List.not_mem_nil, .untouched hlater ?_ ?_ rfl⟩
      · cases event <;> simp_all [Event.isReport, Event.schedules, Commit.ofEvents]
      · cases event <;> simp_all [Event.isReport, Event.repeats, Event.news?, Commit.ofEvents]
  | forced ends => cases hclosing
  | started workerId now own provided attempted waits =>
      refine ⟨List.not_mem_nil, .untouched hlater (by simp [Event.schedules, Commit.ofEvents]) ?_ rfl⟩
      simp only [Commit.ofEvents, List.mem_singleton, forall_eq, Event.repeats, Event.news?]
      split <;> simp_all
  | beat details now own provided picked attempted =>
      refine ⟨List.not_mem_nil, .untouched hlater (by simp [Event.schedules, Commit.ofEvents]) ?_ rfl⟩
      simp only [Commit.ofEvents, List.mem_singleton, forall_eq, Event.repeats, Event.news?]
      split <;> simp_all
  | ended attempted picked ends =>
      refine ⟨List.not_mem_nil, .untouched hlater ?_ ?_ rfl⟩
      · exact List.forall_mem_singleton.2 (ends.begins_nothing.1 _)
      · exact List.forall_mem_singleton.2 ends.repeats_of_last
  | @retried ended attempt state event delay now attempted picked ends =>
      refine ⟨List.not_mem_nil, ?_⟩
      by_cases hactivity : ended = activityId
      · subst hactivity
        rw [attempted.known] at hlater ⊢
        exact supplies_of_retried attempted ends hlater
      · refine .untouched hlater ?_ ?_ (by simp [NewTask.suppliesFor, Work.isAttempt, hactivity])
        · exact List.forall_mem_singleton.2 (ends.begins_nothing.1 _)
        · exact List.forall_mem_singleton.2 (ends.repeats_of_ne hactivity)
  | fired allowed pending =>
      exact ⟨List.not_mem_nil, .untouched hlater (by simp [Event.schedules, Commit.ofEvents])
        (by simp [Event.repeats, Event.news?, Commit.ofEvents]) rfl⟩
  | @missed missed state allowed attempted waits =>
      constructor
      · rw [List.mem_singleton]
        rintro rfl
        rw [closed_of_missed attempted hlater] at hopen
        cases hopen
      · refine .untouched hlater (by simp [Event.schedules, Commit.ofEvents]) ?_ rfl
        simp only [Commit.ofEvents, List.mem_singleton, forall_eq, Event.repeats, Event.news?]
        split <;> simp_all

namespace Decision

variable {run : Run} {activityId : String} {attempt : Nat}

theorem suppliesFor_append (run : RunRef) (first second : List NewTask) :
    NewTask.suppliesFor run activityId attempt (first ++ second) =
      NewTask.suppliesFor run activityId attempt first ++
        NewTask.suppliesFor run activityId attempt second := by
  simp [NewTask.suppliesFor]

theorem suppliesFor_scheduled_nil {events : List Event}
    (hschedules : ∀ event ∈ events, event.schedules activityId = false) :
    NewTask.suppliesFor run.ref activityId attempt
      (events.filterMap (Event.scheduledTask? run)) = [] := by
  unfold NewTask.suppliesFor
  rw [List.map_eq_nil_iff, List.filter_eq_nil_iff]
  intro task hmem
  obtain ⟨event, hevent, htask⟩ := List.mem_filterMap.1 hmem
  have hnot := hschedules event hevent
  cases event with
  | activityScheduled scheduled activityType input taskQueue options =>
      cases htask
      have hother : scheduled ≠ activityId := by simpa [Event.schedules] using hnot
      simp [Work.isAttempt, hother]
  | _ => cases htask

theorem suppliesFor_scheduled {before after : List Event} {activityType taskQueue : String}
    {input : Json} {options : ActivityOptions}
    (hbefore : ∀ event ∈ before, event.schedules activityId = false)
    (hafter : ∀ event ∈ after, event.schedules activityId = false) :
    NewTask.suppliesFor run.ref activityId 1 ((before ++
      .activityScheduled activityId activityType input taskQueue options :: after).filterMap
        (Event.scheduledTask? run)) =
      [(taskQueue, .activity ⟨run.ref, activityId, activityType, input, options, 1⟩)] := by
  have hself : Event.scheduledTask? run
      (.activityScheduled activityId activityType input taskQueue options) =
        some ⟨taskQueue, .activity ⟨run.ref, activityId, activityType, input, options, 1⟩, .zero⟩ :=
    rfl
  rw [List.filterMap_append, suppliesFor_append, suppliesFor_scheduled_nil hbefore,
    List.filterMap_cons_some hself, ← List.singleton_append, suppliesFor_append,
    suppliesFor_scheduled_nil hafter]
  simp [NewTask.suppliesFor, Work.isAttempt]

theorem Provisions.suppliesFor {ledger : Ledger} {now : Instant} {commit : Commit}
    (provisions : Provisions run ledger now commit) :
    NewTask.suppliesFor run.ref activityId attempt commit.tasks =
      NewTask.suppliesFor run.ref activityId attempt
        (commit.events.filterMap (Event.scheduledTask? run)) := by
  obtain ⟨wakes, htasks, hwakes⟩ := provisions.tasks
  have hnothing : NewTask.suppliesFor run.ref activityId attempt wakes = [] := by
    rcases hwakes with rfl | ⟨rfl, -⟩ <;> rfl
  rw [htasks, suppliesFor_append, hnothing, List.append_nil]

theorem Provisions.mem_cancelledActivities {ledger : Ledger} {now : Instant} {commit : Commit}
    (provisions : Provisions run ledger now commit) (h : activityId ∈ commit.cancelledActivities) :
    Event.activityCancelled activityId ∈ commit.events := by
  rw [provisions.cancelledActivities] at h
  obtain ⟨event, hmem, hcancelled⟩ := List.mem_filterMap.1 h
  cases event <;> simp_all [Event.cancelledActivity?]

end Decision

theorem Engine.Decided.repeats {engine : Engine} {ref : RunRef} {run : Run}
    {history : List HistoryEvent} {commit : Commit} (decided : engine.Decided ref run history commit)
    {event : Event} (hmem : event ∈ commit.events) (activityId : String) :
    event.repeats activityId = false := by
  have hkind := decided.key?_or_isRejection hmem
  cases event <;> simp_all [Event.repeats, Event.news?, Event.key?, Decision.isRejection]

theorem SchedulesOnce.split {activityId : String} {history : List HistoryEvent}
    {before after : List Event} {scheduling : Event} {now : Instant} {eventId : Nat}
    (once : SchedulesOnce activityId
      (history ++ RunRecord.number now eventId (before ++ scheduling :: after)))
    (h : scheduling.schedules activityId = true) :
    (Ledger.ofHistory history).activity? activityId = none ∧
      (∀ event ∈ before, event.schedules activityId = false) ∧
      ∀ event ∈ after, event.schedules activityId = false := by
  have hcount : ∀ events, (RunRecord.number now eventId events).countP
      (fun event => event.event.schedules activityId) =
        events.countP (Event.schedules activityId) := by
    intro events
    rw [← RunRecord.map_event_number now eventId events, List.countP_map]
    rw [RunRecord.map_event_number]
    rfl
  rw [SchedulesOnce, List.countP_append, hcount, List.countP_append, List.countP_cons, if_pos h]
    at once
  refine ⟨?_, ?_, ?_⟩
  · cases hstate : (Ledger.ofHistory history).activity? activityId with
    | none => rfl
    | some state =>
        obtain ⟨event, hmem, hschedules⟩ := Ledger.schedules_of_activity? hstate
        have hpositive : 0 < history.countP fun event => event.event.schedules activityId :=
          List.countP_pos_iff.2 ⟨event, hmem, hschedules⟩
        omega
  · have hnone : before.countP (Event.schedules activityId) = 0 := by omega
    simpa using List.countP_eq_zero.1 hnone
  · have hnone : after.countP (Event.schedules activityId) = 0 := by omega
    simpa using List.countP_eq_zero.1 hnone

section Decided

variable {engine : Engine} {ref : RunRef} {run : Run} {history : List HistoryEvent} {commit : Commit}
  {activityId : String} {later : ActivityState} {now : Instant} {eventId : Nat}

/-- An activity that the decision schedules is new, and the rest of the decision leaves it open. -/
theorem Engine.Decided.supplies_scheduled (decided : engine.Decided ref run history commit)
    {before after : List Event} {activityType taskQueue : String} {input : Json}
    {options : ActivityOptions} (hevents : commit.events = before ++
      .activityScheduled activityId activityType input taskQueue options :: after)
    (once : SchedulesOnce activityId (history ++ RunRecord.number now eventId commit.events))
    (afterwards : CancelsAfterwards activityId
      (history ++ RunRecord.number now eventId commit.events))
    (hlater : commit.events.foldl (ActivityState.follow activityId)
      ((Ledger.ofHistory history).activity? activityId) = some later)
    (hopen : later.closed = false) :
    activityId ∉ commit.cancelledActivities ∧
      commit.Supplies run.ref activityId ((Ledger.ofHistory history).activity? activityId) later := by
  obtain ⟨built, provisions⟩ := decided.provisions
  have hscheduling : (Event.activityScheduled activityId activityType input taskQueue
      options).schedules activityId = true := by simp [Event.schedules]
  rw [hevents] at once afterwards hlater
  obtain ⟨hunknown, hbefore, hafter⟩ := once.split hscheduling
  have hfollow : ActivityState.follow activityId none
      (.activityScheduled activityId activityType input taskQueue options) =
        some ⟨activityType, input, taskQueue, options, 1, false, false⟩ := by
    simp [ActivityState.follow, Event.activityId?]
  rw [hunknown, List.foldl_append, Ledger.activity?_foldl_none hbefore, List.foldl_cons,
    hfollow] at hlater
  constructor
  · intro hcancelled
    have hrecorded := provisions.mem_cancelledActivities hcancelled
    rw [hevents, List.mem_append, List.mem_cons] at hrecorded
    rcases hrecorded with hearly | hself | hlate
    · exact absurd hearly (afterwards.not_mem hscheduling)
    · cases hself
    · have hclosed := ActivityState.closed_of_cancelled hafter hlate hlater
      rw [hopen] at hclosed
      cases hclosed
  · obtain ⟨state, hstate, advances, hattempt⟩ := ActivityState.foldl_attempt hafter
      (fun event hmem => decided.repeats (by simp [hevents, hmem]) activityId) hlater
    rw [Option.some.injEq] at hstate
    subst hstate
    refine .renewed (by simp [hunknown]) ?_
    rw [provisions.suppliesFor, hevents, advances.work_eq hattempt, advances.taskQueue, hattempt]
    exact Decision.suppliesFor_scheduled hbefore hafter

theorem Engine.Decided.supplies (decided : engine.Decided ref run history commit)
    (once : SchedulesOnce activityId (history ++ RunRecord.number now eventId commit.events))
    (afterwards : CancelsAfterwards activityId
      (history ++ RunRecord.number now eventId commit.events))
    (hlater : commit.events.foldl (ActivityState.follow activityId)
      ((Ledger.ofHistory history).activity? activityId) = some later)
    (hopen : later.closed = false) :
    activityId ∉ commit.cancelledActivities ∧
      commit.Supplies run.ref activityId ((Ledger.ofHistory history).activity? activityId) later := by
  by_cases hany : ∃ event ∈ commit.events, event.schedules activityId = true
  · obtain ⟨scheduling, hmem, hscheduling⟩ := hany
    obtain ⟨before, after, hevents⟩ := List.append_of_mem hmem
    cases scheduling with
    | activityScheduled scheduled activityType input taskQueue options =>
        obtain rfl : scheduled = activityId := by simpa [Event.schedules] using hscheduling
        exact decided.supplies_scheduled hevents once afterwards hlater hopen
    | _ => cases hscheduling
  · -- the decision does not touch the activity, since it is open afterwards
    obtain ⟨built, provisions⟩ := decided.provisions
    have hschedules : ∀ event ∈ commit.events, event.schedules activityId = false := by
      simpa using hany
    have hrepeats : ∀ event ∈ commit.events, event.repeats activityId = false :=
      fun event hmem => decided.repeats hmem activityId
    refine ⟨?_, .untouched hlater hschedules hrepeats ?_⟩
    · intro hcancelled
      obtain ⟨state, hstate, -⟩ := ActivityState.foldl_attempt hschedules hrepeats hlater
      rw [hstate] at hlater
      have hclosed := ActivityState.closed_of_cancelled hschedules
        (provisions.mem_cancelledActivities hcancelled) hlater
      rw [hopen] at hclosed
      cases hclosed
    · rw [provisions.suppliesFor, Decision.suppliesFor_scheduled_nil hschedules]

end Decided

/-! ## Stores -/

/-- Whatever is open in the run has exactly one task, for its current attempt. -/
def Store.Supplies (store : Store) (ref : RunRef) : Prop :=
  ∀ record, store.runs.find? ref = some record → record.isClosed = false →
    ∀ activityId, SchedulesOnce activityId record.events →
      CancelsAfterwards activityId record.events →
      ∀ state, (Ledger.ofHistory record.events).activity? activityId = some state →
        state.closed = false →
        TaskQueue.tasksFor ref activityId state.attempt store.tasks.slots =
          [(state.taskQueue, state.work ref activityId)]

/-- Nobody has a task for an attempt that is not due yet. -/
theorem Sane.tasksFor_nil {rules : Rules} {store : Store} (sane : Sane rules store) {ref : RunRef}
    {record : RunRecord} (hfind : store.runs.find? ref = some record) {activityId : String}
    (once : SchedulesOnce activityId record.events) {attempt : Nat}
    (hlater : ∀ state, (Ledger.ofHistory record.events).activity? activityId = some state →
      state.attempt < attempt) :
    TaskQueue.tasksFor ref activityId attempt store.tasks.slots = [] := by
  unfold TaskQueue.tasksFor
  rw [List.map_eq_nil_iff, List.filter_eq_nil_iff]
  intro slot hslot hattempt
  obtain ⟨work, hwork, rfl, rfl, rfl⟩ := Work.isAttempt_iff.1 hattempt
  obtain ⟨found, hfound, provided⟩ := sane.provided slot hslot work hwork
  rw [hfind, Option.some.injEq] at hfound
  subst hfound
  obtain ⟨state, hstate, hreached⟩ := provided.current once
  exact Nat.not_lt.2 hreached (hlater state hstate)

namespace Store.Supplies

variable {rules : Rules} {fires : Prop} {ref : RunRef}

theorem startRun {store : Store} (supplies : store.Supplies ref) {new : NewRun}
    (fresh : store.runs.find? new.ref = none) (now : Instant) :
    (store.startRun new now).Supplies ref := by
  intro record hfind hopen activityId once afterwards state hstate hwaits
  rw [Store.startRun_tasks, TaskQueue.tasksFor_enqueue]
  rcases Store.find?_startRun fresh hfind with ⟨-, rfl⟩ | ⟨-, earlier, hearlier, hevents, hstatus, -⟩
  · cases hstate
  · rw [RunRecord.isClosed, hstatus] at hopen
    rw [hevents] at once afterwards hstate
    rw [supplies earlier hearlier hopen activityId once afterwards state hstate hwaits]
    rfl

theorem notify {store : Store} (supplies : store.Supplies ref) {notification : Notification}
    (hannouncement : notification.event.isAnnouncement = true) (now : Instant) :
    (store.notify notification now).Supplies ref := by
  rcases store.notify_cases notification now with hsame | ⟨told, htold, hopen, htasks, -, hfinds⟩
  · rw [hsame]
    exact supplies
  · intro record hfind hstill activityId once afterwards state hstate hwaits
    rw [htasks, TaskQueue.tasksFor_enqueue]
    have hnothing : NewTask.suppliesFor ref activityId state.attempt [⟨told.run.taskQueue,
        .workflow notification.target told.run.workflowType, .zero⟩] = [] := rfl
    rw [hnothing, List.append_nil]
    rw [hfinds] at hfind
    split at hfind
    · rename_i htarget
      subst htarget
      cases hfind
      rw [RunRecord.append_events] at once afterwards hstate
      have hearly := List.prefix_append told.events
        (RunRecord.number now (told.version + 1) [notification.event])
      apply supplies told htold hopen activityId (once.of_prefix hearly) (afterwards.of_prefix hearly)
        state _ hwaits
      rw [Ledger.activity?_number] at hstate
      refine (ActivityState.follow_other _ ?_).symm.trans hstate
      cases hevent : notification.event <;>
        simp_all [Event.isAnnouncement, Event.activityId?]
    · exact supplies record hfind hstill activityId once afterwards state hstate hwaits

theorem revise_other {store : Store} (supplies : store.Supplies ref) {target : RunRef}
    (hother : ref ≠ target) {commit : Commit}
    (hruns : ∀ task ∈ commit.tasks, ∀ work, task.work = .activity work → work.run = target)
    (now : Instant) : (store.revise target commit now).Supplies ref := by
  intro record hfind hopen activityId once afterwards state hstate hwaits
  rw [Store.find?_revise, if_neg hother] at hfind
  have hnothing : NewTask.suppliesFor ref activityId state.attempt commit.tasks = [] := by
    unfold NewTask.suppliesFor
    rw [List.map_eq_nil_iff, List.filter_eq_nil_iff]
    intro task hmem hattempt
    obtain ⟨work, hwork, hrun, -⟩ := Work.isAttempt_iff.1 hattempt
    exact hother (hrun.symm.trans (hruns task hmem work hwork))
  have hkept := @TaskQueue.tasksFor_ownTasks ref activityId state.attempt commit target (.inr hother)
    (.inl hother) now store.tasks
  rw [hnothing, List.append_nil] at hkept
  exact hkept.trans (supplies record hfind hopen activityId once afterwards state hstate hwaits)

theorem revise_own {store : Store} (supplies : store.Supplies ref) (sane : Sane rules store)
    {record : RunRecord} {run : Run} {commit : Commit} (now : Instant)
    (hfind : store.runs.find? ref = some record) (hopen : record.isClosed = false)
    (horigin : run.origin = record.run.origin)
    (writes : rules.Writes fires run record.events commit) :
    (store.revise ref commit now).Supplies ref := by
  have href : run.ref = ref := (Run.ref_eq_of_origin horigin).trans (RunTable.ref_of_find? hfind)
  intro later hlater hstill activityId once afterwards state hstate hwaits
  rw [Store.find?_revise, if_pos rfl, hfind, Option.map_some, Option.some.injEq] at hlater
  subst hlater
  have hclosing : commit.closing = none := by
    by_contra hclosing
    rw [RunRecord.isClosed_revise writes.tidy hclosing now] at hstill
    cases hstill
  rw [RunRecord.revise_events] at once afterwards hstate
  have hearly := List.prefix_append record.events
    (RunRecord.number now (record.version + 1) commit.events)
  rw [Ledger.activity?_number] at hstate
  obtain ⟨hcancelled, hsupplies⟩ : activityId ∉ commit.cancelledActivities ∧ commit.Supplies run.ref
      activityId ((Ledger.ofHistory record.events).activity? activityId) state := by
    rcases writes with update | ⟨engine, -, decided⟩
    · exact update.supplies hclosing hstate hwaits
    · exact decided.supplies once afterwards hstate hwaits
  have htasks := @TaskQueue.tasksFor_ownTasks ref activityId state.attempt commit ref (.inl hclosing)
    (.inr hcancelled) now store.tasks
  refine htasks.trans ?_
  rw [href] at hsupplies
  cases hsupplies with
  | @kept before hbefore advances hsame hnothing =>
      have hwaited : before.closed = false := by
        by_contra hclosed
        rw [advances.closed (by simpa using hclosed)] at hwaits
        cases hwaits
      rw [hnothing, List.append_nil, advances.work_eq hsame, advances.taskQueue, hsame]
      exact supplies record hfind hopen activityId (once.of_prefix hearly)
        (afterwards.of_prefix hearly) before hbefore hwaited
  | renewed fresh supplied =>
      rw [sane.tasksFor_nil hfind (once.of_prefix hearly) fresh, supplied]
      rfl

theorem completed {before : Store} {taskId token : Uuid} {tasks : TaskQueue}
    (supplies : before.Supplies ref) (wellKept : before.tasks.WellKept)
    (h : before.tasks.complete taskId token = .ok tasks)
    (done : rules.MayComplete before taskId token) :
    Store.Supplies { before with tasks := tasks } ref := by
  obtain ⟨held, ⟨hheld, hid, htoken⟩, hslots, -⟩ := TaskQueue.complete_ok h
  intro record hfind hopen activityId once afterwards state hstate hwaits
  rw [hslots]
  refine (TaskQueue.tasksFor_without ?_).trans
    (supplies record hfind hopen activityId once afterwards state hstate hwaits)
  intro slot hslot hsame
  have heq := wellKept.eq_of_taskId hslot hheld (hsame.trans hid.symm)
  subst heq
  by_contra hattempt
  obtain ⟨work, hwork, rfl, rfl, hcurrent⟩ := Work.isAttempt_iff.1 (by simpa using hattempt)
  have hdone := done slot ⟨hslot, hid, htoken⟩
  rw [hwork] at hdone
  obtain ⟨found, hfound, hover⟩ := hdone
  rw [hfind, Option.some.injEq] at hfound
  subst hfound
  rcases hover with hclosed | isOver
  · rw [hopen] at hclosed
    cases hclosed
  · obtain ⟨known, hknown, hgone⟩ := isOver once
    rw [hstate, Option.some.injEq] at hknown
    subst hknown
    rw [hwaits, hcurrent] at hgone
    simp at hgone

theorem of_tasksFor {before : Store} {tasks : TaskQueue} (supplies : before.Supplies ref)
    (h : ∀ activityId attempt, TaskQueue.tasksFor ref activityId attempt tasks.slots =
      TaskQueue.tasksFor ref activityId attempt before.tasks.slots) :
    Store.Supplies { before with tasks := tasks } ref := by
  intro record hfind hopen activityId once afterwards state hstate hwaits
  rw [h]
  exact supplies record hfind hopen activityId once afterwards state hstate hwaits

theorem move {before after : Store} (supplies : before.Supplies ref) (sane : Sane rules before)
    (move : Move rules fires before after) : after.Supplies ref := by
  cases move with
  | still runs tasks timers issued =>
      intro record hfind
      rw [runs] at hfind
      rw [tasks]
      exact supplies record hfind
  | created now fresh => exact supplies.startRun fresh now
  | @committed target record run commit now found isOpen origin writes begins =>
      refine @Store.apply_induction (·.Supplies ref) _ _ _ _ begins.1 begins.2 ?_ ?_ ?_
      · by_cases htarget : ref = target
        · subst htarget
          exact supplies.revise_own sane now found isOpen origin writes
        · refine supplies.revise_other htarget ?_ now
          intro task hmem work hwork
          obtain ⟨hrun, -⟩ := writes.provides hmem hwork now 0
          exact hrun.trans ((Run.ref_eq_of_origin origin).trans (RunTable.ref_of_find? found))
      · exact fun middle new _ fresh held => held.startRun fresh now
      · intro middle notification hmem held
        exact held.notify (writes.tidy.announced notification hmem) now
  | claimed h =>
      obtain ⟨-, -, hslots, -⟩ := TaskQueue.claim_claimed h
      exact supplies.of_tasksFor fun _ _ => by rw [hslots, TaskQueue.tasksFor_regrant]
  | extended h =>
      obtain ⟨hslots, -⟩ := TaskQueue.heartbeat_ok h
      exact supplies.of_tasksFor fun _ _ => by rw [hslots]
  | failed h =>
      obtain ⟨held, ⟨hheld, hid, -⟩, hslots, -⟩ := TaskQueue.fail_ok h
      apply supplies.of_tasksFor
      intro activityId attempt
      rw [hslots]
      split
      · -- only a workflow task disappears because another one waits
        rename_i hcovered
        rw [TaskQueue.isCovered_eq] at hcovered
        apply TaskQueue.tasksFor_without
        intro slot hslot hsame
        rw [sane.tasks.eq_of_taskId hslot hheld (hsame.trans hid.symm)]
        cases hwork : held.work with
        | workflow run workflowType => rfl
        | activity work => simp [hwork] at hcovered
      · rw [TaskQueue.tasksFor_regrant]
  | completed h done => exact supplies.completed sane.tasks h done
  | popped now limit allowed => exact supplies
  | rescheduled timer allowed => exact supplies

end Store.Supplies

theorem Leads.supplies {rules : Rules} {before after : Store} (leads : Leads rules before after)
    (lawful : rules.Lawful) (sane : Sane rules before) {ref : RunRef}
    (supplies : before.Supplies ref) : after.Supplies ref := by
  induction leads with
  | refl => exact supplies
  | tail early move ih => exact ih.move (sane.leads lawful early) move

/-! ## Scenes -/

namespace Role

/-- An open activity of an open run has one task, for its current attempt and as it was scheduled. -/
theorem openActivity_hasTask {start : World} (hempty : start.store = .empty)
    {scene : Scene Role Unit} (reaches : Scene.Reaches program (.opening start) scene)
    {ref : RunRef} {record : RunRecord} (hfind : scene.world.store.runs.find? ref = some record)
    (hopen : record.isClosed = false) {activityId : String}
    (once : SchedulesOnce activityId record.events)
    (afterwards : CancelsAfterwards activityId record.events) {state : ActivityState}
    (hstate : (Ledger.ofHistory record.events).activity? activityId = some state)
    (hwaits : state.closed = false) :
    ∃ activityType input taskQueue options,
      Event.activityScheduled activityId activityType input taskQueue options ∈
        record.events.map HistoryEvent.event ∧
      TaskQueue.tasksFor ref activityId state.attempt scene.world.store.tasks.slots =
        [(taskQueue, .activity ⟨ref, activityId, activityType, input, options, state.attempt⟩)] := by
  obtain ⟨moves, -⟩ := Scene.moves_of_empty Rules.lax_lawful program_obeys
    (fun role => role.program_plays Rules.lax_lawful (fun _ _ => trivial) fun _ => trivial)
    hempty reaches
  have nothing : Store.empty.Supplies ref := fun _ hnone => nomatch hnone
  have supplies := Leads.supplies moves Rules.lax_lawful (.empty _) nothing
  exact ⟨state.activityType, state.input, state.taskQueue, state.options,
    Ledger.scheduled_of_activity? hstate,
    supplies record hfind hopen activityId once afterwards state hstate hwaits⟩

/-- The first attempt at a delivery has failed, and the task for the second one waits. -/
theorem delivery_hasTask :
    ∃ (scene : Scene Role Unit) (record : RunRecord) (state : ActivityState),
      Scene.Reaches program (.opening Operation.blankWorld) scene ∧
      scene.world.store.runs.find? Operation.sampleRun = some record ∧ record.isClosed = false ∧
      (Ledger.ofHistory record.events).activity? "delivery" = some state ∧ state.attempt = 2 ∧
      ∃ activityType input taskQueue options,
        Event.activityScheduled "delivery" activityType input taskQueue options ∈
          record.events.map HistoryEvent.event ∧
        TaskQueue.tasksFor Operation.sampleRun "delivery" 2 scene.world.store.tasks.slots =
          [(taskQueue,
            .activity ⟨Operation.sampleRun, "delivery", activityType, input, options, 2⟩)] := by
  have entered : Scene.Reaches program (.opening Operation.blankWorld)
      ⟨Operation.blankWorld,
        [⟨_, program errandStart⟩, ⟨_, program errandTask⟩, ⟨_, program delivery⟩], []⟩ :=
    ((ReflTransGen.single (.enter _)).tail (.enter _)).tail (.enter _)
  have started := (entered.act 0 rfl rfl).act 0 rfl rfl
  have decided := (((started.act 1 rfl rfl).act 1 rfl rfl).act 1 rfl rfl).act 1 rfl rfl
  have claimed := (decided.act 2 rfl rfl).act 2 rfl rfl
  have picked := (((claimed.act 2 rfl rfl).act 2 rfl rfl).act 2 rfl rfl).act 2 rfl rfl
  have ended := (((picked.act 2 rfl rfl).act 2 rfl rfl).act 2 rfl rfl).act 2 rfl rfl
  refine ⟨_, _, _, ended, rfl, rfl, rfl, rfl, ?_⟩
  exact @openActivity_hasTask _ rfl _ ended Operation.sampleRun _ rfl rfl "delivery" (Nat.le_refl 1)
    (.of_none (by decide)) _ rfl rfl

end Role

end Chronicle
