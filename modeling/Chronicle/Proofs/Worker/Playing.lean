import Chronicle.Proofs.Engine.Outside
import Chronicle.Proofs.Engine.Relief
import Chronicle.Worker.Basic

/-!
# Workers play by the rules

A worker that was handed a task may rely on it: the task is for what its run has provided for.  It
records the start of an attempt before anything else about it, and completes a task only when there
is nothing left to do for it.
-/

namespace Chronicle

open Relation (ReflTransGen)

/-! ## What a worker may rely on -/

/-- The task was handed out under a lease, for work that its run has provided for. -/
structure Store.Leased (store : Store) (task : LeasedTask) : Prop where
  assigned : store.tasks.Assigned task.taskId task.work
  granted : ∃ number < store.tasks.granted, task.token = TaskQueue.leaseToken number
  provided : ∀ work, task.work = .activity work → store.Provides work

/-- The attempt is at the work of its task, and its start is recorded. -/
structure Attempt.Sound (attempt : Attempt) (store : Store) : Prop where
  leased : store.Leased attempt.task
  work : attempt.task.work = .activity attempt.work
  begun : store.HasBegun attempt.work

variable {rules : Rules} {fires : Prop}

theorem Leads.leased {before after : Store} (leads : Leads rules before after) {task : LeasedTask}
    (leased : before.Leased task) : after.Leased task where
  assigned := leads.assigned leased.assigned
  granted := by
    obtain ⟨number, hlt, htoken⟩ := leased.granted
    exact ⟨number, Nat.lt_of_lt_of_le hlt leads.granted_le, htoken⟩
  provided := fun work hwork => leads.provides (leased.provided work hwork)

theorem Leads.sound {before after : Store} (leads : Leads rules before after) {attempt : Attempt}
    (sound : attempt.Sound before) : attempt.Sound after :=
  ⟨leads.leased sound.leased, sound.work, leads.hasBegun sound.begun⟩

theorem Store.leased_of_claim {store : Store} (sane : Sane rules store) {request : PollRequest}
    {now : Instant} {tasks : TaskQueue} {task : LeasedTask}
    (h : store.tasks.claim request now = (tasks, .claimed task)) :
    Store.Leased { store with tasks := tasks } task := by
  obtain ⟨⟨slot, hslot, hid, hwork⟩, htoken, hslots, hissued, hgranted⟩ := TaskQueue.claim_claimed h
  constructor
  case assigned =>
    constructor
    · obtain ⟨number, hlt, hnumber⟩ := sane.tasks.issued slot hslot
      exact ⟨number, hissued ▸ hlt, hid ▸ hnumber⟩
    · intro other hother hsame
      rw [hslots] at hother
      obtain ⟨earlier, hearlier, hearlierId, hearlierWork, -⟩ := TaskQueue.mem_regrant hother
      have heq := sane.tasks.eq_of_taskId hearlier hslot
        (hearlierId.symm.trans (hsame.trans hid.symm))
      rw [hearlierWork, heq, hwork]
  case granted => exact ⟨store.tasks.granted, hgranted ▸ Nat.lt_succ_self _, htoken⟩
  case provided => exact fun work hactivity => sane.provided slot hslot work (hwork.trans hactivity)

/-! ## Attempts that are not open -/

theorem Provided.attemptOver {history : List HistoryEvent} {work : ActivityTask}
    (provided : Provided history work)
    (hclosed : (Ledger.ofHistory history).isAttemptOpen work.activityId work.attempt = false) :
    AttemptOver work history := by
  intro once
  obtain ⟨state, hstate, hattempt⟩ := provided.current once
  refine ⟨state, hstate, ?_⟩
  cases hopen : state.closed with
  | true => exact .inl rfl
  | false =>
      right
      rcases Nat.lt_or_ge work.attempt state.attempt with hlt | hge
      · exact hlt
      · rw [Ledger.isAttemptOpen_iff.2 ⟨state, hstate, hopen, by omega⟩] at hclosed
        cases hclosed

theorem AtAttempt.attemptOver {history : List HistoryEvent} {work : ActivityTask}
    {state : ActivityState} (attempted : AtAttempt history work.activityId work.attempt state)
    {policy : RetryPolicy} {delay : Option Span} {event : Event}
    (ends : EndsAttempt policy work.activityId work.attempt delay event) (now : Instant)
    (eventId : Nat) : AttemptOver work (history ++ RunRecord.number now eventId [event]) := by
  intro once
  have hfollow : (Ledger.ofHistory (history ++ RunRecord.number now eventId [event])).activity?
      work.activityId = ActivityState.follow work.activityId (some state) event := by
    rw [Ledger.activity?_number, attempted.known]
    rfl
  cases delay with
  | none =>
      rw [ends.follow_last attempted.isOpen attempted.current] at hfollow
      exact ⟨_, hfollow, .inl rfl⟩
  | some delay =>
      rw [ends.follow_retry attempted.isOpen attempted.current] at hfollow
      exact ⟨_, hfollow, .inr (Nat.lt_succ_self _)⟩

namespace Store

variable {store : Store} {work : ActivityTask} {record : RunRecord}

theorem IsDone.of_closed (hfind : store.runs.find? work.run = some record)
    (hclosed : record.isClosed = true) : store.IsDone work :=
  ⟨record, hfind, .inl hclosed⟩

theorem IsDone.of_not_open (provides : store.Provides work)
    (hfind : store.runs.find? work.run = some record)
    (hclosed : (Ledger.ofHistory record.events).isAttemptOpen work.activityId work.attempt = false) :
    store.IsDone work := by
  obtain ⟨same, hsame, provided⟩ := provides
  rw [hfind, Option.some.injEq] at hsame
  subst hsame
  exact ⟨record, hfind, .inr (provided.attemptOver hclosed)⟩

theorem Provides.provided (provides : store.Provides work)
    (hfind : store.runs.find? work.run = some record) : Provided record.events work := by
  obtain ⟨same, hsame, provided⟩ := provides
  rw [hfind, Option.some.injEq] at hsame
  exact hsame ▸ provided

theorem HasBegun.pickedUp (begun : store.HasBegun work)
    (hfind : store.runs.find? work.run = some record) :
    PickedUp work.activityId work.attempt record.events := by
  obtain ⟨same, hsame, picked⟩ := begun
  rw [hfind, Option.some.injEq] at hsame
  exact hsame ▸ picked

end Store

theorem Run.ref_of_origin {store : Store} {ref : RunRef} {record : RunRecord} {run : Run}
    (hfind : store.runs.find? ref = some record) (horigin : run.origin = record.run.origin) :
    run.ref = ref :=
  (Run.ref_eq_of_origin horigin).trans (RunTable.ref_of_find? hfind)

/-! ## Attempts -/

namespace ActivityService

variable {service : ActivityService}

theorem startReviser_keep {workerId : String} {work : ActivityTask} {run : Run}
    {history : List HistoryEvent} {reason : Unrecorded}
    (h : startReviser workerId work run (.ofHistory history) = .keep reason) :
    (reason = .notOpen ∧
        (Ledger.ofHistory history).isAttemptOpen work.activityId work.attempt = false) ∨
      (reason = .alreadyStarted ∧ PickedUp work.activityId work.attempt history) := by
  unfold startReviser at h
  split at h
  · rename_i hclosed
    cases h
    exact .inl ⟨rfl, by simpa using hclosed⟩
  · rename_i hopen
    obtain ⟨state, attempted⟩ := atAttempt_of_isAttemptOpen (by simpa using hopen)
    split at h
    · rename_i hstarted
      cases h
      rw [attempted.known] at hstarted
      exact .inr ⟨rfl, attempted.current ▸ pickedUp_of_started attempted.known hstarted⟩
    · cases h

theorem startReviser_events {workerId : String} {work : ActivityTask} {run : Run} {ledger : Ledger}
    {commit : Commit} (hwrites : (startReviser workerId work run ledger).Writes commit) :
    commit.events = [.activityStarted work.activityId work.attempt workerId] := by
  obtain ⟨-, -, now, rfl⟩ := startReviser_cases hwrites
  rfl

/-- What the store shows of the work when its start was to be recorded. -/
def Starts (work : ActivityTask) : Except EngineError Bool → Store → Prop
  | .ok true, store => store.HasBegun work
  | .ok false, store => store.IsDone work
  | .error _, _ => True

theorem recordStart_plays {work : ActivityTask} {store : Store} (provides : store.Provides work) :
    (service.recordStart work).Plays rules fires (Starts work) store := by
  unfold recordStart Engine.revise
  apply Program.Plays.bind
  apply ((Revision.attempt_plays service.engine.rounds ?_).since .refl).weaken
  · rintro result later ⟨hleaves, since⟩
    have hthere : later.Provides work := Leads.provides since provides
    cases result with
    | ok revised =>
        cases revised with
        | kept reason =>
            obtain ⟨record, run, hfind, horigin, hkeep⟩ := hleaves
            rcases startReviser_keep hkeep with ⟨rfl, hclosed⟩ | ⟨rfl, picked⟩
            · exact .of_not_open hthere hfind hclosed
            · exact ⟨record, hfind, picked⟩
        | written version =>
            obtain ⟨before, record, run, commit, now, -, hwrites, hfind, outlives⟩ := hleaves
            refine ⟨record, hfind, PickedUp.of_prefix ?_ outlives.grows⟩
            refine ⟨service.workerId, ?_⟩
            rw [RunRecord.revise_events, startReviser_events hwrites]
            simp [RunRecord.map_event_number]
    | error error =>
        cases error with
        | runClosed closed =>
            obtain ⟨record, hfind, hclosed⟩ := hleaves
            exact .of_closed hfind hclosed
        | store error =>
            cases error with
            | runNotFound missing =>
                obtain ⟨record, hfind, -⟩ := hthere
                have hnone : later.runs.find? work.run = none := hleaves
                rw [hnone] at hfind
                cases hfind
            | _ => trivial
        | _ => trivial
  · intro later record run commit leads _ hfind horigin hwrites
    have provided := Store.Provides.provided (Leads.provides leads provides) hfind
    exact .inl (startReviser_writes (Run.ref_of_origin hfind horigin).symm provided hwrites)

/-- A task is given back once there is nothing left to do for it. -/
theorem release_plays {task : LeasedTask} {work : ActivityTask} {store : Store}
    (leased : store.Leased task) (hwork : task.work = .activity work) (done : store.IsDone work)
    (report : AttemptReport) :
    (release task report).Plays rules fires (fun turn _ => ∃ result, turn = .finished result)
      store := by
  apply Program.Plays.request
  intro world leads _
  constructor
  · intro slot holds
    rw [(leads.leased leased).assigned.only slot holds.1 holds.2.1, hwork]
    exact leads.isDone done
  · intro answer after _ _
    split <;> exact ⟨_, rfl⟩

theorem conclude_plays {task : LeasedTask} {work : ActivityTask} {outcome : AttemptOutcome}
    {store : Store} (leased : store.Leased task) (hwork : task.work = .activity work)
    (begun : store.HasBegun work) :
    (service.conclude task work outcome).Plays rules fires
      (fun turn _ => ∃ result, turn = .finished result) store := by
  unfold conclude Engine.revise
  apply Program.Plays.bind
  apply ((Revision.attempt_plays service.engine.rounds ?_).since .refl).weaken
  · rintro result later ⟨hleaves, since⟩
    have hthere := Leads.leased since leased
    cases result with
    | ok revised =>
        apply release_plays hthere hwork
        cases revised with
        | kept reason =>
            obtain ⟨record, run, hfind, -, hkeep⟩ := hleaves
            exact .of_not_open (hthere.provided work hwork) hfind
              (AttemptOutcome.not_open_of_keep hkeep)
        | written version =>
            obtain ⟨before, record, run, commit, now, -, hwrites, hfind, outlives⟩ := hleaves
            obtain ⟨state, event, attempted, hcases⟩ := AttemptOutcome.reviser_cases hwrites
            refine ⟨record, hfind, .inr (AttemptOver.of_prefix ?_ outlives.grows)⟩
            rw [RunRecord.revise_events]
            rcases hcases with ⟨ends, rfl⟩ | ⟨delay, time, ends, rfl⟩
            · exact attempted.attemptOver ends now _
            · exact attempted.attemptOver ends now _
    | error error =>
        cases error with
        | runClosed closed =>
            obtain ⟨record, hfind, hclosed⟩ := hleaves
            exact release_plays hthere hwork (.of_closed hfind hclosed) _
        | _ => exact ⟨_, rfl⟩
  · intro later record run commit leads _ hfind _ hwrites
    have picked := Store.HasBegun.pickedUp (Leads.hasBegun leads begun) hfind
    exact .inl (AttemptOutcome.reviser_writes (.inr picked) hwrites)

theorem recordHeartbeat_plays {attempt : Attempt} {store : Store} (sound : attempt.Sound store)
    (details : Option Json) :
    (service.recordHeartbeat attempt details).Plays rules fires (fun later => later.Sound) store := by
  unfold recordHeartbeat Engine.revise
  apply Program.Plays.bind
  apply ((Revision.attempt_plays service.engine.rounds ?_).since .refl).weaken
  · rintro result later ⟨-, since⟩
    have hthere : attempt.Sound later := Leads.sound since sound
    split
    · exact hthere
    · exact ⟨hthere.leased, hthere.work, hthere.begun⟩
    · exact ⟨hthere.leased, hthere.work, hthere.begun⟩
    · exact hthere
  · intro later record run commit leads _ hfind horigin hwrites
    have hthere : attempt.Sound later := Leads.sound leads sound
    exact .inl (heartbeatReviser_writes (Run.ref_of_origin hfind horigin).symm
      ((hthere.leased.provided _ hthere.work).provided hfind) (hthere.begun.pickedUp hfind) hwrites)

theorem renewLease_plays {attempt : Attempt} {store : Store} (sound : attempt.Sound store) :
    (service.renewLease attempt).Plays rules fires
      (fun renewed later => ∀ next, renewed = some next → next.Sound later) store := by
  apply Program.Plays.ask rfl
  intro answer later leads
  have hthere := leads.sound sound
  split
  · intro next hnext
    cases hnext
    split
    · exact ⟨hthere.leased, hthere.work, hthere.begun⟩
    · exact hthere
  · exact fun _ hnext => nomatch hnext
  · exact fun _ hnext => nomatch hnext
  · intro next hnext
    cases hnext
    exact hthere

/-- What the store shows of an attempt after a turn. -/
def Continues : Attempt.Turn → Store → Prop
  | .waiting attempt, store => attempt.Sound store
  | .finished _, _ => True

theorem concluded {task : LeasedTask} {work : ActivityTask} {outcome : AttemptOutcome}
    {store : Store} (leased : store.Leased task) (hwork : task.work = .activity work)
    (begun : store.HasBegun work) :
    (service.conclude task work outcome).Plays rules fires Continues store := by
  apply (conclude_plays leased hwork begun).weaken
  rintro turn later ⟨result, rfl⟩
  trivial

/-- After its lease is renewed, an attempt goes on or is left alone. -/
theorem afterRenewal_plays {next : Attempt} {rest : Option Attempt → Program Attempt.Turn}
    {store : Store} (sound : next.Sound store)
    (hstop : ∀ later, (rest none).Plays rules fires Continues later)
    (hgo : ∀ attempt later, attempt.Sound later →
      (rest (some attempt)).Plays rules fires Continues later) :
    (service.renewLease next >>= rest).Plays rules fires Continues store := by
  apply Program.Plays.bind
  apply (renewLease_plays sound).weaken
  intro renewed later hrenewed
  cases renewed with
  | none => exact hstop later
  | some attempt => exact hgo attempt later (hrenewed attempt rfl)

theorem drive_plays (moment : Moment) (limit : Nat) {attempt : Attempt} {store : Store}
    (sound : attempt.Sound store) :
    (service.drive moment limit attempt).Plays rules fires Continues store := by
  induction limit generalizing attempt store with
  | zero => trivial
  | succ limit ih =>
      have resumed : (attempt.resume moment).Sound store := ⟨sound.leased, sound.work, sound.begun⟩
      have concluded : ∀ outcome, (service.conclude (attempt.resume moment).task
          (attempt.resume moment).work outcome).Plays rules fires Continues store :=
        fun outcome => concluded resumed.leased resumed.work resumed.begun
      unfold drive
      simp only
      split
      · exact concluded _
      · split
        · exact concluded _
        · split
          · exact concluded _
          · split
            · apply Program.Plays.bind
              apply (recordHeartbeat_plays _ _).weaken
              · exact fun next later hnext => afterRenewal_plays hnext (fun _ => trivial) fun _ _ => ih
              · exact ⟨resumed.leased, resumed.work, resumed.begun⟩
            · split
              · exact afterRenewal_plays ⟨resumed.leased, resumed.work, resumed.begun⟩
                  (fun _ => trivial) fun _ _ => ih
              · exact resumed

theorem begin_plays (moment : Moment) {task : LeasedTask} {work : ActivityTask} {store : Store}
    (leased : store.Leased task) (hwork : task.work = .activity work) :
    (service.begin moment task).Plays rules fires Continues store := by
  unfold begin
  rw [hwork]
  apply Program.Plays.bind
  apply ((recordStart_plays (leased.provided work hwork)).since .refl).weaken
  rintro result later ⟨hstarts, since⟩
  have hthere := Leads.leased since leased
  cases result with
  | error error => trivial
  | ok begun =>
      cases begun with
      | false =>
          apply (release_plays hthere hwork hstarts .stale).weaken
          rintro turn last ⟨result, rfl⟩
          trivial
      | true =>
          simp only
          split
          · exact drive_plays moment driveLimit ⟨hthere, hwork, hstarts⟩
          · exact concluded hthere hwork hstarts

end ActivityService

/-! ## Parts of workers -/

/-- What a part of a worker that works on a task may rely on. -/
def WorkerPart.Sound : WorkerPart → Store → Prop
  | .claimed task, store => store.Leased task
  | .running attempt, store => attempt.Sound store
  | _, _ => False

namespace Worker

variable {worker : Worker} {catalogue : WorkflowRegistry}

/-- A workflow task is completed when its run is attended to without it. -/
theorem runWorkflowTask_plays (lawful : rules.Lawful) (decides : rules.decides
    (worker.engine catalogue)) {task : LeasedTask} {ref : RunRef} {workflowType : String}
    {store : Store} (sane : Sane rules store) (leased : store.Leased task)
    (hwork : task.work = .workflow ref workflowType) :
    (worker.runWorkflowTask catalogue task).Plays rules fires (fun _ _ => True) store := by
  unfold runWorkflowTask
  have hrun : task.work.run = ref := by rw [hwork, Work.run]
  rw [hrun]
  apply Program.Plays.bind
  apply (((Engine.processTask_plays lawful decides store).sane lawful sane).since .refl).weaken
  rintro result later ⟨⟨hleaves, hsane⟩, since⟩
  have hthere := Leads.leased since leased
  cases result with
  | error error => exact Program.Plays.ask rfl fun _ _ _ => trivial
  | ok result =>
      apply Program.Plays.request
      intro world leads _
      refine ⟨?_, fun _ _ _ _ => trivial⟩
      intro slot holds
      rw [(leads.leased hthere).assigned.only slot holds.1 holds.2.1, hwork]
      obtain ⟨number, hlt, htoken⟩ := hthere.granted
      exact ⟨number, htoken, leads.attended lawful hsane hlt (hleaves (number + 1))⟩

theorem afterAttempt_plays {task : LeasedTask} {turn : Attempt.Turn} {store : Store}
    (continues : ActivityService.Continues turn store) :
    (worker.afterAttempt task turn).Plays rules fires
      (fun turn later => ∀ part, turn.rest = some part → part.Sound later) store := by
  unfold afterAttempt
  split
  · intro part hrest
    cases hrest
    exact continues
  · exact fun part hrest => nomatch hrest
  · apply Program.Plays.bind
    exact Program.Plays.ask rfl fun _ _ _ part hrest => nomatch hrest

/-- A part of a worker takes its turn by the rules, and is sound after it. -/
theorem partTurn_plays (lawful : rules.Lawful) (decides : rules.decides (worker.engine catalogue))
    (moment : Moment) {part : WorkerPart} {store : Store} (sane : Sane rules store)
    (sound : part.Sound store) :
    (worker.partTurn catalogue moment part).Plays rules fires
      (fun turn later => ∀ next, turn.rest = some next → next.Sound later) store := by
  cases part with
  | taskLoop kind loop => exact sound.elim
  | ticker ticksAt => exact sound.elim
  | running attempt =>
      apply Program.Plays.bind
      apply (ActivityService.drive_plays moment _ sound).weaken
      exact fun turn later continues => afterAttempt_plays continues
  | claimed task =>
      cases hwork : task.work with
      | workflow ref workflowType =>
          simp only [partTurn, hwork]
          apply Program.Plays.bind
          apply (runWorkflowTask_plays lawful decides sane sound hwork).weaken
          rintro _ _ _ _ ⟨⟩
      | activity work =>
          simp only [partTurn, hwork]
          apply Program.Plays.bind
          apply (ActivityService.begin_plays moment sound hwork).weaken
          exact fun turn later continues => afterAttempt_plays continues

end Worker

end Chronicle
