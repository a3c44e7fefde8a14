import Chronicle.Proofs.Engine.Mirroring
import Chronicle.Proofs.Engine.Redelivery
import Chronicle.Proofs.Program.Bystanders

/-!
# Firing what is due

A timer service that nobody interrupts takes out the timers that are due and fires one after the
other.  Each has its effect at the first try or none at all, so that no timer is put back, and in the
end the timers mirror the histories again.
-/

namespace Chronicle

open Relation (ReflTransGen)

theorem Program.run_bind {σ α β : Type} {handler : Program.Handler σ} {program : Program α}
    {next : α → Program β} {before after : σ} {value : α}
    (h : program.run handler before = (.ok value, after)) :
    (program >>= next).run handler before = (next value).run handler after := by
  rw [Program.run_bind_eq, h]

theorem Program.run_request_error {σ α : Type} {handler : Program.Handler σ} {request : Request}
    {next : request.Answer → Program α} {before after : σ} {cause : Crash}
    (h : handler request before = (.error cause, after)) :
    (Program.request request >>= next).run handler before = (.error cause, after) := by
  show (Program.ask request fun answer => next answer).run handler before = _
  rw [Program.run, h]

/-! ## Revisions that nobody interrupts -/

namespace Revision

variable {α : Type}

/-- What the revision writes at the instant. -/
def commitAt? (revision : Revision α) (now : Instant) : Option Commit :=
  match revision with
  | .keep _ => none
  | .write commit => some commit
  | .writeAt commit => some (commit now)

theorem writes_of_commitAt? {revision : Revision α} {now : Instant} {commit : Commit}
    (h : revision.commitAt? now = some commit) : revision.Writes commit := by
  cases revision with
  | keep reason => cases h
  | write written => exact Option.some.inj h
  | writeAt written => exact ⟨now, Option.some.inj h⟩

/-- How a revision ends if nobody interrupts it. -/
inductive EndsWith (ref : RunRef) (reviser : Reviser α) (world : World) (now : Instant) :
    Except EngineError (Revised α) → World → Prop where
  | unknown (found : world.store.runs.find? ref = none) :
      EndsWith ref reviser world now (.error (.store (.runNotFound ref))) world
  | closed {record : RunRecord} (found : world.store.runs.find? ref = some record)
      (isClosed : record.isClosed = true) :
      EndsWith ref reviser world now (.error (.runClosed ref)) world
  | kept {record : RunRecord} {reason : α} (found : world.store.runs.find? ref = some record)
      (isOpen : record.isClosed = false)
      (keeps : reviser record.run (.ofHistory record.events) = .keep reason) :
      EndsWith ref reviser world now (.ok (.kept reason)) world
  | written {record : RunRecord} {commit : Commit} (version : Nat)
      (found : world.store.runs.find? ref = some record) (isOpen : record.isClosed = false)
      (writes : (reviser record.run (.ofHistory record.events)).commitAt? now = some commit) :
      EndsWith ref reviser world now (.ok (.written version))
        { world with store := (world.store.apply ref commit now).wake }

theorem outcome_run (revision : Revision α) {world : World} {now : Instant}
    (hnow : world.now = some now) :
    (∃ reason, revision = .keep reason ∧
        revision.outcome.run World.answer world = (.ok (.error reason), world)) ∨
      ∃ commit, revision.commitAt? now = some commit ∧
        revision.outcome.run World.answer world = (.ok (.ok commit), world) := by
  cases revision with
  | keep reason => exact .inl ⟨reason, rfl, rfl⟩
  | write commit => exact .inr ⟨commit, rfl, rfl⟩
  | writeAt commit =>
      have hanswer : World.answer .now world = (.ok now, world) := by
        simp [World.answer, World.timed, World.timeless, hnow]
      exact .inr ⟨commit now, rfl, Program.run_request hanswer⟩

theorem answer_commit_of_plain {world : World} {now : Instant} {ref : RunRef} {record : RunRecord}
    {commit : Commit} (hnow : world.now = some now)
    (hfind : world.store.runs.find? ref = some record) (hopen : record.isClosed = false)
    (hplain : commit.newRuns = []) :
    ∃ version, World.answer (.commit ref record.events.length commit) world =
      (.ok (.ok version), { world with store := (world.store.apply ref commit now).wake }) := by
  have hcommit : ∃ version, world.store.commit ref record.events.length commit now =
      .ok ((world.store.apply ref commit now).wake, version) := by
    unfold Store.commit
    simp only [RunTable.get, hfind, hopen, RunRecord.version, bne_self_eq_false, hplain,
      Store.checkStarts, Bool.false_eq_true, if_false]
    exact ⟨_, rfl⟩
  obtain ⟨version, hcommit⟩ := hcommit
  refine ⟨version, ?_⟩
  simp [World.answer, World.timed, World.timeless, World.update, hnow, hcommit]

theorem attempt_run {ref : RunRef} {reviser : Reviser α} {world : World} {now : Instant}
    (hnow : world.now = some now)
    (hplain : ∀ run history commit, (reviser run (.ofHistory history)).Writes commit →
      commit.newRuns = [])
    (rounds : Nat) :
    ∃ result after, (attempt ref reviser (rounds + 1)).run World.answer world = (.ok result, after) ∧
      EndsWith ref reviser world now result after := by
  unfold attempt
  cases hfind : world.store.runs.find? ref with
  | none =>
      exact ⟨_, _, Program.run_request (World.answer_getRun_of_unknown hfind), .unknown hfind⟩
  | some record =>
      rw [Program.run_request (World.answer_getRun_of_find hfind)]
      simp only
      split
      · rename_i hclosed
        exact ⟨_, _, rfl, .closed hfind hclosed⟩
      · rename_i hopen
        have hstill : record.isClosed = false := by simpa [RunRecord.isClosed] using hopen
        rw [Program.run_request (World.answer_readEvents_of_find hfind)]
        simp only
        rcases outcome_run (reviser record.run (.ofHistory record.events)) hnow with
          ⟨reason, hkeep, hrun⟩ | ⟨commit, hwrites, hrun⟩
        · exact ⟨_, _, Program.run_bind hrun, .kept hfind hstill hkeep⟩
        · obtain ⟨version, hcommit⟩ :=
            answer_commit_of_plain hnow hfind hstill
              (hplain _ _ commit (writes_of_commitAt? hwrites))
          refine ⟨_, _, ?_, .written version hfind hstill hwrites⟩
          rw [Program.run_bind hrun]
          exact Program.run_request hcommit

end Revision

/-! ## What timers write -/

theorem Update.newRuns {fires : Prop} {run : Run} {history : List HistoryEvent} {commit : Commit}
    (update : Update fires run history commit) : commit.newRuns = [] := by
  cases update <;> rfl

namespace TimerPurpose

/-- What a timer for the purpose does when it fires. -/
def reviser : TimerPurpose → Reviser Unit
  | .workflowTimer timerId => TimerService.workflowTimer timerId
  | .activityPickup activityId => TimerService.pickupTimeout activityId
  | .activityAttempt activityId attempt =>
      AttemptOutcome.reviser activityId attempt (.timedOut .startToClose)
  | .activityHeartbeat activityId attempt =>
      AttemptOutcome.reviser activityId attempt (.timedOut .heartbeat)
  | .runTimeout => Engine.forceClose .workflowTimedOut
      ⟨.timedOut, none, some (.ofKind .timeout "workflow execution timed out")⟩

variable {purpose : TimerPurpose} {run : Run} {history : List HistoryEvent} {commit : Commit}

theorem update_of_writes (hwrites : (purpose.reviser run (.ofHistory history)).Writes commit) :
    Update True run history commit := by
  cases purpose with
  | workflowTimer timerId => exact TimerService.workflowTimer_writes hwrites
  | activityPickup activityId => exact TimerService.pickupTimeout_writes hwrites
  | activityAttempt activityId attempt => exact AttemptOutcome.reviser_writes (.inl trivial) hwrites
  | activityHeartbeat activityId attempt => exact AttemptOutcome.reviser_writes (.inl trivial) hwrites
  | runTimeout => exact Engine.forceClose_writes rfl hwrites

end TimerPurpose

/-- The commit is for a timer that has fired.  It keeps another purpose in balance, and schedules
nothing for it if that is overdue. -/
structure Commit.Spends (commit : Commit) (history : List HistoryEvent) (options : WorkflowOptions)
    (purpose other : TimerPurpose) : Prop where
  balances : other ≠ purpose → (Ledger.ofHistory history).Balances options commit.events
    commit.timers commit.cancelledTimers other
  unscheduled : Overdue history other → other ∉ commit.timers.map Timer.purpose
  overdue : Overdue history other → ∀ now eventId,
    Overdue (history ++ RunRecord.number now eventId commit.events) other
  spent : ¬ (commit.events.foldl Ledger.apply (Ledger.ofHistory history)).Awaits options purpose

namespace AttemptOutcome

variable {activityId : String} {attempt : Nat} {outcome : AttemptOutcome} {run : Run}
  {history : List HistoryEvent} {commit : Commit} {options : WorkflowOptions}
  {purpose other : TimerPurpose}

/-- Whoever looks at another activity need not know whether the attempt was picked up. -/
theorem balances_other
    (hwrites : (reviser activityId attempt outcome run (.ofHistory history)).Writes commit)
    (hother : other.activityId? ≠ some activityId) :
    (Ledger.ofHistory history).Balances options commit.events commit.timers commit.cancelledTimers
      other := by
  have hattempt : ∀ purpose ∈ attemptTimers activityId attempt,
      purpose.activityId? = some activityId := by
    intro purpose hmem
    rcases mem_attemptTimers.1 hmem with rfl | rfl <;> rfl
  obtain ⟨state, event, attempted, ⟨ends, rfl⟩ | ⟨delay, now, ends, rfl⟩⟩ := reviser_cases hwrites
  · exact Ledger.balances_of_activity ends.facts.1 attempted.known
      (ends.follow_last attempted.isOpen attempted.current) (by rintro _ ⟨⟩) hattempt
      fun hsame => absurd hsame hother
  · refine Ledger.balances_of_activity ends.facts.1 attempted.known
      (ends.follow_retry attempted.isOpen attempted.current) ?_ hattempt
      fun hsame => absurd hsame hother
    intro purpose hmem
    rw [(mem_retryTimers.1 hmem).1]
    rfl

/-- An attempt that times out was picked up, and is the current one no longer. -/
theorem spends (hpurpose : purpose = .activityAttempt activityId attempt ∨
      purpose = .activityHeartbeat activityId attempt)
    (hwrites : (reviser activityId attempt outcome run (.ofHistory history)).Writes commit)
    (picked : other.activityId? = some activityId → PickedUp activityId attempt history)
    (hclosing : commit.closing = none) (recounts : Recounts history)
    (orderly : OrderlyFor other history) : commit.Spends history options purpose other := by
  have balances : (Ledger.ofHistory history).Balances options commit.events commit.timers
      commit.cancelledTimers other := by
    by_cases hactivity : other.activityId? = some activityId
    · have update : Update False run history commit :=
        reviser_writes (.inr (picked hactivity)) hwrites
      exact update.balances hclosing recounts orderly
    · exact balances_other hwrites hactivity
  obtain ⟨state, event, attempted, ⟨ends, rfl⟩ | ⟨delay, now, ends, rfl⟩⟩ := reviser_cases hwrites
  · refine ⟨fun _ => balances, by simp [endCommit, Commit.ofEvents], ?_, ?_⟩
    · intro overdue now eventId
      exact overdue.concat now eventId ends.begins_nothing.1 ends.begins_nothing.2
    · have hlater : ((Ledger.ofHistory history).apply event).activity? activityId =
          some state.close := by
        rw [Ledger.activity?_apply, attempted.known]
        exact ends.follow_last attempted.isOpen attempted.current
      show ¬ ((Ledger.ofHistory history).apply event).Awaits options purpose
      rcases hpurpose with rfl | rfl <;>
        simp [Ledger.Awaits, hlater, ActivityState.Awaits, ActivityState.close]
  · refine ⟨fun _ => balances, ?_, ?_, ?_⟩
    · intro overdue hmem
      obtain ⟨rfl, -⟩ := mem_retryTimers.1 hmem
      have hstarted := attempted.started recounts (orderly.once activityId rfl) (picked rfl)
      rw [overdue state attempted.known attempted.isOpen] at hstarted
      cases hstarted
    · intro overdue later eventId
      exact overdue.concat later eventId ends.begins_nothing.1 ends.begins_nothing.2
    · have hlater : ((Ledger.ofHistory history).apply event).activity? activityId =
          some { state with attempt := attempt + 1, started := false } := by
        rw [Ledger.activity?_apply, attempted.known]
        exact ends.follow_retry attempted.isOpen attempted.current
      show ¬ ((Ledger.ofHistory history).apply event).Awaits options purpose
      rcases hpurpose with rfl | rfl <;> simp [Ledger.Awaits, hlater, ActivityState.Awaits]

theorem not_awaits_of_keep {ledger : Ledger} {reason : Unit}
    (hpurpose : purpose = .activityAttempt activityId attempt ∨
      purpose = .activityHeartbeat activityId attempt)
    (h : reviser activityId attempt outcome run ledger = .keep reason) :
    ¬ ledger.Awaits options purpose := by
  have hnot := not_open_of_keep h
  intro hawaits
  rw [← Bool.not_eq_true, Ledger.isAttemptOpen_iff] at hnot
  rcases hpurpose with rfl | rfl
  · obtain ⟨state, hstate, hopen, -, hattempt⟩ := hawaits
    exact hnot ⟨state, hstate, hopen, hattempt⟩
  · obtain ⟨state, hstate, hopen, -, hattempt, -⟩ := hawaits
    exact hnot ⟨state, hstate, hopen, hattempt⟩

end AttemptOutcome

namespace TimerService

variable {run : Run} {history : List HistoryEvent} {commit : Commit} {options : WorkflowOptions}
  {other : TimerPurpose}

theorem workflowTimer_spends {timerId : String}
    (hwrites : (workflowTimer timerId run (.ofHistory history)).Writes commit) :
    commit.Spends history options (.workflowTimer timerId) other := by
  obtain ⟨-, rfl⟩ := workflowTimer_cases hwrites
  refine ⟨fun hother => Ledger.balances_of_fired hother, by simp [Commit.ofEvents], ?_, ?_⟩
  · intro overdue now eventId
    exact overdue.concat now eventId (fun _ => rfl) (by simp)
  · show ¬ ((Ledger.ofHistory history).apply (.timerFired timerId)).Awaits options
      (.workflowTimer timerId)
    simp [Ledger.Awaits, Ledger.isTimerPending_apply, Event.timerNews?]

theorem pickupTimeout_spends {activityId : String}
    (hwrites : (pickupTimeout activityId run (.ofHistory history)).Writes commit) :
    commit.Spends history options (.activityPickup activityId) other := by
  obtain ⟨state, hstate, hopen, hwaits, rfl⟩ := pickupTimeout_cases hwrites
  have attempted : AtAttempt history activityId state.attempt state := ⟨hstate, hopen, rfl⟩
  refine ⟨fun hother => Ledger.balances_of_missed attempted hwaits hother,
    by simp [Commit.ofEvents], ?_, ?_⟩
  · intro overdue now eventId
    exact overdue.concat now eventId (fun _ => rfl) (by simp)
  · show ¬ ((Ledger.ofHistory history).apply (.activityTimedOut activityId state.attempt
      .scheduleToStart false false)).Awaits options (.activityPickup activityId)
    simp [Ledger.Awaits, Ledger.activity?_apply, hstate, ActivityState.follow,
      Event.activityId?, ActivityState.onAttempt, hopen, Ledger.endAttempt,
      ActivityState.Awaits]

end TimerService

namespace TimerPurpose

variable {purpose other : TimerPurpose} {run : Run} {history : List HistoryEvent} {commit : Commit}
  {options : WorkflowOptions}

theorem spends (hwrites : (purpose.reviser run (.ofHistory history)).Writes commit)
    (hclosing : commit.closing = none)
    (overdue : OrderlyFor purpose history → Overdue history purpose) (recounts : Recounts history)
    (orderly : OrderlyFor other history) : commit.Spends history options purpose other := by
  cases purpose with
  | workflowTimer timerId => exact TimerService.workflowTimer_spends hwrites
  | activityPickup activityId => exact TimerService.pickupTimeout_spends hwrites
  | activityAttempt activityId attempt =>
      exact AttemptOutcome.spends (.inl rfl) hwrites
        (fun hother => overdue (orderly.of_activity hother rfl)) hclosing recounts orderly
  | activityHeartbeat activityId attempt =>
      exact AttemptOutcome.spends (.inr rfl) hwrites
        (fun hother => overdue (orderly.of_activity hother rfl)) hclosing recounts orderly
  | runTimeout =>
      cases hwrites
      cases hclosing

theorem not_awaits_of_keep {ledger : Ledger} {reason : Unit}
    (h : purpose.reviser run ledger = .keep reason) : ¬ ledger.Awaits options purpose := by
  cases purpose with
  | workflowTimer timerId =>
      intro hawaits
      have hpending : ledger.isTimerPending timerId = true := hawaits
      rw [reviser, TimerService.workflowTimer, if_pos hpending] at h
      cases h
  | activityPickup activityId =>
      rintro ⟨state, hstate, hopen, hwaits, -⟩
      simp [reviser, TimerService.pickupTimeout, hstate, hopen, hwaits] at h
  | activityAttempt activityId attempt => exact AttemptOutcome.not_awaits_of_keep (.inl rfl) h
  | activityHeartbeat activityId attempt => exact AttemptOutcome.not_awaits_of_keep (.inr rfl) h
  | runTimeout => cases h

end TimerPurpose

/-! ## One timer after the other -/

/-- What happens while the clock stands still and no run begins. -/
structure World.Continues (before after : World) : Prop where
  clock : after.now = before.now
  supply : after.drawnRuns = before.drawnRuns
  moves : ReflTransGen (Move .recounting True) before.store after.store
  uses : ∀ runId, after.store.runs.Uses runId → before.store.runs.Uses runId

namespace World.Continues

theorem refl (world : World) : world.Continues world := ⟨rfl, rfl, .refl, fun _ h => h⟩

theorem trans {first second third : World} (early : first.Continues second)
    (late : second.Continues third) : first.Continues third where
  clock := late.clock.trans early.clock
  supply := late.supply.trans early.supply
  moves := early.moves.trans late.moves
  uses := fun runId h => early.uses runId (late.uses runId h)

theorem of_commit {world : World} {ref : RunRef} {record : RunRecord} {commit : Commit}
    {now : Instant} (hfind : world.store.runs.find? ref = some record)
    (hopen : record.isClosed = false) (update : Update True record.run record.events commit) :
    world.Continues { world with store := (world.store.apply ref commit now).wake } where
  clock := rfl
  supply := rfl
  moves := by
    have begins : commit.BeginsNew world.store.runs := by
      simp [Commit.BeginsNew, update.newRuns]
    have committed : Move .recounting True world.store (world.store.apply ref commit now) :=
      .committed now hfind hopen rfl (.inl update) begins
    exact (ReflTransGen.single committed).tail (World.moves_wake _)
  uses := by
    rintro runId ⟨target, later, hlater, hid⟩
    have hlater : (world.store.apply ref commit now).runs.find? target = some later := hlater
    rw [Store.apply_runs, RunTable.applied, update.newRuns, List.foldl_nil] at hlater
    have hsome := RunTable.find?_notified_isSome commit.notifications now
      (world.store.runs.modify ref fun record => record.revise commit now) target
    rw [hlater, RunTable.find?_revised_isSome, Option.isSome_some] at hsome
    obtain ⟨earlier, hearlier⟩ := Option.isSome_iff_exists.1 hsome.symm
    exact ⟨target, earlier, hearlier, hid⟩

end World.Continues

namespace Store.KeepsTime

variable {store : Store} {timer : Timer} {rest : List Timer} {record : RunRecord} {commit : Commit}

/-- A timer that has an effect leaves its own run, and all others, with the timers that they should
have. -/
theorem mirrors_fired (keeps : store.KeepsTime (timer :: rest)) (now : Instant)
    (hfind : store.runs.find? timer.run = some record) (hopen : record.isClosed = false)
    (hwrites : (timer.purpose.reviser record.run (.ofHistory record.events)).Writes commit)
    (ref : RunRef) : (store.apply timer.run commit now).Mirrors ref rest := by
  have mirrors := keeps.mirrors ref
  have update := TimerPurpose.update_of_writes hwrites
  have recounts : Recounts record.events := keeps.sane.keeps timer.run record hfind
  have href : record.run.ref = timer.run := RunTable.ref_of_find? hfind
  have hcalled : ∀ other ∈ commit.timers, other.IsCalledFor timer.run commit.events :=
    fun other hmem => href ▸ update.isCalledFor hmem
  refine @Store.apply_induction (·.Mirrors ref rest) _ _ _ _ (by simp [update.newRuns])
    (by simp [update.newRuns]) ?_ (by simp [update.newRuns]) ?_
  · by_cases htarget : timer.run = ref
    · subst htarget
      have hself : (timer.run, timer.purpose) ∈ (timer :: rest).map Timer.key := List.mem_cons_self
      have spends : commit.closing = none → ∀ purpose,
          OrderlyFor purpose (record.revise commit now).events →
          commit.Spends record.events record.run.options timer.purpose purpose := by
        intro hclosing purpose orderly
        rw [RunRecord.revise_events] at orderly
        exact TimerPurpose.spends hwrites hclosing
          (fun own => (mirrors.overdue record hfind hopen timer.purpose own hself).2) recounts
          (orderly.of_prefix (List.prefix_append _ _))
      refine mirrors.revise_own now hfind hopen update.tidy hcalled ?_ ?_
        fun _ hmem => List.mem_cons_of_mem _ hmem
      · intro hclosing purpose orderly hpurpose
        apply (spends hclosing purpose orderly).balances
        rintro rfl
        exact hpurpose hself
      · intro hclosing purpose orderly hpurpose overdue
        have spent := spends hclosing purpose orderly
        refine ⟨spent.unscheduled overdue, fun _ => ?_, fun hgone => ?_⟩
        · rw [RunRecord.revise_events]
          exact spent.overdue overdue now _
        · rcases List.mem_cons.1 hpurpose with hsame | hleft
          · have hthis : purpose = timer.purpose := congrArg Prod.snd hsame
            exact hthis ▸ spent.spent
          · exact absurd hleft hgone
    · refine (mirrors.revise_other (Ne.symm htarget) (fun other hmem => (hcalled other hmem).own)
        now).drop ?_
      exact fun hrun => absurd hrun htarget
  · intro middle notification hmem held
    exact held.notify (update.tidy.announced notification hmem) now

variable {world after : World} {now : Instant} {result : Except EngineError (Revised Unit)}

theorem fire (keeps : world.store.KeepsTime (timer :: rest))
    (ends : Revision.EndsWith timer.run timer.purpose.reviser world now result after) :
    world.Continues after ∧ after.store.KeepsTime rest := by
  cases ends with
  | unknown found =>
      refine ⟨.refl world, keeps.sane, keeps.timers, fun ref => (keeps.mirrors ref).drop ?_⟩
      rintro rfl record hrecord
      rw [found] at hrecord
      cases hrecord
  | @closed record found isClosed =>
      refine ⟨.refl world, keeps.sane, keeps.timers, fun ref => (keeps.mirrors ref).drop ?_⟩
      rintro rfl other hother hopen
      rw [found, Option.some.injEq] at hother
      rw [hother, hopen] at isClosed
      cases isClosed
  | @kept record reason found isOpen keep =>
      refine ⟨.refl world, keeps.sane, keeps.timers, fun ref => (keeps.mirrors ref).drop ?_⟩
      rintro rfl other hother _
      rw [found, Option.some.injEq] at hother
      subst hother
      exact TimerPurpose.not_awaits_of_keep keep
  | @written record commit version found isOpen writesAt =>
      have writes := Revision.writes_of_commitAt? writesAt
      have continued : world.Continues
          { world with store := (world.store.apply timer.run commit now).wake } :=
        .of_commit found isOpen (TimerPurpose.update_of_writes writes)
      exact ⟨continued, keeps.sane.leads Rules.recounting_lawful continued.moves,
        Leads.timers_wellKept continued.moves keeps.timers,
        fun ref => (keeps.mirrors_fired now found isOpen writes ref).congr rfl rfl⟩

end Store.KeepsTime

namespace TimerService

variable {service : TimerService} {world : World} {now : Instant}

theorem fire_eq (service : TimerService) (timer : Timer) :
    service.fire timer = service.engine.revise timer.run timer.purpose.reviser := by
  unfold fire
  cases timer.purpose <;> rfl

/-- No timer is put back. -/
theorem fireOrReschedule_run (hnow : world.now = some now) (timer : Timer) :
    ∃ result after, (service.fireOrReschedule timer).run World.answer world = (.ok (.ok ()), after) ∧
      Revision.EndsWith timer.run timer.purpose.reviser world now result after := by
  have hplain : ∀ run history commit,
      (timer.purpose.reviser run (.ofHistory history)).Writes commit → commit.newRuns = [] :=
    fun _ _ _ hwrites => (TimerPurpose.update_of_writes hwrites).newRuns
  obtain ⟨result, after, hrun, ends⟩ :=
    @Revision.attempt_run Unit timer.run timer.purpose.reviser world now hnow hplain
      service.engine.limits.maxConflictRetries
  refine ⟨result, after, ?_, ends⟩
  unfold fireOrReschedule
  rw [fire_eq]
  refine (Program.run_bind hrun).trans ?_
  cases ends <;> rfl

theorem fireAll_run (hnow : world.now = some now) {due : List Timer}
    (keeps : world.store.KeepsTime due) :
    ∃ after, (service.fireAll due).run World.answer world = (.ok (.ok ()), after) ∧
      world.Continues after ∧ after.store.KeepsTime [] := by
  induction due generalizing world with
  | nil => exact ⟨world, rfl, .refl world, keeps⟩
  | cons timer rest ih =>
      obtain ⟨result, middle, hfired, ends⟩ := @fireOrReschedule_run service world now hnow timer
      obtain ⟨early, kept⟩ := keeps.fire ends
      obtain ⟨after, hrest, late, last⟩ := ih (early.clock.trans hnow) kept
      refine ⟨after, ?_, early.trans late, last⟩
      unfold fireAll
      exact (Program.run_bind hfired).trans hrest

theorem drain_run (limit fired : Nat) (keeps : world.store.KeepsTime []) :
    world.Continues ((service.drain limit fired).run World.answer world).2 ∧
      ((service.drain limit fired).run World.answer world).2.store.KeepsTime [] := by
  induction limit generalizing world fired with
  | zero => exact ⟨.refl world, keeps⟩
  | succ limit ih =>
      unfold drain
      cases hnow : world.now with
      | none =>
          have hanswer : World.answer .now world = (.error .noTime, world) := by
            simp [World.answer, World.timed, hnow]
          rw [Program.run_request_error hanswer]
          exact ⟨.refl world, keeps⟩
      | some now =>
          have hanswer : World.answer .now world = (.ok now, world) := by
            simp [World.answer, World.timed, World.timeless, hnow]
          have hpopped : World.answer (.popDueTimers now service.config.batchSize) world =
              (.ok (.ok (world.store.popDueTimers now service.config.batchSize).2),
                { world with store := (world.store.popDueTimers now service.config.batchSize).1 }) :=
            rfl
          have popped : world.Continues
              { world with store := (world.store.popDueTimers now service.config.batchSize).1 } :=
            ⟨rfl, rfl, .single (.popped now _ trivial), fun _ h => h⟩
          obtain ⟨after, hfired, late, last⟩ := @fireAll_run service
            { world with store := (world.store.popDueTimers now service.config.batchSize).1 } now hnow
            _ (keeps.popDue now service.config.batchSize)
          rw [Program.run_request hanswer, Program.run_request hpopped]
          simp only
          rw [Program.run_bind hfired]
          simp only
          split
          · exact ⟨popped.trans late, last⟩
          · obtain ⟨more, final⟩ := ih (fired + _) last
            exact ⟨(popped.trans late).trans more, final⟩

end TimerService

end Chronicle
