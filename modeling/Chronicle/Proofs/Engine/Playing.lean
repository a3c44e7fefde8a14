import Chronicle.Proofs.Engine.Agreement
import Chronicle.Proofs.Program.Playing

/-!
# Engines, clients and timer services play by the rules

A revision commits what its reviser derives from the history that the commit continues, and what it
returns tells how the run stands.  A workflow task that returns well leaves nothing to decide, or
another workflow task that waits.
-/

namespace Chronicle

open Relation (ReflTransGen)

/-! ## Refused commits -/

namespace Store

theorem checkStarts_error {store : Store} {closing : Option RunRef} {newRuns : List NewRun}
    {error : StoreError} (h : store.checkStarts closing newRuns = .error error) :
    ∃ workflowId runId, error = .alreadyStarted workflowId runId := by
  induction newRuns with
  | nil => cases h
  | cons new rest ih =>
      unfold checkStarts RunTable.checkStart at h
      cases hcurrent : store.runs.currentRef? new.ref.workflowId with
      | none => exact ih (by simpa [hcurrent] using h)
      | some current =>
          cases hfind : store.runs.find? current with
          | none => exact ih (by simpa [hcurrent, hfind] using h)
          | some record =>
              simp only [hcurrent, hfind] at h
              split at h
              · exact ih h
              · rename_i refused hrefused
                cases h
                split at hrefused
                · cases hrefused
                  exact ⟨_, _, rfl⟩
                · cases hrefused

/-- A commit is refused because its run is unknown or closed, or else for a reason that may pass. -/
theorem commit_eq_error {store : Store} {ref : RunRef} {expected : Nat} {commit : Commit}
    {now : Instant} {error : StoreError} (h : store.commit ref expected commit now = .error error) :
    (error = .runNotFound ref ∧ store.runs.find? ref = none) ∨
      (error = .runClosed ref ∧
        ∃ record, store.runs.find? ref = some record ∧ record.isClosed = true) ∨
      (∃ found, error = .versionConflict expected found) ∨
      ∃ workflowId runId, error = .alreadyStarted workflowId runId := by
  unfold Store.commit RunTable.get at h
  cases hfind : store.runs.find? ref with
  | none =>
      simp only [hfind] at h
      cases h
      exact .inl ⟨rfl, rfl⟩
  | some record =>
      simp only [hfind] at h
      split at h
      · rename_i hclosed
        cases h
        exact .inr (.inl ⟨rfl, record, rfl, hclosed⟩)
      · split at h
        · cases h
          exact .inr (.inr (.inl ⟨_, rfl⟩))
        · split at h
          · rename_i refused hrefused
            cases h
            exact .inr (.inr (.inr (checkStarts_error hrefused)))
          · cases h

end Store

theorem World.answer_commit_error {ref : RunRef} {expected : Nat} {commit : Commit}
    {world after : World} {error : StoreError}
    (h : World.answer (.commit ref expected commit) world = (.ok (.error error), after)) :
    after = world ∧ ∃ now, world.store.commit ref expected commit now = .error error := by
  obtain ⟨now, -, hreply⟩ := timed_eq_ok h
  unfold update at hreply
  cases hcommit : world.store.commit ref expected commit now with
  | error other =>
      simp only [hcommit, Prod.mk.injEq, Except.error.injEq] at hreply
      exact ⟨hreply.2.symm, now, hreply.1 ▸ hcommit⟩
  | ok applied => simp [hcommit] at hreply

/-! ## Revisions -/

theorem RunRecord.outlives_of_commit {store : Store} {ref : RunRef} {record : RunRecord}
    {commit : Commit} (now : Instant) (hfind : store.runs.find? ref = some record)
    (begins : commit.BeginsNew store.runs) :
    ∃ later, (store.apply ref commit now).wake.runs.find? ref = some later ∧
      (record.revise commit now).Outlives later := by
  obtain ⟨hsteps, -⟩ := @RunTable.steps_of_revised (fun _ _ => True) (fun _ => True) store.runs ref
    commit now (fun _ _ => trivial) begins.1 begins.2
  rw [Store.wake_runs, Store.apply_runs]
  exact RunTable.outlives_of_steps hsteps (RunTable.find?_revised hfind commit now)

/-- Histories only grow, so one of the same length is the one that was read. -/
theorem Leads.events_of_length {rules : Rules} {ref : RunRef} {start store : Store}
    {record later : RunRecord} {run : Run}
    (leads : Leads rules start store) (hfind : start.runs.find? ref = some record)
    (horigin : run.origin = record.run.origin) (hlater : store.runs.find? ref = some later)
    (hlength : later.events.length = record.events.length) :
    later.events = record.events ∧ run.origin = later.run.origin := by
  obtain ⟨same, hsame, outlives⟩ := leads.outlives hfind
  rw [hlater, Option.some.injEq] at hsame
  subst hsame
  exact ⟨(outlives.grows.eq_of_length hlength.symm).symm, horigin.trans outlives.origin.symm⟩

namespace Revision

variable {α : Type} {rules : Rules} {fires : Prop} {reviser : Reviser α} {ref : RunRef}

/-- What the store shows of a revision that has just returned. -/
def Leaves (reviser : Reviser α) (ref : RunRef) : Except EngineError (Revised α) → Store → Prop
  | .ok (.kept reason), store => ∃ (record : RunRecord) (run : Run),
      store.runs.find? ref = some record ∧ run.origin = record.run.origin ∧
      reviser run (.ofHistory record.events) = .keep reason
  | .ok (.written _), store => ∃ (before later : RunRecord) (run : Run) (commit : Commit)
      (now : Instant), run.origin = before.run.origin ∧
      (reviser run (.ofHistory before.events)).Writes commit ∧
      store.runs.find? ref = some later ∧ (before.revise commit now).Outlives later
  | .error (.runClosed _), store =>
      ∃ record, store.runs.find? ref = some record ∧ record.isClosed = true
  | .error (.store (.runNotFound _)), store => store.runs.find? ref = none
  | .error _, _ => True

theorem outcome_plays {post : Except α Commit → Store → Prop} {revision : Revision α} {store : Store}
    (hkept : ∀ reason, revision = .keep reason → post (.error reason) store)
    (hwritten : ∀ commit later, revision.Writes commit → Leads rules store later →
      post (.ok commit) later) :
    revision.outcome.Plays rules fires post store := by
  cases revision with
  | keep reason => exact hkept reason rfl
  | write commit => exact hwritten commit store rfl .refl
  | writeAt commit =>
      apply Program.Plays.ask rfl
      intro now later leads
      exact hwritten (commit now) later ⟨now, rfl⟩ leads

/-- What is done with the commit that a reviser has derived from a history. -/
def conclude {α : Type} (ref : RunRef) (history : List HistoryEvent)
    (again : Program (Except EngineError (Revised α))) (commit : Commit) :
    Program (Except EngineError (Revised α)) := do
  match ← .request (.commit ref history.length commit) with
  | .ok version => return .ok (.written version)
  | .error (.versionConflict _ _) => again
  | .error (.runClosed _) => return .error (.runClosed ref)
  | .error error => return .error (.store error)

/-- A commit at the version that was read continues the history that was read. -/
theorem conclude_plays {run : Run} {record : RunRecord} {commit : Commit} {start store : Store}
    {again : Program (Except EngineError (Revised α))}
    (hfind : start.runs.find? ref = some record) (horigin : run.origin = record.run.origin)
    (since : Leads rules start store)
    (hwrites : (reviser run (.ofHistory record.events)).Writes commit)
    (writes : rules.Writes fires run record.events commit)
    (hagain : ∀ later, Leads rules store later → again.Plays rules fires (Leaves reviser ref) later) :
    (conclude ref record.events again commit).Plays rules fires (Leaves reviser ref) store := by
  apply Program.Plays.request
  intro world leads sane
  constructor
  · intro later hlater _ hlength
    obtain ⟨hevents, hrun⟩ :=
      Leads.events_of_length (since.trans leads) hfind horigin hlater hlength
    exact ⟨run, hrun, hevents ▸ writes⟩
  · intro answer after answered fresh
    cases answer with
    | ok version =>
        rcases World.answer_commit answered with ⟨error, herror, -⟩ | haccepted
        · cases herror
        · obtain ⟨-, now, later, -, -, hlater, -, hlength, hafter, -⟩ := haccepted
          obtain ⟨hevents, hrun⟩ :=
            Leads.events_of_length (since.trans leads) hfind horigin hlater hlength
          obtain ⟨last, hlast, outlives⟩ := RunRecord.outlives_of_commit now hlater fresh
          refine ⟨later, last, run, commit, now, hrun, hevents ▸ hwrites, ?_, outlives⟩
          rw [hafter]
          exact hlast
    | error error =>
        obtain ⟨hafter, now, hcommit⟩ := World.answer_commit_error answered
        subst after
        rcases Store.commit_eq_error hcommit with
          ⟨rfl, hnone⟩ | ⟨rfl, hclosed⟩ | ⟨found, rfl⟩ | ⟨workflowId, runId, rfl⟩
        · exact hnone
        · exact hclosed
        · exact hagain _ leads
        · trivial

/-- A revision plays by the rules if its reviser writes nothing but what may be written. -/
theorem attempt_plays (rounds : Nat) {store : Store}
    (writes : ∀ later record (run : Run) commit, Leads rules store later → Sane rules later →
      later.runs.find? ref = some record → run.origin = record.run.origin →
      (reviser run (.ofHistory record.events)).Writes commit →
      rules.Writes fires run record.events commit) :
    (attempt ref reviser rounds).Plays rules fires (Leaves reviser ref) store := by
  induction rounds generalizing store with
  | zero => trivial
  | succ rounds ih =>
      unfold attempt
      apply Program.Plays.getRun
      · exact fun later hnone => hnone
      · -- the run is looked up in one store and its history in a later one, where it lives on
        intro first known early _ hknown
        simp only
        split
        · rename_i hclosed
          exact ⟨known, hknown, hclosed⟩
        · apply Program.Plays.readEvents
          · exact fun later hnone => hnone
          · intro second record middle sane hfind
            obtain ⟨same, hsame, outlives⟩ := middle.outlives hknown
            rw [hfind, Option.some.injEq] at hsame
            subst hsame
            apply Program.Plays.bind
            apply outcome_plays
            · intro reason hkeep
              exact ⟨record, known.run, hfind, outlives.origin.symm, hkeep⟩
            · intro commit third hwrites late
              refine conclude_plays hfind outlives.origin.symm late hwrites ?_ ?_
              · exact writes second record known.run commit (early.trans middle) sane hfind
                  outlives.origin.symm hwrites
              · intro fourth last
                apply ih
                intro later other run commit leads
                exact writes later other run commit
                  ((((early.trans middle).trans late).trans last).trans leads)

end Revision

namespace Program

variable {α β : Type} {rules : Rules} {fires : Prop}

/-- A revision that writes nothing but updates plays by the rules. -/
theorem PlaysAnywhere.revise {reviser : Reviser α} (engine : Engine) (ref : RunRef)
    (writes : ∀ run history commit, (reviser run (.ofHistory history)).Writes commit →
      Update fires run history commit) :
    PlaysAnywhere rules fires (engine.revise ref reviser) := by
  intro store
  apply (Revision.attempt_plays engine.rounds ?_).weaken
  · exact fun _ _ _ => trivial
  · exact fun later record run commit _ _ _ _ hwrites => .inl (writes run _ commit hwrites)

theorem PlaysAnywhere.discard {program : Program α} (plays : PlaysAnywhere rules fires program) :
    PlaysAnywhere rules fires program.discard :=
  plays.bind fun _ => .pure ()

end Program

/-! ## Engines -/

namespace Engine

variable {rules : Rules} {fires : Prop} {engine : Engine}

theorem start_plays (new : NewRun) : (Engine.start new).PlaysAnywhere rules fires := by
  unfold start
  split
  · exact .pure _
  · apply Program.PlaysAnywhere.bind (.ask rfl)
    intro answer
    cases answer <;> exact .pure _

theorem signal_plays (ref : RunRef) (received : Signal) :
    (engine.signal ref received).PlaysAnywhere rules fires :=
  .revise engine ref fun _ _ _ => noticeCommit_writes rfl

theorem requestCancellation_plays (ref : RunRef) (reason : String) :
    (engine.requestCancellation ref reason).PlaysAnywhere rules fires :=
  .revise engine ref fun _ _ _ => noticeCommit_writes rfl

theorem terminate_plays (ref : RunRef) (reason : String) :
    (engine.terminate ref reason).PlaysAnywhere rules fires :=
  .revise engine ref fun _ _ _ => forceClose_writes rfl

theorem timeOut_plays (ref : RunRef) : (engine.timeOut ref).PlaysAnywhere rules fires :=
  .revise engine ref fun _ _ _ => forceClose_writes rfl

theorem query_plays (ref : RunRef) (name : String) (args : Json) :
    (engine.query ref name args).PlaysAnywhere rules fires := by
  unfold query
  apply Program.PlaysAnywhere.bind (.ask rfl)
  intro result
  cases result with
  | error error => exact .pure _
  | ok history =>
      simp only
      split
      · exact .crash _
      · exact .pure _
      · split <;> exact .pure _

end Engine

/-! ## Decisions -/

namespace Decision

variable {rules : Rules} {fires : Prop}

theorem nextRun_plays (run : Run) (failure : Option Failure) (now : Instant) :
    (nextRun run failure now).PlaysAnywhere rules fires := by
  unfold nextRun
  split
  · exact .pure _
  · split
    · apply Program.PlaysAnywhere.bind (.ask rfl)
      intro runId
      exact .pure _
    · exact .crash _

theorem startChild_plays (run : Run) (draft : Draft) (workflowId workflowType : String)
    (input : Json) (taskQueue : Option String) (options : WorkflowOptions) :
    (startChild run draft workflowId workflowType input taskQueue options).PlaysAnywhere rules
      fires := by
  have hresolve : ∀ draft running, (resolveChild run draft workflowId workflowType input taskQueue
      options running).PlaysAnywhere rules fires := by
    intro draft running
    unfold resolveChild
    split
    · exact .pure _
    · exact .pure _
    · apply Program.PlaysAnywhere.bind (.ask rfl)
      intro runId
      exact .pure _
  rcases startChild_cases run draft workflowId workflowType input taskQueue options with
    ⟨failure, hrejected⟩ | hrepeated | ⟨-, hasked⟩
  · rw [hrejected]
    exact .pure _
  · rw [hrepeated]
    exact hresolve _ _
  · rw [hasked]
    apply Program.PlaysAnywhere.bind
    · apply Program.PlaysAnywhere.bind (.ask rfl)
      intro answer
      split <;> exact .pure _
    · exact hresolve _

theorem addCommand_plays (run : Run) (ledger : Ledger) (now : Instant) (draft : Draft)
    (command : Command) : (addCommand run ledger now draft command).PlaysAnywhere rules fires := by
  cases command with
  | startChild workflowId workflowType input taskQueue options =>
      exact startChild_plays run draft workflowId workflowType input taskQueue options
  | complete result => exact (nextRun_plays run none now).bind fun _ => .pure _
  | fail failure => exact (nextRun_plays run (some failure) now).bind fun _ => .pure _
  | _ => exact .pure _

theorem addCommands_plays (run : Run) (ledger : Ledger) (now : Instant) (draft : Draft)
    (commands : List Command) :
    (addCommands run ledger now draft commands).PlaysAnywhere rules fires := by
  induction commands generalizing draft with
  | nil => exact .pure _
  | cons command rest ih =>
      unfold addCommands
      apply (addCommand_plays run ledger now draft command).bind
      intro result
      cases result with
      | error error => exact .pure _
      | ok draft =>
          simp only
          split
          · exact .pure _
          · exact ih draft

/-- To build a decision is to look and to draw ids, and changes nothing. -/
theorem build_plays (run : Run) (ledger : Ledger) (commands : List Command) (now : Instant) :
    (build run ledger commands now).PlaysAnywhere rules fires := by
  apply (addCommands_plays run ledger now .empty commands).bind
  intro result
  cases result <;> exact .pure _

end Decision

/-! ## Workflow tasks -/

/-- Whoever looks after the run need not look again: there is nothing to decide, or a workflow task
waits. -/
def Rules.Served (rules : Rules) (ref : RunRef) (store : Store) : Prop :=
  ∀ bound, rules.Attended store ref bound

namespace Rules.Served

variable {rules : Rules} {ref : RunRef} {store : Store} {record : RunRecord}

theorem of_closed (hfind : store.runs.find? ref = some record) (hclosed : record.isClosed = true) :
    rules.Served ref store := by
  intro bound other hother hopen
  rw [hfind, Option.some.injEq] at hother
  rw [← hother, hclosed] at hopen
  cases hopen

theorem of_settled (hfind : store.runs.find? ref = some record)
    (hsettled : rules.settled ref record.events) : rules.Served ref store := by
  intro bound other hother _
  rw [hfind, Option.some.injEq] at hother
  exact .inl (hother ▸ hsettled)

theorem of_awaits (awaits : store.tasks.Awaits ref) : rules.Served ref store := by
  intro bound record _ _
  obtain ⟨slot, hslot, hpending⟩ := awaits
  simp only [TaskSlot.isPending, Bool.and_eq_true, Option.isNone_iff_eq_none] at hpending
  refine .inr ⟨slot, hslot, hpending.2, ?_⟩
  intro token htoken
  rw [hpending.1] at htoken
  cases htoken

end Rules.Served

namespace Engine

variable {rules : Rules} {fires : Prop} {engine : Engine} {ref : RunRef}

/-- What the store shows of a workflow task that has just returned. -/
def Leaves (rules : Rules) (ref : RunRef) : Except EngineError TaskResult → Store → Prop
  | .ok _, store => rules.Served ref store
  | .error _, _ => True

theorem failInvalidInput_plays (reason : String) (store : Store) :
    (engine.failInvalidInput ref reason).Plays rules fires (Leaves rules ref) store := by
  unfold failInvalidInput revise
  apply Program.Plays.bind
  apply (Revision.attempt_plays engine.rounds ?_).weaken
  · intro result later hleaves
    cases result with
    | ok revised =>
        cases revised with
        | kept reason =>
            obtain ⟨record, run, -, -, hkept⟩ := hleaves
            cases hkept
        | written version =>
            obtain ⟨before, last, run, commit, now, -, hwrites, hfind, outlives⟩ := hleaves
            cases hwrites
            exact Rules.Served.of_closed hfind
              (outlives.closed (RunRecord.isClosed_revise_some before rfl rfl now))
    | error error =>
        cases error with
        | runClosed closed =>
            obtain ⟨record, hfind, hclosed⟩ := hleaves
            exact Rules.Served.of_closed hfind hclosed
        | _ => trivial
  · exact fun later record run commit _ _ _ _ hwrites => .inl (forceClose_writes rfl hwrites)

/-- A decision closes its run, settles it, or wakes it again. -/
theorem served_of_decided (lawful : rules.Lawful) (decides : rules.decides engine) {store : Store}
    {record : RunRecord} {run : Run} {commit : Commit} (now : Instant)
    (decided : engine.Decided ref run record.events commit)
    (hfind : store.runs.find? ref = some record) (keeps : rules.keeps record)
    (begins : commit.BeginsNew store.runs) :
    rules.Served ref (store.apply ref commit now).wake := by
  have href := RunTable.ref_of_find? hfind
  obtain ⟨built, provisions⟩ := decided.provisions
  obtain ⟨wakes, htasks, hwakes⟩ := provisions.tasks
  cases hclosing : commit.closing with
  | some closing =>
      obtain ⟨later, hlater, outlives⟩ := RunRecord.outlives_of_commit now hfind begins
      refine Rules.Served.of_closed hlater (outlives.closed ?_)
      have hlast := decided.batch.1.closing
      rw [hclosing] at hlast
      obtain ⟨event, -, hevent⟩ := Option.bind_eq_some_iff.1 hlast.symm
      exact RunRecord.isClosed_revise_some record hclosing (Event.isClosed_of_closing? hevent) now
  | none =>
      rcases hwakes with hone | ⟨-, haccepted⟩
      · apply Rules.Served.of_awaits
        have hmem : run.workflowTask ∈ commit.tasks := by simp [htasks, hone]
        exact Store.awaits_apply hmem (by simp [Run.workflowTask, Work.isWorkflowOf, decided.1])
          (.inl hclosing) store now
      · obtain ⟨later, hlater, hevents⟩ := RunTable.events_applied_exactly now hfind begins.1
          begins.2 decided.batch.1 decided.silent
        refine @Rules.Served.of_settled rules ref _ later ?_ ?_
        · rw [Store.wake_runs, Store.apply_runs]
          exact hlater
        · rw [hevents, ← href]
          exact lawful.decided engine record run commit decides keeps (href ▸ decided) haccepted now
            _

theorem commitDecision_plays (lawful : rules.Lawful) (decides : rules.decides engine)
    {store : Store} {record : RunRecord} {run : Run} {outcome : ReplayOutcome}
    {again : Program (Except EngineError TaskResult)}
    (hfind : store.runs.find? ref = some record) (horigin : run.origin = record.run.origin)
    (hreplay : replay engine.limits.replayLimit engine.registry ref record.events = .ok outcome)
    (hopen : outcome.closed = false) (hsome : outcome.newCommands ≠ [])
    (hagain : ∀ later, Leads rules store later → again.Plays rules fires (Leaves rules ref) later) :
    (commitDecision run record.events outcome.newCommands again).Plays rules fires (Leaves rules ref)
      store := by
  have href : run.ref = ref := (Run.ref_eq_of_origin horigin).trans (RunTable.ref_of_find? hfind)
  apply Program.Plays.ask rfl
  intro now first early
  apply Program.Plays.bind
  apply ((Decision.build_plays run _ _ now first).yields.since early).weaken
  intro result second hresult
  obtain ⟨⟨-, hyields⟩, since⟩ := hresult
  cases result with
  | error error => trivial
  | ok commit =>
      have decided : engine.Decided ref run record.events commit :=
        ⟨href, outcome, now, hreplay, hopen, hsome, hyields⟩
      subst href
      apply Program.Plays.request
      intro world leads sane
      constructor
      · intro later hlater _ hlength
        obtain ⟨hevents, hrun⟩ :=
          Leads.events_of_length (since.trans leads) hfind horigin hlater hlength
        exact ⟨run, hrun, .inr ⟨engine, decides, hevents ▸ decided⟩⟩
      · intro answer after answered fresh
        cases answer with
        | ok version =>
            rcases World.answer_commit answered with ⟨error, herror, -⟩ | haccepted
            · cases herror
            · obtain ⟨-, time, later, -, -, hlater, -, hlength, hafter, -⟩ := haccepted
              obtain ⟨hevents, -⟩ :=
                Leads.events_of_length (since.trans leads) hfind horigin hlater hlength
              show rules.Served run.ref after.store
              rw [hafter]
              exact served_of_decided lawful decides time (hevents ▸ decided) hlater
                (sane.keeps run.ref later hlater) fresh
        | error error =>
            obtain ⟨hafter, time, hcommit⟩ := World.answer_commit_error answered
            subst after
            rcases Store.commit_eq_error hcommit with
              ⟨rfl, hnone⟩ | ⟨rfl, last, hlast, hclosed⟩ | ⟨found, rfl⟩ | ⟨workflowId, runId, rfl⟩
            · trivial
            · exact Rules.Served.of_closed hlast hclosed
            · exact hagain _ (since.trans leads)
            · exact hagain _ (since.trans leads)

theorem decide_plays (lawful : rules.Lawful) (decides : rules.decides engine) {store : Store}
    {record : RunRecord} {run : Run} {again : Program (Except EngineError TaskResult)}
    (sane : Sane rules store) (hfind : store.runs.find? ref = some record)
    (horigin : run.origin = record.run.origin)
    (hagain : ∀ later, Leads rules store later → again.Plays rules fires (Leaves rules ref) later) :
    (engine.decide run ref record.events again).Plays rules fires (Leaves rules ref) store := by
  have href := RunTable.ref_of_find? hfind
  have hsettled : ∀ outcome,
      replay engine.limits.replayLimit engine.registry ref record.events = .ok outcome →
      outcome.closed = true ∨ outcome.newCommands = [] → rules.Served ref store := by
    intro outcome hreplay hidle
    apply Rules.Served.of_settled hfind
    rw [← href]
    exact lawful.idle engine record outcome decides (sane.keeps ref record hfind) (href ▸ hreplay)
      hidle
  unfold decide
  split
  · trivial
  · exact failInvalidInput_plays _ store
  · trivial
  · rename_i outcome hreplay
    split
    · rename_i hclosed
      exact hsettled outcome hreplay (.inl hclosed)
    · rename_i hopen
      split
      · rename_i hnone
        exact hsettled outcome hreplay (.inr (by simpa using hnone))
      · rename_i hsome
        exact commitDecision_plays lawful decides hfind horigin hreplay (by simpa using hopen)
          (by simpa using hsome) hagain

/-- A workflow task that returns well leaves nothing to decide, or another workflow task. -/
theorem advance_plays (lawful : rules.Lawful) (decides : rules.decides engine) (rounds : Nat)
    (store : Store) : (engine.advance ref rounds).Plays rules fires (Leaves rules ref) store := by
  induction rounds generalizing store with
  | zero => trivial
  | succ rounds ih =>
      unfold advance
      apply Program.Plays.getRun
      · exact fun later hnone => trivial
      · intro first known early _ hknown
        simp only
        split
        · rename_i hclosed
          exact Rules.Served.of_closed hknown hclosed
        · apply Program.Plays.readEvents
          · exact fun later hnone => trivial
          · intro second record middle sane hfind
            obtain ⟨same, hsame, outlives⟩ := middle.outlives hknown
            rw [hfind, Option.some.injEq] at hsame
            subst hsame
            simp only
            split
            · trivial
            · exact decide_plays lawful decides sane hfind outlives.origin.symm fun later _ => ih later

theorem processTask_plays (lawful : rules.Lawful) (decides : rules.decides engine) (store : Store) :
    (engine.processTask ref).Plays rules fires (Leaves rules ref) store :=
  advance_plays lawful decides engine.rounds store

end Engine

end Chronicle
