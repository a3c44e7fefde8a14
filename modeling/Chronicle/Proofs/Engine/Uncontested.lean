import Chronicle.Proofs.Engine.Redelivery
import Chronicle.Proofs.Engine.Succession
import Chronicle.Proofs.Program.Bystanders

/-!
# Uncontested decisions

Whether a child may start is asked twice: when the decision is built, and by the store when it is
committed.  While nobody else writes, both say the same, so that the first round of a workflow task
is its last one.
-/

namespace Chronicle

open Relation (ReflTransGen)

/-! ## The store's rule -/

namespace RunTable

variable {table : RunTable} {new : NewRun} {closing : Option RunRef}

/-- Nothing is in the way of a run whose workflow id has no open current run. -/
theorem free_of_currentRun {current : Except StoreError Run}
    (h : table.currentRun new.ref.workflowId = current)
    (hrests : (∃ run, current = .ok run ∧ run.status.isClosed = true) ∨
      ∃ workflowId, current = .error (.workflowNotFound workflowId)) :
    table.checkStart new closing = .ok () := by
  subst h
  unfold currentRun get at hrests
  unfold checkStart
  cases hcurrent : table.currentRef? new.ref.workflowId with
  | none => rfl
  | some ref =>
      cases hfind : table.find? ref with
      | none => simp [hfind]
      | some record =>
          rcases hrests with ⟨run, hrun, hclosed⟩ | ⟨workflowId, hmissing⟩
          · simp only [hcurrent, hfind, Except.map, Except.ok.injEq] at hrun
            subst hrun
            simp [hfind, RunRecord.isClosed, hclosed]
          · simp [hcurrent, hfind, Except.map] at hmissing

/-- A run that closes makes room for the one that continues it. -/
theorem Sole.free_of_closing (sole : table.Sole) {ref : RunRef} {record : RunRecord}
    (hfind : table.find? ref = some record) (hopen : record.isClosed = false)
    (hsame : new.ref.workflowId = ref.workflowId) : table.checkStart new (some ref) = .ok () := by
  have hcurrent := sole ref record hfind hopen
  unfold checkStart
  rw [hsame, hcurrent]
  simp [hfind]

end RunTable

namespace Store

theorem checkStarts_of_free {store : Store} {closing : Option RunRef} {newRuns : List NewRun}
    (free : ∀ new ∈ newRuns, store.runs.checkStart new closing = .ok ()) :
    store.checkStarts closing newRuns = .ok () := by
  induction newRuns with
  | nil => rfl
  | cons new rest ih =>
      unfold checkStarts
      rw [free new List.mem_cons_self]
      exact ih fun other hother => free other (List.mem_cons_of_mem _ hother)

/-- A commit to an open run at its version is accepted, if the runs that it begins may start. -/
theorem commit_of_free {store : Store} {ref : RunRef} {record : RunRecord} {commit : Commit}
    (hfind : store.runs.find? ref = some record) (hopen : record.isClosed = false)
    (free : ∀ new ∈ commit.newRuns,
      store.runs.checkStart new (commit.closing.map fun _ => ref) = .ok ()) (now : Instant) :
    ∃ version, store.commit ref record.events.length commit now =
      .ok ((store.apply ref commit now).wake, version) := by
  unfold Store.commit
  rw [RunTable.get, hfind, checkStarts_of_free free]
  simp [hopen, RunRecord.version]

end Store

theorem World.answer_commit_of_free {world : World} {now : Instant} {ref : RunRef}
    {record : RunRecord} {commit : Commit} (hnow : world.now = some now)
    (hfind : world.store.runs.find? ref = some record) (hopen : record.isClosed = false)
    (free : ∀ new ∈ commit.newRuns,
      world.store.runs.checkStart new (commit.closing.map fun _ => ref) = .ok ()) :
    ∃ version, World.answer (.commit ref record.events.length commit) world =
      (.ok (.ok version), { world with store := (world.store.apply ref commit now).wake }) := by
  obtain ⟨version, hcommit⟩ := Store.commit_of_free hfind hopen free now
  refine ⟨version, ?_⟩
  simp only [World.answer, World.timed, hnow, World.timeless, World.update, hcommit]

/-! ## The builder's rule -/

namespace Decision

variable {run : Run} {ledger : Ledger} {now : Instant} {table : RunTable}
  {others : Nat → World → World} {stops : Crash → Prop}

/-- The failure is to be retried, by an attempt whose number does not fit into a word. -/
def OutOfAttempts (run : Run) (commands : List Command) : Prop :=
  attemptLimit ≤ run.attempt + 1 ∧ ∃ failure policy delay, .fail failure ∈ commands ∧
    run.options.retryPolicy = some policy ∧
    policy.decide run.attempt failure.retryable failure.code = .retry delay

/-- The new runs of a draft may start, whether the run closes or not. -/
def Draft.Free (table : RunTable) (draft : Draft) : Prop :=
  ∀ new ∈ draft.commit.newRuns, ∀ closing, table.checkStart new closing = .ok ()

/-- The new runs of a commit may start. -/
def Startable (table : RunTable) (ref : RunRef) (commit : Commit) : Prop :=
  ∀ new ∈ commit.newRuns, table.checkStart new (commit.closing.map fun _ => ref) = .ok ()

theorem attempt_of_plan {failure : Option Failure} {attempt : Nat} {delay : Span}
    (h : continuationPlan? run failure now = some (attempt, delay)) :
    attempt = 1 ∨ attempt = run.attempt + 1 ∧ ∃ reason policy, failure = some reason ∧
      run.options.retryPolicy = some policy ∧
      policy.decide run.attempt reason.retryable reason.code = .retry delay := by
  unfold continuationPlan? at h
  simp only at h
  split at h
  · rename_i plan hretried
    cases h
    split at hretried
    · rename_i reason policy hpolicy
      split at hretried
      · rename_i retryDelay hdecide
        simp only [Option.some.injEq, Prod.mk.injEq] at hretried
        obtain ⟨rfl, rfl⟩ := hretried
        exact .inr ⟨rfl, reason, policy, rfl, hpolicy, hdecide⟩
      · cases hretried
    · cases hretried
  · split at h
    · obtain ⟨fireAt, -, hplan⟩ := Option.map_eq_some_iff.1 h
      exact .inl (Prod.mk.inj hplan).1.symm
    · cases h

/-- A run that continues another one has its workflow id. -/
theorem nextRun_comes (bystanders : World.Bystanders others) {failure : Option Failure}
    (hstops : ∀ reason policy delay, failure = some reason →
      run.options.retryPolicy = some policy →
      policy.decide run.attempt reason.retryable reason.code = .retry delay →
      attemptLimit ≤ run.attempt + 1 → stops .overflow) :
    (nextRun run failure now).Comes (World.among others) (World.Shows table) stops
      fun next => ∀ new ∈ next, new.ref.workflowId = run.ref.workflowId := by
  unfold nextRun
  split
  · exact .pure fun new hnew => nomatch hnew
  · rename_i attempt delay hplan
    split
    · apply World.comes_inquiry bystanders rfl
      intro runId _
      refine .pure fun new hnew => ?_
      cases hnew
      rfl
    · rename_i hlimit
      rcases attempt_of_plan hplan with rfl | ⟨rfl, reason, policy, hfailure, hpolicy, hdecide⟩
      · exact absurd (by decide) hlimit
      · exact .crash (hstops reason policy delay hfailure hpolicy hdecide (Nat.not_lt.1 hlimit))

/-- Where the builder finds no open run, the store finds none. -/
theorem isRunning_comes (bystanders : World.Bystanders others) (chained : table.Chained)
    (workflowId : String) :
    (isRunning workflowId).Comes (World.among others) (World.Shows table) stops
      fun result => result = .ok true ∨ result = .ok false ∧
        ∀ new : NewRun, new.ref.workflowId = workflowId → ∀ closing,
          table.checkStart new closing = .ok () := by
  apply World.comes_inquiry bystanders rfl
  intro current hcurrent
  have hread : table.currentRun workflowId = current := Eq.symm hcurrent
  have hknown := chained.currentRun workflowId
  rw [hread] at hknown
  cases hlast : (table.runsOf workflowId).getLast? with
  | none =>
      rw [hlast] at hknown
      subst hknown
      refine .pure (.inr ⟨rfl, ?_⟩)
      rintro new rfl closing
      exact RunTable.free_of_currentRun hread (.inr ⟨_, rfl⟩)
  | some last =>
      rw [hlast] at hknown
      subst hknown
      cases hclosed : last.status.isClosed with
      | false =>
          refine .pure (.inl ?_)
          rw [hclosed]
          rfl
      | true =>
          refine .pure (.inr ⟨by rw [hclosed]; rfl, ?_⟩)
          rintro new rfl closing
          exact RunTable.free_of_currentRun hread (.inl ⟨last, rfl, hclosed⟩)

/-- A child is added to the draft only if it may start. -/
theorem startChild_comes (bystanders : World.Bystanders others) (chained : table.Chained)
    {draft : Draft} (free : draft.Free table) (workflowId workflowType : String) (input : Json)
    (taskQueue : Option String) (options : WorkflowOptions) :
    (startChild run draft workflowId workflowType input taskQueue options).Comes
      (World.among others) (World.Shows table) stops
      fun result => ∃ next, result = .ok next ∧ next.Free table := by
  rcases startChild_cases run draft workflowId workflowType input taskQueue options with
    ⟨failure, hrejected⟩ | hrepeated | ⟨-, hasked⟩
  · rw [hrejected]
    exact .pure ⟨_, rfl, free⟩
  · rw [hrepeated]
    exact .pure ⟨_, rfl, free⟩
  · rw [hasked]
    apply (isRunning_comes bystanders chained workflowId).bind
    rintro running (rfl | ⟨rfl, hfree⟩)
    · exact .pure ⟨_, rfl, free⟩
    · apply World.comes_inquiry bystanders rfl
      intro runId _
      refine .pure ⟨_, rfl, fun new hnew closing => ?_⟩
      rcases List.mem_append.1 hnew with hold | hlast
      · exact free new hold closing
      · rw [List.mem_singleton.1 hlast]
        exact hfree _ rfl closing

/-- What a command leaves is a draft whose new runs may start. -/
def Adds (table : RunTable) (ref : RunRef) (result : Except EngineError Draft) : Prop :=
  ∃ next, result = .ok next ∧ (next.commit.closing = none → next.Free table) ∧
    Startable table ref next.commit

theorem Draft.Free.adds {next : Draft} (free : next.Free table) (ref : RunRef) :
    Adds table ref (.ok next) :=
  ⟨next, rfl, fun _ => free, fun new hnew => free new hnew _⟩

theorem Draft.Free.adds_close {draft : Draft} (free : draft.Free table) {event : Event}
    {closing : Closing} {next : Option NewRun}
    (hnext : ∀ new ∈ next, table.checkStart new (some run.ref) = .ok ()) :
    Adds table run.ref (.ok (closeWith run ledger draft event closing next)) := by
  refine ⟨_, rfl, fun hopen => absurd hopen (Option.some_ne_none closing), fun new hnew => ?_⟩
  rcases List.mem_append.1 hnew with hchild | hcontinues
  · exact free new hchild _
  · exact hnext new (Option.mem_toList.1 hcontinues)

theorem addCommand_comes (bystanders : World.Bystanders others) (chained : table.Chained)
    (hcontinues : ∀ new : NewRun, new.ref.workflowId = run.ref.workflowId →
      table.checkStart new (some run.ref) = .ok ())
    {draft : Draft} (free : draft.Free table) {commands : List Command} {command : Command}
    (hmem : command ∈ commands) (hstops : OutOfAttempts run commands → stops .overflow) :
    (addCommand run ledger now draft command).Comes (World.among others) (World.Shows table) stops
      (Adds table run.ref) := by
  cases command with
  | startChild workflowId workflowType input taskQueue options =>
      apply (startChild_comes bystanders chained free workflowId workflowType input taskQueue
        options).weaken
      rintro result ⟨next, rfl, hnext⟩
      exact hnext.adds run.ref
  | complete result =>
      have hcompleted : ∀ (reason : Failure) (policy : RetryPolicy) (delay : Span),
          none = some reason → run.options.retryPolicy = some policy →
          policy.decide run.attempt reason.retryable reason.code = .retry delay →
          attemptLimit ≤ run.attempt + 1 → stops .overflow :=
        fun reason _ _ hnone => absurd hnone (Option.some_ne_none reason).symm
      apply (nextRun_comes bystanders hcompleted).bind
      intro next hnext
      exact .pure (free.adds_close fun new hnew => hcontinues new (hnext new hnew))
  | fail failure =>
      have hoverflow : ∀ reason policy delay, some failure = some reason →
          run.options.retryPolicy = some policy →
          policy.decide run.attempt reason.retryable reason.code = .retry delay →
          attemptLimit ≤ run.attempt + 1 → stops .overflow := by
        rintro reason policy delay ⟨⟩ hpolicy hdecide hlimit
        exact hstops ⟨hlimit, failure, policy, delay, hmem, hpolicy, hdecide⟩
      apply (nextRun_comes bystanders hoverflow).bind
      intro next hnext
      exact .pure (free.adds_close fun new hnew => hcontinues new (hnext new hnew))
  | cancel reason => exact .pure (free.adds_close fun new hnew => nomatch hnew)
  | _ => exact .pure ⟨_, rfl, fun _ => free, fun new hnew => free new hnew _⟩

theorem addCommands_comes (bystanders : World.Bystanders others) (chained : table.Chained)
    (hcontinues : ∀ new : NewRun, new.ref.workflowId = run.ref.workflowId →
      table.checkStart new (some run.ref) = .ok ())
    {draft : Draft} (free : draft.Free table) {commands rest : List Command}
    (hrest : ∀ command ∈ rest, command ∈ commands)
    (hstops : OutOfAttempts run commands → stops .overflow) :
    (addCommands run ledger now draft rest).Comes (World.among others) (World.Shows table) stops
      (Adds table run.ref) := by
  induction rest generalizing draft with
  | nil => exact .pure (free.adds run.ref)
  | cons command rest ih =>
      unfold addCommands
      apply (addCommand_comes bystanders chained hcontinues free
        (hrest command List.mem_cons_self) hstops).bind
      rintro result ⟨next, rfl, hopen, hstart⟩
      cases hclosing : next.commit.closing with
      | some closing =>
          simp only [hclosing, Option.isSome_some, if_true]
          exact .pure ⟨next, rfl, hopen, hstart⟩
      | none =>
          simp only [hclosing, Option.isSome_none, Bool.false_eq_true, if_false]
          exact ih (hopen hclosing) fun other hother => hrest other (List.mem_cons_of_mem _ hother)

theorem finish_startable (run : Run) {draft : Draft} {ref : RunRef}
    (h : Startable table ref draft.commit) : Startable table ref (finish run draft) := by
  unfold finish
  split <;> exact h

/-- The store would let all runs start that a decision begins. -/
theorem build_comes (bystanders : World.Bystanders others) (chained : table.Chained)
    (hcontinues : ∀ new : NewRun, new.ref.workflowId = run.ref.workflowId →
      table.checkStart new (some run.ref) = .ok ())
    {commands : List Command} (hstops : OutOfAttempts run commands → stops .overflow) :
    (build run ledger commands now).Comes (World.among others) (World.Shows table) stops
      fun result => ∃ commit, result = .ok commit ∧ Startable table run.ref commit := by
  have free : Draft.empty.Free table := fun new hnew => nomatch hnew
  apply (addCommands_comes bystanders chained hcontinues free (fun _ hmem => hmem) hstops).bind
  rintro result ⟨draft, rfl, -, hstart⟩
  exact .pure ⟨finish run draft, rfl, finish_startable run hstart⟩

end Decision

/-! ## Workflow tasks -/

namespace Engine

variable {engine : Engine} {ref : RunRef} {record : RunRecord} {table : RunTable}
  {others : Nat → World → World}

/-- How a workflow task ends that nobody disturbs. -/
inductive Settles (engine : Engine) (ref : RunRef) (record : RunRecord) (table : RunTable) :
    Except Crash (Except EngineError TaskResult) → RunTable → Prop where
  | idle (nothing : engine.IsIdle ref record.events) :
      Settles engine ref record table (.ok (.ok .idle)) table
  | decided {commit : Commit} (now : Instant)
      (decided : engine.Decided ref record.run record.events commit) :
      Settles engine ref record table (.ok (.ok (.ofCommit commit))) (table.applied ref commit now)
  | overflown {outcome : ReplayOutcome}
      (replayed : replay engine.limits.replayLimit engine.registry ref record.events = .ok outcome)
      (exhausted : Decision.OutOfAttempts record.run outcome.newCommands) :
      Settles engine ref record table (.error .overflow) table

/-- A commit to an open run at its version is accepted, if the runs that it begins may start. -/
theorem among_commit {state : Nat × World} {now : Instant} {commit : Commit}
    (shows : World.Shows table (state.1, others state.1 state.2))
    (hnow : (others state.1 state.2).now = some now) (hfind : table.find? ref = some record)
    (hopen : record.isClosed = false) (startable : Decision.Startable table ref commit) :
    ∃ (version : Nat) (after : Nat × World),
      World.among others (.commit ref record.events.length commit) state =
        (.ok (.ok version), after) ∧ after.2.store.runs = table.applied ref commit now := by
  have hruns : (others state.1 state.2).store.runs = table := shows.runs
  obtain ⟨version, hanswer⟩ := World.answer_commit_of_free hnow (hruns ▸ hfind) hopen
    (hruns ▸ startable)
  refine ⟨version, _, congrArg (fun reply => (reply.1, state.1 + 1, reply.2)) hanswer, ?_⟩
  simp only [Store.wake_runs, Store.apply_runs, hruns]

/-- A decision that nobody disturbs is committed at the first try. -/
theorem commitDecision_settles (bystanders : World.Bystanders others) (chained : table.Chained)
    (sole : table.Sole) (hfind : table.find? ref = some record) (hopen : record.isClosed = false)
    {outcome : ReplayOutcome}
    (hreplay : replay engine.limits.replayLimit engine.registry ref record.events = .ok outcome)
    (hgoing : outcome.closed = false) (hsome : outcome.newCommands ≠ [])
    {again : Program (Except EngineError TaskResult)} {state : Nat × World}
    (shows : World.Shows table state) :
    let ended := (commitDecision record.run record.events outcome.newCommands again).run
      (World.among others) state
    Settles engine ref record table ended.1 ended.2.2.store.runs := by
  intro ended
  have href : record.run.ref = ref := RunTable.ref_of_find? hfind
  have hcontinues : ∀ new : NewRun, new.ref.workflowId = record.run.ref.workflowId →
      table.checkStart new (some record.run.ref) = .ok () := by
    intro new hsame
    rw [href] at hsame ⊢
    exact sole.free_of_closing hfind hopen hsame
  obtain ⟨now, clocked, hclock, -, hclocked⟩ :=
    @World.among_inquiry _ _ _ bystanders shows .now rfl
  have comes := (@Decision.build_comes _ (.ofHistory record.events) now _ _
    (fun cause => cause = .overflow ∧ Decision.OutOfAttempts record.run outcome.newCommands)
    bystanders chained hcontinues _ fun exhausted => ⟨rfl, exhausted⟩).yields
  obtain ⟨result, built, hbuild, hbuilt, hresult⟩ := comes clocked hclocked
  have hended : ended = _ := Program.run_request hclock
  rw [Program.run_bind_eq, hbuild] at hended
  cases result with
  | error cause =>
      obtain ⟨rfl, exhausted⟩ := hresult
      rw [hended, hbuilt.runs]
      exact .overflown hreplay exhausted
  | ok built =>
      obtain ⟨⟨commit, rfl, startable⟩, hyields⟩ := hresult
      have kept := bystanders.keep hbuilt
      obtain ⟨last, hlast⟩ := Option.ne_none_iff_exists'.1 kept.clock
      obtain ⟨version, after, haccepted, hruns⟩ := among_commit kept hlast hfind hopen
        (href ▸ startable)
      rw [href] at hended
      have hcommitted : ended = _ := hended.trans (Program.run_request haccepted)
      rw [hcommitted]
      show Settles engine ref record table _ after.2.store.runs
      rw [hruns]
      exact .decided last ⟨href, outcome, now, hreplay, hgoing, hsome, hyields⟩

theorem closed_of_replay {limit : Nat} {registry : WorkflowRegistry} {ref : RunRef}
    {history : List HistoryEvent} {outcome : ReplayOutcome}
    (h : replay limit registry ref history = .ok outcome) :
    outcome.closed = history.any fun event => event.event.isClose := by
  obtain ⟨workflowType, input, taskQueue, attempt, parent, options, workflow, start, replayer,
    -, -, -, happlied, houtcome⟩ := Replay.eq_ok_of_replay h
  subst houtcome
  obtain ⟨turns, accounted⟩ := Replay.accounted_of_applyAll happlied (Replay.lastEventId history)
  exact accounted.closed

/-- A workflow task that nobody disturbs is done after one round, if it can be replayed. -/
theorem advance_settles (bystanders : World.Bystanders others) (chained : table.Chained)
    (sole : table.Sole) (hfind : table.find? ref = some record) (hopen : record.isClosed = false)
    (wellFormed : record.WellFormed) (hsize : record.events.length ≤ engine.limits.maxEvents)
    {outcome : ReplayOutcome}
    (hreplay : replay engine.limits.replayLimit engine.registry ref record.events = .ok outcome)
    {state : Nat × World} (shows : World.Shows table state) (rounds : Nat) :
    let ended := (engine.advance ref (rounds + 1)).run (World.among others) state
    Settles engine ref record table ended.1 ended.2.2.store.runs := by
  intro ended
  have hget : table.get ref = .ok record := by rw [RunTable.get, hfind]
  obtain ⟨run, got, hrun, hread, hgot⟩ := @World.among_inquiry _ _ _ bystanders shows (.getRun ref) rfl
  obtain ⟨events, read, hevents, hhistory, hshown⟩ :=
    @World.among_inquiry _ _ _ bystanders hgot (.readEvents ref 0) rfl
  obtain rfl : run = .ok record.run := by simpa [World.Reads, hget, Except.map] using hread
  obtain rfl : events = .ok record.events := by simpa [World.Reads, hget, Except.map] using hhistory
  have hended : ended = (engine.decide record.run ref record.events (engine.advance ref rounds)).run
      (World.among others) read := by
    refine (Program.run_request hrun).trans ?_
    simp only [show record.run.status.isClosed = false from hopen, Bool.false_eq_true, if_false]
    refine (Program.run_request hevents).trans ?_
    simp only [Nat.not_lt.2 hsize, if_false]
  have hgoing : outcome.closed = false := by
    rw [closed_of_replay hreplay, List.any_eq_false]
    exact fun event hmem => Bool.eq_false_iff.1 (wellFormed.plain hopen event hmem)
  have hdecide : engine.decide record.run ref record.events (engine.advance ref rounds) =
      if outcome.newCommands.isEmpty then return .ok .idle
      else commitDecision record.run record.events outcome.newCommands (engine.advance ref rounds) := by
    unfold decide
    simp only [hreplay, hgoing, Bool.false_eq_true, if_false]
  rw [hended, hdecide]
  by_cases hsome : outcome.newCommands = []
  · rw [if_pos (List.isEmpty_iff.2 hsome)]
    show Settles engine ref record table (.ok (.ok .idle)) read.2.store.runs
    rw [hshown.runs]
    refine .idle ⟨fun other hother => ?_, fun reason hother => ?_⟩
    · rw [hreplay, Except.ok.injEq] at hother
      rw [← hother]
      exact hsome
    · rw [hreplay] at hother
      cases hother
  · rw [if_neg fun hempty => hsome (List.isEmpty_iff.1 hempty)]
    exact commitDecision_settles bystanders chained sole hfind hopen hreplay hgoing hsome hshown

end Engine

/-! ## Scenes -/

namespace ServingOperation

variable {workflow : WorkflowType} {start : World} {scene : Scene (ServingOperation workflow) Unit}

theorem tables_orderly (blank : start.IsBlank)
    (reaches : Scene.Reaches program (.opening start) scene) :
    scene.world.store.runs.Chained ∧ scene.world.store.runs.Sole ∧
      scene.world.store.runs.WellFormed := by
  have booked : Scene.Booked ServingOperation.operation
      (.opening start : Scene (ServingOperation workflow) Unit) fun _ => .nothing := .opening blank
  obtain ⟨turns, know, later⟩ := booked.turns reaches
  have opening : Scene.Follows charter (fun _ _ _ => True)
      (.opening start : Scene (ServingOperation workflow) Unit) fun _ => .nothing :=
    .opening blank.supplied
  have hempty : start.store.runs = .empty := blank
  have hsteps := opening.tables program_keeps (fun serving => serving.operation.charter_fits) reaches
  have hsole : (Scene.opening start : Scene (ServingOperation workflow) Unit).book.runs.Sole := by
    show start.store.runs.Sole
    rw [hempty]
    exact .empty
  refine ⟨?_, later.sole, ?_⟩
  · have hchained : (Scene.opening start : Scene (ServingOperation workflow) Unit).book.runs.Chained := by
      show start.store.runs.Chained
      rw [hempty]
      exact .empty
    exact hchained.orderlies (Book.orderlies turns hsole)
  · apply RunTable.WellFormed.steps _ (fun _ _ htidy => htidy) (fun _ hannounced => hannounced) hsteps
    rw [Scene.opening, hempty]
    exact .empty

/-- Where the workflow of an open run can be replayed and nobody else writes to runs, a workflow
task succeeds in its first round: the store accepts what the workflow decided, whatever children
and continuations that begins.  Only a retry whose number does not fit into a word stops it. -/
theorem decisions_areAccepted (hdeterministic : workflow.Deterministic)
    (hpanics : workflow.NeverPanics) (blank : start.IsBlank)
    (reaches : Scene.Reaches program (.opening start) scene) {engine : Engine}
    (hregistered : engine.registry.find? workflow.name = some workflow) {ref : RunRef}
    {record : RunRecord} (hfind : scene.world.store.runs.find? ref = some record)
    (hopen : record.isClosed = false) (hreadable : Replay.Readable workflow record.events)
    (hsize : record.events.length ≤ engine.limits.maxEvents)
    (hends : replay engine.limits.replayLimit engine.registry ref record.events ≠
      .error (.crash .endless))
    {others : Nat → World → World} (bystanders : World.Bystanders others)
    (hclock : scene.world.now ≠ none) (count rounds : Nat) :
    let ended := (engine.advance ref (rounds + 1)).run (World.among others) (count, scene.world)
    engine.Settles ref record scene.world.store.runs ended.1 ended.2.2.store.runs := by
  obtain ⟨chained, sole, wellFormed⟩ := tables_orderly blank reaches
  have agrees := (agrees_of_reaches hdeterministic hpanics blank reaches ref record hfind).replays
  rw [RunTable.ref_of_find? hfind] at agrees
  rcases agrees.undisputed hreadable engine.limits.replayLimit engine.registry hregistered with
    hendless | ⟨outcome, hreplay⟩
  · exact absurd hendless hends
  · exact Engine.advance_settles bystanders chained sole hfind hopen (wellFormed ref record hfind)
      hsize hreplay ⟨rfl, hclock⟩ rounds

theorem reactive_deterministic (name : String) (step : Stimulus → Step) :
    (Samples.reactive name step).Deterministic := by
  intro state context stimulus reaction replaying hreact
  exact ⟨reaction, hreact, rfl, rfl⟩

theorem reactive_neverPanics (name : String) (step : Stimulus → Step) :
    (Samples.reactive name step).NeverPanics where
  react := by
    intro state context stimulus panic h
    cases h
  acceptsSignal := by
    intro state name panic h
    cases h
  conditionHolds := by
    intro state conditionId panic h
    cases h

/-- Has a ward, and wants a second one of the same name, and one of its own name; and fails. -/
def guardian : WorkflowType :=
  Samples.reactive "guardian" fun
    | .started =>
        .ok [.startChild "ward" "bare" .null none .standard,
          .startChild "ward" "bare" .null none .standard,
          .startChild "orders" "bare" .null none .standard,
          .fail { Failure.application "too many wards" with retryable := true }]
    | stimulus => stimulus.defaultStep

def guardianEngine : Engine := ⟨⟨[guardian]⟩, .standard⟩

def guardianStart : ServingOperation guardian :=
  ⟨.start (.first Operation.sampleRun "guardian" "default" .null Samples.trialOptions),
    fun _ h => nomatch h⟩

/-- Time passes before every request. -/
def passing (_ : Nat) (world : World) : World :=
  { world with now := world.now.map fun now => now.after (.ofSeconds 1) }

theorem passing_bystanders : World.Bystanders passing where
  runs := fun _ _ => rfl
  clock := by
    intro number world hclock hnone
    exact hclock (Option.map_eq_none_iff.1 hnone)

/-- The ward and the next attempt of the guardian are begun, in the first round. -/
theorem guardian_isAccepted :
    ∃ (scene : Scene (ServingOperation guardian) Unit) (record : RunRecord),
      Scene.Reaches program (.opening Operation.blankWorld) scene ∧
      scene.world.store.runs.find? Operation.sampleRun = some record ∧
      let ended := (guardianEngine.advance Operation.sampleRun 1).run (World.among passing)
        (0, scene.world)
      ended.1 = .ok (.ok ⟨true, 4, 0⟩) ∧ ended.2.2.store.runs.size = 3 ∧
        guardianEngine.Settles Operation.sampleRun record scene.world.store.runs ended.1
          ended.2.2.store.runs := by
  have blank : Operation.blankWorld.IsBlank := rfl
  have entered : Scene.Reaches program (.opening Operation.blankWorld)
      ⟨Operation.blankWorld, [⟨_, program guardianStart⟩], []⟩ := .single (.enter _)
  have started := (entered.act 0 rfl rfl).act 0 rfl rfl
  refine ⟨_, _, started, rfl, rfl, rfl, ?_⟩
  exact decisions_areAccepted (reactive_deterministic _ _) (reactive_neverPanics _ _) blank started rfl
    rfl rfl ⟨.null, "default", 1, none, Samples.trialOptions, (), rfl, rfl⟩ (by decide) (by
      intro hends
      cases hends) passing_bystanders (by decide) 0 0

def trialEngine : Engine := ⟨⟨[Samples.trial]⟩, .standard⟩

/-- A trial whose attempts are used up. -/
def lastTrial : ServingOperation Samples.trial :=
  ⟨.start ⟨Operation.sampleRun, "trial", "default", .null, Decision.attemptLimit - 1, none,
    Samples.trialOptions, .zero⟩, fun _ h => nomatch h⟩

/-- The last attempt that can be counted fails, and the decision to try again is never made. -/
theorem lastAttempt_isNotRetried :
    Samples.trial.Deterministic ∧ Samples.trial.NeverPanics ∧
    ∃ (scene : Scene (ServingOperation Samples.trial) Unit) (record : RunRecord)
      (outcome : ReplayOutcome),
      Scene.Reaches program (.opening Operation.blankWorld) scene ∧
      trialEngine.registry.find? Samples.trial.name = some Samples.trial ∧
      scene.world.store.runs.find? Operation.sampleRun = some record ∧ record.isClosed = false ∧
      Replay.Readable Samples.trial record.events ∧
      record.events.length ≤ trialEngine.limits.maxEvents ∧
      replay trialEngine.limits.replayLimit trialEngine.registry Operation.sampleRun record.events =
        .ok outcome ∧ outcome.newCommands ≠ [] ∧
      (trialEngine.processTask Operation.sampleRun).run World.answer scene.world =
        (.error .overflow, scene.world) := by
  refine ⟨reactive_deterministic _ _, reactive_neverPanics _ _, ?_⟩
  have entered : Scene.Reaches program (.opening Operation.blankWorld)
      ⟨Operation.blankWorld, [⟨_, program lastTrial⟩], []⟩ := .single (.enter _)
  have started := (entered.act 0 rfl rfl).act 0 rfl rfl
  exact ⟨_, _, _, started, rfl, rfl, rfl,
    ⟨.null, "default", _, none, Samples.trialOptions, (), rfl, rfl⟩, by decide, rfl,
    List.cons_ne_nil _ _, rfl⟩

end ServingOperation

end Chronicle
