import Mathlib.Data.List.Forall2
import Chronicle.Proofs.Replay.Guard
import Chronicle.Proofs.Replay.Turns
import Chronicle.Samples.Workflows

/-!
# Accepted histories

What a history must be like for a replay to return: its commands are those that the calls
emitted, in their order, each of them recorded after the call that emitted it.
-/

namespace Chronicle

open scoped List

namespace Event

theorem isClose_of_key?_eq_none {event : Event} (h : event.key? = none) :
    event.isClose = event.isForcedClose := by
  cases event <;> simp_all [key?, isClose, isForcedClose]

theorem isClose_of_isProgress {event : Event} (h : event.isProgress = true) :
    event.isClose = false := by
  cases event <;> simp_all [isProgress, isClose]

end Event

namespace Replay

/-- The events up to the one that closes the run. -/
def upToClose : List HistoryEvent → List HistoryEvent
  | [] => []
  | event :: rest => if event.event.isClose then [event] else event :: upToClose rest

def recordedKeys (events : List HistoryEvent) : List CommandKey :=
  events.filterMap fun event => event.event.key?

def emittedKeys (calls : List HandlerCall) : List CommandKey :=
  (HandlerCall.emitted calls).filterMap Command.key?

/-- What the events after some calls record, and what they cause while some signals wait. -/
structure Trace (frame : ReplayFrame) (calls : List HandlerCall) (waiting : List Signal)
    (recorded : List Command) (events : List HistoryEvent) (turns : List (List HandlerCall))
    (commands : List Command) : Prop where
  caused : List.Forall₂ (Turn frame) events turns
  signals : ∀ place, deliveredSignals (turns.take place).flatten <+~
    waiting ++ receivedSignals (events.take place)
  keys : commands.map Command.key? = (recordedKeys events).map some
  earlier : ∀ place event, events[place]? = some event → event.event.key?.isSome = true →
    recorded ++ commands.take (recordedKeys (events.take (place + 1))).length <+:
      HandlerCall.emitted (calls ++ (turns.take place).flatten)

theorem recordedKeys_cons (event : HistoryEvent) (rest : List HistoryEvent) :
    recordedKeys (event :: rest) = recordedKeys [event] ++ recordedKeys rest := by
  unfold recordedKeys
  rw [← List.filterMap_append, List.singleton_append]

theorem receivedSignals_cons (event : HistoryEvent) (rest : List HistoryEvent) :
    receivedSignals (event :: rest) = receivedSignals [event] ++ receivedSignals rest := by
  unfold receivedSignals
  rw [← List.filterMap_append, List.singleton_append]

theorem Trace.nil (frame : ReplayFrame) (calls : List HandlerCall) (waiting : List Signal)
    (recorded : List Command) : Trace frame calls waiting recorded [] [] [] where
  caused := .nil
  signals := fun _ => by simp [deliveredSignals, List.nil_subperm]
  keys := rfl
  earlier := by simp

/-- A recorded command takes part in no call, and other events record nothing. -/
theorem Trace.cons {frame : ReplayFrame} {calls turn : List HandlerCall}
    {waiting remaining : List Signal} {recorded first commands : List Command}
    {event : HistoryEvent} {rest : List HistoryEvent} {turns : List (List HandlerCall)}
    (hturn : Turn frame event turn)
    (hsignals : deliveredSignals turn ++ remaining <+~ waiting ++ receivedSignals [event])
    (hkeys : first.map Command.key? = (recordedKeys [event]).map some)
    (hearlier : event.event.key?.isSome = true → recorded ++ first <+: HandlerCall.emitted calls)
    (trace : Trace frame (calls ++ turn) remaining (recorded ++ first) rest turns commands) :
    Trace frame calls waiting recorded (event :: rest) (turn :: turns) (first ++ commands) where
  caused := .cons hturn trace.caused
  signals := by
    intro place
    cases place with
    | zero => exact List.nil_subperm
    | succ place =>
        rw [List.take_succ_cons, List.take_succ_cons, List.flatten_cons, deliveredSignals_append,
          receivedSignals_cons, ← List.append_assoc]
        have hlater := (List.subperm_append_left (deliveredSignals turn)).2 (trace.signals place)
        rw [← List.append_assoc] at hlater
        exact hlater.trans ((List.subperm_append_right _).2 hsignals)
  keys := by
    rw [recordedKeys_cons, List.map_append, List.map_append, hkeys, trace.keys]
  earlier := by
    have hlength : first.length = (recordedKeys [event]).length := by
      simpa using congrArg List.length hkeys
    intro place later hget hkey
    cases place with
    | zero =>
        simp only [List.getElem?_cons_zero, Option.some.injEq] at hget
        subst hget
        have htake : (first ++ commands).take (recordedKeys [event]).length = first := by
          rw [← hlength, List.take_left']
          rfl
        simpa [htake] using hearlier hkey
    | succ place =>
        have hlater := trace.earlier place later (by simpa using hget) hkey
        rw [List.take_succ_cons, recordedKeys_cons, List.length_append, ← hlength,
          List.take_length_add_append, List.take_succ_cons, List.flatten_cons,
          ← List.append_assoc, ← List.append_assoc]
        exact hlater

end Replay

namespace Replayer

variable {workflow : WorkflowType}

theorem Accounts.noteRecorded {start : workflow.State} {recorded : List Command}
    {replayer : Replayer workflow} (accounts : Accounts start recorded replayer) (event : Event) :
    Accounts start recorded (replayer.noteRecorded event) := by
  apply accounts.same <;> simp

theorem Accounts.record {start : workflow.State} {recorded rest : List Command}
    {command : Command} {replayer : Replayer workflow}
    (accounts : Accounts start recorded replayer) (hpending : replayer.pending = command :: rest)
    (draining : Bool) :
    Accounts start (recorded ++ [command])
      { replayer with pending := rest, draining := draining } where
  lead := accounts.lead
  emitted := by
    have hemitted := accounts.emitted
    rw [hpending] at hemitted
    simpa using hemitted
  terminal := accounts.terminal
  waits := accounts.waits
  silent := accounts.silent

theorem Accounts.matchCommand {start : workflow.State} {recorded : List Command}
    {event : HistoryEvent} {found : CommandKey} {replayer result : Replayer workflow}
    (accounts : Accounts start recorded replayer)
    (h : replayer.matchCommand event found = .ok result) :
    ∃ command, command.key? = some found ∧ Accounts start (recorded ++ [command]) result ∧
      result.closed = (replayer.closed || event.event.isClose) ∧
      recorded ++ [command] <+: HandlerCall.emitted replayer.calls := by
  obtain ⟨command, rest, hpending, hkey, rfl⟩ := matchCommand_cases h
  refine ⟨command, hkey, (accounts.record hpending _).noteRecorded _, ?_, rest, ?_⟩
  · rw [noteRecorded_closed]
  · rw [accounts.emitted, hpending]
    simp

/-- One event: the record of a command is accounted for by earlier calls, any other event may
cause calls. -/
theorem Accounts.apply {start : workflow.State} {recorded : List Command} {limit : Nat}
    {frame : ReplayFrame} {event : HistoryEvent} {replayer result : Replayer workflow}
    (accounts : Accounts start recorded replayer) (hopen : replayer.closed = false)
    (h : replayer.apply limit frame event = .ok result) :
    ∃ commands, Accounts start (recorded ++ commands) result ∧
      result.closed = event.event.isClose ∧
      commands.map Command.key? = (Replay.recordedKeys [event]).map some ∧
      (event.event.key?.isSome = true →
        recorded ++ commands <+: HandlerCall.emitted replayer.calls) := by
  have hidle : event.event.key? = none → ∀ closed, Accounts start recorded result →
      result.closed = closed → closed = event.event.isForcedClose →
      ∃ commands, Accounts start (recorded ++ commands) result ∧
        result.closed = event.event.isClose ∧
        commands.map Command.key? = (Replay.recordedKeys [event]).map some ∧
        (event.event.key?.isSome = true →
          recorded ++ commands <+: HandlerCall.emitted replayer.calls) := by
    intro hkey closed hresult hclosed hforced
    refine ⟨[], by simpa using hresult, ?_, by simp [Replay.recordedKeys, hkey], by simp [hkey]⟩
    rw [Event.isClose_of_key?_eq_none hkey, hclosed, hforced]
  cases apply_cases h with
  | recorded found hkey hmatched =>
      obtain ⟨command, hcommand, hresult, hclosed, hinitial⟩ := accounts.matchCommand hmatched
      refine ⟨[command], hresult, ?_, ?_, fun _ => hinitial⟩
      · simpa [hopen] using hclosed
      · simp [Replay.recordedKeys, hkey, hcommand]
  | progress hkey hprogress hresult =>
      subst hresult
      refine hidle hkey false accounts hopen ?_
      rw [← Event.isClose_of_key?_eq_none hkey, Event.isClose_of_isProgress hprogress]
  | forced hkey hforced hresult =>
      subst hresult
      exact hidle hkey true (accounts.same rfl rfl rfl rfl rfl) rfl hforced.symm
  | perceived hkey hforced middle hperceived hsettled =>
      have kept := kept_accounts start recorded frame event
      obtain ⟨hclosed, hresult⟩ :=
        kept.settle (kept.perceive ⟨hopen, accounts⟩ hperceived) hsettled
      exact hidle hkey false hresult hclosed hforced.symm

theorem Accounts.applyAll {start : workflow.State} {recorded : List Command} {limit : Nat}
    {frame : ReplayFrame} {events : List HistoryEvent} {replayer result : Replayer workflow}
    (accounts : Accounts start recorded replayer) (hopen : replayer.closed = false)
    (h : applyAll limit frame replayer events = .ok result) :
    ∃ turns commands, Replay.Trace frame replayer.calls replayer.inbox recorded
        (Replay.upToClose events) turns commands ∧
      result.calls = replayer.calls ++ turns.flatten ∧
      Accounts start (recorded ++ commands) result ∧
      result.closed = events.any fun event => event.event.isClose := by
  induction events generalizing replayer recorded with
  | nil =>
      cases h
      refine ⟨[], [], .nil frame _ _ _, by simp, by simpa using accounts, ?_⟩
      simpa using hopen
  | cons event rest ih =>
      obtain ⟨next, happlied, hcases⟩ := applyAll_cons h
      obtain ⟨turn, hturn, hcalls, hsignals⟩ := apply_turn happlied
      obtain ⟨first, hnext, hclosed, hkeys, hearlier⟩ := accounts.apply hopen happlied
      unfold Replay.upToClose
      rw [hclosed] at hcases
      rcases hcases with ⟨hclose, rfl⟩ | ⟨hclose, h⟩
      · -- the replay looks at nothing behind the event that closes the run
        have hend : Replay.Trace frame (replayer.calls ++ turn) result.inbox
            (recorded ++ first) [] [] [] := .nil frame _ _ _
        have htrace := hend.cons hturn hsignals hkeys hearlier
        rw [List.append_nil] at htrace
        rw [hclose]
        refine ⟨[turn], first, by simpa using htrace, by simp [hcalls], hnext, ?_⟩
        simp [hclosed, hclose]
      · obtain ⟨turns, commands, trace, hresult, haccounts, hlast⟩ :=
          ih hnext (hclosed.trans hclose) h
        rw [hcalls] at trace
        rw [hclose]
        refine ⟨turn :: turns, first ++ commands, ?_, ?_, ?_, ?_⟩
        · simpa using trace.cons hturn hsignals hkeys hearlier
        · simp [hresult, hcalls]
        · simpa using haccounts
        · simp [hlast, hclose]

end Replayer

namespace Replay

theorem filterMap_key?_eq {commands : List Command} {keys : List CommandKey}
    (h : commands.map Command.key? = keys.map some) : commands.filterMap Command.key? = keys := by
  have hmap : commands.filterMap Command.key? = (commands.map Command.key?).filterMap id := by
    rw [List.filterMap_map]
    rfl
  rw [hmap, h, List.filterMap_map]
  exact List.filterMap_some

theorem recordedKeys_take (events : List HistoryEvent) (count : Nat) :
    recordedKeys (events.take count) =
      (recordedKeys events).take (recordedKeys (events.take count)).length := by
  have hinitial : recordedKeys (events.take count) <+: recordedKeys events :=
    (List.take_prefix count events).filterMap _
  exact List.prefix_iff_eq_take.1 hinitial

/-- The calls of a replay account for the history and for what the replay returns. -/
structure Accounted (frame : ReplayFrame) (history : List HistoryEvent) (outcome : ReplayOutcome)
    (start : outcome.workflow.State) (turns : List (List HandlerCall)) : Prop where
  lead : HandlerCall.Lead outcome.workflow start outcome.calls outcome.state
  /-- Each event up to the close causes a turn of calls. -/
  caused : List.Forall₂ (Turn frame) (upToClose history) turns
  calls : turns.flatten = outcome.calls
  /-- A signal is delivered after it was received, and no more often. -/
  signals : ∀ place, deliveredSignals (turns.take place).flatten <+~
    receivedSignals ((upToClose history).take place)
  recorded : recordedKeys (upToClose history) <+: emittedKeys outcome.calls
  /-- A command is emitted in a turn before the event that records it. -/
  earlier : ∀ place event, (upToClose history)[place]? = some event →
    event.event.key?.isSome = true →
    recordedKeys ((upToClose history).take (place + 1)) <+: emittedKeys (turns.take place).flatten
  /-- There is no call after those that emitted the end of the run. -/
  silent : ∀ calls, calls <+: outcome.calls → calls.length < outcome.calls.length →
    HandlerCall.ended calls = false
  closed : outcome.closed = history.any fun event => event.event.isClose
  news : outcome.newCommands = if outcome.closed then []
    else (HandlerCall.emitted outcome.calls).drop (recordedKeys (upToClose history)).length

theorem conclude_eq_ok {workflow : WorkflowType} {replayer : Replayer workflow} {lastEventId : Nat}
    {outcome : ReplayOutcome} (h : conclude replayer lastEventId = .ok outcome) :
    outcome = ⟨workflow, replayer.state, if replayer.closed then [] else replayer.pending,
      replayer.closed, lastEventId, replayer.calls⟩ := by
  unfold conclude at h
  split at h
  · cases h
  · cases h
    rfl

/-- A replay that returns has applied the whole history to the state that the workflow was created
with. -/
theorem eq_ok_of_replay {limit : Nat} {registry : WorkflowRegistry} {ref : RunRef}
    {history : List HistoryEvent} {outcome : ReplayOutcome}
    (h : replay limit registry ref history = .ok outcome) :
    ∃ workflowType input taskQueue attempt parent options workflow start replayer,
      history.head?.map HistoryEvent.event =
        some (.workflowStarted workflowType input taskQueue attempt parent options) ∧
      registry.find? workflowType = some workflow ∧ workflow.create input = .ok start ∧
      Replayer.applyAll limit ⟨ref, workflowType, attempt, horizon history⟩ (.initial start)
        history = .ok replayer ∧
      outcome = ⟨workflow, replayer.state, if replayer.closed then [] else replayer.pending,
        replayer.closed, lastEventId history, replayer.calls⟩ := by
  unfold replay at h
  split at h
  · rename_i workflowType input taskQueue attempt parent options hhead
    split at h
    · cases h
    · rename_i workflow hfind
      unfold Replay.run at h
      split at h
      · cases h
      · cases h
      · rename_i start hcreate
        split at h
        · cases h
        · rename_i replayer happlied
          exact ⟨workflowType, input, taskQueue, attempt, parent, options, workflow, start,
            replayer, hhead, hfind, hcreate, happlied, conclude_eq_ok h⟩
  · cases h

theorem accounted_of_applyAll {workflow : WorkflowType} {limit : Nat} {frame : ReplayFrame}
    {history : List HistoryEvent} {start : workflow.State} {replayer : Replayer workflow}
    (h : Replayer.applyAll limit frame (.initial start) history = .ok replayer)
    (lastEventId : Nat) :
    ∃ turns, Accounted frame history
      ⟨workflow, replayer.state, if replayer.closed then [] else replayer.pending, replayer.closed,
        lastEventId, replayer.calls⟩ start turns := by
  obtain ⟨turns, commands, trace, hcalls, accounts, hclosed⟩ :=
    (Replayer.Accounts.initial start).applyAll rfl h
  have hcalls' : replayer.calls = turns.flatten := by simpa [Replayer.initial] using hcalls
  have hemitted : HandlerCall.emitted replayer.calls = commands ++ replayer.pending := by
    simpa using accounts.emitted
  have hkeys : commands.filterMap Command.key? = recordedKeys (upToClose history) :=
    filterMap_key?_eq trace.keys
  have hlength : commands.length = (recordedKeys (upToClose history)).length := by
    simpa using congrArg List.length trace.keys
  refine ⟨turns, accounts.lead, trace.caused, hcalls'.symm, trace.signals, ?_, ?_,
    accounts.silent, hclosed, ?_⟩
  · show recordedKeys (upToClose history) <+: emittedKeys replayer.calls
    unfold emittedKeys
    rw [hemitted, List.filterMap_append, hkeys]
    exact List.prefix_append _ _
  · intro place event hget hkey
    have hearlier := (trace.earlier place event hget hkey).filterMap Command.key?
    rw [recordedKeys_take]
    have htake : (commands.take
        (recordedKeys ((upToClose history).take (place + 1))).length).filterMap Command.key? =
          (recordedKeys (upToClose history)).take
            (recordedKeys ((upToClose history).take (place + 1))).length := by
      apply filterMap_key?_eq
      rw [List.map_take, List.map_take, trace.keys]
    rw [← htake]
    simpa [Replayer.initial, emittedKeys] using hearlier
  · show (if replayer.closed then [] else replayer.pending) = _
    rw [hemitted, ← hlength, List.drop_left]

/-- The determinism guard: a replay that returns accounts for the whole history by the calls of
the workflow, and for the commands that it returns. -/
theorem replay_accounted {limit : Nat} {registry : WorkflowRegistry} {ref : RunRef}
    {history : List HistoryEvent} {outcome : ReplayOutcome}
    (h : replay limit registry ref history = .ok outcome) :
    ∃ workflowType input taskQueue attempt parent options start turns,
      history.head?.map HistoryEvent.event =
        some (.workflowStarted workflowType input taskQueue attempt parent options) ∧
      registry.find? workflowType = some outcome.workflow ∧
      outcome.workflow.create input = .ok start ∧
      Accounted ⟨ref, workflowType, attempt, horizon history⟩ history outcome start turns := by
  obtain ⟨workflowType, input, taskQueue, attempt, parent, options, workflow, start, replayer,
    hhead, hfind, hcreate, happlied, houtcome⟩ := eq_ok_of_replay h
  subst houtcome
  obtain ⟨turns, haccounted⟩ := accounted_of_applyAll happlied (lastEventId history)
  exact ⟨workflowType, input, taskQueue, attempt, parent, options, start, turns, hhead, hfind,
    hcreate, haccounted⟩

/-- Every command that a replay wants recorded has a key, and at most the last one is terminal. -/
theorem decided_of_replay {limit : Nat} {registry : WorkflowRegistry} {ref : RunRef}
    {history : List HistoryEvent} {outcome : ReplayOutcome}
    (h : replay limit registry ref history = .ok outcome) :
    (∀ command ∈ outcome.newCommands, command.key?.isSome = true) ∧
      Command.untilTerminal outcome.newCommands = outcome.newCommands := by
  obtain ⟨workflowType, input, taskQueue, attempt, parent, options, workflow, start, replayer,
    -, -, -, happlied, houtcome⟩ := eq_ok_of_replay h
  subst houtcome
  obtain ⟨turns, commands, -, -, accounts, -⟩ :=
    (Replayer.Accounts.initial start).applyAll rfl happlied
  rw [List.nil_append] at accounts
  have hcut := Command.untilTerminal_untilTerminal (HandlerCall.emittedFrom [] replayer.calls)
  have hemitted := accounts.emitted
  simp only
  split
  · exact ⟨by simp, rfl⟩
  · constructor
    · intro command hmem
      apply @HandlerCall.key?_isSome_of_mem_emitted replayer.calls
      rw [hemitted]
      exact List.mem_append_right _ hmem
    · apply Command.untilTerminal_of_append commands
      rw [← hemitted]
      exact hcut

def cancelledHistory : List HistoryEvent :=
  [.ofEvent 1 ⟨0, 0⟩ (.workflowStarted "bare" .null "default" 1 none .standard),
    .ofEvent 2 ⟨0, 0⟩ (.cancellationRequested "late"),
    .ofEvent 3 ⟨0, 0⟩ (.workflowCancelled "late")]

/-- The start does nothing; the request is answered with the command to cancel. -/
def cancelledOutcome : ReplayOutcome where
  workflow := Samples.bare
  state := ()
  newCommands := []
  closed := true
  lastEventId := 3
  calls :=
    [⟨⟨⟨"orders", .nil⟩, "bare", 1, 1, ⟨0, 0⟩, true⟩, .started, .ok [], 0⟩,
      ⟨⟨⟨"orders", .nil⟩, "bare", 1, 2, ⟨0, 0⟩, true⟩, .cancelRequested "late",
        .ok [.cancel "late"], 0⟩]

theorem cancelledHistory_accounted :
    replay 1 ⟨[Samples.bare]⟩ ⟨"orders", .nil⟩ cancelledHistory = .ok cancelledOutcome ∧
      ∃ workflowType input taskQueue attempt parent options start turns,
        cancelledHistory.head?.map HistoryEvent.event =
          some (.workflowStarted workflowType input taskQueue attempt parent options) ∧
        WorkflowRegistry.find? ⟨[Samples.bare]⟩ workflowType = some cancelledOutcome.workflow ∧
        cancelledOutcome.workflow.create input = .ok start ∧
        Accounted ⟨⟨"orders", .nil⟩, workflowType, attempt, horizon cancelledHistory⟩
          cancelledHistory cancelledOutcome start turns := by
  have hreplay : replay 1 ⟨[Samples.bare]⟩ ⟨"orders", .nil⟩ cancelledHistory =
      .ok cancelledOutcome := rfl
  exact ⟨hreplay, replay_accounted hreplay⟩

end Replay

end Chronicle
