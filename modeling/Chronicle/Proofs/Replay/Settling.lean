import Chronicle.Proofs.Replay.Acceptance
import Chronicle.Proofs.Replay.Waiting

/-!
# Signals and conditions are settled

Every call of a replay was due when it was made, signals of one name are delivered in the order
in which they were received, and each event leaves nothing behind that could still be delivered
or resolved.
-/

namespace Chronicle

open HandlerCall
open scoped List

namespace Event

variable {event : Event}

theorem signal?_of_key? (h : event.key?.isSome = true) : event.signal? = none := by
  cases event <;> simp_all [signal?, key?]

theorem signal?_of_isProgress (h : event.isProgress = true) : event.signal? = none := by
  cases event <;> simp_all [signal?, isProgress]

theorem signal?_of_isForcedClose (h : event.isForcedClose = true) : event.signal? = none := by
  cases event <;> simp_all [signal?, isForcedClose]

theorem isClose_of_isTerminal {command : Command} (hterminal : command.isTerminal = true)
    (h : event.key? = command.key?) : event.isClose = true := by
  cases command <;> simp only [Command.isTerminal, Bool.false_eq_true] at hterminal <;>
    cases event <;> simp_all [key?, Command.key?, isClose]

end Event

namespace Replay

def named (name : String) (signals : List Signal) : List Signal :=
  signals.filter fun signal => signal.name = name

@[simp] theorem named_nil (name : String) : named name [] = [] := rfl

@[simp] theorem named_append (name : String) (first second : List Signal) :
    named name (first ++ second) = named name first ++ named name second := List.filter_append ..

theorem length_named_deliveredSignals (name : String) (calls : List HandlerCall) :
    (named name (deliveredSignals calls)).length = deliveries name calls := by
  simp [named, deliveries, List.countP_eq_length_filter]

theorem receivedSignals_of_signal? {event : HistoryEvent} (h : event.event.signal? = none) :
    receivedSignals [event] = [] := by
  simp [receivedSignals, h]

end Replay

namespace Replayer

open Replay

variable {workflow : WorkflowType} {start : workflow.State} {recorded : List Command}
  {received : List Signal} {frame : ReplayFrame} {event : HistoryEvent}
  {before replayer result : Replayer workflow} {stimulus : Stimulus} {limit : Nat}

/-! ## Waits for signals -/

theorem foldl_acceptCommand_awaited (commands : List Command) (replayer : Replayer workflow)
    (h : (commands.foldl acceptCommand replayer).terminalPending = false) :
    (commands.foldl acceptCommand replayer).awaited =
      replayer.awaited ++ commands.filterMap Command.awaitedSignal? := by
  induction commands generalizing replayer with
  | nil => simp
  | cons command rest ih =>
      rw [List.foldl_cons] at h ⊢
      have hopen : replayer.terminalPending = false := by
        by_contra hended
        have hsame : replayer.acceptCommand command = replayer := by simp_all [acceptCommand]
        rw [hsame, foldl_acceptCommand_of_terminal rest replayer (by simpa using hended)] at h
        exact hended h
      rw [ih _ h]
      cases command with
      | awaitSignal signalName => simp [acceptCommand, hopen, Command.awaitedSignal?]
      | _ => simp [acceptCommand, hopen, List.filterMap_cons, Command.awaitedSignal?]

theorem afterCall_awaited (reaction : Reaction workflow.State)
    (h : (replayer.afterCall frame event stimulus reaction).terminalPending = false) :
    (replayer.afterCall frame event stimulus reaction).awaited =
      replayer.awaited ++ (Step.commands reaction.step).filterMap Command.awaitedSignal? := by
  unfold afterCall at *
  rw [accept_eq_foldl] at *
  exact foldl_acceptCommand_awaited _ _ h

/-! ## What a call takes up -/

/-- The calls were due, and of the signals received so far each was delivered or still waits
behind those of its name that were. -/
structure Serves (start : workflow.State) (received : List Signal) (replayer : Replayer workflow) :
    Prop where
  inOrder : ∀ name, named name received =
    named name (deliveredSignals replayer.calls) ++ named name replayer.inbox
  awaits : replayer.terminalPending = false → replayer.awaited = HandlerCall.awaits replayer.calls
  warranted : Warranted workflow start replayer.calls

theorem Serves.initial (start : workflow.State) : Serves start [] (Replayer.initial start) where
  inOrder := fun _ => rfl
  awaits := fun _ => rfl
  warranted := .nil

theorem Serves.initial_segment (serves : Serves start received replayer) (name : String) :
    named name (deliveredSignals replayer.calls) <+: named name received :=
  ⟨_, (serves.inOrder name).symm⟩

/-- Only the signals, the waits for them and the calls matter. -/
theorem Serves.same {after : Replayer workflow} (serves : Serves start received before)
    (hcalls : after.calls = before.calls) (hinbox : after.inbox = before.inbox)
    (hawaited : after.awaited = before.awaited)
    (hterminal : after.terminalPending = before.terminalPending) : Serves start received after := by
  constructor
  case inOrder => rw [hcalls, hinbox]; exact serves.inOrder
  case awaits => rw [hterminal, hawaited, hcalls]; exact serves.awaits
  case warranted => rw [hcalls]; exact serves.warranted

/-- A call whose signal was taken from the inbox together with the wait for it. -/
theorem Serves.dispatch (serves : Serves start received before)
    (accounts : Accounts start recorded before)
    (h : Replayer.dispatch frame event replayer stimulus = .ok result)
    (hopen : before.terminalPending = false) (hclosed : before.closed = false)
    (hcalls : replayer.calls = before.calls)
    (hterminal : replayer.terminalPending = false) (hstill : replayer.closed = before.closed)
    (hawaited : replayer.awaited = unspent before.awaited stimulus)
    (hinbox : ∀ name, named name before.inbox =
      named name stimulus.signal?.toList ++ named name replayer.inbox)
    (hdue : ∀ call : HandlerCall, call.stimulus = stimulus →
      Due workflow before.state before.calls call) : Serves start received result := by
  rcases dispatch_cases h with ⟨hidle, -⟩ | ⟨-, -, reaction, -, rfl⟩
  · rw [hterminal, hstill, hclosed] at hidle
    simp at hidle
  · have hcalled : (replayer.afterCall frame event stimulus reaction).calls = before.calls ++
        [⟨contextOf frame event, stimulus, reaction.step, reaction.drawn⟩] := by
      simp [Replayer.afterCall, hcalls]
    constructor
    case inOrder =>
      intro name
      have hlast : deliveredSignals
          [⟨contextOf frame event, stimulus, reaction.step, reaction.drawn⟩] =
            stimulus.signal?.toList := by
        cases hsignal : stimulus.signal? <;> simp [deliveredSignals, hsignal]
      have hkept : (replayer.afterCall frame event stimulus reaction).inbox = replayer.inbox := by
        simp [Replayer.afterCall]
      rw [serves.inOrder, hinbox, hcalled, hkept, deliveredSignals_append, hlast, named_append,
        List.append_assoc]
    case awaits =>
      intro hafter
      rw [afterCall_awaited reaction hafter, hawaited, hcalled, awaits_concat,
        serves.awaits hopen]
      rfl
    case warranted =>
      rw [hcalled]
      exact serves.warranted.concat accounts.lead (hdue _ rfl)

/-- A call that brings neither a signal nor a condition is always due. -/
theorem due_of_plain {state : workflow.State} {earlier : List HandlerCall}
    (hsignal : stimulus.signal? = none) (hcondition : ∀ conditionId outcome,
      stimulus = .conditionResolved conditionId outcome →
      ∃ wait ∈ waits earlier, wait.id = conditionId)
    (call : HandlerCall) (hcall : call.stimulus = stimulus) : Due workflow state earlier call where
  signal := by
    intro signal hsignalled
    rw [← hcall, hsignalled] at hsignal
    cases hsignal
  condition := by
    intro conditionId outcome hresolved
    exact hcondition conditionId outcome (hcall ▸ hresolved)

/-! ## Perceiving -/

/-- What an event comes to before anything is settled. -/
inductive Perception (frame : ReplayFrame) (event : HistoryEvent)
    (replayer result : Replayer workflow) : Prop where
  | noted (cancelRequested : Bool)
      (result_eq : result = { replayer with
        inbox := replayer.inbox ++ receivedSignals [event], cancelRequested := cancelRequested })
  | brought (stimulus : Stimulus) (cancelRequested : Bool)
      (unsent : receivedSignals [event] = []) (signal : stimulus.signal? = none)
      (condition : stimulus.resolvedCondition? = none)
      (called : Replayer.dispatch frame event
        { replayer with cancelRequested := cancelRequested } stimulus = .ok result)
  | timedOut (conditionId : String) (unsent : receivedSignals [event] = [])
      (waited : ∃ wait ∈ replayer.conditions, wait.id = conditionId)
      (called : Replayer.dispatch frame event
        { replayer with
          conditions := remaining replayer.conditions (.conditionResolved conditionId .timedOut) }
        (.conditionResolved conditionId .timedOut) = .ok result)

theorem Perception.idle (frame : ReplayFrame) (hunsent : receivedSignals [event] = []) :
    Perception frame event replayer replayer :=
  .noted replayer.cancelRequested (by rw [hunsent, List.append_nil])

theorem Perception.activityClosed {activityId : String}
    (hunsent : receivedSignals [event] = []) (hsignal : stimulus.signal? = none)
    (hcondition : stimulus.resolvedCondition? = none)
    (h : Replayer.activityClosed frame event replayer activityId stimulus = .ok result) :
    Perception frame event replayer result := by
  unfold Replayer.activityClosed at h
  split at h
  · cases h
    exact .idle frame hunsent
  · exact .brought stimulus replayer.cancelRequested hunsent hsignal hcondition h

theorem Perception.timerFired {timerId : String} (hunsent : receivedSignals [event] = [])
    (h : Replayer.timerFired frame event replayer timerId = .ok result) :
    Perception frame event replayer result := by
  unfold Replayer.timerFired at h
  split at h
  · cases h
    exact .idle frame hunsent
  · split at h
    · rename_i conditionId _
      unfold conditionTimedOut at h
      split at h
      · cases h
        exact .idle frame hunsent
      · rename_i index hindex
        obtain ⟨hlt, hid, -⟩ := List.findIdx?_eq_some_iff_getElem.1 hindex
        rw [← remaining_of_findIdx? .timedOut hindex] at h
        exact .timedOut conditionId hunsent ⟨_, List.getElem_mem hlt, by simpa using hid⟩ h
    · exact .brought (.timerFired timerId) replayer.cancelRequested hunsent rfl rfl h

theorem perceive_cases (h : perceive frame event replayer = .ok result) :
    Perception frame event replayer result := by
  have hunsent : (∀ signal, event.event ≠ .signalReceived signal) →
      receivedSignals [event] = [] := by
    intro hnone
    apply receivedSignals_of_signal?
    cases hevent : event.event with
    | signalReceived signal => exact absurd hevent (hnone signal)
    | _ => rfl
  unfold perceive at h
  split at h
  · rename_i hevent
    exact .brought _ replayer.cancelRequested (hunsent (by simp [hevent])) rfl rfl h
  · rename_i hevent
    exact .activityClosed (hunsent (by simp [hevent])) rfl rfl h
  · rename_i hevent
    exact .activityClosed (hunsent (by simp [hevent])) rfl rfl h
  · rename_i hevent
    exact .activityClosed (hunsent (by simp [hevent])) rfl rfl h
  · rename_i hevent
    exact .timerFired (hunsent (by simp [hevent])) h
  · rename_i signal hevent
    cases h
    exact .noted replayer.cancelRequested (by simp [receivedSignals, hevent, Event.signal?])
  · rename_i hevent
    exact .brought _ replayer.cancelRequested (hunsent (by simp [hevent])) rfl rfl h
  · rename_i hevent
    exact .brought _ replayer.cancelRequested (hunsent (by simp [hevent])) rfl rfl h
  · rename_i hevent
    split at h
    · cases h
      exact .idle frame (hunsent (by simp [hevent]))
    · exact .brought _ true (hunsent (by simp [hevent])) rfl rfl h
  · rename_i hnone _ _ _
    cases h
    exact .idle frame (hunsent hnone)

/-- A handler that may not run any more changes nothing. -/
theorem Serves.unheard (serves : Serves start received before)
    (hterminal : before.terminalPending = true)
    (h : Replayer.dispatch frame event replayer stimulus = .ok result)
    (hcalls : replayer.calls = before.calls) (hinbox : replayer.inbox = before.inbox)
    (hawaited : replayer.awaited = before.awaited)
    (hsame : replayer.terminalPending = before.terminalPending) :
    Serves start received result := by
  rw [dispatch_of_terminal frame event stimulus (hsame.trans hterminal)] at h
  cases h
  exact serves.same hcalls hinbox hawaited hsame

theorem Serves.perceive (serves : Serves start received replayer)
    (accounts : Accounts start recorded replayer) (hclosed : replayer.closed = false)
    (h : perceive frame event replayer = .ok result) :
    Serves start (received ++ receivedSignals [event]) result := by
  cases perceive_cases h with
  | noted cancelRequested hresult =>
      subst hresult
      exact ⟨fun name => by simp [serves.inOrder], serves.awaits, serves.warranted⟩
  | brought stimulus cancelRequested hunsent hsignal hcondition hcalled =>
      rw [hunsent, List.append_nil]
      cases hterminal : replayer.terminalPending with
      | true => exact serves.unheard hterminal hcalled rfl rfl rfl rfl
      | false =>
          have hawaited : replayer.awaited = unspent replayer.awaited stimulus := by
            cases stimulus <;> simp_all [unspent, Stimulus.signal?]
          apply serves.dispatch accounts hcalled hterminal hclosed rfl hterminal rfl hawaited
          · simp [hsignal]
          · apply due_of_plain hsignal
            intro conditionId outcome hresolved
            rw [hresolved] at hcondition
            cases hcondition
  | timedOut conditionId hunsent hwaited hcalled =>
      rw [hunsent, List.append_nil]
      cases hterminal : replayer.terminalPending with
      | true => exact serves.unheard hterminal hcalled rfl rfl rfl rfl
      | false =>
          apply serves.dispatch accounts hcalled hterminal hclosed rfl hterminal rfl rfl
          · simp [Stimulus.signal?]
          · apply due_of_plain rfl
            intro resolved outcome hresolved
            cases hresolved
            rwa [← accounts.waits hterminal]

/-! ## Settling -/

theorem isDeliverable_eq_true {signal : Signal} (h : replayer.isDeliverable signal = .ok true) :
    signal.name ∈ replayer.awaited ∨
      workflow.acceptsSignal replayer.state signal.name = .ok true := by
  unfold isDeliverable at h
  split at h
  · rename_i hawaited
    exact .inl (by simpa using hawaited)
  · exact .inr h

theorem isDeliverable_eq_false {signal : Signal} (h : replayer.isDeliverable signal = .ok false) :
    signal.name ∉ replayer.awaited ∧
      workflow.acceptsSignal replayer.state signal.name = .ok false := by
  unfold isDeliverable at h
  split at h
  · cases h
  · rename_i hawaited
    exact ⟨by simpa using hawaited, h⟩

/-- The first signal that can be delivered is the first of its name, since whether a signal can be
delivered depends on its name only. -/
theorem named_eraseIdx {index : Nat} {signal : Signal}
    (hfound : findIndex? replayer.isDeliverable 0 replayer.inbox = .ok (some index))
    (hsignal : replayer.inbox[index]? = some signal) (name : String) :
    named name replayer.inbox =
      named name [signal] ++ named name (replayer.inbox.eraseIdx index) := by
  obtain ⟨place, found, hplace, hget, hholds, hbefore⟩ := findIndex?_eq_some hfound
  obtain rfl : index = place := by omega
  obtain rfl : signal = found := by simpa [hsignal] using hget
  obtain ⟨hlt, hvalue⟩ := List.getElem?_eq_some_iff.1 hsignal
  have hothers : named signal.name (replayer.inbox.take index) = [] := by
    rw [named, List.filter_eq_nil_iff]
    intro other hmem hname
    obtain ⟨earlier, hearlier, hother⟩ := List.mem_take_iff_getElem.1 hmem
    have hundelivered := hbefore earlier other (by omega)
      (by rw [List.getElem?_eq_getElem (by omega), hother])
    unfold isDeliverable at hundelivered hholds
    rw [of_decide_eq_true hname, hholds] at hundelivered
    cases hundelivered
  have hinbox : replayer.inbox =
      replayer.inbox.take index ++ ([signal] ++ replayer.inbox.drop (index + 1)) := by
    rw [← hvalue, List.singleton_append, List.getElem_cons_drop, List.take_append_drop]
  rw [List.eraseIdx_eq_take_drop_succ, named_append]
  conv_lhs => rw [hinbox]
  rw [named_append, named_append]
  by_cases hname : signal.name = name
  · rw [← hname, hothers]
    simp
  · have hapart : named name [signal] = [] := by simp [named, hname]
    rw [hapart]
    simp

theorem Serves.deliver {index : Nat} (serves : Serves start received replayer)
    (accounts : Accounts start recorded replayer) (hclosed : replayer.closed = false)
    (hopen : replayer.terminalPending = false)
    (hfound : findIndex? replayer.isDeliverable 0 replayer.inbox = .ok (some index))
    (h : Replayer.deliver frame event replayer index = .ok result) :
    Serves start received result := by
  unfold Replayer.deliver at h
  split at h
  · cases h
    exact serves
  · rename_i signal hsignal
    obtain ⟨place, found, hplace, hget, hholds, -⟩ := findIndex?_eq_some hfound
    obtain rfl : index = place := by omega
    obtain rfl : signal = found := by simpa [hsignal] using hget
    apply serves.dispatch accounts h hopen hclosed rfl hopen rfl rfl
    · exact fun name => named_eraseIdx hfound hsignal name
    · intro call hcall
      constructor
      · intro delivered hdelivered
        rw [hcall] at hdelivered
        cases hdelivered
        rw [← serves.awaits hopen]
        exact isDeliverable_eq_true hholds
      · intro conditionId outcome hresolved
        rw [hcall] at hresolved
        cases hresolved

theorem Serves.satisfy {index : Nat} (serves : Serves start received replayer)
    (accounts : Accounts start recorded replayer) (hclosed : replayer.closed = false)
    (hopen : replayer.terminalPending = false)
    (h : Replayer.satisfy frame event replayer index = .ok result) :
    Serves start received result := by
  unfold Replayer.satisfy at h
  split at h
  · cases h
    exact serves
  · rename_i condition hcondition
    have hdue : ∀ call : HandlerCall,
        call.stimulus = .conditionResolved condition.id .satisfied →
        Due workflow replayer.state replayer.calls call := by
      apply due_of_plain rfl
      intro resolved outcome hresolved
      cases hresolved
      rw [← accounts.waits hopen]
      exact ⟨condition, List.mem_of_getElem? hcondition, rfl⟩
    cases htimer : condition.hasTimer with
    | false =>
        simp only [htimer, Bool.false_eq_true, if_false] at h
        exact serves.dispatch accounts h hopen hclosed rfl hopen rfl rfl
          (fun name => by simp [Stimulus.signal?]) hdue
    | true =>
        simp only [htimer, if_true, acceptCommand, hopen, Bool.false_eq_true, if_false] at h
        exact serves.dispatch accounts h hopen hclosed rfl rfl rfl rfl
          (fun name => by simp [Stimulus.signal?]) hdue

theorem settles_serves (start : workflow.State) (recorded : List Command) (received : List Signal)
    (frame : ReplayFrame) (event : HistoryEvent) :
    Settles frame event fun replayer => (replayer.closed = false ∧
      Accounts start recorded replayer) ∧ Serves start received replayer where
  delivered := by
    intro replayer result index hopen hfound hold h
    obtain ⟨⟨hclosed, accounts⟩, serves⟩ := hold
    exact ⟨(kept_accounts start recorded frame event).settles.delivered _ _ _ hopen hfound
      ⟨hclosed, accounts⟩ h, serves.deliver accounts hclosed hopen hfound h⟩
  satisfied := by
    intro replayer result index hopen hfound hold h
    obtain ⟨⟨hclosed, accounts⟩, serves⟩ := hold
    exact ⟨(kept_accounts start recorded frame event).satisfied _ _ _ hopen hfound
      ⟨hclosed, accounts⟩ h, serves.satisfy accounts hclosed hopen h⟩

/-- Nothing is left to deliver or to resolve, as long as workflow code may run. -/
def Rests (replayer : Replayer workflow) : Prop :=
  replayer.closed = false → replayer.terminalPending = false →
    (∀ signal ∈ replayer.inbox, replayer.isDeliverable signal = .ok false) ∧
    ∀ condition ∈ replayer.conditions, replayer.isSatisfied condition = .ok false

theorem Rests.same {after : Replayer workflow} (rests : before.Rests)
    (hstate : after.state = before.state) (hinbox : after.inbox = before.inbox)
    (hawaited : after.awaited = before.awaited) (hconditions : after.conditions = before.conditions)
    (hterminal : after.terminalPending = before.terminalPending)
    (hclosed : after.closed = false → before.closed = false) : after.Rests := by
  intro hopen hactive
  have hbefore := rests (hclosed hopen) (hterminal ▸ hactive)
  unfold isDeliverable isSatisfied at *
  rw [hstate, hinbox, hawaited, hconditions]
  exact hbefore

theorem settle_rests (h : settle frame event limit replayer = .ok result) : result.Rests := by
  induction limit generalizing replayer with
  | zero => cases h
  | succ limit ih =>
      unfold settle at h
      split at h
      · rename_i hidle
        cases h
        intro hopen hactive
        simp [hopen, hactive] at hidle
      · split at h
        · cases h
        · split at h
          · cases h
          · exact ih h
        · rename_i hdelivered
          split at h
          · cases h
          · split at h
            · cases h
            · exact ih h
          · rename_i hsatisfied
            cases h
            exact fun _ _ => ⟨findIndex?_eq_none hdelivered, findIndex?_eq_none hsatisfied⟩

/-! ## Events -/

theorem Serves.matchCommand {found : CommandKey} (serves : Serves start received replayer)
    (h : replayer.matchCommand event found = .ok result) : Serves start received result := by
  obtain ⟨command, rest, -, -, rfl⟩ := matchCommand_cases h
  apply serves.same <;> simp

theorem Rests.matchCommand {found : CommandKey} (rests : replayer.Rests)
    (h : replayer.matchCommand event found = .ok result) : result.Rests := by
  obtain ⟨command, remaining, -, -, rfl⟩ := matchCommand_cases h
  apply rests.same <;> simp +contextual [noteRecorded_closed]

/-- One event leaves nothing undone that it made possible. -/
theorem Serves.apply (serves : Serves start received replayer) (rests : replayer.Rests)
    (accounts : Accounts start recorded replayer) (hopen : replayer.closed = false)
    (h : replayer.apply limit frame event = .ok result) :
    Serves start (received ++ receivedSignals [event]) result ∧ result.Rests := by
  cases apply_cases h with
  | recorded found hkey hmatched =>
      rw [receivedSignals_of_signal? (Event.signal?_of_key? (by simp [hkey])), List.append_nil]
      exact ⟨serves.matchCommand hmatched, rests.matchCommand hmatched⟩
  | progress hkey hprogress hresult =>
      subst hresult
      rw [receivedSignals_of_signal? (Event.signal?_of_isProgress hprogress), List.append_nil]
      exact ⟨serves, rests⟩
  | forced hkey hforced hresult =>
      subst hresult
      rw [receivedSignals_of_signal? (Event.signal?_of_isForcedClose hforced), List.append_nil]
      exact ⟨serves.same rfl rfl rfl rfl, fun hstill => by cases hstill⟩
  | perceived hkey hforced middle hperceived hsettled =>
      have hkept := (kept_accounts start recorded frame event).perceive ⟨hopen, accounts⟩ hperceived
      have hserves := serves.perceive accounts hopen hperceived
      have hlast := (settles_serves start recorded _ frame event).settle ⟨hkept, hserves⟩ hsettled
      exact ⟨hlast.2, settle_rests hsettled⟩

/-- A whole history, with the calls that each of its events caused. -/
theorem Serves.applyAll {events : List HistoryEvent} (serves : Serves start received replayer)
    (rests : replayer.Rests) (accounts : Accounts start recorded replayer)
    (hopen : replayer.closed = false)
    (h : Replayer.applyAll limit frame replayer events = .ok result) :
    ∃ turns, List.Forall₂ (Turn frame) (upToClose events) turns ∧
      result.calls = replayer.calls ++ turns.flatten ∧
      (∀ place name,
        named name (deliveredSignals (replayer.calls ++ (turns.take place).flatten)) <+:
          named name (received ++ receivedSignals ((upToClose events).take place))) ∧
      Serves start (received ++ receivedSignals (upToClose events)) result ∧ result.Rests := by
  induction events generalizing replayer recorded received with
  | nil =>
      cases h
      refine ⟨[], .nil, by simp, ?_, by simpa [upToClose, receivedSignals] using serves, rests⟩
      simpa [upToClose, receivedSignals] using serves.initial_segment
  | cons event rest ih =>
      obtain ⟨next, happlied, hcases⟩ := applyAll_cons h
      obtain ⟨turn, hturn, hcalls, -⟩ := apply_turn happlied
      obtain ⟨hserves, hrests⟩ := serves.apply rests accounts hopen happlied
      obtain ⟨first, hnext, hclosed, -, -⟩ := accounts.apply hopen happlied
      unfold upToClose
      rw [hclosed] at hcases
      rcases hcases with ⟨hclose, rfl⟩ | ⟨hclose, h⟩
      · -- the run is closed, and this turn was the last one
        rw [hclose]
        refine ⟨[turn], .cons hturn .nil, by simp [hcalls], ?_, hserves, hrests⟩
        intro place name
        cases place with
        | zero => simpa [receivedSignals] using serves.initial_segment name
        | succ place => simpa [hcalls] using hserves.initial_segment name
      · obtain ⟨turns, hturns, hresult, hplaces, hlast, hend⟩ :=
          ih hserves hrests hnext (hclosed.trans hclose) h
        rw [List.append_assoc, ← receivedSignals_cons] at hlast
        rw [hclose]
        refine ⟨turn :: turns, .cons hturn hturns, by simp [hresult, hcalls], ?_, hlast, hend⟩
        intro place name
        cases place with
        | zero => simpa [receivedSignals] using serves.initial_segment name
        | succ place =>
            have hlater := hplaces place name
            rw [hcalls, List.append_assoc, List.append_assoc, ← receivedSignals_cons] at hlater
            simpa using hlater

end Replayer

namespace Replay

/-- How the calls of a replay serve signals and conditions. -/
structure Served (frame : ReplayFrame) (history : List HistoryEvent) (outcome : ReplayOutcome)
    (start : outcome.workflow.State) (turns : List (List HandlerCall)) : Prop where
  caused : List.Forall₂ (Turn frame) (upToClose history) turns
  calls : turns.flatten = outcome.calls
  /-- At any time the signals of one name that were delivered are the first that were received. -/
  inOrder : ∀ place name, named name (deliveredSignals (turns.take place).flatten) <+:
    named name (receivedSignals ((upToClose history).take place))
  warranted : Warranted outcome.workflow start outcome.calls
  /-- A signal that is not taken unasked was asked for by an earlier call. -/
  signals : ∀ name, Refuses outcome.workflow start outcome.calls name → ∀ earlier call,
    earlier ++ [call] <+: outcome.calls →
      deliveries name (earlier ++ [call]) ≤ signalWaits name earlier
  /-- Each wait for it goes on, or one delivery has used it up. -/
  signalWaits : ∀ name, Refuses outcome.workflow start outcome.calls name → ∀ calls,
    calls <+: outcome.calls →
      (awaits calls).count name + deliveries name calls = signalWaits name calls
  conditions : ∀ conditionId earlier call, earlier ++ [call] <+: outcome.calls →
    resolutions conditionId (earlier ++ [call]) ≤ registrations conditionId earlier
  /-- Each wait for a condition goes on, or was resolved once. -/
  registrations : ∀ conditionId calls, calls <+: outcome.calls →
    (waits calls).countP (fun wait => wait.id = conditionId) + resolutions conditionId calls =
      registrations conditionId calls
  /-- A signal that is left over is neither asked for nor taken unasked. -/
  leftSignals : outcome.closed = false → outcome.newCommands.any Command.isTerminal = false →
    ∀ name, deliveries name outcome.calls < (named name (receivedSignals history)).length →
      name ∉ awaits outcome.calls ∧
      outcome.workflow.acceptsSignal outcome.state name = .ok false
  leftConditions : outcome.closed = false →
    outcome.newCommands.any Command.isTerminal = false → ∀ wait ∈ waits outcome.calls,
      outcome.workflow.conditionHolds outcome.state wait.id = .ok false

theorem upToClose_of_open {history : List HistoryEvent}
    (h : (history.any fun event => event.event.isClose) = false) : upToClose history = history := by
  induction history with
  | nil => rfl
  | cons event rest ih =>
      simp only [List.any_cons, Bool.or_eq_false_iff] at h
      simp [upToClose, h.1, ih h.2]

/-- A recorded command that ends the run closes it. -/
theorem isTerminal_of_recorded {history : List HistoryEvent} {commands : List Command}
    (hkeys : commands.map Command.key? = (recordedKeys history).map some)
    (hopen : (history.any fun event => event.event.isClose) = false) :
    commands.any Command.isTerminal = false := by
  rw [List.any_eq_false]
  intro command hmem hterminal
  have hkey : command.key? ∈ (recordedKeys history).map some :=
    hkeys ▸ List.mem_map_of_mem hmem
  obtain ⟨key, hkey, hsome⟩ := List.mem_map.1 hkey
  obtain ⟨event, hevent, hfound⟩ := List.mem_filterMap.1 hkey
  have hclose := List.any_eq_false.1 hopen event hevent
  exact hclose (Event.isClose_of_isTerminal hterminal (by rw [hfound, hsome]))

end Replay

namespace Replayer

open Replay

variable {workflow : WorkflowType} {start : workflow.State} {recorded : List Command}
  {received : List Signal} {frame : ReplayFrame} {replayer : Replayer workflow} {limit : Nat}
  {history : List HistoryEvent}

/-- A run that is asked to end has the command for it in the queue, until history records it. -/
theorem terminalPending_of_applyAll
    (h : applyAll limit frame (.initial start) history = .ok replayer)
    (hopen : replayer.closed = false) :
    replayer.terminalPending = replayer.pending.any Command.isTerminal := by
  obtain ⟨turns, commands, trace, -, accounts, hclosed⟩ :=
    (Accounts.initial start).applyAll rfl h
  have hstill : (history.any fun event => event.event.isClose) = false := hclosed ▸ hopen
  have hkeys := trace.keys
  rw [upToClose_of_open hstill] at hkeys
  rw [accounts.terminal, HandlerCall.ended, accounts.emitted, List.nil_append, List.any_append,
    isTerminal_of_recorded hkeys hstill, Bool.false_or]

theorem Serves.left (serves : Serves start received replayer) (rests : replayer.Rests)
    (hopen : replayer.closed = false) (hactive : replayer.terminalPending = false) {name : String}
    (hleft : deliveries name replayer.calls < (named name received).length) :
    name ∉ HandlerCall.awaits replayer.calls ∧
      workflow.acceptsSignal replayer.state name = .ok false := by
  rw [serves.inOrder, List.length_append, length_named_deliveredSignals] at hleft
  have hpos : 0 < (named name replayer.inbox).length := by omega
  obtain ⟨signal, hsignal⟩ := List.exists_mem_of_length_pos hpos
  obtain ⟨hmem, hname⟩ := List.mem_filter.1 hsignal
  rw [← of_decide_eq_true hname, ← serves.awaits hactive]
  exact isDeliverable_eq_false ((rests hopen hactive).1 signal hmem)

end Replayer

namespace Replay

/-- Signals and conditions: what a replay that returns has delivered and resolved, it has done in
order, once, and completely. -/
theorem replay_served {limit : Nat} {registry : WorkflowRegistry} {ref : RunRef}
    {history : List HistoryEvent} {outcome : ReplayOutcome}
    (h : replay limit registry ref history = .ok outcome) :
    ∃ workflowType input taskQueue attempt parent options start turns,
      history.head?.map HistoryEvent.event =
        some (.workflowStarted workflowType input taskQueue attempt parent options) ∧
      registry.find? workflowType = some outcome.workflow ∧
      outcome.workflow.create input = .ok start ∧
      Served ⟨ref, workflowType, attempt, horizon history⟩ history outcome start turns := by
  obtain ⟨workflowType, input, taskQueue, attempt, parent, options, workflow, start, replayer,
    hhead, hfind, hcreate, happlied, houtcome⟩ := eq_ok_of_replay h
  subst houtcome
  refine ⟨workflowType, input, taskQueue, attempt, parent, options, start, ?_⟩
  have hinitial : (Replayer.initial start).Rests := by
    intro _ _
    simp [Replayer.initial]
  obtain ⟨turns, hturns, hcalls, hplaces, hserves, hrests⟩ :=
    (Replayer.Serves.initial start).applyAll hinitial (.initial start) rfl happlied
  obtain ⟨_, _, -, -, accounts, hclosed⟩ := (Replayer.Accounts.initial start).applyAll rfl happlied
  rw [List.nil_append] at hserves
  have hactive : replayer.closed = false →
      (if replayer.closed then [] else replayer.pending).any Command.isTerminal = false →
      replayer.terminalPending = false := by
    intro hopen hpending
    rw [Replayer.terminalPending_of_applyAll happlied hopen]
    simpa [hopen] using hpending
  refine ⟨turns, hhead, hfind, hcreate, ?_⟩
  constructor
  case caused => exact hturns
  case calls => simpa [Replayer.initial] using hcalls.symm
  case inOrder =>
    intro place name
    simpa [Replayer.initial] using hplaces place name
  case warranted => exact hserves.warranted
  case signals =>
    intro name hrefuses earlier call hcall
    exact hserves.warranted.deliveries_le hrefuses hcall
  case signalWaits =>
    intro name hrefuses calls hinitial
    exact (hserves.warranted.of_prefix hinitial).signal_tally (hrefuses.of_prefix hinitial)
  case conditions =>
    intro conditionId earlier call hcall
    exact hserves.warranted.resolutions_le conditionId hcall
  case registrations =>
    intro conditionId calls hinitial
    exact (hserves.warranted.of_prefix hinitial).condition_tally conditionId
  case leftSignals =>
    intro hopen hpending name hleft
    rw [upToClose_of_open (hclosed ▸ hopen)] at hserves
    exact hserves.left hrests hopen (hactive hopen hpending) hleft
  case leftConditions =>
    intro hopen hpending wait hmem
    rw [← accounts.waits (hactive hopen hpending)] at hmem
    exact (hrests hopen (hactive hopen hpending)).2 wait hmem

/-- The bell is heard once; the second time nobody listens. -/
def bellHistory : List HistoryEvent :=
  let timer := Command.conditionTimer "rung"
  let events : List Event := [.workflowStarted "vigil" .null "default" 1 none .standard,
    .timerStarted timer ⟨60, 0⟩ (.ofSeconds 60), .signalReceived ⟨"bell", .null, ⟨0, 0⟩⟩,
    .timerCancelled timer, .timerStarted timer ⟨60, 0⟩ (.ofSeconds 60),
    .signalReceived ⟨"bell", .null, ⟨1, 0⟩⟩]
  events.mapIdx fun place event => .ofEvent (place + 1) ⟨0, 0⟩ event

def bellOutcome : ReplayOutcome where
  workflow := Samples.vigil
  state := false
  newCommands := []
  closed := false
  lastEventId := 6
  calls :=
    let context (eventId : Nat) : Context :=
      ⟨⟨"orders", .nil⟩, "vigil", 1, eventId, ⟨0, 0⟩, true⟩
    [⟨context 1, .started, .ok [.awaitSignal "bell", Samples.rungWithinMinute], 0⟩,
      ⟨context 3, .signalled ⟨"bell", .null, ⟨0, 0⟩⟩, .ok [], 0⟩,
      ⟨context 3, .conditionResolved "rung" .satisfied, .ok [Samples.rungWithinMinute], 0⟩]

theorem bellHistory_served :
    replay 3 ⟨[Samples.vigil]⟩ ⟨"orders", .nil⟩ bellHistory = .ok bellOutcome ∧
      ∃ workflowType input taskQueue attempt parent options start turns,
        bellHistory.head?.map HistoryEvent.event =
          some (.workflowStarted workflowType input taskQueue attempt parent options) ∧
        WorkflowRegistry.find? ⟨[Samples.vigil]⟩ workflowType = some bellOutcome.workflow ∧
        bellOutcome.workflow.create input = .ok start ∧
        Served ⟨⟨"orders", .nil⟩, workflowType, attempt, horizon bellHistory⟩
          bellHistory bellOutcome start turns := by
  have hreplay : replay 3 ⟨[Samples.vigil]⟩ ⟨"orders", .nil⟩ bellHistory = .ok bellOutcome := rfl
  exact ⟨hreplay, replay_served hreplay⟩

end Replay

end Chronicle
