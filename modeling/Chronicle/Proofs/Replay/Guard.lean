import Chronicle.Proofs.Replay.Emission

/-!
# The determinism guard

A replay that returns accounts for its whole history: the recorded commands are the first of
those that the calls emitted, none was recorded before it was emitted, no handler ran after the
run was asked to end, and what was emitted beyond them is returned as new.
-/

namespace Chronicle

namespace Replayer

variable {workflow : WorkflowType}

/-- The calls of the replayer account for the commands recorded so far and for its queue. -/
structure Accounts (start : workflow.State) (recorded : List Command)
    (replayer : Replayer workflow) : Prop where
  lead : HandlerCall.Lead workflow start replayer.calls replayer.state
  emitted : HandlerCall.emitted replayer.calls = recorded ++ replayer.pending
  terminal : replayer.terminalPending = HandlerCall.ended replayer.calls
  waits : replayer.terminalPending = false →
    replayer.conditions = HandlerCall.waits replayer.calls
  silent : ∀ calls, calls <+: replayer.calls → calls.length < replayer.calls.length →
    HandlerCall.ended calls = false

theorem Accounts.initial (start : workflow.State) :
    Accounts start [] (Replayer.initial start) where
  lead := .none
  emitted := rfl
  terminal := rfl
  waits := fun _ => rfl
  silent := fun _ _ hlt => absurd hlt (Nat.not_lt_zero _)

/-- Of the replayer, only state, queue, waits and calls matter. -/
theorem Accounts.same {start : workflow.State} {recorded : List Command}
    {before after : Replayer workflow} (accounts : Accounts start recorded before)
    (hstate : after.state = before.state) (hcalls : after.calls = before.calls)
    (hpending : after.pending = before.pending)
    (hterminal : after.terminalPending = before.terminalPending)
    (hconditions : after.conditions = before.conditions) : Accounts start recorded after := by
  constructor
  case lead =>
    rw [hcalls, hstate]
    exact accounts.lead
  case emitted => rw [hcalls, hpending, accounts.emitted]
  case terminal => rw [hterminal, hcalls, accounts.terminal]
  case waits =>
    rw [hterminal, hconditions, hcalls]
    exact accounts.waits
  case silent =>
    rw [hcalls]
    exact accounts.silent

/-- An initial part of the calls is all of them, or was there before the last one. -/
theorem silent_concat {calls : List HandlerCall} {call : HandlerCall}
    (silent : ∀ first, first <+: calls → first.length < calls.length →
      HandlerCall.ended first = false) (hended : HandlerCall.ended calls = false) :
    ∀ first, first <+: calls ++ [call] → first.length < (calls ++ [call]).length →
      HandlerCall.ended first = false := by
  intro first hinitial hlt
  rcases List.prefix_concat_iff.1 hinitial with hwhole | hearlier
  · rw [hwhole] at hlt
    exact absurd hlt (Nat.lt_irrefl _)
  · rcases Nat.lt_or_ge first.length calls.length with hshort | hfull
    · exact silent first hearlier hshort
    · rw [hearlier.eq_of_length_le hfull]
      exact hended

/-- A call for whose stimulus the waits and their timers were already seen to. -/
theorem Accounts.afterCall {start : workflow.State} {recorded : List Command}
    {frame : ReplayFrame} {event : HistoryEvent} {before replayer : Replayer workflow}
    {stimulus : Stimulus} {reaction : Reaction workflow.State}
    (accounts : Accounts start recorded before) (hopen : before.terminalPending = false)
    (hstate : replayer.state = before.state) (hcalls : replayer.calls = before.calls)
    (hterminal : replayer.terminalPending = false)
    (hpending : replayer.pending =
      before.pending ++ HandlerCall.cancellations before.conditions stimulus)
    (hconditions : replayer.conditions = HandlerCall.remaining before.conditions stimulus)
    (hreact : workflow.react replayer.state (contextOf frame event) stimulus = .ok reaction) :
    Accounts start recorded (replayer.afterCall frame event stimulus reaction) := by
  have hwaits := accounts.waits hopen
  have hended : HandlerCall.ended before.calls = false := accounts.terminal ▸ hopen
  have hcalled : (replayer.afterCall frame event stimulus reaction).calls = before.calls ++
      [⟨contextOf frame event, stimulus, reaction.step, reaction.drawn⟩] := by
    simp [Replayer.afterCall, hcalls]
  have hnone := @HandlerCall.not_isTerminal_of_mem_cancellations before.conditions stimulus
  have hemitted := HandlerCall.emitted_concat before.calls
    ⟨contextOf frame event, stimulus, reaction.step, reaction.drawn⟩ hended
  obtain ⟨hqueued, hlast, hnew⟩ := afterCall_of_open frame event stimulus reaction hterminal
  rw [← hwaits, HandlerCall.emits, Command.untilTerminal_append_of_none fun _ => hnone,
    accounts.emitted] at hemitted
  constructor
  case lead =>
    rw [hcalled]
    have hlead := accounts.lead
    rw [← hstate] at hlead
    have hafter : (replayer.afterCall frame event stimulus reaction).state = reaction.state := by
      simp [Replayer.afterCall]
    rw [hafter]
    exact .call hlead hreact
  case emitted =>
    rw [hcalled, hemitted, hqueued, hpending]
    simp only [List.append_assoc]
  case terminal =>
    have hcancel : (HandlerCall.cancellations before.conditions stimulus).any Command.isTerminal =
        false := List.any_eq_false.2 fun command hmem => by simp [hnone hmem]
    unfold HandlerCall.ended at *
    rw [hcalled, hemitted, hlast, ← accounts.emitted]
    simp only [List.any_append, hended, hcancel, Bool.false_or]
  case waits =>
    intro hstill
    rw [hcalled, HandlerCall.waits_concat, ← hwaits, hnew hstill, hconditions]
    rfl
  case silent =>
    rw [hcalled]
    exact silent_concat accounts.silent hended

theorem Accounts.dispatch {start : workflow.State} {recorded : List Command}
    {frame : ReplayFrame} {event : HistoryEvent} {before replayer result : Replayer workflow}
    {stimulus : Stimulus} (accounts : Accounts start recorded before)
    (h : dispatch frame event replayer stimulus = .ok result)
    (hopen : before.terminalPending = false) (hstate : replayer.state = before.state)
    (hcalls : replayer.calls = before.calls) (hterminal : replayer.terminalPending = false)
    (hclosed : replayer.closed = false)
    (hpending : replayer.pending =
      before.pending ++ HandlerCall.cancellations before.conditions stimulus)
    (hconditions : replayer.conditions = HandlerCall.remaining before.conditions stimulus) :
    Accounts start recorded result := by
  rcases dispatch_cases h with ⟨hidle, -⟩ | ⟨-, -, reaction, hreact, rfl⟩
  · rw [hterminal, hclosed] at hidle
    simp at hidle
  · exact accounts.afterCall hopen hstate hcalls hterminal hpending hconditions hreact

theorem remaining_of_findIdx? {waits : List AwaitedCondition} {conditionId : String} {index : Nat}
    (outcome : ConditionOutcome)
    (h : waits.findIdx? (fun wait => wait.id = conditionId) = some index) :
    HandlerCall.remaining waits (.conditionResolved conditionId outcome) =
      waits.eraseIdx index := by
  simp only [HandlerCall.remaining]
  rw [List.eraseP_eq_eraseIdx, h]

/-- The condition that is found satisfied is the oldest wait of its id, since whether a condition
holds depends on the id only. -/
theorem findIdx?_of_isSatisfied {replayer : Replayer workflow} {index : Nat}
    {condition : AwaitedCondition} (hget : replayer.conditions[index]? = some condition)
    (h : findIndex? replayer.isSatisfied 0 replayer.conditions = .ok (some index)) :
    replayer.conditions.findIdx? (fun wait => wait.id = condition.id) = some index := by
  obtain ⟨place, item, hplace, hitem, hholds, hbefore⟩ := findIndex?_eq_some h
  have hindex : index = place := by omega
  subst hindex
  have hsame : condition = item := by
    rw [hget] at hitem
    exact Option.some.inj hitem
  subst hsame
  obtain ⟨hlt, hvalue⟩ := List.getElem?_eq_some_iff.1 hget
  rw [List.findIdx?_eq_some_iff_getElem]
  refine ⟨hlt, by simp [hvalue], ?_⟩
  intro earlier hearlier heq
  -- an earlier wait of the same id would have been found first
  have hlt' : earlier < replayer.conditions.length := by omega
  have hother := hbefore earlier _ hearlier (List.getElem?_eq_getElem hlt')
  have hid : replayer.conditions[earlier].id = condition.id := by simpa using heq
  unfold isSatisfied at hother hholds
  rw [hid, hholds] at hother
  cases hother

theorem cancellations_of_findIdx? {waits : List AwaitedCondition} {condition : AwaitedCondition}
    {index : Nat} (hget : waits[index]? = some condition)
    (h : waits.findIdx? (fun wait => wait.id = condition.id) = some index) :
    HandlerCall.cancellations waits (.conditionResolved condition.id .satisfied) =
      if condition.hasTimer then [.cancelTimer (Command.conditionTimer condition.id)] else [] := by
  have hfind : waits.find? (fun wait => wait.id = condition.id) = some condition := by
    rw [List.find?_eq_bind_findIdx?_getElem?, h]
    exact hget
  unfold HandlerCall.cancellations
  simp only [hfind]
  cases hcondition : condition with
  | mk id hasTimer => cases hasTimer <;> simp

/-- Waits may be dropped once the run is asked to end. -/
theorem Accounts.dropWaits {start : workflow.State} {recorded : List Command}
    {replayer : Replayer workflow} (accounts : Accounts start recorded replayer)
    (hended : replayer.terminalPending = true) (conditions : List AwaitedCondition) :
    Accounts start recorded { replayer with conditions := conditions } where
  lead := accounts.lead
  emitted := accounts.emitted
  terminal := accounts.terminal
  waits := by
    intro hopen
    rw [hended] at hopen
    cases hopen
  silent := accounts.silent

/-- A call for a stimulus that does not concern the waits. -/
theorem Accounts.dispatch_plain {start : workflow.State} {recorded : List Command}
    {frame : ReplayFrame} {event : HistoryEvent} {replayer result : Replayer workflow}
    {stimulus : Stimulus} (accounts : Accounts start recorded replayer)
    (hclosed : replayer.closed = false)
    (hplain : ∀ conditionId outcome, stimulus ≠ .conditionResolved conditionId outcome)
    (h : Replayer.dispatch frame event replayer stimulus = .ok result) :
    Accounts start recorded result := by
  cases hterminal : replayer.terminalPending with
  | true =>
      rw [dispatch_of_terminal frame event stimulus hterminal] at h
      cases h
      exact accounts
  | false =>
      have hcancel : HandlerCall.cancellations replayer.conditions stimulus = [] := by
        unfold HandlerCall.cancellations
        split
        · exact absurd rfl (hplain _ _)
        · rfl
      have hremain : HandlerCall.remaining replayer.conditions stimulus = replayer.conditions := by
        unfold HandlerCall.remaining
        split
        · exact absurd rfl (hplain _ _)
        · rfl
      have hpending : replayer.pending =
          replayer.pending ++ HandlerCall.cancellations replayer.conditions stimulus := by
        rw [hcancel, List.append_nil]
      exact accounts.dispatch h hterminal rfl rfl hterminal hclosed hpending hremain.symm

theorem satisfy_closed {frame : ReplayFrame} {event : HistoryEvent}
    {replayer result : Replayer workflow} {index : Nat}
    (h : satisfy frame event replayer index = .ok result) : result.closed = replayer.closed := by
  unfold satisfy at h
  split at h
  · cases h
    rfl
  · rw [dispatch_closed h]
    split <;> simp

theorem conditionTimedOut_closed {frame : ReplayFrame} {event : HistoryEvent}
    {replayer result : Replayer workflow} {conditionId : String}
    (h : conditionTimedOut frame event replayer conditionId = .ok result) :
    result.closed = replayer.closed := by
  unfold conditionTimedOut at h
  split at h
  · cases h
    rfl
  · rw [dispatch_closed h]

/-- The call for a satisfied condition, after the one that cancels its timer was queued. -/
theorem Accounts.satisfy {start : workflow.State} {recorded : List Command} {frame : ReplayFrame}
    {event : HistoryEvent} {replayer result : Replayer workflow} {index : Nat}
    (accounts : Accounts start recorded replayer) (hclosed : replayer.closed = false)
    (hterminal : replayer.terminalPending = false)
    (hfound : findIndex? replayer.isSatisfied 0 replayer.conditions = .ok (some index))
    (h : Replayer.satisfy frame event replayer index = .ok result) :
    Accounts start recorded result := by
  unfold Replayer.satisfy at h
  cases hget : replayer.conditions[index]? with
  | none =>
      simp only [hget] at h
      cases h
      exact accounts
  | some condition =>
      simp only [hget] at h
      have hindex := findIdx?_of_isSatisfied hget hfound
      have hremain := remaining_of_findIdx? .satisfied hindex
      have hcancel := cancellations_of_findIdx? hget hindex
      cases htimer : condition.hasTimer with
      | false =>
          simp only [htimer, Bool.false_eq_true, if_false] at h hcancel
          exact accounts.dispatch h hterminal rfl rfl hterminal hclosed
            (by rw [hcancel, List.append_nil]) hremain.symm
      | true =>
          simp only [htimer, if_true] at h hcancel
          obtain ⟨hpending, hlast, hconditions⟩ := acceptCommand_of_open
            { replayer with conditions := replayer.conditions.eraseIdx index }
            (.cancelTimer (Command.conditionTimer condition.id)) hterminal
          exact accounts.dispatch h hterminal (by simp) (by simp) hlast (by simpa using hclosed)
            (by rw [hpending, hcancel]; rfl)
            (by rw [hconditions, hremain]; simp [Command.awaited?])

theorem Accounts.conditionTimedOut {start : workflow.State} {recorded : List Command}
    {frame : ReplayFrame} {event : HistoryEvent} {replayer result : Replayer workflow}
    {conditionId : String} (accounts : Accounts start recorded replayer)
    (hclosed : replayer.closed = false)
    (h : Replayer.conditionTimedOut frame event replayer conditionId = .ok result) :
    Accounts start recorded result := by
  unfold Replayer.conditionTimedOut at h
  split at h
  · cases h
    exact accounts
  · rename_i index hindex
    cases hterminal : replayer.terminalPending with
    | true =>
        rw [dispatch_of_terminal] at h
        · cases h
          exact accounts.dropWaits hterminal _
        · exact hterminal
    | false =>
        exact accounts.dispatch h hterminal rfl rfl hterminal hclosed
          (by simp [HandlerCall.cancellations]) (remaining_of_findIdx? .timedOut hindex).symm

theorem kept_accounts (start : workflow.State) (recorded : List Command) (frame : ReplayFrame)
    (event : HistoryEvent) :
    Kept frame event fun replayer =>
      replayer.closed = false ∧ Accounts start recorded replayer where
  noted := by
    intro replayer inbox awaited cancelRequested hold
    obtain ⟨hclosed, accounts⟩ := hold
    exact ⟨hclosed, accounts.same rfl rfl rfl rfl rfl⟩
  dispatched := by
    intro replayer result stimulus hplain hold h
    obtain ⟨hclosed, accounts⟩ := hold
    exact ⟨(dispatch_closed h).trans hclosed, accounts.dispatch_plain hclosed hplain h⟩
  satisfied := by
    intro replayer result index hterminal hfound hold h
    obtain ⟨hclosed, accounts⟩ := hold
    exact ⟨(satisfy_closed h).trans hclosed, accounts.satisfy hclosed hterminal hfound h⟩
  timedOut := by
    intro replayer result conditionId hold h
    obtain ⟨hclosed, accounts⟩ := hold
    exact ⟨(conditionTimedOut_closed h).trans hclosed, accounts.conditionTimedOut hclosed h⟩

end Replayer

end Chronicle
