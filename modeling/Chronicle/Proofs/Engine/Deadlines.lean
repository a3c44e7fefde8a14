import Chronicle.Proofs.Engine.Awaiting
import Chronicle.Proofs.Replay.Recalling
import Chronicle.Proofs.Replay.Settling

/-!
# Deadlines of conditions

A wait for a condition with a timeout starts a timer that is named after the condition.  As long as
nobody cancels that timer and the wait goes on, it is pending once its start is recorded; and when
it fires, the workflow is told that the time is up.
-/

namespace Chronicle

open HandlerCall

theorem Command.conditionOfTimer?_conditionTimer (conditionId : String) :
    conditionOfTimer? (conditionTimer conditionId) = some conditionId := by
  simp [conditionOfTimer?, conditionTimer, String.toList_append]

namespace Event

variable {event : Event} {timerId : String}

theorem timerNews?_eq_some_false (h : event.timerNews? timerId = some false) :
    event = .timerFired timerId ∨ event = .timerCancelled timerId := by
  cases event with
  | timerFired fired =>
      have hsame : fired = timerId := by simpa [timerNews?] using h
      exact .inl (hsame ▸ rfl)
  | timerCancelled cancelled =>
      have hsame : cancelled = timerId := by simpa [timerNews?] using h
      exact .inr (hsame ▸ rfl)
  | timerStarted started fireAt duration => simp [timerNews?] at h
  | _ => cases h

theorem timerNews?_eq_some_true (h : event.timerNews? timerId = some true) :
    ∃ fireAt duration, event = .timerStarted timerId fireAt duration := by
  cases event with
  | timerStarted started fireAt duration =>
      have hsame : started = timerId := by simpa [timerNews?] using h
      exact ⟨fireAt, duration, hsame ▸ rfl⟩
  | timerFired fired => simp [timerNews?] at h
  | timerCancelled cancelled => simp [timerNews?] at h
  | _ => cases h

theorem timerNews?_of_isProgress (h : event.isProgress = true) :
    event.timerNews? timerId = none := by
  cases event <;> first | rfl | cases h

theorem timerNews?_of_isForcedClose (h : event.isForcedClose = true) :
    event.timerNews? timerId = none := by
  cases event <;> first | rfl | cases h

theorem timerNews?_of_key? {duration : Span}
    (h : event.key? = (Command.startTimer timerId duration).key?) :
    event.timerNews? timerId = some true := by
  cases event <;> simp_all [key?, Command.key?, timerNews?]

end Event

/-- A timer that is pending has been started. -/
theorem Ledger.started_of_isTimerPending {history : List HistoryEvent} {timerId : String}
    (h : (ofHistory history).isTimerPending timerId = true) :
    ∃ fireAt duration,
      Event.timerStarted timerId fireAt duration ∈ history.map HistoryEvent.event := by
  induction history using List.reverseRecOn with
  | nil => cases h
  | append_singleton earlier event ih =>
      rw [ofHistory_append, List.foldl_cons, List.foldl_nil, isTimerPending_apply] at h
      rw [List.map_append]
      cases hnews : event.event.timerNews? timerId with
      | some running =>
          rw [hnews, Option.getD_some] at h
          obtain ⟨fireAt, duration, hevent⟩ := Event.timerNews?_eq_some_true (h ▸ hnews)
          exact ⟨fireAt, duration, List.mem_append_right _ (by simp [hevent])⟩
      | none =>
          rw [hnews, Option.getD_none] at h
          obtain ⟨fireAt, duration, hmem⟩ := ih h
          exact ⟨fireAt, duration, List.mem_append_left _ hmem⟩

/-- A timer that is pending no longer has fired, unless it was cancelled. -/
theorem Ledger.fired_of_gone {history more : List HistoryEvent} {timerId : String}
    (hpending : (ofHistory history).isTimerPending timerId = true)
    (hgone : (ofHistory (history ++ more)).isTimerPending timerId = false)
    (huncancelled : Event.timerCancelled timerId ∉ more.map HistoryEvent.event) :
    Event.timerFired timerId ∈ more.map HistoryEvent.event := by
  induction more using List.reverseRecOn with
  | nil => simp [hpending] at hgone
  | append_singleton earlier event ih =>
      rw [List.map_append, List.mem_append, not_or] at huncancelled
      rw [← List.append_assoc, ofHistory_append, List.foldl_cons, List.foldl_nil,
        isTimerPending_apply] at hgone
      rw [List.map_append]
      cases hnews : event.event.timerNews? timerId with
      | some running =>
          rw [hnews, Option.getD_some] at hgone
          have hfired := (Event.timerNews?_eq_some_false (hgone ▸ hnews)).resolve_right
            fun hcancelled => huncancelled.2 (by simp [hcancelled])
          exact List.mem_append_right _ (by simp [hfired])
      | none =>
          rw [hnews, Option.getD_none] at hgone
          exact List.mem_append_left _ (ih hgone huncancelled.1)

namespace Replayer

open Replay

variable {workflow : WorkflowType} {start : workflow.State} {recorded : List Command}
  {frame : ReplayFrame} {event : HistoryEvent} {replayer result : Replayer workflow} {limit : Nat}
  {history : List HistoryEvent} {conditionId : String} {running : Bool}

/-! ## Timers of conditions -/

/-- A wait with a timeout has its timer among the commands that are not recorded yet, if it is not
running. -/
def Timed (conditionId : String) (running : Bool) (replayer : Replayer workflow) : Prop :=
  replayer.terminalPending = false → ⟨conditionId, true⟩ ∈ replayer.conditions →
    (∃ duration, .startTimer (Command.conditionTimer conditionId) duration ∈ replayer.pending) ∨
      running = true

namespace Timed

theorem of_subset {after : Replayer workflow} (timed : Timed conditionId running replayer)
    (hterminal : after.terminalPending = replayer.terminalPending)
    (hconditions : after.conditions ⊆ replayer.conditions)
    (hpending : after.pending = replayer.pending) : Timed conditionId running after := by
  intro hopen hmem
  rw [hpending]
  exact timed (hterminal ▸ hopen) (hconditions hmem)

theorem acceptCommand (timed : Timed conditionId running replayer) (command : Command) :
    Timed conditionId running (replayer.acceptCommand command) := by
  cases hterminal : replayer.terminalPending with
  | true =>
      have hsame : replayer.acceptCommand command = replayer := by
        simp [Replayer.acceptCommand, hterminal]
      rw [hsame]
      exact timed
  | false =>
      obtain ⟨hpending, -, hconditions⟩ := acceptCommand_of_open replayer command hterminal
      intro _ hmem
      rw [hpending]
      rw [hconditions] at hmem
      rcases List.mem_append.1 hmem with hold | hnew
      · exact (timed hterminal hold).imp_left
          (Exists.imp fun _ hstart => List.mem_append_left _ hstart)
      · -- whoever begins to wait starts the timer
        cases command with
        | awaitCondition awaited timeout =>
            cases timeout with
            | none => simp [Command.awaited?] at hnew
            | some timeout =>
                have hsame : conditionId = awaited := by simpa [Command.awaited?] using hnew
                exact .inl ⟨timeout, by simp [Command.recorded, hsame]⟩
        | _ => simp [Command.awaited?] at hnew

theorem foldl_acceptCommand (commands : List Command) (timed : Timed conditionId running replayer) :
    Timed conditionId running (commands.foldl Replayer.acceptCommand replayer) := by
  induction commands generalizing replayer with
  | nil => exact timed
  | cons command rest ih => exact ih (timed.acceptCommand command)

theorem dispatch {stimulus : Stimulus} (timed : Timed conditionId running replayer)
    (h : Replayer.dispatch frame event replayer stimulus = .ok result) :
    Timed conditionId running result := by
  rcases dispatch_cases h with ⟨-, rfl⟩ | ⟨-, -, reaction, -, rfl⟩
  · exact timed
  · unfold afterCall
    rw [accept_eq_foldl]
    exact foldl_acceptCommand _ (timed.of_subset rfl (List.Subset.refl _) rfl)

theorem kept (conditionId : String) (running : Bool) (frame : ReplayFrame) (event : HistoryEvent) :
    Kept frame event (@Timed workflow conditionId running) where
  noted := fun _ _ _ _ timed => timed.of_subset rfl (List.Subset.refl _) rfl
  dispatched := fun _ _ _ _ timed h => timed.dispatch h
  satisfied := by
    intro replayer result index _ _ timed h
    unfold satisfy at h
    split at h
    · cases h
      exact timed
    · rename_i condition _
      have hfewer : Timed conditionId running
          { replayer with conditions := replayer.conditions.eraseIdx index } :=
        timed.of_subset rfl (List.eraseIdx_subset) rfl
      cases htimer : condition.hasTimer with
      | false =>
          simp only [htimer, Bool.false_eq_true, if_false] at h
          exact hfewer.dispatch h
      | true =>
          simp only [htimer, if_true] at h
          exact (hfewer.acceptCommand _).dispatch h
  timedOut := by
    intro replayer result resolved timed h
    unfold conditionTimedOut at h
    split at h
    · cases h
      exact timed
    · rename_i index _
      have hfewer : Timed conditionId running
          { replayer with conditions := replayer.conditions.eraseIdx index } :=
        timed.of_subset rfl (List.eraseIdx_subset) rfl
      exact hfewer.dispatch h

/-- The record of a start takes the timer from the queue, and sets it running. -/
theorem matchCommand {found : CommandKey} (timed : Timed conditionId running replayer)
    (hkey : event.event.key? = some found)
    (huncancelled : event.event ≠ .timerCancelled (Command.conditionTimer conditionId))
    (h : replayer.matchCommand event found = .ok result) :
    Timed conditionId
      ((event.event.timerNews? (Command.conditionTimer conditionId)).getD running) result := by
  obtain ⟨command, rest, hpending, hcommand, rfl⟩ := matchCommand_cases h
  intro hopen hmem
  rw [noteRecorded_terminalPending] at hopen
  rw [noteRecorded_conditions] at hmem
  rw [noteRecorded_pending]
  have hrunning : running = true →
      (event.event.timerNews? (Command.conditionTimer conditionId)).getD running = true := by
    intro hruns
    cases hnews : event.event.timerNews? (Command.conditionTimer conditionId) with
    | none => exact hruns
    | some news =>
        cases news with
        | true => rfl
        | false =>
            rcases Event.timerNews?_eq_some_false hnews with hfired | hcancelled
            · rw [hfired] at hkey
              cases hkey
            · exact absurd hcancelled huncancelled
  rcases timed hopen hmem with ⟨duration, hstart⟩ | hruns
  · rw [hpending] at hstart
    rcases List.mem_cons.1 hstart with hfirst | hrest
    · rw [← hfirst, ← hkey] at hcommand
      rw [Event.timerNews?_of_key? hcommand.symm]
      exact .inr rfl
    · exact .inl ⟨duration, hrest⟩
  · exact .inr (hrunning hruns)

theorem id_ne_of_alone {waits : List AwaitedCondition} {index : Nat}
    (halone : waits.countP (fun wait => wait.id = conditionId) ≤ 1)
    (hindex : waits.findIdx? (fun wait => wait.id = conditionId) = some index) :
    ∀ wait ∈ waits.eraseIdx index, wait.id ≠ conditionId := by
  intro wait hmem hid
  obtain ⟨hlt, hfound, -⟩ := List.findIdx?_eq_some_iff_getElem.1 hindex
  have hothers : 0 < (waits.eraseIdx index).countP fun wait => wait.id = conditionId :=
    List.countP_pos_iff.2 ⟨wait, hmem, by simpa using hid⟩
  have hcount := (List.getElem_cons_eraseIdx_perm hlt).countP_eq
    fun wait : AwaitedCondition => wait.id = conditionId
  rw [List.countP_cons, if_pos hfound] at hcount
  omega

/-- Whoever is told that the time is up waits no longer. -/
theorem conditionTimedOut (halone : replayer.terminalPending = false →
      replayer.conditions.countP (fun wait => wait.id = conditionId) ≤ 1)
    (h : Replayer.conditionTimedOut frame event replayer conditionId = .ok result) :
    Timed conditionId false result := by
  unfold Replayer.conditionTimedOut at h
  split at h
  · rename_i hnone
    cases h
    intro _ hmem
    have hother := List.findIdx?_eq_none_iff.1 hnone _ hmem
    simp at hother
  · rename_i index hindex
    have hnone : Timed conditionId false
        { replayer with conditions := replayer.conditions.eraseIdx index } :=
      fun hopen hmem => absurd rfl (id_ne_of_alone (halone hopen) hindex _ hmem)
    exact hnone.dispatch h

theorem timerFired (timed : Timed conditionId running replayer)
    (hstarted : running = true →
      Command.conditionTimer conditionId ∈ replayer.startedTimers)
    (huncancelled : Command.conditionTimer conditionId ∉ replayer.cancelledTimers)
    (halone : replayer.terminalPending = false →
      replayer.conditions.countP (fun wait => wait.id = conditionId) ≤ 1)
    (h : Replayer.timerFired frame event replayer (Command.conditionTimer conditionId) =
      .ok result) : Timed conditionId false result := by
  unfold Replayer.timerFired at h
  split at h
  · -- a timer that was never started still waits in the queue
    rename_i hunknown
    cases h
    intro hopen hmem
    refine (timed hopen hmem).imp_right fun hruns => ?_
    simp [huncancelled, hstarted hruns] at hunknown
  · rw [Command.conditionOfTimer?_conditionTimer] at h
    exact conditionTimedOut halone h

theorem apply (timed : Timed conditionId running replayer)
    (hstarted : running = true →
      Command.conditionTimer conditionId ∈ replayer.startedTimers)
    (huncancelled : Command.conditionTimer conditionId ∉ replayer.cancelledTimers)
    (hevent : event.event ≠ .timerCancelled (Command.conditionTimer conditionId))
    (halone : replayer.terminalPending = false →
      replayer.conditions.countP (fun wait => wait.id = conditionId) ≤ 1)
    (h : replayer.apply limit frame event = .ok result) :
    Timed conditionId
      ((event.event.timerNews? (Command.conditionTimer conditionId)).getD running) result := by
  cases apply_cases h with
  | recorded found hkey hmatched => exact timed.matchCommand hkey hevent hmatched
  | progress hkey hprogress hresult =>
      rw [Event.timerNews?_of_isProgress hprogress, hresult]
      exact timed
  | forced hkey hforced hresult =>
      rw [Event.timerNews?_of_isForcedClose hforced, hresult]
      exact timed.of_subset rfl (List.Subset.refl _) rfl
  | perceived hkey hforced middle hperceived hsettled =>
      cases hnews : event.event.timerNews? (Command.conditionTimer conditionId) with
      | none =>
          have kept := @kept workflow conditionId running frame event
          exact kept.settle (kept.perceive timed hperceived) hsettled
      | some news =>
          cases news with
          | true =>
              obtain ⟨fireAt, duration, hstart⟩ := Event.timerNews?_eq_some_true hnews
              rw [hstart] at hkey
              cases hkey
          | false =>
              have hfired := (Event.timerNews?_eq_some_false hnews).resolve_right hevent
              simp only [Replayer.perceive, hfired] at hperceived
              exact (kept conditionId false frame event).settle
                (timed.timerFired hstarted huncancelled halone hperceived) hsettled

/-- A wait that is alone under its id, and whose timer nobody cancels, has a timer that is pending
once its start is recorded. -/
theorem applyAll (hopen : ∀ event ∈ history, event.event.isClose = false)
    (huncancelled : Event.timerCancelled (Command.conditionTimer conditionId) ∉
      history.map HistoryEvent.event)
    (halone : ∀ calls, calls <+: replayer.calls →
      (waits calls).countP (fun wait => wait.id = conditionId) ≤ 1)
    (h : applyAll limit frame (.initial start) history = .ok replayer) :
    Timed conditionId
      ((Ledger.ofHistory history).isTimerPending (Command.conditionTimer conditionId))
      replayer := by
  induction history using List.reverseRecOn generalizing replayer with
  | nil =>
      cases h
      exact fun _ hmem => nomatch hmem
  | append_singleton earlier event ih =>
      have hearlier : ∀ other ∈ earlier, other.event.isClose = false :=
        fun other hmem => hopen other (List.mem_append_left _ hmem)
      rw [List.map_append, List.mem_append, not_or] at huncancelled
      obtain ⟨middle, hmiddle, -, happlied⟩ := applyAll_concat h hearlier
      obtain ⟨turn, -, hcalls, -⟩ := apply_turn happlied
      obtain ⟨_, _, -, -, accounts, -⟩ := (Accounts.initial start).applyAll rfl hmiddle
      have hinitial : middle.calls <+: replayer.calls := hcalls ▸ List.prefix_append _ _
      have recalls := Recalls.applyAll hearlier hmiddle
      have timed := ih hearlier huncancelled.1 (fun calls hinit =>
        halone calls (hinit.trans hinitial)) hmiddle
      rw [Ledger.ofHistory_append, List.foldl_cons, List.foldl_nil, Ledger.isTimerPending_apply]
      -- what the replayer has noted of timers is what its history says of them
      refine timed.apply ?_ ?_ ?_ ?_ happlied
      · exact fun hruns => (recalls.started _).2 (Ledger.started_of_isTimerPending hruns)
      · exact fun hmem => huncancelled.1 ((recalls.cancelled _).1 hmem)
      · simpa [eq_comm] using huncancelled.2
      · intro hstill
        rw [accounts.waits hstill]
        exact halone _ hinitial

end Timed

/-- The timer of a wait that goes on brings the news that the time is up. -/
theorem apply_timerFired (accounts : Accounts start recorded replayer)
    (hopen : replayer.closed = false) (hended : HandlerCall.ended replayer.calls = false)
    (hwait : ∃ wait ∈ waits replayer.calls, wait.id = conditionId)
    (hstarted : Command.conditionTimer conditionId ∈ replayer.startedTimers)
    (huncancelled : Command.conditionTimer conditionId ∉ replayer.cancelledTimers)
    (hevent : event.event = .timerFired (Command.conditionTimer conditionId))
    (h : replayer.apply limit frame event = .ok result) :
    ∃ call rest, result.calls = replayer.calls ++ call :: rest ∧
      call.stimulus = .conditionResolved conditionId .timedOut := by
  have hactive : replayer.terminalPending = false := accounts.terminal.trans hended
  have hindex : ∃ index,
      replayer.conditions.findIdx? (fun wait => wait.id = conditionId) = some index := by
    rw [← Option.isSome_iff_exists, List.findIdx?_isSome, accounts.waits hactive, List.any_eq_true]
    simpa using hwait
  obtain ⟨index, hindex⟩ := hindex
  cases apply_cases h with
  | recorded found hkey => simp [hevent, Event.key?] at hkey
  | progress _ hprogress => simp [hevent, Event.isProgress] at hprogress
  | forced _ hforced => simp [hevent, Event.isForcedClose] at hforced
  | perceived _ _ middle hperceived hsettled =>
      obtain ⟨settled, called, -⟩ := settle_settled hsettled
      simp only [perceive, hevent, timerFired, huncancelled, hstarted,
        Command.conditionOfTimer?_conditionTimer, conditionTimedOut, hindex,
        List.contains_eq_mem, decide_false, decide_true, Bool.not_true, Bool.or_self,
        Bool.false_eq_true, if_false] at hperceived
      rcases dispatch_cases hperceived with ⟨hidle, -⟩ | ⟨-, -, reaction, -, rfl⟩
      · simp [hactive, hopen] at hidle
      · refine ⟨⟨contextOf frame event, .conditionResolved conditionId .timedOut, reaction.step,
          reaction.drawn⟩, settled, ?_, rfl⟩
        rw [called.calls]
        simp [afterCall]

theorem Meets.timedOut {earlier turn : List HandlerCall}
    (meets : (Replayer.initial start).Meets limit frame history event earlier turn)
    (hevent : event.event = .timerFired (Command.conditionTimer conditionId))
    (hstarted : ∃ fireAt duration,
      Event.timerStarted (Command.conditionTimer conditionId) fireAt duration ∈
        history.map HistoryEvent.event)
    (huncancelled : Event.timerCancelled (Command.conditionTimer conditionId) ∉
      history.map HistoryEvent.event)
    (hended : HandlerCall.ended earlier = false)
    (hwait : ∃ wait ∈ waits earlier, wait.id = conditionId) :
    ∃ call rest, turn = call :: rest ∧
      call.stimulus = .conditionResolved conditionId .timedOut := by
  obtain ⟨middle, next, hmiddle, hopen, hnext, hbefore, hafter⟩ := meets
  obtain rfl : middle.calls = earlier := by simpa [Replayer.initial] using hbefore
  obtain ⟨_, _, -, -, accounts, hclosed⟩ := (Accounts.initial start).applyAll rfl hmiddle
  have recalls := Recalls.applyAll
    (fun other hmem => by simpa using List.any_eq_false.1 (hclosed ▸ hopen) other hmem) hmiddle
  obtain ⟨call, rest, hresult, hstimulus⟩ := apply_timerFired accounts hopen hended hwait
    ((recalls.started _).2 hstarted) (fun hmem => huncancelled ((recalls.cancelled _).1 hmem))
    hevent hnext
  rw [hafter, List.append_cancel_left_eq] at hresult
  exact ⟨call, rest, hresult, hstimulus⟩

end Replayer

/-! ## Replays -/

/-- The wait for the condition goes on with a timer whose start is recorded: the run is not about to
end, no other wait for the condition goes on beside it, and nobody has cancelled its timer. -/
structure ReplayOutcome.HasDeadline (outcome : ReplayOutcome) (history : List HistoryEvent)
    (conditionId : String) : Prop where
  active : ⟨conditionId, true⟩ ∈ waits outcome.calls
  ongoing : outcome.newCommands.any Command.isTerminal = false
  recorded : ∀ duration,
    .startTimer (Command.conditionTimer conditionId) duration ∉ outcome.newCommands
  alone : ∀ calls, calls <+: outcome.calls →
    registrations conditionId calls ≤ resolutions conditionId calls + 1
  uncancelled : Event.timerCancelled (Command.conditionTimer conditionId) ∉
    history.map HistoryEvent.event

theorem HandlerCall.Warranted.waits_le_one {workflow : WorkflowType} {start : workflow.State}
    {calls : List HandlerCall} {conditionId : String} (warranted : Warranted workflow start calls)
    (halone : ∀ earlier, earlier <+: calls →
      registrations conditionId earlier ≤ resolutions conditionId earlier + 1) :
    ∀ earlier, earlier <+: calls →
      (waits earlier).countP (fun wait => wait.id = conditionId) ≤ 1 := by
  intro earlier hinit
  have htally := (warranted.of_prefix hinit).condition_tally conditionId
  have hle := halone earlier hinit
  omega

namespace Replay

/-- How a replay that returns ends the waits for a condition. -/
structure KeepsDeadlines (frame : ReplayFrame) (history : List HistoryEvent)
    (outcome : ReplayOutcome) (turns : List (List HandlerCall)) (conditionId : String) : Prop where
  caused : List.Forall₂ (Turn frame) (upToClose history) turns
  calls : turns.flatten = outcome.calls
  /-- Nobody is told of the condition more often than it was asked for before. -/
  warranted : ∀ earlier call, earlier ++ [call] <+: outcome.calls →
    resolutions conditionId (earlier ++ [call]) ≤ registrations conditionId earlier
  /-- Each wait goes on, or was ended by one call. -/
  once : ∀ calls, calls <+: outcome.calls →
    (waits calls).countP (fun wait => wait.id = conditionId) + resolutions conditionId calls =
      registrations conditionId calls
  /-- If its timer fires while a wait goes on, the workflow is told at once. -/
  timedOut : ∀ place event, (upToClose history)[place]? = some event →
    event.event = .timerFired (Command.conditionTimer conditionId) →
    (∃ fireAt duration, Event.timerStarted (Command.conditionTimer conditionId) fireAt duration ∈
      (history.take place).map HistoryEvent.event) →
    Event.timerCancelled (Command.conditionTimer conditionId) ∉
      (history.take place).map HistoryEvent.event →
    HandlerCall.ended (turns.take place).flatten = false →
    (∃ wait ∈ waits (turns.take place).flatten, wait.id = conditionId) →
    ∃ call rest, turns[place]? = some (call :: rest) ∧
      call.stimulus = .conditionResolved conditionId .timedOut
  pending : (∀ event ∈ history, event.event.isClose = false) →
    outcome.HasDeadline history conditionId →
    (Ledger.ofHistory history).isTimerPending (Command.conditionTimer conditionId) = true

theorem replay_keepsDeadlines {limit : Nat} {registry : WorkflowRegistry} {ref : RunRef}
    {history : List HistoryEvent} {outcome : ReplayOutcome}
    (h : replay limit registry ref history = .ok outcome) (conditionId : String) :
    ∃ workflowType attempt turns,
      KeepsDeadlines ⟨ref, workflowType, attempt, horizon history⟩ history outcome turns
        conditionId := by
  obtain ⟨workflowType, input, taskQueue, attempt, parent, options, workflow, start, replayer,
    -, -, -, happlied, houtcome⟩ := eq_ok_of_replay h
  subst houtcome
  have hinitial : (Replayer.initial start).Rests := by
    intro _ _
    simp [Replayer.initial]
  obtain ⟨-, -, -, -, hserves, -⟩ :=
    (Replayer.Serves.initial start).applyAll hinitial (.initial start) rfl happlied
  obtain ⟨_, _, -, -, accounts, hclosed⟩ := (Replayer.Accounts.initial start).applyAll rfl happlied
  obtain ⟨turns, hturns, hcalls, hplaces⟩ := Replayer.applyAll_places (.initial start) rfl happlied
  have hcalls : turns.flatten = replayer.calls := by simpa [Replayer.initial] using hcalls.symm
  have hwarranted := hserves.warranted
  refine ⟨workflowType, attempt, turns, ?_⟩
  constructor
  case caused => exact hturns
  case calls => exact hcalls
  case warranted => exact fun earlier call hcall => hwarranted.resolutions_le conditionId hcall
  case once => exact fun calls hinit => (hwarranted.of_prefix hinit).condition_tally conditionId
  case timedOut =>
    intro place event hplace hevent hstarted huncancelled hended hwait
    obtain ⟨turn, hturn, meets⟩ := hplaces place event hplace
    obtain ⟨call, rest, rfl, hstimulus⟩ :=
      meets.timedOut hevent hstarted huncancelled hended hwait
    exact ⟨call, rest, hturn, hstimulus⟩
  case pending =>
    intro hplain deadline
    have hopen : replayer.closed = false := by
      rw [hclosed, List.any_eq_false]
      exact fun event hmem => by simp [hplain event hmem]
    have hactive : replayer.terminalPending = false := by
      rw [Replayer.terminalPending_of_applyAll happlied hopen]
      simpa [hopen] using deadline.ongoing
    have timed := Replayer.Timed.applyAll hplain deadline.uncancelled
      (hwarranted.waits_le_one deadline.alone) happlied
    refine (timed hactive ?_).resolve_left ?_
    · rw [accounts.waits hactive]
      exact deadline.active
    · rintro ⟨duration, hmem⟩
      exact deadline.recorded duration (by simpa [hopen] using hmem)

end Replay

end Chronicle
