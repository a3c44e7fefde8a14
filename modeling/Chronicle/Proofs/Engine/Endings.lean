import Chronicle.Proofs.Engine.Protocol
import Chronicle.Proofs.Engine.Undertakings

/-!
# Replays tell of ends

A replay tells workflow code of the end of a timer or an activity that the ledger waited for, once
and at once, unless a record before it takes the timer or the activity back.  It goes on with such
an event only when all commands are recorded that were emitted before the last record.
-/

namespace Chronicle

open HandlerCall

/-! ## Emitted commands -/

namespace Command

theorem untilTerminal_of_none {commands : List Command} (h : commands.any isTerminal = false) :
    untilTerminal commands = commands := by
  induction commands with
  | nil => rfl
  | cons command rest ih =>
      rw [List.any_cons, Bool.or_eq_false_iff] at h
      rw [untilTerminal, h.1, if_neg Bool.false_ne_true, ih h.2]

theorem untilTerminal_of_open {commands : List Command}
    (h : (untilTerminal commands).any isTerminal = false) : untilTerminal commands = commands := by
  induction commands with
  | nil => rfl
  | cons command rest ih =>
      unfold untilTerminal at h ⊢
      split at h
      · rename_i hterminal
        simp [hterminal] at h
      · rw [List.any_cons, Bool.or_eq_false_iff] at h
        rw [if_neg (by simpa using h.1), ih h.2]

end Command

namespace HandlerCall

variable {first second earlier : List HandlerCall} {call : HandlerCall} {early late : List Command}

theorem emittedFrom_append (start : List AwaitedCondition) (first second : List HandlerCall) :
    emittedFrom start (first ++ second) =
      emittedFrom start first ++ emittedFrom (first.foldl waitsAfter start) second := by
  induction first generalizing start with
  | nil => rfl
  | cons call rest ih => simp [emittedFrom, ih]

theorem emitted_mono (h : first <+: second) : emitted first <+: emitted second := by
  obtain ⟨rest, rfl⟩ := h
  unfold emitted
  rw [emittedFrom_append, Command.untilTerminal_append]
  split
  · exact List.prefix_rfl
  · exact List.prefix_append _ _

theorem ended_of_initial (h : first <+: second) (hopen : ended second = false) :
    ended first = false := by
  unfold ended at *
  rw [List.any_eq_false] at *
  exact fun command hmem => hopen command ((emitted_mono h).subset hmem)

theorem emitted_of_open (hopen : ended first = false) : emitted first = emittedFrom [] first :=
  Command.untilTerminal_of_open hopen

/-- What calls emit, split at a command that one of them returned. -/
theorem emitted_split {command : Command} {after : List HandlerCall}
    (hopen : ended (earlier ++ call :: after) = false)
    (hstep : Step.commands call.step = early ++ command :: late)
    (hrecorded : command.recorded = [command]) :
    emitted (earlier ++ call :: after) =
      emitted (earlier ++ [{ call with step := .ok early }]) ++
        command :: (late.flatMap Command.recorded ++
          emittedFrom (waits (earlier ++ [call])) after) := by
  have hwhole : emittedFrom [] (earlier ++ call :: after) =
      emittedFrom [] (earlier ++ [{ call with step := .ok early }]) ++
        command :: (late.flatMap Command.recorded ++
          emittedFrom (waits (earlier ++ [call])) after) := by
    have hearly : Step.commands (.ok early) = early := rfl
    rw [waits_concat]
    simp only [emittedFrom_append, emittedFrom, emits, hstep, hearly, waits, List.flatMap_append,
      List.flatMap_cons, hrecorded, List.append_assoc, List.append_nil, List.cons_append,
      List.nil_append]
  have hall := emitted_of_open hopen
  unfold ended at hopen
  rw [hall, hwhole, List.any_append, Bool.or_eq_false_iff] at hopen
  rw [hall, hwhole, emitted, Command.untilTerminal_of_none hopen.1]

end HandlerCall

namespace Replayer

open Replay

variable {workflow : WorkflowType} {start : workflow.State} {recorded : List Command}
  {frame : ReplayFrame} {event : HistoryEvent} {replayer result : Replayer workflow} {limit : Nat}
  {history : List HistoryEvent} {subject : Undertaking} {stimulus : Stimulus}
  {earlier turn : List HandlerCall}

/-! ## Activities that history has cancelled -/

def cancelledAfter (cancelled : List String) : Event → List String
  | .activityCancelled activityId => activityId :: cancelled
  | _ => cancelled

theorem cancelledAfter_of_keyless {event : Event} (h : event.key? = none)
    (cancelled : List String) : cancelledAfter cancelled event = cancelled := by
  cases event <;> first | rfl | cases h

theorem apply_cancelledActivities (h : replayer.apply limit frame event = .ok result) :
    result.cancelledActivities = cancelledAfter replayer.cancelledActivities event.event := by
  cases apply_cases h with
  | recorded found hkey hmatched =>
      obtain ⟨command, rest, -, -, rfl⟩ := matchCommand_cases hmatched
      unfold noteRecorded
      cases event.event <;> simp only [cancelledAfter] <;> split <;> rfl
  | progress hkey _ hresult => rw [hresult, cancelledAfter_of_keyless hkey]
  | forced hkey _ hresult =>
      rw [hresult, cancelledAfter_of_keyless hkey]
  | perceived hkey _ middle hperceived hsettled =>
      have kept := @kept_part workflow _ cancelledActivities (fun _ _ _ _ _ _ _ _ _ => rfl) frame
        event replayer.cancelledActivities
      rw [cancelledAfter_of_keyless hkey]
      exact kept.settle (kept.perceive rfl hperceived) hsettled

theorem mem_cancelledActivities (hopen : ∀ event ∈ history, event.event.isClose = false)
    (h : applyAll limit frame (.initial start) history = .ok replayer) (activityId : String) :
    activityId ∈ replayer.cancelledActivities ↔
      Event.activityCancelled activityId ∈ history.map HistoryEvent.event := by
  induction history using List.reverseRecOn generalizing replayer with
  | nil =>
      cases h
      simp [Replayer.initial]
  | append_singleton earlier event ih =>
      have hearlier : ∀ other ∈ earlier, other.event.isClose = false :=
        fun other hmem => hopen other (List.mem_append_left _ hmem)
      obtain ⟨middle, hmiddle, -, happlied⟩ := applyAll_concat h hearlier
      rw [apply_cancelledActivities happlied, List.map_append, List.map_singleton,
        List.mem_append, List.mem_singleton, ← ih hearlier hmiddle]
      cases event.event <;> simp [cancelledAfter, or_comm]

theorem isIgnored_of_cancelled (hopen : ∀ event ∈ history, event.event.isClose = false)
    (h : applyAll limit frame (.initial start) history = .ok replayer)
    (hcancelled : subject.cancelled ∈ history.map HistoryEvent.event) :
    subject.isIgnored replayer = true := by
  cases subject with
  | timer timerId =>
      have hmem := ((Recalls.applyAll hopen h).cancelled timerId).2 hcancelled
      simp [Undertaking.isIgnored, hmem]
  | activity activityId =>
      have hmem := (mem_cancelledActivities hopen h activityId).2 hcancelled
      simp [Undertaking.isIgnored, hmem]

/-- What is live is ignored only if it was cancelled. -/
theorem not_isIgnored_of_isLive (hopen : ∀ event ∈ history, event.event.isClose = false)
    (h : applyAll limit frame (.initial start) history = .ok replayer)
    (hlive : subject.isLive (Ledger.ofHistory history) = true)
    (huncancelled : subject.cancelled ∉ history.map HistoryEvent.event) :
    subject.isIgnored replayer = false := by
  cases subject with
  | timer timerId =>
      have recalls := Recalls.applyAll hopen h
      have hstarted := (recalls.started timerId).2 (Ledger.started_of_isTimerPending hlive)
      have hnot := mt (recalls.cancelled timerId).1 huncancelled
      simp [Undertaking.isIgnored, hstarted, hnot]
  | activity activityId =>
      have hnot := mt (mem_cancelledActivities hopen h activityId).1 huncancelled
      simp [Undertaking.isIgnored, hnot]

/-! ## The call for an end -/

theorem perceive_of_ended (hended : event.event.ended? = some subject)
    (hstimulus : event.event.stimulus? = some stimulus) :
    perceive frame event replayer =
      if subject.isIgnored replayer then .ok replayer
      else dispatch frame event replayer stimulus := by
  obtain ⟨eventId, timestamp, format, event⟩ := event
  cases event with
  | timerFired timerId =>
      simp only [Event.ended?, Option.isNone_iff_eq_none, Option.ite_none_right_eq_some,
        Option.some.injEq] at hended
      obtain ⟨hnone, rfl⟩ := hended
      simp only [Event.stimulus?, hnone, Option.some.injEq] at hstimulus
      subst hstimulus
      simp only [perceive, timerFired, hnone]
      rfl
  | activityCompleted activityId attempt outcome =>
      cases hended
      cases hstimulus
      rfl
  | activityFailed activityId attempt failure willRetry exhausted =>
      simp only [Event.ended?, Option.ite_none_left_eq_some, Option.some.injEq] at hended
      obtain ⟨-, rfl⟩ := hended
      cases hstimulus
      rfl
  | activityTimedOut activityId attempt timeout willRetry exhausted =>
      simp only [Event.ended?, Option.ite_none_left_eq_some, Option.some.injEq] at hended
      obtain ⟨-, rfl⟩ := hended
      cases hstimulus
      rfl
  | _ => cases hended

theorem apply_of_ended (hended : event.event.ended? = some subject)
    (h : replayer.apply limit frame event = .ok result) :
    ∃ middle, perceive frame event replayer = .ok middle ∧
      settle frame event limit middle = .ok result := by
  obtain ⟨hkey, hprogress, hforced, -⟩ := Event.facts_of_ended? hended
  cases apply_cases h with
  | recorded found hfound => simp [hkey] at hfound
  | progress _ h => simp [hprogress] at h
  | forced _ h => simp [hforced] at h
  | perceived _ _ middle hperceived hsettled => exact ⟨middle, hperceived, hsettled⟩

theorem apply_of_isProgress (hprogress : event.event.isProgress = true)
    (h : replayer.apply limit frame event = .ok result) : result = replayer := by
  have hkey : event.event.key? = none := by
    revert hprogress
    cases event.event <;> simp [Event.isProgress, Event.key?]
  simp only [apply, hkey, hprogress, if_true] at h
  exact (Except.ok.inj h).symm

/-- The replayer that meets the event; the run is open until then. -/
theorem Meets.opened (meets : (Replayer.initial start).Meets limit frame history event earlier turn) :
    ∃ middle next recorded, applyAll limit frame (.initial start) history = .ok middle ∧
      Accounts start recorded middle ∧ middle.closed = false ∧
      (∀ other ∈ history, other.event.isClose = false) ∧
      middle.apply limit frame event = .ok next ∧ middle.calls = earlier ∧
      next.calls = earlier ++ turn := by
  obtain ⟨middle, next, hmiddle, hopen, hnext, hbefore, hafter⟩ := meets
  obtain ⟨_, recorded, -, -, accounts, hclosed⟩ := (Accounts.initial start).applyAll rfl hmiddle
  obtain rfl : middle.calls = earlier := by simpa [Replayer.initial] using hbefore
  refine ⟨middle, next, [] ++ recorded, hmiddle, accounts, hopen, ?_, hnext, rfl, hafter⟩
  intro other hmem
  simpa using List.any_eq_false.1 (hclosed ▸ hopen) other hmem

/-- The event that a replay meets reaches workflow code at once. -/
theorem Meets.told (meets : (Replayer.initial start).Meets limit frame history event earlier turn)
    (hended : event.event.ended? = some subject)
    (hlive : subject.isLive (Ledger.ofHistory history) = true)
    (huncancelled : subject.cancelled ∉ history.map HistoryEvent.event)
    (hactive : HandlerCall.ended earlier = false) :
    ∃ call rest, turn = call :: rest ∧ event.event.stimulus? = some call.stimulus ∧
      ∀ other ∈ rest, other.stimulus.isSettling = true := by
  obtain ⟨middle, next, _, hmiddle, accounts, hopen, hplain, hnext, rfl, hafter⟩ := meets.opened
  have hheeded := not_isIgnored_of_isLive hplain hmiddle hlive huncancelled
  obtain ⟨-, -, -, -, -, stimulus, hstimulus, -⟩ := Event.facts_of_ended? hended
  obtain ⟨after, hperceived, hsettled⟩ := apply_of_ended hended hnext
  rw [perceive_of_ended hended hstimulus, hheeded, if_neg Bool.false_ne_true] at hperceived
  obtain ⟨settled, called, -⟩ := settle_settled hsettled
  rcases dispatch_cases hperceived with ⟨hidle, -⟩ | ⟨-, -, reaction, -, rfl⟩
  · rw [accounts.terminal, hactive, hopen] at hidle
    simp at hidle
  · refine ⟨⟨contextOf frame event, stimulus, reaction.step, reaction.drawn⟩, settled, ?_,
      hstimulus, called.kind⟩
    have hcalls := called.calls
    simp only [afterCall, accept_calls] at hcalls
    rw [hafter, List.append_assoc, List.append_cancel_left_eq] at hcalls
    exact hcalls

/-- Workflow code does not hear of what was cancelled before. -/
theorem Meets.untold (meets : (Replayer.initial start).Meets limit frame history event earlier turn)
    (hended : event.event.ended? = some subject)
    (hcancelled : subject.cancelled ∈ history.map HistoryEvent.event) :
    ∀ call ∈ turn, call.stimulus.isSettling = true := by
  obtain ⟨middle, next, _, hmiddle, -, -, hplain, hnext, rfl, hafter⟩ := meets.opened
  have hignored := isIgnored_of_cancelled hplain hmiddle hcancelled
  obtain ⟨-, -, -, -, -, stimulus, hstimulus, -⟩ := Event.facts_of_ended? hended
  obtain ⟨after, hperceived, hsettled⟩ := apply_of_ended hended hnext
  rw [perceive_of_ended hended hstimulus, hignored, if_pos rfl] at hperceived
  cases hperceived
  obtain ⟨settled, called, -⟩ := settle_settled hsettled
  have hcalls := called.calls
  rw [hafter, List.append_cancel_left_eq] at hcalls
  rw [hcalls]
  exact called.kind

/-- Only an end that was not cancelled before makes a replay tell of it. -/
theorem Meets.ended_of_call
    (meets : (Replayer.initial start).Meets limit frame history event earlier turn)
    (hturn : Turn frame event turn) {call : HandlerCall} (hmem : call ∈ turn)
    (htold : call.stimulus.ended? = some subject) :
    event.event.ended? = some subject ∧ event.event.stimulus? = some call.stimulus ∧
      subject.cancelled ∉ history.map HistoryEvent.event ∧ ∃ rest, turn = call :: rest := by
  have hdirect : call.stimulus.isSettling = false := by
    rw [← Bool.not_eq_true]
    intro hsettling
    rw [Stimulus.ended?_of_isSettling hsettling] at htold
    cases htold
  have hstimulus : event.event.stimulus? = some call.stimulus :=
    (hturn.stimuli call hmem).resolve_right (by simp [hdirect])
  have hprogress : event.event.isProgress = false := by
    obtain ⟨middle, next, -, -, hnext, -, hafter⟩ := meets
    rw [← Bool.not_eq_true]
    intro hprogress
    rw [apply_of_isProgress hprogress hnext, List.self_eq_append_right] at hafter
    rw [hafter] at hmem
    cases hmem
  have hended := Event.ended?_of_stimulus? hstimulus htold hprogress
  refine ⟨hended, hstimulus, fun hcancelled => ?_, ?_⟩
  · rw [meets.untold hended hcancelled call hmem] at hdirect
    cases hdirect
  · cases turn with
    | nil => cases hmem
    | cons first rest =>
        rcases List.mem_cons.1 hmem with rfl | hrest
        · exact ⟨rest, rfl⟩
        · rw [hturn.once call hrest] at hdirect
          cases hdirect

/-! ## Decisions are recorded as a whole -/

/-- Between the records of one decision no other event can be met. -/
theorem draining_or_pending (hkey : event.event.key? = none)
    (hprogress : event.event.isProgress = false) (hforced : event.event.isForcedClose = false)
    (h : replayer.apply limit frame event = .ok result) :
    replayer.draining = false ∨ replayer.pending = [] := by
  simp only [apply, hkey, hprogress, hforced, Bool.false_eq_true, if_false] at h
  split at h
  · cases h
  · rename_i hwhole
    cases hdraining : replayer.draining with
    | false => exact .inl rfl
    | true => exact .inr (by simpa [hdraining] using hwhole)

theorem apply_draining (hkey : event.event.key? = none)
    (h : replayer.apply limit frame event = .ok result) : result.draining = replayer.draining := by
  cases apply_cases h with
  | recorded found hfound => simp [hkey] at hfound
  | progress _ _ hresult => rw [hresult]
  | forced _ _ hresult => rw [hresult]
  | perceived _ _ middle hperceived hsettled =>
      have kept := @kept_part workflow _ Replayer.draining (fun _ _ _ _ _ _ _ _ _ => rfl) frame
        event replayer.draining
      exact kept.settle (kept.perceive rfl hperceived) hsettled

/-- The commands that are recorded, one for each record. -/
theorem exists_accounts (hopen : ∀ event ∈ history, event.event.isClose = false)
    (h : applyAll limit frame (.initial start) history = .ok replayer) :
    ∃ recorded, Accounts start recorded replayer ∧
      recorded.length = (recordedKeys history).length ∧
      recorded.map Command.key? = (recordedKeys history).map some := by
  obtain ⟨turns, commands, trace, -, accounts, -⟩ := (Accounts.initial start).applyAll rfl h
  have hplain : (history.any fun event => event.event.isClose) = false :=
    List.any_eq_false.2 fun event hmem => by simp [hopen event hmem]
  have hkeys := trace.keys
  rw [upToClose_of_open hplain] at hkeys
  exact ⟨commands, by simpa using accounts, by simpa using congrArg List.length hkeys, hkeys⟩

/-- What is recorded was emitted before. -/
theorem recordedKeys_emitted (hopen : ∀ event ∈ history, event.event.isClose = false)
    (h : applyAll limit frame (.initial start) history = .ok replayer) :
    recordedKeys history <+: emittedKeys replayer.calls := by
  obtain ⟨recorded, accounts, -, hkeys⟩ := exists_accounts hopen h
  rw [emittedKeys, accounts.emitted, List.filterMap_append, filterMap_key?_eq hkeys]
  exact List.prefix_append _ _

theorem calls_take_mono {place : Nat} {middle : Replayer workflow}
    (hopen : ∀ event ∈ history, event.event.isClose = false)
    (hmiddle : applyAll limit frame (.initial start) (history.take place) = .ok middle)
    (h : applyAll limit frame (.initial start) history = .ok replayer) :
    middle.calls <+: replayer.calls := by
  obtain ⟨_, _, -, -, accounts, hclosed⟩ := (Accounts.initial start).applyAll rfl hmiddle
  rw [List.any_eq_false.2 fun event hmem => by simp [hopen event (List.mem_of_mem_take hmem)]]
    at hclosed
  rw [← List.take_append_drop place history, applyAll_append _ rfl, hmiddle] at h
  simp only [hclosed, Bool.false_eq_true, if_false] at h
  obtain ⟨turns, _, -, hcalls, -, -⟩ := accounts.applyAll hclosed h
  exact ⟨turns.flatten, hcalls.symm⟩

/-- When the records of a decision are complete, all commands are recorded that were emitted before
one of the records. -/
theorem emitted_le_recorded {place : Nat} {record : HistoryEvent} {middle : Replayer workflow}
    (hopen : ∀ event ∈ history, event.event.isClose = false)
    (h : applyAll limit frame (.initial start) history = .ok replayer)
    (hrecord : history[place]? = some record) (hkey : record.event.key?.isSome = true)
    (hmiddle : applyAll limit frame (.initial start) (history.take place) = .ok middle)
    (hwhole : replayer.draining = false) :
    (emitted middle.calls).length ≤ (recordedKeys history).length := by
  induction history using List.reverseRecOn generalizing replayer with
  | nil => cases hrecord
  | append_singleton earlier event ih =>
      have hearlier : ∀ other ∈ earlier, other.event.isClose = false :=
        fun other hmem => hopen other (List.mem_append_left _ hmem)
      obtain ⟨before, hbefore, -, happlied⟩ := applyAll_concat h hearlier
      have hplace : place ≤ earlier.length := by
        have := (List.getElem?_eq_some_iff.1 hrecord).1
        simp only [List.length_append, List.length_singleton] at this
        omega
      rw [List.take_append_of_le_length hplace] at hmiddle
      have hkeys : recordedKeys (earlier ++ [event]) = recordedKeys earlier ++ recordedKeys [event] :=
        List.filterMap_append
      cases hfound : event.event.key? with
      | some found =>
          -- the last record is complete, so nothing that was emitted before it is left
          cases apply_cases happlied with
          | recorded found hfound hmatched =>
              obtain ⟨command, rest, hpending, -, rfl⟩ := matchCommand_cases hmatched
              obtain ⟨recorded, accounts, hlength, -⟩ := exists_accounts hearlier hbefore
              have hrest : rest = [] := by simpa using hwhole
              have hemitted := congrArg List.length accounts.emitted
              rw [hpending, hrest, List.length_append, List.length_singleton, hlength] at hemitted
              have hprefix := (emitted_mono (calls_take_mono hearlier hmiddle hbefore)).length_le
              have hone : (recordedKeys [event]).length = 1 := by simp [recordedKeys, hfound]
              rw [hkeys, List.length_append, hone]
              omega
          | progress hnone => simp [hfound] at hnone
          | forced hnone => simp [hfound] at hnone
          | perceived hnone => simp [hfound] at hnone
      | none =>
          have hnone : recordedKeys [event] = [] := by simp [recordedKeys, hfound]
          rw [hkeys, hnone, List.append_nil]
          refine ih hearlier hbefore ?_ hmiddle (apply_draining hfound happlied ▸ hwhole)
          rcases Nat.lt_or_ge place earlier.length with hlt | hge
          · rwa [List.getElem?_append_left hlt] at hrecord
          · rw [List.getElem?_append_right hge, show place - earlier.length = 0 by omega] at hrecord
            cases hrecord
            simp [hfound] at hkey

theorem Meets.backed (meets : (Replayer.initial start).Meets limit frame history event earlier turn) :
    recordedKeys history <+: emittedKeys earlier := by
  obtain ⟨before, -, -, hbefore, -, -, hplain, -, rfl, -⟩ := meets.opened
  exact recordedKeys_emitted hplain hbefore

/-- An end is met when everything is recorded that was emitted before the last record. -/
theorem Meets.whole (meets : (Replayer.initial start).Meets limit frame history event earlier turn)
    (hended : event.event.ended? = some subject) {place : Nat} {record : HistoryEvent}
    {middle : Replayer workflow} (hrecord : history[place]? = some record)
    (hkey : record.event.key?.isSome = true)
    (hmiddle : applyAll limit frame (.initial start) (history.take place) = .ok middle) :
    (emitted middle.calls).length ≤ (recordedKeys history).length := by
  obtain ⟨before, next, _, hbefore, -, -, hplain, hnext, -, -⟩ := meets.opened
  obtain ⟨hkeyless, hprogress, hforced, -⟩ := Event.facts_of_ended? hended
  rcases draining_or_pending hkeyless hprogress hforced hnext with hwhole | hpending
  · exact emitted_le_recorded hplain hbefore hrecord hkey hmiddle hwhole
  · obtain ⟨recorded, accounts, hlength, -⟩ := exists_accounts hplain hbefore
    have hemitted := congrArg List.length accounts.emitted
    rw [hpending, List.append_nil, hlength] at hemitted
    rw [← hemitted]
    exact (emitted_mono (calls_take_mono hplain hmiddle hbefore)).length_le

end Replayer

/-! ## Replays -/

namespace Replay

theorem upToClose_prefix (history : List HistoryEvent) : upToClose history <+: history := by
  induction history with
  | nil => exact List.prefix_rfl
  | cons event rest ih =>
      unfold upToClose
      split
      · exact ⟨rest, rfl⟩
      · exact (List.prefix_cons_inj event).2 ih

/-- A history that closes with its last event is looked at as a whole. -/
theorem upToClose_of_inner {history : List HistoryEvent}
    (hinner : ∀ event ∈ history.dropLast, event.event.isClose = false) :
    upToClose history = history := by
  induction history with
  | nil => rfl
  | cons event rest ih =>
      cases rest with
      | nil =>
          unfold upToClose
          split <;> rfl
      | cons next rest =>
          have hevent := hinner event (by simp)
          have hrest := ih fun other hmem => hinner other (by simp [hmem])
          unfold upToClose
          rw [hevent, if_neg Bool.false_ne_true, hrest]

/-- The turn that a call belongs to. -/
theorem exists_place {α : Type} {turns : List (List α)} {before after : List α} {item : α}
    (h : turns.flatten = before ++ item :: after) :
    ∃ place turn front back, turns[place]? = some turn ∧ turn = front ++ item :: back ∧
      before = (turns.take place).flatten ++ front := by
  induction turns generalizing before with
  | nil => simp at h
  | cons turn rest ih =>
      rw [List.flatten_cons] at h
      rcases append_eq_split h with ⟨back, -, hturn⟩ | ⟨front, hbefore, hrest⟩
      · exact ⟨0, turn, before, back, rfl, hturn, rfl⟩
      · obtain ⟨place, later, first, back, hget, hlater, hfront⟩ := ih hrest
        exact ⟨place + 1, later, first, back, hget, hlater, by simp [hbefore, hfront]⟩

/-- How a replay that returns tells workflow code of ends. -/
structure TellsOfEnds (frame : ReplayFrame) (history : List HistoryEvent) (outcome : ReplayOutcome)
    (turns : List (List HandlerCall)) : Prop where
  caused : List.Forall₂ (Turn frame) (upToClose history) turns
  calls : turns.flatten = outcome.calls
  /-- An end that was waited for is told of at once, unless the run is about to end. -/
  told : ∀ place event subject, (upToClose history)[place]? = some event →
    event.event.ended? = some subject →
    subject.isLive (Ledger.ofHistory (history.take place)) = true →
    subject.cancelled ∉ (history.take place).map HistoryEvent.event →
    ended (turns.take place).flatten = false →
    ∃ call rest, turns[place]? = some (call :: rest) ∧
      event.event.stimulus? = some call.stimulus ∧ ∀ other ∈ rest, other.stimulus.isSettling = true
  /-- What was cancelled before is not told of. -/
  untold : ∀ place event subject, (upToClose history)[place]? = some event →
    event.event.ended? = some subject →
    subject.cancelled ∈ (history.take place).map HistoryEvent.event →
    ∃ turn, turns[place]? = some turn ∧ ∀ call ∈ turn, call.stimulus.isSettling = true
  /-- Nothing else is told of. -/
  source : ∀ earlier call later subject, outcome.calls = earlier ++ call :: later →
    call.stimulus.ended? = some subject →
    ∃ place event rest, (upToClose history)[place]? = some event ∧
      event.event.ended? = some subject ∧ event.event.stimulus? = some call.stimulus ∧
      subject.cancelled ∉ (history.take place).map HistoryEvent.event ∧
      turns[place]? = some (call :: rest) ∧ (turns.take place).flatten = earlier
  /-- By then all is recorded that was emitted before an earlier record. -/
  whole : ∀ place event subject earlier record, (upToClose history)[place]? = some event →
    event.event.ended? = some subject → earlier < place →
    (upToClose history)[earlier]? = some record → record.event.key?.isSome = true →
    (emitted (turns.take earlier).flatten).length ≤ (recordedKeys (history.take place)).length
  /-- What is recorded was emitted before. -/
  backed : ∀ place event, (upToClose history)[place]? = some event →
    recordedKeys (history.take place) <+: emittedKeys (turns.take place).flatten
  silent : ∀ calls, calls <+: outcome.calls → calls.length < outcome.calls.length →
    ended calls = false

/-- A call that tells of an end is the first one of its turn, since all others settle. -/
theorem Turn.front_eq_nil {frame : ReplayFrame} {event : HistoryEvent} {front back : List HandlerCall}
    {call : HandlerCall} {subject : Undertaking} (turn : Turn frame event (front ++ call :: back))
    (htold : call.stimulus.ended? = some subject) : front = [] := by
  cases front with
  | nil => rfl
  | cons first front =>
      have hsettles := turn.once call (by simp)
      rw [Stimulus.ended?_of_isSettling hsettles] at htold
      cases htold

theorem getElem?_take_of_upToClose {history : List HistoryEvent} {earlier place : Nat}
    {record : HistoryEvent} (hlt : earlier < place)
    (hrecord : (upToClose history)[earlier]? = some record) :
    (history.take place)[earlier]? = some record := by
  obtain ⟨rest, hrest⟩ := upToClose_prefix history
  rw [List.getElem?_take_of_lt hlt, ← hrest,
    List.getElem?_append_left (List.getElem?_eq_some_iff.1 hrecord).1]
  exact hrecord

theorem replay_tellsOfEnds {limit : Nat} {registry : WorkflowRegistry} {ref : RunRef}
    {history : List HistoryEvent} {outcome : ReplayOutcome}
    (h : replay limit registry ref history = .ok outcome) :
    ∃ workflowType attempt turns,
      TellsOfEnds ⟨ref, workflowType, attempt, horizon history⟩ history outcome turns := by
  obtain ⟨workflowType, input, taskQueue, attempt, parent, options, workflow, start, replayer,
    -, -, -, happlied, houtcome⟩ := eq_ok_of_replay h
  subst houtcome
  obtain ⟨_, accounted⟩ := accounted_of_applyAll happlied (lastEventId history)
  obtain ⟨turns, hturns, hcalls, hplaces⟩ := Replayer.applyAll_places (.initial start) rfl happlied
  have hcalls : turns.flatten = replayer.calls := by simpa [Replayer.initial] using hcalls.symm
  have hcaused : ∀ (place : Nat) event turn, (upToClose history)[place]? = some event →
      turns[place]? = some turn → Turn ⟨ref, workflowType, attempt, horizon history⟩ event turn := by
    intro place event turn hevent hturn
    obtain ⟨heventLt, rfl⟩ := List.getElem?_eq_some_iff.1 hevent
    obtain ⟨hturnLt, rfl⟩ := List.getElem?_eq_some_iff.1 hturn
    exact hturns.get heventLt hturnLt
  refine ⟨workflowType, attempt, turns, ?_⟩
  constructor
  case caused => exact hturns
  case calls => exact hcalls
  case backed =>
    intro place event hplace
    obtain ⟨turn, -, meets⟩ := hplaces place event hplace
    exact meets.backed
  case silent => exact accounted.silent
  case told =>
    intro place event subject hplace hended hlive huncancelled hactive
    obtain ⟨turn, hturn, meets⟩ := hplaces place event hplace
    obtain ⟨call, rest, rfl, hstimulus, hrest⟩ := meets.told hended hlive huncancelled hactive
    exact ⟨call, rest, hturn, hstimulus, hrest⟩
  case untold =>
    intro place event subject hplace hended hcancelled
    obtain ⟨turn, hturn, meets⟩ := hplaces place event hplace
    exact ⟨turn, hturn, meets.untold hended hcancelled⟩
  case source =>
    intro earlier call later subject hsplit htold
    obtain ⟨place, _, front, back, hturn, rfl, hearlier⟩ := exists_place (hcalls.trans hsplit)
    have hlt : place < (upToClose history).length := by
      rw [hturns.length_eq]
      exact (List.getElem?_eq_some_iff.1 hturn).1
    obtain ⟨other, hother, meets⟩ := hplaces place _ (List.getElem?_eq_getElem hlt)
    obtain rfl := Option.some.inj (hturn.symm.trans hother)
    have hkind := hcaused place _ _ (List.getElem?_eq_getElem hlt) hturn
    obtain ⟨hended, hstimulus, huncancelled, rest, hhead⟩ :=
      meets.ended_of_call hkind (by simp) htold
    refine ⟨place, _, rest, List.getElem?_eq_getElem hlt, hended, hstimulus, huncancelled,
      hhead ▸ hturn, ?_⟩
    rw [hearlier, hkind.front_eq_nil htold, List.append_nil]
  case whole =>
    intro place event subject earlier record hplace hended hlt hrecord hkey
    obtain ⟨_, -, meets⟩ := hplaces place event hplace
    obtain ⟨_, -, middle, _, hmiddle, -, -, hbefore, -⟩ := hplaces earlier record hrecord
    have hthere := getElem?_take_of_upToClose hlt hrecord
    have htake : (history.take place).take earlier = history.take earlier := by
      rw [List.take_take, Nat.min_eq_left (Nat.le_of_lt hlt)]
    have hcallsThen : middle.calls = (turns.take earlier).flatten := by
      simpa [Replayer.initial] using hbefore
    rw [← hcallsThen]
    exact meets.whole hended hthere hkey (by rw [htake]; exact hmiddle)

end Replay

end Chronicle
