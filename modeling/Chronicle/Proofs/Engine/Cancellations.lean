import Mathlib.Data.List.Infix
import Chronicle.Proofs.Engine.Attempts
import Chronicle.Proofs.Engine.Endings

/-!
# Cancellations

A workflow that takes a timer or an activity back is told of its end only if that was recorded before
the cancellation is, and only once: the ledger does not wait for what is cancelled, and the replay goes
on only after all commands of a decision are recorded.
-/

namespace Chronicle

open HandlerCall

/-! ## Beginnings -/

theorem Event.key?_of_begun? {event : Event} {subject : Undertaking}
    (h : event.begun? = some subject) : ∃ key, event.key? = some key ∧
      ∀ command : Command, command.key? = some key → command.begun? = some subject := by
  cases event <;> simp only [Event.begun?, Option.some.injEq, reduceCtorEq] at h
  all_goals
    subst h
    refine ⟨_, rfl, fun command hcommand => ?_⟩
    cases command <;> simp_all [Command.key?, Command.begun?]

/-- What workflow code is told of is no timer of a condition. -/
theorem Event.ne_conditionTimer_of_ended? {event : Event} {subject : Undertaking}
    (h : event.ended? = some subject) (conditionId : String) :
    subject ≠ .timer (Command.conditionTimer conditionId) := by
  rintro rfl
  cases event with
  | timerFired timerId =>
      simp only [Event.ended?, Option.ite_none_right_eq_some, Option.some.injEq,
        Undertaking.timer.injEq] at h
      obtain ⟨hnone, rfl⟩ := h
      rw [Command.conditionOfTimer?_conditionTimer] at hnone
      cases hnone
  | _ => simp [Event.ended?] at h

theorem Undertaking.not_isLive_of_cancelled (subject : Undertaking) (ledger : Ledger) :
    subject.isLive (ledger.apply subject.cancelled) = false := by
  cases subject with
  | timer timerId => simp [isLive, cancelled, Ledger.isTimerPending_apply, Event.timerNews?]
  | activity activityId =>
      simp only [isLive, cancelled, Ledger.activity?_apply]
      cases ledger.activity? activityId <;>
        simp [ActivityState.follow, Event.activityId?, ActivityState.close]

theorem Command.begun?_of_recorded {asked command : Command} {subject : Undertaking}
    (hown : ∀ conditionId, subject ≠ .timer (Command.conditionTimer conditionId))
    (hmem : command ∈ asked.recorded) (h : command.begun? = some subject) :
    asked.begun? = some subject := by
  cases asked with
  | awaitSignal signalName => cases hmem
  | awaitCondition conditionId timeout =>
      cases timeout with
      | none => cases hmem
      | some timeout =>
          obtain rfl := List.mem_singleton.1 hmem
          cases h
          exact absurd rfl (hown conditionId)
  | _ =>
      obtain rfl := List.mem_singleton.1 hmem
      exact h

/-- What calls begin, their handlers have asked for. -/
theorem HandlerCall.exists_asked {start : List AwaitedCondition} {calls : List HandlerCall}
    {command : Command} {subject : Undertaking}
    (hown : ∀ conditionId, subject ≠ .timer (Command.conditionTimer conditionId))
    (hmem : command ∈ emittedFrom start calls) (h : command.begun? = some subject) :
    ∃ asked ∈ calls.flatMap (fun call => Step.commands call.step), asked.begun? = some subject := by
  induction calls generalizing start with
  | nil => cases hmem
  | cons call rest ih =>
      rw [emittedFrom, List.mem_append, emits, List.mem_append] at hmem
      rw [List.flatMap_cons]
      rcases hmem with (hcancel | hrecorded) | hlater
      · obtain ⟨timerId, rfl⟩ := eq_cancelTimer_of_mem_cancellations hcancel
        cases h
      · obtain ⟨asked, hasked, hcommand⟩ := List.mem_flatMap.1 hrecorded
        exact ⟨asked, List.mem_append_left _ hasked, Command.begun?_of_recorded hown hcommand h⟩
      · obtain ⟨asked, hasked, hbegun⟩ := ih hlater
        exact ⟨asked, List.mem_append_right _ hasked, hbegun⟩

namespace Replay

/-- The ledger waited for every end when it was recorded. -/
def Expects (history : List HistoryEvent) : Prop :=
  Throughout (fun before event => event.isAwaited (Ledger.ofHistory before) = true) history

/-- Between two ends there is a beginning. -/
theorem Expects.exists_begun {history : List HistoryEvent} {subject : Undertaking}
    {first last : Nat} {cause event : HistoryEvent} (expects : Expects history)
    (hfirst : history[first]? = some cause) (hcause : cause.event.ended? = some subject)
    (hlast : history[last]? = some event) (hended : event.event.ended? = some subject)
    (hlt : first < last) :
    ∃ place record, (first < place ∧ place < last) ∧ history[place]? = some record ∧
      record.event.begun? = some subject := by
  have hdead : subject.isLive (Ledger.ofHistory (history.take (first + 1))) = false := by
    rw [List.take_add_one, hfirst, Option.toList_some, Ledger.ofHistory_append, List.foldl_cons,
      List.foldl_nil]
    exact Undertaking.not_isLive_of_ended hcause (expects.of_getElem? hfirst)
  have hlive := Undertaking.isLive_of_isAwaited hended (expects.of_getElem? hlast)
  rw [← List.take_append_drop (first + 1) (history.take last), List.take_take,
    Nat.min_eq_left hlt] at hlive
  obtain ⟨record, hmem, hbegun⟩ := Undertaking.exists_begun hdead hlive
  obtain ⟨step, hstep⟩ := List.getElem?_of_mem hmem
  rw [List.getElem?_drop, List.getElem?_take] at hstep
  split at hstep
  · exact ⟨first + 1 + step, record, by omega, hstep, hbegun⟩
  · cases hstep

theorem flatten_take_mono {α : Type} (turns : List (List α)) {first second : Nat}
    (h : first ≤ second) : (turns.take first).flatten <+: (turns.take second).flatten :=
  List.IsPrefix.flatten (List.take_prefix_take_left h)

namespace TellsOfEnds

variable {frame : ReplayFrame} {history : List HistoryEvent} {outcome : ReplayOutcome}
  {turns : List (List HandlerCall)} {subject : Undertaking} {early late : List Command}
  {earlier between later : List HandlerCall} {call telling : HandlerCall}

/-- What is not begun again after its cancellation ends before the cancellation is recorded. -/
theorem unrecorded (tells : TellsOfEnds frame history outcome turns)
    (hwhole : upToClose history = history) (expects : Expects history)
    (hsplit : outcome.calls = earlier ++ call :: (between ++ telling :: later))
    (hcancels : Step.commands call.step = early ++ subject.cancel :: late)
    (hunbegun : ∀ command ∈ late ++ between.flatMap (fun other => Step.commands other.step),
      command.begun? ≠ some subject)
    {place : Nat} {event : HistoryEvent} (hplace : history[place]? = some event)
    (hended : event.event.ended? = some subject)
    (hcalls : (turns.take place).flatten = earlier ++ call :: between) :
    recordedKeys (history.take place) <+:
      emittedKeys (earlier ++ [{ call with step := .ok early }]) := by
  have hopen : ended (earlier ++ call :: between) = false :=
    tells.silent _ ⟨telling :: later, by simp [hsplit]⟩ (by simp [hsplit])
  obtain ⟨key, hkey⟩ : ∃ key, subject.cancel.key? = some key := by
    cases subject <;> exact ⟨_, rfl⟩
  have hbacked := tells.backed place event (hwhole.symm ▸ hplace)
  rw [hcalls, emittedKeys, emitted_split hopen hcancels subject.cancel_recorded,
    List.filterMap_append, List.filterMap_cons_some hkey] at hbacked
  rcases List.prefix_or_prefix_of_prefix hbacked (List.prefix_append _ _) with hbefore | hafter
  · exact hbefore
  · obtain ⟨keys, hkeys⟩ := hafter
    cases keys with
    | nil =>
        rw [← hkeys, List.append_nil]
        exact List.prefix_rfl
    | cons first keys =>
        exfalso
        rw [← hkeys, List.prefix_append_right_inj, List.cons_prefix_cons] at hbacked
        obtain ⟨rfl, hkeysLater⟩ := hbacked
        -- the cancellation is among the records, so the ledger waits for a later beginning
        obtain ⟨front, back, htake, -, hback⟩ := List.filterMap_eq_append_iff.1 hkeys.symm
        obtain ⟨idle, record, after, rfl, -, hrecord, hkeysAfter⟩ :=
          List.filterMap_eq_cons_iff.1 hback
        have hlive := Undertaking.isLive_of_isAwaited hended (expects.of_getElem? hplace)
        have hdead : subject.isLive (Ledger.ofHistory (front ++ idle ++ [record])) = false := by
          rw [Ledger.ofHistory_append, List.foldl_cons, List.foldl_nil,
            Undertaking.cancelled_of_key? (hrecord.trans hkey.symm)]
          exact subject.not_isLive_of_cancelled _
        rw [htake, show front ++ (idle ++ record :: after) = front ++ idle ++ [record] ++ after by
          simp] at hlive
        obtain ⟨begun, hmem, hbegun⟩ := Undertaking.exists_begun hdead hlive
        obtain ⟨begunKey, hbegunKey, hcommands⟩ := Event.key?_of_begun? hbegun
        have hthere : begunKey ∈ keys := by
          rw [← hkeysAfter]
          exact List.mem_filterMap.2 ⟨begun, hmem, hbegunKey⟩
        obtain ⟨command, hcommand, hcommandKey⟩ := List.mem_filterMap.1 (hkeysLater.subset hthere)
        have hown := Event.ne_conditionTimer_of_ended? hended
        rcases List.mem_append.1 hcommand with hlate | hlater
        · obtain ⟨asked, hasked, hin⟩ := List.mem_flatMap.1 hlate
          exact hunbegun asked (List.mem_append_left _ hasked)
            (Command.begun?_of_recorded hown hin (hcommands command hcommandKey))
        · obtain ⟨asked, hasked, hbegins⟩ := exists_asked hown hlater (hcommands command hcommandKey)
          exact hunbegun asked (List.mem_append_right _ hasked) hbegins

/-- Workflow code is told once. -/
theorem once (tells : TellsOfEnds frame history outcome turns)
    (hwhole : upToClose history = history) (expects : Expects history)
    (hsplit : outcome.calls = earlier ++ call :: (between ++ telling :: later))
    (hcancels : Step.commands call.step = early ++ subject.cancel :: late)
    (hunbegun : ∀ command ∈ late ++ between.flatMap (fun other => Step.commands other.step),
      command.begun? ≠ some subject)
    {place : Nat} {event : HistoryEvent} (hplace : history[place]? = some event)
    (hended : event.event.ended? = some subject)
    (hcalls : (turns.take place).flatten = earlier ++ call :: between)
    {other : HandlerCall} (hother : other ∈ between) : other.stimulus.ended? ≠ some subject := by
  intro htold
  have hunrecorded :=
    (tells.unrecorded hwhole expects hsplit hcancels hunbegun hplace hended hcalls).length_le
  obtain ⟨front, back, rfl⟩ := List.append_of_mem hother
  obtain ⟨first, cause, rest, hfirst, hcause, -, -, -, hfront⟩ :=
    tells.source (earlier ++ call :: front) other (back ++ telling :: later) subject
      (by simp [hsplit]) htold
  rw [hwhole] at hfirst
  have hlt : first < place := by
    by_contra hge
    have hshorter := (flatten_take_mono turns (Nat.le_of_not_lt hge)).length_le
    rw [hcalls, hfront] at hshorter
    simp only [List.length_append, List.length_cons] at hshorter
    omega
  obtain ⟨again, record, ⟨hafter, hbefore⟩, hagain, hbegun⟩ :=
    expects.exists_begun hfirst hcause hplace hended hlt
  obtain ⟨key, hkey, -⟩ := Event.key?_of_begun? hbegun
  -- by the second end all is recorded that was emitted before the subject began again
  have hrecorded := tells.whole place event subject again record (hwhole.symm ▸ hplace) hended
    hbefore (hwhole.symm ▸ hagain) (by simp [hkey])
  have hinitial : earlier ++ [call] <+: (turns.take again).flatten := by
    refine List.IsPrefix.trans ?_ (flatten_take_mono turns (Nat.le_of_lt hafter))
    rw [hfront]
    exact ⟨front, by simp⟩
  have hopen : ended (earlier ++ [call]) = false :=
    tells.silent _ ⟨front ++ other :: back ++ telling :: later, by simp [hsplit]⟩
      (by simp only [hsplit, List.length_append, List.length_cons, List.length_nil]; omega)
  have hcancel := congrArg List.length (emitted_split hopen hcancels subject.cancel_recorded)
  have hmore := (emitted_mono hinitial).length_le
  have hkeys : (emittedKeys (earlier ++ [{ call with step := .ok early }])).length ≤
      (emitted (earlier ++ [{ call with step := .ok early }])).length :=
    List.length_filterMap_le _ _
  rw [List.length_append, List.length_cons] at hcancel
  omega

end TellsOfEnds

end Replay

end Chronicle
