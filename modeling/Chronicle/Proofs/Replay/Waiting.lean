import Mathlib.Data.List.Induction
import Chronicle.Proofs.Replay.Emission
import Chronicle.Proofs.Replay.Turns

/-!
# What the calls of a replay wait for

A handler asks for a signal or for a condition, and a later call gives it what it asked for.  When
every call was due at its time, the calls for one name or id are as many as the waits they used
up: whoever waits is called once.
-/

namespace Chronicle

def Command.awaitedSignal? : Command → Option String
  | .awaitSignal signalName => some signalName
  | _ => none

def Stimulus.resolvedCondition? : Stimulus → Option String
  | .conditionResolved conditionId _ => some conditionId
  | _ => none

namespace HandlerCall

def returned (calls : List HandlerCall) : List Command :=
  calls.flatMap fun call => Step.commands call.step

/-- Waits for signals that go on when a stimulus is handled: a signal ends one wait for its
name. -/
def unspent (awaits : List String) : Stimulus → List String
  | .signalled signal => awaits.erase signal.name
  | _ => awaits

def awaitsAfter (awaits : List String) (call : HandlerCall) : List String :=
  unspent awaits call.stimulus ++ (Step.commands call.step).filterMap Command.awaitedSignal?

/-- Names of the signals that the calls, oldest first, have asked for and not been given. -/
def awaits (calls : List HandlerCall) : List String := calls.foldl awaitsAfter []

/-! ## Tallies -/

def signalWaits (name : String) (calls : List HandlerCall) : Nat :=
  ((returned calls).filterMap Command.awaitedSignal?).count name

def deliveries (name : String) (calls : List HandlerCall) : Nat :=
  (Replay.deliveredSignals calls).countP fun signal => signal.name = name

/-- How often the calls have asked for a condition. -/
def registrations (conditionId : String) (calls : List HandlerCall) : Nat :=
  ((returned calls).filterMap Command.awaited?).countP fun wait => wait.id = conditionId

/-- How often the calls were told of a condition, satisfied or timed out. -/
def resolutions (conditionId : String) (calls : List HandlerCall) : Nat :=
  (calls.filterMap fun call => call.stimulus.resolvedCondition?).count conditionId

variable (calls : List HandlerCall) (call : HandlerCall)

theorem awaits_concat : awaits (calls ++ [call]) = call.awaitsAfter (awaits calls) := by
  simp [awaits]

theorem returned_concat :
    returned (calls ++ [call]) = returned calls ++ Step.commands call.step := by
  simp [returned]

theorem signalWaits_concat (name : String) :
    signalWaits name (calls ++ [call]) = signalWaits name calls +
      ((Step.commands call.step).filterMap Command.awaitedSignal?).count name := by
  simp [signalWaits, returned_concat]

theorem registrations_concat (conditionId : String) :
    registrations conditionId (calls ++ [call]) = registrations conditionId calls +
      ((Step.commands call.step).filterMap Command.awaited?).countP
        fun wait => wait.id = conditionId := by
  simp [registrations, returned_concat]

theorem deliveries_concat (name : String) :
    deliveries name (calls ++ [call]) =
      deliveries name calls + deliveries name [call] := by
  simp [deliveries, Replay.deliveredSignals_append]

theorem resolutions_concat (conditionId : String) :
    resolutions conditionId (calls ++ [call]) =
      resolutions conditionId calls + resolutions conditionId [call] := by
  simp [resolutions]

/-! ## Calls that were due -/

variable {calls call}
variable {workflow : WorkflowType} {start : workflow.State} {name conditionId : String}

/-- The earlier calls asked for what the call brings, or the workflow takes it unasked. -/
structure Due (workflow : WorkflowType) (state : workflow.State) (earlier : List HandlerCall)
    (call : HandlerCall) : Prop where
  signal : ∀ signal, call.stimulus = .signalled signal →
    signal.name ∈ awaits earlier ∨ workflow.acceptsSignal state signal.name = .ok true
  condition : ∀ conditionId outcome, call.stimulus = .conditionResolved conditionId outcome →
    ∃ wait ∈ waits earlier, wait.id = conditionId

/-- Every call was due in the state to which the calls before it led. -/
def Warranted (workflow : WorkflowType) (start : workflow.State) (calls : List HandlerCall) :
    Prop :=
  ∀ earlier call, earlier ++ [call] <+: calls →
    ∃ state, Lead workflow start earlier state ∧ Due workflow state earlier call

/-- In no state to which the calls led does the workflow take a signal of that name unasked. -/
def Refuses (workflow : WorkflowType) (start : workflow.State) (calls : List HandlerCall)
    (name : String) : Prop :=
  ∀ earlier state, earlier <+: calls → Lead workflow start earlier state →
    workflow.acceptsSignal state name ≠ .ok true

theorem Warranted.nil : Warranted workflow start [] := by
  intro earlier call hinitial
  simp at hinitial

theorem Warranted.concat {state : workflow.State} (warranted : Warranted workflow start calls)
    (lead : Lead workflow start calls state) (due : Due workflow state calls call) :
    Warranted workflow start (calls ++ [call]) := by
  intro earlier last hinitial
  rcases List.prefix_concat_iff.1 hinitial with hwhole | hearlier
  · obtain ⟨rfl, hcall⟩ := List.append_inj' hwhole rfl
    cases hcall
    exact ⟨state, lead, due⟩
  · exact warranted earlier last hearlier

theorem Warranted.of_prefix {earlier : List HandlerCall}
    (warranted : Warranted workflow start calls) (hinitial : earlier <+: calls) :
    Warranted workflow start earlier :=
  fun before call hbefore => warranted before call (hbefore.trans hinitial)

theorem Refuses.of_prefix {earlier : List HandlerCall} (refuses : Refuses workflow start calls name)
    (hinitial : earlier <+: calls) : Refuses workflow start earlier name :=
  fun before state hbefore => refuses before state (hbefore.trans hinitial)

/-- Whoever delivers a signal that is not taken unasked ends a wait for it. -/
theorem Due.signal_spent {state : workflow.State} (due : Due workflow state calls call)
    (hrefuses : workflow.acceptsSignal state name ≠ .ok true) :
    (unspent (awaits calls) call.stimulus).count name + deliveries name [call] =
      (awaits calls).count name := by
  cases hstimulus : call.stimulus with
  | signalled signal =>
      by_cases hname : signal.name = name
      · subst hname
        have hmem : signal.name ∈ awaits calls :=
          (due.signal signal hstimulus).resolve_right hrefuses
        have hpos := List.count_pos_iff.2 hmem
        simp [unspent, deliveries, Replay.deliveredSignals, hstimulus, Stimulus.signal?]
        omega
      · simp [unspent, deliveries, Replay.deliveredSignals, hstimulus, Stimulus.signal?, hname,
          List.count_erase_of_ne (Ne.symm hname)]
  | _ => simp [unspent, deliveries, Replay.deliveredSignals, hstimulus, Stimulus.signal?]

theorem Due.condition_spent {state : workflow.State} (due : Due workflow state calls call)
    (conditionId : String) :
    (remaining (waits calls) call.stimulus).countP (fun wait => wait.id = conditionId) +
        resolutions conditionId [call] =
      (waits calls).countP fun wait => wait.id = conditionId := by
  cases hstimulus : call.stimulus with
  | conditionResolved resolved outcome =>
      obtain ⟨wait, hmem, hid⟩ := due.condition resolved outcome hstimulus
      obtain ⟨ended, early, late, -, hended, hwaits, hrest⟩ :=
        List.exists_of_eraseP hmem (p := fun wait => wait.id = resolved) (by simpa using hid)
      have hended' : ended.id = resolved := by simpa using hended
      simp only [remaining, hrest]
      rw [hwaits]
      by_cases hsame : resolved = conditionId
      · simp [resolutions, hstimulus, Stimulus.resolvedCondition?, hended', hsame]
        omega
      · simp [resolutions, hstimulus, Stimulus.resolvedCondition?, hended', hsame]
  | _ => simp [remaining, resolutions, hstimulus, Stimulus.resolvedCondition?]

/-- A wait for a signal goes on, or one delivery has ended it. -/
theorem Warranted.signal_tally (warranted : Warranted workflow start calls)
    (refuses : Refuses workflow start calls name) :
    (awaits calls).count name + deliveries name calls = signalWaits name calls := by
  induction calls using List.reverseRecOn with
  | nil => rfl
  | append_singleton earlier call ih =>
      have hinitial := List.prefix_append earlier [call]
      obtain ⟨state, lead, due⟩ := warranted earlier call List.prefix_rfl
      have htally := ih (warranted.of_prefix hinitial) (refuses.of_prefix hinitial)
      have hspent := due.signal_spent (refuses earlier state hinitial lead)
      rw [awaits_concat, deliveries_concat, signalWaits_concat, awaitsAfter, List.count_append]
      omega

/-- A wait for a condition goes on, or one call has ended it. -/
theorem Warranted.condition_tally (warranted : Warranted workflow start calls)
    (conditionId : String) :
    (waits calls).countP (fun wait => wait.id = conditionId) + resolutions conditionId calls =
      registrations conditionId calls := by
  induction calls using List.reverseRecOn with
  | nil => rfl
  | append_singleton earlier call ih =>
      obtain ⟨state, lead, due⟩ := warranted earlier call List.prefix_rfl
      have htally := ih (warranted.of_prefix (List.prefix_append earlier [call]))
      have hspent := due.condition_spent conditionId
      rw [waits_concat, resolutions_concat, registrations_concat, waitsAfter, List.countP_append]
      omega

/-- A signal that is not taken unasked is delivered no more often than it was asked for before. -/
theorem Warranted.deliveries_le {earlier : List HandlerCall}
    (warranted : Warranted workflow start calls) (refuses : Refuses workflow start calls name)
    (hinitial : earlier ++ [call] <+: calls) :
    deliveries name (earlier ++ [call]) ≤ signalWaits name earlier := by
  have hearlier := (List.prefix_append earlier [call]).trans hinitial
  obtain ⟨state, lead, due⟩ := warranted earlier call hinitial
  have htally := (warranted.of_prefix hearlier).signal_tally (refuses.of_prefix hearlier)
  have hspent := due.signal_spent (refuses earlier state hearlier lead)
  rw [deliveries_concat]
  omega

theorem Warranted.resolutions_le {earlier : List HandlerCall}
    (warranted : Warranted workflow start calls) (conditionId : String)
    (hinitial : earlier ++ [call] <+: calls) :
    resolutions conditionId (earlier ++ [call]) ≤ registrations conditionId earlier := by
  have hearlier := (List.prefix_append earlier [call]).trans hinitial
  obtain ⟨state, lead, due⟩ := warranted earlier call hinitial
  have htally := (warranted.of_prefix hearlier).condition_tally conditionId
  have hspent := due.condition_spent conditionId
  rw [resolutions_concat]
  omega

end HandlerCall

end Chronicle
