import Mathlib.Data.List.Perm.Basic
import Mathlib.Data.List.Perm.Subperm
import Chronicle.Proofs.Replay.Reaction

/-!
# The calls that an event causes

An event reaches workflow code by itself at most once.  What follows are signals that waited for
the workflow and conditions that have come to hold.  No signal is delivered before it was
received, and none is delivered twice.
-/

namespace Chronicle

namespace Event

/-- What the event itself brings to workflow code. -/
def stimulus? : Event → Option Stimulus
  | .workflowStarted .. => some .started
  | .activityCompleted activityId _ result => some (.activityCompleted activityId result)
  | .activityFailed activityId _ failure _ _ => some (.activityFailed activityId failure)
  | .activityTimedOut activityId _ timeout _ _ =>
      some (.activityFailed activityId (.timedOut timeout.name))
  | .timerFired timerId =>
      match Command.conditionOfTimer? timerId with
      | some conditionId => some (.conditionResolved conditionId .timedOut)
      | none => some (.timerFired timerId)
  | .childCompleted workflowId _ result => some (.childCompleted workflowId result)
  | .childFailed workflowId _ failure => some (.childFailed workflowId failure)
  | .cancellationRequested reason => some (.cancelRequested reason)
  | _ => none

def signal? : Event → Option Signal
  | .signalReceived signal => some signal
  | _ => none

end Event

namespace Stimulus

def signal? : Stimulus → Option Signal
  | .signalled signal => some signal
  | _ => none

/-- Signals and satisfied conditions need no event of their own. -/
def isSettling : Stimulus → Bool
  | .signalled _ => true
  | .conditionResolved _ outcome => outcome = .satisfied
  | _ => false

end Stimulus

theorem Event.signal?_of_stimulus? {event : Event} {stimulus : Stimulus}
    (h : event.stimulus? = some stimulus) : stimulus.signal? = none := by
  cases event with
  | timerFired timerId =>
      simp only [stimulus?] at h
      split at h
      · cases h
        rfl
      · cases h
        rfl
  | _ =>
      cases h <;> rfl

namespace Replay

def receivedSignals (events : List HistoryEvent) : List Signal :=
  events.filterMap fun event => event.event.signal?

def deliveredSignals (calls : List HandlerCall) : List Signal :=
  calls.filterMap fun call => call.stimulus.signal?

theorem deliveredSignals_append (first second : List HandlerCall) :
    deliveredSignals (first ++ second) = deliveredSignals first ++ deliveredSignals second :=
  List.filterMap_append

/-- The calls that one event can cause; the record of a command causes none. -/
structure Turn (frame : ReplayFrame) (event : HistoryEvent) (turn : List HandlerCall) : Prop where
  context : ∀ call ∈ turn, call.context = Replayer.contextOf frame event
  stimuli : ∀ call ∈ turn,
    event.event.stimulus? = some call.stimulus ∨ call.stimulus.isSettling = true
  once : ∀ call ∈ turn.tail, call.stimulus.isSettling = true
  silent : event.event.key?.isSome = true → turn = []

theorem Turn.nil (frame : ReplayFrame) (event : HistoryEvent) : Turn frame event [] where
  context := by simp
  stimuli := by simp
  once := by simp
  silent := fun _ => rfl

end Replay

namespace Replayer

open Replay
open scoped List

variable {workflow : WorkflowType} {frame : ReplayFrame} {event : HistoryEvent}
  {replayer result : Replayer workflow}

/-- The calls of a turn come after the earlier ones, for stimuli of the given kind. -/
structure Called (frame : ReplayFrame) (event : HistoryEvent) (kind : Stimulus → Prop)
    (turn : List HandlerCall) (before after : Replayer workflow) : Prop where
  calls : after.calls = before.calls ++ turn
  context : ∀ call ∈ turn, call.context = contextOf frame event
  kind : ∀ call ∈ turn, kind call.stimulus

theorem Called.nil (frame : ReplayFrame) (event : HistoryEvent) (kind : Stimulus → Prop)
    {before after : Replayer workflow} (h : after.calls = before.calls) :
    Called frame event kind [] before after where
  calls := by rw [h, List.append_nil]
  context := by simp
  kind := by simp

theorem Called.append {kind : Stimulus → Prop} {first second : List HandlerCall}
    {before middle after : Replayer workflow} (early : Called frame event kind first before middle)
    (late : Called frame event kind second middle after) :
    Called frame event kind (first ++ second) before after where
  calls := by rw [late.calls, early.calls, List.append_assoc]
  context := by
    intro call hmem
    rcases List.mem_append.1 hmem with hmem | hmem
    · exact early.context call hmem
    · exact late.context call hmem
  kind := by
    intro call hmem
    rcases List.mem_append.1 hmem with hmem | hmem
    · exact early.kind call hmem
    · exact late.kind call hmem

theorem dispatch_called {stimulus : Stimulus}
    (h : dispatch frame event replayer stimulus = .ok result) :
    ∃ turn, Called frame event (fun called => called = stimulus) turn replayer result ∧
      turn.length ≤ 1 ∧ result.inbox = replayer.inbox := by
  rcases dispatch_cases h with ⟨-, rfl⟩ | ⟨-, -, reaction, -, rfl⟩
  · exact ⟨[], .nil _ _ _ rfl, Nat.zero_le _, rfl⟩
  · refine ⟨[⟨contextOf frame event, stimulus, reaction.step, reaction.drawn⟩], ⟨?_, ?_, ?_⟩,
      Nat.le_refl _, ?_⟩
    · simp [afterCall]
    · intro call hmem
      rw [List.mem_singleton.1 hmem]
    · intro call hmem
      rw [List.mem_singleton.1 hmem]
    · simp [afterCall]

/-! ## Settling -/

def Settled (frame : ReplayFrame) (event : HistoryEvent) (before after : Replayer workflow) :
    Prop :=
  ∃ turn, Called frame event (fun stimulus => stimulus.isSettling = true) turn before after ∧
    deliveredSignals turn ++ after.inbox <+~ before.inbox

theorem Settled.refl (frame : ReplayFrame) (event : HistoryEvent) (replayer : Replayer workflow) :
    Settled frame event replayer replayer :=
  ⟨[], .nil _ _ _ rfl, .refl _⟩

theorem Settled.trans {before middle after : Replayer workflow}
    (early : Settled frame event before middle) (late : Settled frame event middle after) :
    Settled frame event before after := by
  obtain ⟨first, hfirst, hearly⟩ := early
  obtain ⟨second, hsecond, hlate⟩ := late
  refine ⟨first ++ second, hfirst.append hsecond, ?_⟩
  rw [deliveredSignals_append, List.append_assoc]
  exact ((List.subperm_append_left _).2 hlate).trans hearly

theorem deliveredSignals_subperm {stimulus : Stimulus} {turn : List HandlerCall}
    (hstimuli : ∀ call ∈ turn, call.stimulus = stimulus) (hlength : turn.length ≤ 1) :
    deliveredSignals turn <+~ stimulus.signal?.toList := by
  cases turn with
  | nil => exact List.nil_subperm
  | cons call rest =>
      have hrest : rest = [] := List.eq_nil_of_length_eq_zero (by simpa using hlength)
      have hcall := hstimuli call List.mem_cons_self
      subst hrest
      cases hsignal : stimulus.signal? <;> simp [deliveredSignals, hcall, hsignal]

/-- One signal leaves the inbox, and is delivered if the workflow still takes part. -/
theorem deliver_settled {index : Nat} (h : deliver frame event replayer index = .ok result) :
    Settled frame event replayer result := by
  unfold deliver at h
  cases hsignal : replayer.inbox[index]? with
  | none =>
      simp only [hsignal] at h
      cases h
      exact .refl frame event replayer
  | some signal =>
      simp only [hsignal] at h
      obtain ⟨hindex, hget⟩ := List.getElem?_eq_some_iff.1 hsignal
      obtain ⟨turn, called, hlength, hinbox⟩ := dispatch_called h
      have hdelivered : deliveredSignals turn <+~ [signal] :=
        deliveredSignals_subperm called.kind hlength
      have hall : signal :: replayer.inbox.eraseIdx index <+~ replayer.inbox := by
        rw [← hget]
        exact (List.getElem_cons_eraseIdx_perm hindex).subperm
      refine ⟨turn, ⟨called.calls, called.context, ?_⟩, ?_⟩
      · intro call hmem
        rw [called.kind call hmem]
        rfl
      · rw [hinbox]
        exact ((List.subperm_append_right _).2 hdelivered).trans hall

theorem satisfy_settled {index : Nat} (h : satisfy frame event replayer index = .ok result) :
    Settled frame event replayer result := by
  unfold satisfy at h
  cases hget : replayer.conditions[index]? with
  | none =>
      simp only [hget] at h
      cases h
      exact .refl frame event replayer
  | some condition =>
      simp only [hget] at h
      obtain ⟨turn, called, hlength, hinbox⟩ := dispatch_called h
      have hdelivered : deliveredSignals turn <+~ [] :=
        deliveredSignals_subperm called.kind hlength
      have hsame : result.inbox = replayer.inbox := by
        rw [hinbox]
        split <;> simp
      refine ⟨turn, ⟨?_, called.context, ?_⟩, ?_⟩
      · rw [called.calls]
        split <;> simp
      · intro call hmem
        rw [called.kind call hmem]
        rfl
      · rw [List.subperm_nil.1 hdelivered, List.nil_append, hsame]

theorem settle_settled {limit : Nat} (h : settle frame event limit replayer = .ok result) :
    Settled frame event replayer result := by
  have settles : Settles frame event (Settled frame event replayer) := by
    constructor
    · intro middle after index _ _ early hdelivered
      exact early.trans (deliver_settled hdelivered)
    · intro middle after index _ _ early hsatisfied
      exact early.trans (satisfy_settled hsatisfied)
  exact settles.settle (.refl frame event replayer) h

/-! ## Events -/

/-- What an event does by itself: at most one call, for what it brings. -/
structure Perceived (frame : ReplayFrame) (event : HistoryEvent) (turn : List HandlerCall)
    (before after : Replayer workflow) : Prop where
  called : Called frame event (fun stimulus => event.event.stimulus? = some stimulus) turn
    before after
  once : turn.length ≤ 1
  inbox : after.inbox = before.inbox ++ receivedSignals [event]

theorem Perceived.of_idle (hcalls : result.calls = replayer.calls)
    (hinbox : result.inbox = replayer.inbox ++ receivedSignals [event]) :
    Perceived frame event [] replayer result :=
  ⟨.nil _ _ _ hcalls, Nat.zero_le _, hinbox⟩

theorem dispatch_perceived {noted : Replayer workflow} {stimulus : Stimulus}
    (h : dispatch frame event noted stimulus = .ok result)
    (hstimulus : event.event.stimulus? = some stimulus) (hsignal : event.event.signal? = none)
    (hcalls : noted.calls = replayer.calls) (hinbox : noted.inbox = replayer.inbox) :
    ∃ turn, Perceived frame event turn replayer result := by
  obtain ⟨turn, called, hlength, hsame⟩ := dispatch_called h
  refine ⟨turn, ⟨?_, called.context, ?_⟩, hlength, ?_⟩
  · rw [called.calls, hcalls]
  · intro call hmem
    rw [called.kind call hmem, hstimulus]
  · have hnone : receivedSignals [event] = [] := by simp [receivedSignals, hsignal]
    rw [hsame, hinbox, hnone, List.append_nil]

theorem activityClosed_perceived {activityId : String} {stimulus : Stimulus}
    (h : activityClosed frame event replayer activityId stimulus = .ok result)
    (hstimulus : event.event.stimulus? = some stimulus) (hsignal : event.event.signal? = none) :
    ∃ turn, Perceived frame event turn replayer result := by
  unfold activityClosed at h
  split at h
  · cases h
    exact ⟨[], .of_idle rfl (by simp [receivedSignals, hsignal])⟩
  · exact dispatch_perceived h hstimulus hsignal rfl rfl

theorem timerFired_perceived {timerId : String}
    (h : timerFired frame event replayer timerId = .ok result)
    (hevent : event.event = .timerFired timerId) :
    ∃ turn, Perceived frame event turn replayer result := by
  have hsignal : event.event.signal? = none := by
    rw [hevent]
    rfl
  have hidle : Perceived frame event [] replayer replayer :=
    .of_idle rfl (by simp [receivedSignals, hsignal])
  unfold timerFired at h
  split at h
  · cases h
    exact ⟨[], hidle⟩
  · split at h
    · rename_i conditionId hcondition
      unfold conditionTimedOut at h
      split at h
      · cases h
        exact ⟨[], hidle⟩
      · exact dispatch_perceived h (by simp [hevent, Event.stimulus?, hcondition]) hsignal rfl rfl
    · rename_i hcondition
      exact dispatch_perceived h (by simp [hevent, Event.stimulus?, hcondition]) hsignal rfl rfl

theorem perceive_perceived (h : perceive frame event replayer = .ok result) :
    ∃ turn, Perceived frame event turn replayer result := by
  unfold perceive at h
  split at h
  · rename_i hevent
    exact dispatch_perceived h (by rw [hevent]; rfl) (by rw [hevent]; rfl) rfl rfl
  · rename_i hevent
    exact activityClosed_perceived h (by rw [hevent]; rfl) (by rw [hevent]; rfl)
  · rename_i hevent
    exact activityClosed_perceived h (by rw [hevent]; rfl) (by rw [hevent]; rfl)
  · rename_i hevent
    exact activityClosed_perceived h (by rw [hevent]; rfl) (by rw [hevent]; rfl)
  · rename_i timerId hevent
    exact timerFired_perceived h hevent
  · rename_i signal hevent
    cases h
    exact ⟨[], .of_idle rfl (by simp [receivedSignals, hevent, Event.signal?])⟩
  · rename_i hevent
    exact dispatch_perceived h (by rw [hevent]; rfl) (by rw [hevent]; rfl) rfl rfl
  · rename_i hevent
    exact dispatch_perceived h (by rw [hevent]; rfl) (by rw [hevent]; rfl) rfl rfl
  · rename_i hevent
    split at h
    · cases h
      exact ⟨[], .of_idle rfl (by simp [receivedSignals, hevent, Event.signal?])⟩
    · exact dispatch_perceived h (by rw [hevent]; rfl) (by rw [hevent]; rfl) rfl rfl
  · rename_i hnone _ _ _
    cases h
    have hsignal : event.event.signal? = none := by
      unfold Event.signal?
      split
      · rename_i signal hevent
        exact absurd hevent (hnone signal)
      · rfl
    exact ⟨[], .of_idle rfl (by simp [receivedSignals, hsignal])⟩

theorem Perceived.turn {first settled : List HandlerCall} {middle : Replayer workflow}
    (perceived : Perceived frame event first replayer middle)
    (called : Called frame event (fun stimulus => stimulus.isSettling = true) settled middle result)
    (hkey : event.event.key? = none) : Turn frame event (first ++ settled) where
  context := by
    intro call hmem
    rcases List.mem_append.1 hmem with hmem | hmem
    · exact perceived.called.context call hmem
    · exact called.context call hmem
  stimuli := by
    intro call hmem
    rcases List.mem_append.1 hmem with hmem | hmem
    · exact .inl (perceived.called.kind call hmem)
    · exact .inr (called.kind call hmem)
  once := by
    intro call hmem
    have honce := perceived.once
    cases first with
    | nil => exact called.kind call (List.mem_of_mem_tail hmem)
    | cons direct rest =>
        have hrest : rest = [] := List.eq_nil_of_length_eq_zero (by simpa using honce)
        rw [hrest] at hmem
        exact called.kind call hmem
  silent := by simp [hkey]

theorem Perceived.deliveredSignals {first : List HandlerCall}
    (perceived : Perceived frame event first replayer result) :
    Replay.deliveredSignals first = [] := by
  rw [Replay.deliveredSignals, List.filterMap_eq_nil_iff]
  intro call hmem
  exact Event.signal?_of_stimulus? (perceived.called.kind call hmem)

/-- One event: its calls come last, and every signal is delivered, still waits, or is dropped. -/
theorem apply_turn {limit : Nat} (h : replayer.apply limit frame event = .ok result) :
    ∃ turn, Turn frame event turn ∧ result.calls = replayer.calls ++ turn ∧
      Replay.deliveredSignals turn ++ result.inbox <+~
        replayer.inbox ++ receivedSignals [event] := by
  have hidle : ∀ after : Replayer workflow, after.calls = replayer.calls →
      after.inbox = replayer.inbox → ∃ turn, Turn frame event turn ∧
        after.calls = replayer.calls ++ turn ∧
        Replay.deliveredSignals turn ++ after.inbox <+~
          replayer.inbox ++ receivedSignals [event] := by
    intro after hcalls hinbox
    refine ⟨[], .nil frame event, by rw [hcalls, List.append_nil], ?_⟩
    rw [hinbox]
    exact (List.sublist_append_left _ _).subperm
  cases apply_cases h with
  | recorded found hkey hmatched =>
      obtain ⟨command, rest, -, -, rfl⟩ := matchCommand_cases hmatched
      exact hidle _ (noteRecorded_calls _ _) (noteRecorded_inbox _ _)
  | progress hkey hprogress hresult =>
      subst hresult
      exact hidle _ rfl rfl
  | forced hkey hforced hresult =>
      subst hresult
      exact hidle _ rfl rfl
  | perceived hkey hforced middle hperceived hsettled =>
      obtain ⟨first, perceived⟩ := perceive_perceived hperceived
      obtain ⟨settled, called, hsignals⟩ := settle_settled hsettled
      refine ⟨first ++ settled, perceived.turn called hkey, ?_, ?_⟩
      · rw [called.calls, perceived.called.calls, List.append_assoc]
      · rw [deliveredSignals_append, perceived.deliveredSignals, List.nil_append,
          ← perceived.inbox]
        exact hsignals

end Replayer

end Chronicle
