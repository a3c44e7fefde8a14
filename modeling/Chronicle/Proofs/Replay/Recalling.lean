import Mathlib.Data.List.Induction
import Chronicle.Proofs.Replay.Acceptance
import Chronicle.Proofs.Replay.Agreement

/-!
# What a replay knows on its way

A replay meets each event of a history in the state to which the events before it have led.  From
those it knows which timers have been started and which were cancelled; it never forgets either.
-/

namespace Chronicle

namespace Replayer

open Replay

variable {workflow : WorkflowType} {start : workflow.State} {recorded : List Command}
  {frame : ReplayFrame} {event : HistoryEvent} {replayer result : Replayer workflow} {limit : Nat}
  {history : List HistoryEvent}

/-! ## Places in a history -/

/-- The replay meets the event after those before it, which have led to the calls, and the event
causes the turn. -/
def Meets (limit : Nat) (frame : ReplayFrame) (replayer : Replayer workflow)
    (before : List HistoryEvent) (event : HistoryEvent) (calls turn : List HandlerCall) : Prop :=
  ∃ middle next, applyAll limit frame replayer before = .ok middle ∧ middle.closed = false ∧
    middle.apply limit frame event = .ok next ∧ middle.calls = replayer.calls ++ calls ∧
    next.calls = middle.calls ++ turn

theorem applyAll_places (accounts : Accounts start recorded replayer)
    (hopen : replayer.closed = false)
    (h : applyAll limit frame replayer history = .ok result) :
    ∃ turns, List.Forall₂ (Turn frame) (upToClose history) turns ∧
      result.calls = replayer.calls ++ turns.flatten ∧
      ∀ place event, (upToClose history)[place]? = some event → ∃ turn,
        turns[place]? = some turn ∧
        replayer.Meets limit frame (history.take place) event (turns.take place).flatten turn := by
  induction history generalizing replayer recorded with
  | nil =>
      cases h
      exact ⟨[], .nil, by simp, by simp [upToClose]⟩
  | cons event rest ih =>
      obtain ⟨next, happlied, hcases⟩ := applyAll_cons h
      obtain ⟨turn, hturn, hcalls, -⟩ := apply_turn happlied
      obtain ⟨first, hnext, hclosed, -, -⟩ := accounts.apply hopen happlied
      have hmeets : replayer.Meets limit frame [] event [] turn :=
        ⟨replayer, next, rfl, hopen, happlied, by simp, hcalls⟩
      unfold upToClose
      rw [hclosed] at hcases
      rcases hcases with ⟨hclose, rfl⟩ | ⟨hclose, h⟩
      · rw [hclose]
        refine ⟨[turn], .cons hturn .nil, by simp [hcalls], ?_⟩
        intro place other hother
        cases place with
        | zero =>
            cases hother
            exact ⟨turn, rfl, hmeets⟩
        | succ place => simp at hother
      · rw [hclose] at hclosed ⊢
        obtain ⟨turns, hturns, hresult, hplaces⟩ := ih hnext hclosed h
        refine ⟨turn :: turns, .cons hturn hturns, by simp [hresult, hcalls], ?_⟩
        intro place other hother
        cases place with
        | zero =>
            cases hother
            exact ⟨turn, rfl, hmeets⟩
        | succ place =>
            -- what the rest of the replay meets, it meets after the first event
            obtain ⟨later, hlater, middle, after, hmiddle, hstill, hafter, hbefore, hturn⟩ :=
              hplaces place other hother
            refine ⟨later, hlater, middle, after, ?_, hstill, hafter, ?_, hturn⟩
            · rw [List.take_succ_cons]
              unfold applyAll
              simpa [happlied, hclosed] using hmiddle
            · simp [hbefore, hcalls]

/-- The last event of a history is met after all others. -/
theorem applyAll_concat
    (h : applyAll limit frame (.initial start) (history ++ [event]) = .ok result)
    (hopen : ∀ earlier ∈ history, earlier.event.isClose = false) :
    ∃ middle, applyAll limit frame (.initial start) history = .ok middle ∧ middle.closed = false ∧
      middle.apply limit frame event = .ok result := by
  rw [applyAll_append _ rfl] at h
  cases hmiddle : applyAll limit frame (.initial start) history with
  | error stop => simp [hmiddle] at h
  | ok middle =>
      obtain ⟨_, _, -, -, -, hclosed⟩ := (Accounts.initial start).applyAll rfl hmiddle
      rw [List.any_eq_false.2 fun earlier hmem => by simp [hopen earlier hmem]] at hclosed
      simp only [hmiddle, hclosed, Bool.false_eq_true, if_false] at h
      refine ⟨middle, rfl, hclosed, ?_⟩
      obtain ⟨next, happlied, ⟨-, rfl⟩ | ⟨-, hrest⟩⟩ := applyAll_cons h
      · exact happlied
      · cases hrest
        exact happlied

/-! ## Timers that history knows -/

/-- Ids of the timers that were started, and of those that were cancelled. -/
def knownTimers (replayer : Replayer workflow) : List String × List String :=
  (replayer.startedTimers, replayer.cancelledTimers)

def knownAfter (known : List String × List String) : Event → List String × List String
  | .timerStarted timerId .. => (timerId :: known.1, known.2)
  | .timerCancelled timerId => (known.1, timerId :: known.2)
  | _ => known

theorem knownAfter_of_keyless {event : Event} (h : event.key? = none)
    (known : List String × List String) : knownAfter known event = known := by
  cases event <;> first | rfl | cases h

theorem noteRecorded_knownTimers (replayer : Replayer workflow) (event : Event) :
    (replayer.noteRecorded event).knownTimers = knownAfter replayer.knownTimers event := by
  unfold noteRecorded
  cases event <;> simp only [knownTimers, knownAfter] <;> split <;> rfl

theorem apply_knownTimers (h : replayer.apply limit frame event = .ok result) :
    result.knownTimers = knownAfter replayer.knownTimers event.event := by
  cases apply_cases h with
  | recorded found hkey hmatched =>
      obtain ⟨command, rest, -, -, rfl⟩ := matchCommand_cases hmatched
      exact noteRecorded_knownTimers _ _
  | progress hkey _ hresult => rw [hresult, knownAfter_of_keyless hkey]
  | forced hkey _ hresult =>
      rw [hresult, knownAfter_of_keyless hkey]
      rfl
  | perceived hkey _ middle hperceived hsettled =>
      have kept := @kept_part workflow _ knownTimers (fun _ _ _ _ _ _ _ _ _ => rfl) frame event
        replayer.knownTimers
      rw [knownAfter_of_keyless hkey]
      exact kept.settle (kept.perceive rfl hperceived) hsettled

/-- Which timers were started or cancelled is read off the events so far. -/
structure Recalls (events : List Event) (replayer : Replayer workflow) : Prop where
  started : ∀ timerId, timerId ∈ replayer.startedTimers ↔
    ∃ fireAt duration, Event.timerStarted timerId fireAt duration ∈ events
  cancelled : ∀ timerId, timerId ∈ replayer.cancelledTimers ↔
    Event.timerCancelled timerId ∈ events

theorem Recalls.apply {events : List Event} (recalls : Recalls events replayer)
    (h : replayer.apply limit frame event = .ok result) :
    Recalls (events ++ [event.event]) result := by
  obtain ⟨hstarted, hcancelled⟩ := Prod.mk.inj (apply_knownTimers h)
  constructor
  case started =>
    intro timerId
    rw [hstarted]
    cases event.event <;>
      simp [knownTimers, recalls.started, exists_or, or_comm]
  case cancelled =>
    intro timerId
    rw [hcancelled]
    cases event.event <;> simp [knownTimers, recalls.cancelled, or_comm]

theorem Recalls.applyAll (hopen : ∀ event ∈ history, event.event.isClose = false)
    (h : applyAll limit frame (.initial start) history = .ok replayer) :
    Recalls (history.map HistoryEvent.event) replayer := by
  induction history using List.reverseRecOn generalizing replayer with
  | nil =>
      cases h
      constructor <;> simp [Replayer.initial]
  | append_singleton earlier event ih =>
      have hearlier : ∀ other ∈ earlier, other.event.isClose = false :=
        fun other hmem => hopen other (List.mem_append_left _ hmem)
      obtain ⟨middle, hmiddle, -, happlied⟩ := applyAll_concat h hearlier
      rw [List.map_append]
      exact (ih hearlier hmiddle).apply happlied

end Replayer

end Chronicle
