import Chronicle.Proofs.Replay.Agreement
import Chronicle.Proofs.Replay.Turns
import Chronicle.Proofs.Text.Words
import Chronicle.Samples.Workflows
import Mathlib.Data.List.Nodup
import Mathlib.Data.Set.Function

/-!
# Identifiers drawn from a context

Every handler call has a context of its own, which numbers the identifiers that the call draws.
Two calls on one event number them alike, and so draw the same identifiers; calls on different
events have none in common.  An identifier does not depend on the replay in which it is drawn.
-/

namespace Chronicle

/-! ## Names -/

/-- The name from which an identifier is derived. -/
def Context.drawName (context : Context) (drawn : Nat) : String := s!"{context.eventId}:{drawn}"

theorem Context.toList_drawName (context : Context) (drawn : Nat) :
    (context.drawName drawn).toList =
      Nat.toDigits 10 context.eventId ++ ':' :: Nat.toDigits 10 drawn := by
  have hcolon : (toString ":").toList = [':'] := rfl
  simp [Context.drawName, hcolon]

theorem toDigits_injective {first second : Nat}
    (h : Nat.toDigits 10 first = Nat.toDigits 10 second) : first = second := by
  have hvalues := congrArg (fun digits => Nat.ofDigitChars 10 digits 0) h
  simpa [Nat.ofDigitChars_toDigits] using hvalues

/-- The event and the number are read off the name. -/
theorem Context.drawName_inj {first second : Context} {earlier later : Nat} :
    first.drawName earlier = second.drawName later ↔
      first.eventId = second.eventId ∧ earlier = later := by
  constructor
  · intro h
    have hcolon : ∀ value, ':' ∉ Nat.toDigits 10 value := by
      intro value hmem
      exact absurd (Nat.isDigit_of_mem_toDigits (by decide) (by decide) hmem) (by decide)
    have hsplit : ∀ (context : Context) (drawn : Nat),
        Text.splitOnce? ':' (context.drawName drawn).toList =
          some (Nat.toDigits 10 context.eventId, Nat.toDigits 10 drawn) :=
      fun context drawn => Text.splitOnce?_eq_some.2 ⟨toList_drawName context drawn, hcolon _⟩
    have hparts := hsplit first earlier
    rw [h, hsplit second later] at hparts
    simp only [Option.some.injEq, Prod.mk.injEq] at hparts
    exact ⟨(toDigits_injective hparts.1).symm, (toDigits_injective hparts.2).symm⟩
  · rintro ⟨hevent, rfl⟩
    simp [drawName, hevent]

/-! ## Draws -/

namespace HandlerCall

/-- The identifiers that a call draws, in their order. -/
def identifiers (call : HandlerCall) : List Uuid :=
  (List.range call.drawn).map call.context.freshUuid

/-- The names from which they are derived. -/
def names (call : HandlerCall) : List String :=
  (List.range call.drawn).map call.context.drawName

variable {first second : HandlerCall}

theorem nodup_names (call : HandlerCall) : call.names.Nodup :=
  List.nodup_range.map fun _ _ h => (Context.drawName_inj.1 h).2

/-- Two calls on one event that draw have a name in common, the first one of each. -/
theorem disjoint_names : first.names.Disjoint second.names ↔
    (first.context.eventId = second.context.eventId → first.drawn = 0 ∨ second.drawn = 0) := by
  constructor
  · intro hdisjoint hevent
    by_contra hdrawn
    rw [not_or] at hdrawn
    have hname : first.context.drawName 0 = second.context.drawName 0 :=
      Context.drawName_inj.2 ⟨hevent, rfl⟩
    refine hdisjoint (a := first.context.drawName 0) ?_ (hname ▸ ?_)
    · exact List.mem_map_of_mem (List.mem_range.2 (Nat.pos_of_ne_zero hdrawn.1))
    · exact List.mem_map_of_mem (List.mem_range.2 (Nat.pos_of_ne_zero hdrawn.2))
  · intro hdrawn name hfirst hsecond
    obtain ⟨earlier, hearlier, rfl⟩ := List.mem_map.1 hfirst
    obtain ⟨later, hlater, hname⟩ := List.mem_map.1 hsecond
    rw [List.mem_range] at hearlier hlater
    obtain ⟨hevent, rfl⟩ := Context.drawName_inj.1 hname
    have hnone := hdrawn hevent.symm
    omega

end HandlerCall

namespace ReplayOutcome

/-- The identifiers that all calls of a replay draw. -/
def identifiers (outcome : ReplayOutcome) : List Uuid :=
  outcome.calls.flatMap HandlerCall.identifiers

def names (outcome : ReplayOutcome) : List String := outcome.calls.flatMap HandlerCall.names

/-- No two calls on one event draw identifiers. -/
def DrawsOncePerEvent (outcome : ReplayOutcome) : Prop :=
  outcome.calls.Pairwise fun first second =>
    first.context.eventId = second.context.eventId → first.drawn = 0 ∨ second.drawn = 0

theorem nodup_names_iff {outcome : ReplayOutcome} :
    outcome.names.Nodup ↔ outcome.DrawsOncePerEvent := by
  unfold names DrawsOncePerEvent
  rw [List.nodup_flatMap, and_iff_right fun call _ => call.nodup_names]
  exact List.Pairwise.iff fun _ _ => HandlerCall.disjoint_names

theorem identifiers_eq {outcome : ReplayOutcome} {ref : RunRef}
    (hrun : ∀ call ∈ outcome.calls, call.context.run = ref) :
    outcome.identifiers = outcome.names.map ref.runId.named := by
  unfold identifiers names
  rw [List.map_flatMap]
  refine List.flatMap_congr fun call hmem => ?_
  simp only [HandlerCall.identifiers, HandlerCall.names, List.map_map, ← hrun call hmem]
  rfl

end ReplayOutcome

/-! ## Turns -/

namespace Replay

variable {frame : ReplayFrame} {events : List HistoryEvent} {turns : List (List HandlerCall)}

theorem exists_event (hturns : List.Forall₂ (Turn frame) events turns) :
    ∀ call ∈ turns.flatten, ∃ event ∈ events, call.context = Replayer.contextOf frame event := by
  induction hturns with
  | nil => simp
  | @cons event turn _ _ hturn _ ih =>
      intro call hmem
      rw [List.flatten_cons, List.mem_append] at hmem
      rcases hmem with hfirst | hlater
      · exact ⟨event, List.mem_cons_self, hturn.context call hfirst⟩
      · obtain ⟨other, hother, hcontext⟩ := ih call hlater
        exact ⟨other, List.mem_cons_of_mem _ hother, hcontext⟩

/-- Only the first call of a turn is for what the event itself brings. -/
theorem Turn.pairwise {event : HistoryEvent} {turn : List HandlerCall} (hturn : Turn frame event turn)
    (hsettling : ∀ call ∈ turn, call.stimulus.isSettling = true → call.drawn = 0) :
    turn.Pairwise fun first second =>
      first.context.eventId = second.context.eventId → first.drawn = 0 ∨ second.drawn = 0 := by
  cases turn with
  | nil => exact .nil
  | cons direct rest =>
      have hrest : ∀ call ∈ rest, call.drawn = 0 :=
        fun call hmem => hsettling call (List.mem_cons_of_mem _ hmem) (hturn.once call hmem)
      refine .cons (fun call hmem _ => .inr (hrest call hmem)) ?_
      exact List.pairwise_of_forall_mem_list fun call hmem _ _ _ => .inl (hrest call hmem)

theorem pairwise_of_turns (hturns : List.Forall₂ (Turn frame) events turns)
    (hevents : (events.map HistoryEvent.eventId).Nodup)
    (hsettling : ∀ call ∈ turns.flatten, call.stimulus.isSettling = true → call.drawn = 0) :
    turns.flatten.Pairwise fun first second =>
      first.context.eventId = second.context.eventId → first.drawn = 0 ∨ second.drawn = 0 := by
  induction hturns with
  | nil => exact .nil
  | @cons event turn events turns hturn hturns ih =>
      rw [List.map_cons, List.nodup_cons] at hevents
      rw [List.flatten_cons, List.forall_mem_append] at hsettling
      rw [List.flatten_cons, List.pairwise_append]
      refine ⟨hturn.pairwise hsettling.1, ih hevents.2 hsettling.2, ?_⟩
      intro call hcall later hlater hsame
      obtain ⟨other, hother, hcontext⟩ := exists_event hturns later hlater
      rw [hturn.context call hcall, hcontext] at hsame
      exact absurd (List.mem_map.2 ⟨other, hother, hsame.symm⟩) hevents.1

end Replay

/-! ## Replays -/

/-- A replay adds the calls of its turns to those it has made. -/
theorem Replayer.applyAll_turns {workflow : WorkflowType} {limit : Nat} {frame : ReplayFrame}
    {replayer result : Replayer workflow} {events : List HistoryEvent}
    (h : applyAll limit frame replayer events = .ok result) :
    ∃ part turns, part <+: events ∧ List.Forall₂ (Replay.Turn frame) part turns ∧
      result.calls = replayer.calls ++ turns.flatten := by
  induction events generalizing replayer with
  | nil =>
      cases h
      exact ⟨[], [], List.prefix_rfl, .nil, by simp⟩
  | cons event rest ih =>
      obtain ⟨next, happlied, hcases⟩ := applyAll_cons h
      obtain ⟨turn, hturn, hcalls, -⟩ := apply_turn happlied
      rcases hcases with ⟨-, rfl⟩ | ⟨-, h⟩
      · exact ⟨[event], [turn], by simp, .cons hturn .nil, by simp [hcalls]⟩
      · obtain ⟨part, turns, hpart, hturns, hresult⟩ := ih h
        refine ⟨event :: part, turn :: turns, List.cons_prefix_cons.2 ⟨rfl, hpart⟩,
          .cons hturn hturns, ?_⟩
        rw [hresult, hcalls, List.flatten_cons, List.append_assoc]

/-- Handlers draw the same identifiers, too, whether or not the event is handled again. -/
def WorkflowType.Steady (workflow : WorkflowType) : Prop :=
  workflow.Repeatable fun first second => first.identifiers = second.identifiers

theorem HandlerCall.identifiers_of_alike {first second : List HandlerCall}
    (halike : List.Forall₂ (fun first second => first.identifiers = second.identifiers)
      first second) :
    first.flatMap HandlerCall.identifiers = second.flatMap HandlerCall.identifiers := by
  induction halike with
  | nil => rfl
  | cons hcall _ ih => rw [List.flatMap_cons, List.flatMap_cons, hcall, ih]

namespace Replay

variable {limit other : Nat} {registry : WorkflowRegistry} {ref : RunRef}
  {history more : List HistoryEvent} {outcome longer : ReplayOutcome}

theorem turns_of_replay (hreplay : replay limit registry ref history = .ok outcome) :
    ∃ frame part turns, ReplayFrame.run frame = ref ∧ part <+: history ∧
      List.Forall₂ (Turn frame) part turns ∧ outcome.calls = turns.flatten := by
  obtain ⟨workflowType, input, taskQueue, attempt, parent, options, workflow, start, replayer,
    -, -, -, happlied, rfl⟩ := eq_ok_of_replay hreplay
  obtain ⟨part, turns, hpart, hturns, hcalls⟩ := Replayer.applyAll_turns happlied
  exact ⟨_, part, turns, rfl, hpart, hturns, by simpa [Replayer.initial] using hcalls⟩

theorem run_of_mem_calls (hreplay : replay limit registry ref history = .ok outcome) :
    ∀ call ∈ outcome.calls, call.context.run = ref := by
  obtain ⟨frame, part, turns, hrun, -, hturns, hcalls⟩ := turns_of_replay hreplay
  intro call hmem
  rw [hcalls] at hmem
  obtain ⟨event, -, hcontext⟩ := exists_event hturns call hmem
  rw [hcontext, ← hrun]
  rfl

theorem drawsOncePerEvent_of_settling (hreplay : replay limit registry ref history = .ok outcome)
    (hhistory : (history.map HistoryEvent.eventId).Nodup)
    (hsettling : ∀ call ∈ outcome.calls, call.stimulus.isSettling = true → call.drawn = 0) :
    outcome.DrawsOncePerEvent := by
  obtain ⟨frame, part, turns, -, hpart, hturns, hcalls⟩ := turns_of_replay hreplay
  unfold ReplayOutcome.DrawsOncePerEvent
  rw [hcalls] at hsettling ⊢
  exact pairwise_of_turns hturns (hhistory.sublist (hpart.sublist.map _)) hsettling

/-- What a replay draws, the replay of a longer history draws first. -/
theorem identifiers_prefix (hsteady : outcome.workflow.Steady)
    (hreplay : replay limit registry ref history = .ok outcome)
    (hlonger : replay other registry ref (history ++ more) = .ok longer) :
    outcome.identifiers <+: longer.identifiers := by
  obtain ⟨workflowType, input, taskQueue, attempt, parent, options, workflow, start, replayer,
    hhead, hfind, hcreate, happlied, rfl⟩ := eq_ok_of_replay hreplay
  obtain ⟨workflowType', input', taskQueue', attempt', parent', options', workflow', start',
    replayer', hhead', hfind', hcreate', happlied', rfl⟩ := eq_ok_of_replay hlonger
  have hsome : history ≠ [] := by
    rintro rfl
    simp at hhead
  rw [head?_append hsome, hhead] at hhead'
  cases hhead'
  rw [hfind] at hfind'
  cases hfind'
  rw [hcreate] at hcreate'
  cases hcreate'
  rw [Replayer.applyAll_append _ rfl] at happlied'
  have hinitial : List.Forall₂ (fun first second : HandlerCall =>
      first.identifiers = second.identifiers) (Replayer.initial start).calls
      (Replayer.initial start).calls := .nil
  rcases Replayer.applyAll_alike hsteady hinitial happlied other (horizon (history ++ more)) with
    hendless | ⟨calls, halike, hagain⟩
  · rw [hendless] at happlied'
    cases happlied'
  · rw [hagain] at happlied'
    have hsame : calls <+: replayer'.calls := by
      simp only at happlied'
      split at happlied'
      · cases happlied'
        exact List.prefix_rfl
      · obtain ⟨_, turns, -, -, hcalls⟩ := Replayer.applyAll_turns happlied'
        exact ⟨turns.flatten, hcalls.symm⟩
    obtain ⟨later, hlater⟩ := hsame
    refine ⟨later.flatMap HandlerCall.identifiers, ?_⟩
    unfold ReplayOutcome.identifiers
    rw [← hlater, List.flatMap_append, HandlerCall.identifiers_of_alike halike]

/--
The identifiers of a replay are pairwise distinct just if no two calls on one event draw, where
no two names of the replay have one digest.  This is so if the calls that deliver signals and
resolve conditions draw none.  Each identifier is the digest of its event and number, and thus the
same in every replay.  Later replays draw them again, before all others.
-/
theorem replay_identifiers (hreplay : replay limit registry ref history = .ok outcome) :
    (Set.InjOn ref.runId.named {name | name ∈ outcome.names} →
      (outcome.identifiers.Nodup ↔ outcome.DrawsOncePerEvent)) ∧
    ((history.map HistoryEvent.eventId).Nodup →
      (∀ call ∈ outcome.calls, call.stimulus.isSettling = true → call.drawn = 0) →
      outcome.DrawsOncePerEvent) ∧
    (∀ call ∈ outcome.calls, ∀ drawn,
      call.context.freshUuid drawn = ref.runId.named s!"{call.context.eventId}:{drawn}") ∧
    (outcome.workflow.Steady → ∀ other more longer,
      replay other registry ref (history ++ more) = .ok longer →
      outcome.identifiers <+: longer.identifiers) := by
  have hrun := run_of_mem_calls hreplay
  refine ⟨fun hinjective => ?_, drawsOncePerEvent_of_settling hreplay, fun call hmem drawn => ?_,
    fun hsteady other more longer hlonger => identifiers_prefix hsteady hreplay hlonger⟩
  · rw [ReplayOutcome.identifiers_eq hrun, ← ReplayOutcome.nodup_names_iff]
    exact ⟨List.Nodup.of_map _, List.Nodup.map_on fun _ hfirst _ hsecond => hinjective hfirst hsecond⟩
  · rw [← hrun call hmem]
    rfl

/-- A history of the reception, with ids from 1 on. -/
def receptionHistory (events : List Event) : List HistoryEvent :=
  let start : Event := .workflowStarted "reception" .null "default" 1 none .standard
  (start :: .timerStarted "opening" ⟨60, 0⟩ (.ofSeconds 60) :: events).mapIdx fun place event =>
    .ofEvent (place + 1) ⟨0, 0⟩ event

def guest (name : String) : Signal := ⟨name, .null, ⟨0, 0⟩⟩

def receptionCall (eventId : Nat) (stimulus : Stimulus) (step : Step) (drawn : Nat) : HandlerCall :=
  ⟨⟨⟨"hall", .nil⟩, "reception", 1, eventId, ⟨0, 0⟩, eventId < 2⟩, stimulus, step, drawn⟩

/-- The doors open on one event, and each guest is seen on another. -/
def receptionOutcome (opening last : Nat) (guests : List (Nat × String)) : ReplayOutcome where
  workflow := Samples.reception
  state := true
  newCommands := []
  closed := false
  lastEventId := last
  calls :=
    receptionCall 1 .started (.ok [.startTimer "opening" (.ofSeconds 60)]) 0 ::
      receptionCall opening (.timerFired "opening") (.ok []) 0 ::
      guests.map fun (eventId, name) => receptionCall eventId (.signalled (guest name)) (.ok []) 1

theorem reception_steady : Samples.reception.Steady := by
  intro state context stimulus reaction replaying hreact
  exact ⟨reaction, hreact, rfl, rfl, rfl⟩

/-- Two guests come when the doors are open. -/
def orderly : ReplayOutcome := receptionOutcome 3 5 [(4, "ann"), (5, "ben")]

/-- Two guests come first, and are both seen when the doors open. -/
def crowded : ReplayOutcome := receptionOutcome 5 5 [(5, "ann"), (5, "ben")]

/-- Guests who come one after the other get different numbers, and keep them when others come. -/
theorem orderly_distinct :
    orderly.identifiers.Nodup ∧
      orderly.identifiers <+:
        (receptionOutcome 3 6 [(4, "ann"), (5, "ben"), (6, "eve")]).identifiers := by
  have hreplay : replay 9 ⟨[Samples.reception]⟩ ⟨"hall", .nil⟩ (receptionHistory
      [.timerFired "opening", .signalReceived (guest "ann"), .signalReceived (guest "ben")]) =
        .ok orderly := rfl
  have hlonger : replay 9 ⟨[Samples.reception]⟩ ⟨"hall", .nil⟩ (receptionHistory
      [.timerFired "opening", .signalReceived (guest "ann"), .signalReceived (guest "ben")] ++
        [.ofEvent 6 ⟨0, 0⟩ (.signalReceived (guest "eve"))]) =
          .ok (receptionOutcome 3 6 [(4, "ann"), (5, "ben"), (6, "eve")]) := rfl
  have hnames : orderly.names = ["4:0", "5:0"] := rfl
  have hinjective : Set.InjOn (Uuid.named .nil) {name | name ∈ orderly.names} := by
    have hdistinct : Uuid.named .nil "4:0" ≠ Uuid.named .nil "5:0" := by decide +kernel
    intro first hfirst second hsecond hsame
    simp only [hnames, Set.mem_ofPred_eq, List.mem_cons, List.not_mem_nil, or_false]
      at hfirst hsecond
    rcases hfirst with rfl | rfl <;> rcases hsecond with rfl | rfl
    · rfl
    · exact absurd hsame hdistinct
    · exact absurd hsame.symm hdistinct
    · rfl
  have hdraws : orderly.DrawsOncePerEvent := by
    rw [← ReplayOutcome.nodup_names_iff, hnames]
    decide
  obtain ⟨hnodup, -, -, hextends⟩ := replay_identifiers hreplay
  exact ⟨(hnodup hinjective).2 hdraws, hextends reception_steady _ _ _ hlonger⟩

/-- Guests who wait together get one number, although no two names have one digest. -/
theorem crowded_ambiguous :
    replay 9 ⟨[Samples.reception]⟩ ⟨"hall", .nil⟩ (receptionHistory
        [.signalReceived (guest "ann"), .signalReceived (guest "ben"), .timerFired "opening"]) =
          .ok crowded ∧
      Set.InjOn (Uuid.named .nil) {name | name ∈ crowded.names} ∧
      ¬ crowded.identifiers.Nodup := by
  have hnames : crowded.names = ["5:0", "5:0"] := rfl
  have hidentifiers : crowded.identifiers = [Uuid.named .nil "5:0", Uuid.named .nil "5:0"] := rfl
  refine ⟨rfl, fun first hfirst second hsecond _ => ?_, by simp [hidentifiers]⟩
  simp only [hnames, Set.mem_ofPred_eq, List.mem_cons, List.not_mem_nil, or_false, or_self]
    at hfirst hsecond
  rw [hfirst, hsecond]

end Replay

end Chronicle
