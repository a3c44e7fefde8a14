import Chronicle.Proofs.Replay.Identifiers

/-!
# Marked calls

A replay marks its calls on the events that come before the last recorded command.  A replay of an
earlier part of the history made the same calls, and those are marked from then on for which the
history goes on with a record.
-/

namespace Chronicle

/-- The call is for the same thing on the same event, and comes to the same step. -/
structure HandlerCall.Repeats (again first : HandlerCall) : Prop where
  context : again.context = { first.context with replaying := again.context.replaying }
  stimulus : again.stimulus = first.stimulus
  step : again.step = first.step

theorem HandlerCall.Repeats.eventId {again first : HandlerCall} (repeats : again.Repeats first) :
    again.context.eventId = first.context.eventId := by
  rw [repeats.context]

theorem WorkflowType.Deterministic.repeats {workflow : WorkflowType}
    (hdeterministic : workflow.Deterministic) :
    workflow.Repeatable fun first again => again.Repeats first := by
  intro state context stimulus reaction replaying hreact
  obtain ⟨other, hother, hstate, hstep⟩ :=
    hdeterministic state context stimulus reaction replaying hreact
  exact ⟨other, hother, hstate, hstep, ⟨rfl, rfl, hstep⟩⟩

namespace Replay

/-! ## Numbers -/

def Numbered (history : List HistoryEvent) : Prop :=
  history.map HistoryEvent.eventId = List.range' 1 history.length

theorem Numbered.sorted {history : List HistoryEvent} (hnumbered : Numbered history) :
    (history.map HistoryEvent.eventId).Pairwise (· < ·) := by
  rw [hnumbered]
  exact List.pairwise_lt_range'

theorem Numbered.eventId {before after : List HistoryEvent} {event : HistoryEvent}
    (hnumbered : Numbered (before ++ event :: after)) : event.eventId = before.length + 1 := by
  have hplace : (List.range' 1 (before ++ event :: after).length)[before.length]? =
      some event.eventId := by
    rw [← hnumbered]
    simp
  rw [List.getElem?_range' (by simp)] at hplace
  have hsame := Option.some.inj hplace
  omega

/-- The events of the first part have the first numbers. -/
theorem Numbered.mem_front_iff {front rest : List HistoryEvent} {event : HistoryEvent}
    (hnumbered : Numbered (front ++ rest)) (hmem : event ∈ front ++ rest) :
    event ∈ front ↔ event.eventId ≤ front.length := by
  constructor
  · intro hfront
    obtain ⟨before, after, rfl⟩ := List.append_of_mem hfront
    rw [List.append_assoc, List.cons_append] at hnumbered
    rw [hnumbered.eventId, List.length_append, List.length_cons]
    omega
  · intro hle
    rcases List.mem_append.1 hmem with hfront | hrest
    · exact hfront
    · obtain ⟨before, after, rfl⟩ := List.append_of_mem hrest
      rw [← List.append_assoc] at hnumbered
      rw [hnumbered.eventId, List.length_append] at hle
      omega

/-! ## The horizon -/

theorem le_horizon {history : List HistoryEvent} {event : HistoryEvent}
    (hnumbered : Numbered history) (hmem : event ∈ history)
    (hkey : event.event.key?.isSome = true) : event.eventId ≤ horizon history := by
  unfold horizon
  cases hfind : history.reverse.find? fun event => event.event.key?.isSome with
  | none => exact absurd hkey (List.find?_eq_none.1 hfind event (List.mem_reverse.2 hmem))
  | some last =>
      obtain ⟨-, later, earlier, hsplit, hlater⟩ := List.find?_eq_some_iff_append.1 hfind
      have hsorted := List.pairwise_map.1 hnumbered.sorted
      rw [← List.pairwise_reverse, hsplit] at hsorted
      rw [← List.mem_reverse, hsplit] at hmem
      rcases List.mem_append.1 hmem with hin | hin
      · have hkeyless := hlater event hin
        rw [hkey] at hkeyless
        cases hkeyless
      · rcases List.mem_cons.1 hin with rfl | hearlier
        · exact Nat.le_refl _
        · have hcons := (List.pairwise_append.1 hsorted).2.1
          exact Nat.le_of_lt ((List.pairwise_cons.1 hcons).1 event hearlier)

theorem exists_record_of_horizon {history : List HistoryEvent} (hsome : horizon history ≠ 0) :
    ∃ event ∈ history, event.event.key?.isSome = true ∧ event.eventId = horizon history := by
  unfold horizon at hsome ⊢
  cases hfind : history.reverse.find? fun event => event.event.key?.isSome with
  | none =>
      rw [hfind] at hsome
      exact absurd rfl hsome
  | some last =>
      have hmem := List.mem_of_find?_eq_some hfind
      have hkey := @List.find?_some _ (fun event : HistoryEvent => event.event.key?.isSome) _ _ hfind
      exact ⟨last, List.mem_reverse.1 hmem, hkey, rfl⟩

/-! ## Calls -/

variable {limit other : Nat} {registry again : WorkflowRegistry} {ref : RunRef}
  {workflow : WorkflowType} {history front batch rest : List HistoryEvent}
  {outcome earlier : ReplayOutcome}

theorem exists_keyless {frame : ReplayFrame} {turns : List (List HandlerCall)}
    (hturns : List.Forall₂ (Turn frame) history turns) :
    ∀ call ∈ turns.flatten, ∃ event ∈ history, event.event.key? = none ∧
      call.context = Replayer.contextOf frame event := by
  induction hturns with
  | nil => simp
  | @cons event turn _ _ hturn _ ih =>
      intro call hmem
      rw [List.flatten_cons, List.mem_append] at hmem
      rcases hmem with hfirst | hlater
      · refine ⟨event, List.mem_cons_self, ?_, hturn.context call hfirst⟩
        rw [← Option.not_isSome_iff_eq_none]
        intro hkey
        rw [hturn.silent hkey] at hfirst
        cases hfirst
      · obtain ⟨other, hother, hsource⟩ := ih call hlater
        exact ⟨other, List.mem_cons_of_mem _ hother, hsource⟩

/-- A call is made on an event that records no command, and marked if a record comes later. -/
theorem exists_source (hreplay : replay limit registry ref history = .ok outcome) :
    ∀ call ∈ outcome.calls, ∃ event ∈ history, event.event.key? = none ∧
      call.context.eventId = event.eventId ∧
      call.context.replaying = decide (event.eventId < horizon history) := by
  obtain ⟨workflowType, input, taskQueue, attempt, parent, options, workflow, start, replayer,
    -, -, -, happlied, rfl⟩ := eq_ok_of_replay hreplay
  obtain ⟨part, turns, hpart, hturns, hcalls⟩ := Replayer.applyAll_turns happlied
  intro call hmem
  have hflat : call ∈ turns.flatten := by simpa [Replayer.initial, hcalls] using hmem
  obtain ⟨event, hevent, hkey, hcontext⟩ := exists_keyless hturns call hflat
  exact ⟨event, hpart.subset hevent, hkey, by rw [hcontext]; rfl, by rw [hcontext]; rfl⟩

/-- A replay of a longer history makes the same calls first, and all others on later events. -/
theorem repeats_of_longer (hdeterministic : workflow.Deterministic)
    (hreadable : Readable workflow (front ++ rest))
    (hfind : registry.find? workflow.name = some workflow)
    (hagain : again.find? workflow.name = some workflow)
    (hreplay : replay limit registry ref front = .ok earlier)
    (hlonger : replay other again ref (front ++ rest) = .ok outcome) :
    ∃ repeated more, outcome.calls = repeated ++ more ∧
      List.Forall₂ (fun first call => call.Repeats first) earlier.calls repeated ∧
      ∀ call ∈ more, ∃ event ∈ rest, call.context.eventId = event.eventId := by
  obtain ⟨input, taskQueue, attempt, parent, options, start, hhead, hcreate⟩ := hreadable
  obtain ⟨_, _, _, _, _, _, found, start', first, hhead', hfound, hcreate', happlied, rfl⟩ :=
    eq_ok_of_replay hreplay
  obtain ⟨_, _, _, _, _, _, found', start'', last, hhead'', hfound', hcreate'', hlast, rfl⟩ :=
    eq_ok_of_replay hlonger
  have hsome : front ≠ [] := by
    rintro rfl
    simp at hhead'
  rw [hhead] at hhead''
  cases hhead''
  rw [head?_append hsome, hhead'] at hhead
  cases hhead
  obtain rfl : found = workflow := Option.some.inj (hfound.symm.trans hfind)
  obtain rfl : found' = found := Option.some.inj (hfound'.symm.trans hagain)
  rw [hcreate] at hcreate' hcreate''
  obtain rfl : start = start' := Except.ok.inj hcreate'
  obtain rfl : start = start'' := Except.ok.inj hcreate''
  rw [Replayer.applyAll_append _ rfl] at hlast
  have hinitial : List.Forall₂ (fun first call : HandlerCall => call.Repeats first)
      (Replayer.initial start).calls (Replayer.initial start).calls := .nil
  rcases Replayer.applyAll_alike hdeterministic.repeats hinitial happlied other
    (horizon (front ++ rest)) with hendless | ⟨repeated, hrepeated, hresult⟩
  · rw [hendless] at hlast
    cases hlast
  · rw [hresult] at hlast
    simp only at hlast
    split at hlast
    · cases hlast
      exact ⟨repeated, [], (List.append_nil _).symm, hrepeated, by simp⟩
    · obtain ⟨part, turns, hpart, hturns, hcalls⟩ := Replayer.applyAll_turns hlast
      refine ⟨repeated, turns.flatten, hcalls, hrepeated, fun call hmem => ?_⟩
      obtain ⟨event, hevent, hcontext⟩ := exists_event hturns call hmem
      exact ⟨event, hpart.subset hevent, by rw [hcontext]; rfl⟩

section

variable {record : HistoryEvent} (hdeterministic : workflow.Deterministic)
  (hfind : registry.find? workflow.name = some workflow)
  (hagain : again.find? workflow.name = some workflow)
  (hreplay : replay limit registry ref front = .ok earlier)

include hdeterministic hfind hagain hreplay

/-- All calls that were made before a record are made again, and marked. -/
theorem marked_of_record (hreadable : Readable workflow (front ++ record :: rest))
    (hnumbered : Numbered (front ++ record :: rest)) (hkey : record.event.key?.isSome = true)
    (hlonger : replay other again ref (front ++ record :: rest) = .ok outcome) :
    ∃ repeated more, outcome.calls = repeated ++ more ∧
      List.Forall₂ (fun first call => call.Repeats first ∧ call.context.replaying = true)
        earlier.calls repeated := by
  obtain ⟨repeated, more, hcalls, hrepeated, -⟩ :=
    repeats_of_longer hdeterministic hreadable hfind hagain hreplay hlonger
  refine ⟨repeated, more, hcalls, ?_⟩
  rw [List.forall₂_iff_zip] at hrepeated ⊢
  refine ⟨hrepeated.1, fun {first call} hzip => ⟨hrepeated.2 hzip, ?_⟩⟩
  obtain ⟨hfirst, hcall⟩ := List.of_mem_zip hzip
  obtain ⟨event, -, -, heventId, hmark⟩ :=
    exists_source hlonger call (hcalls ▸ List.mem_append_left _ hcall)
  obtain ⟨source, hsource, -, hsourceId, -⟩ := exists_source hreplay first hfirst
  have hle := (hnumbered.mem_front_iff (List.mem_append_left _ hsource)).1 hsource
  have hhorizon := le_horizon hnumbered (by simp) hkey
  rw [hnumbered.eventId] at hhorizon
  have hsame := (hrepeated.2 hzip).eventId
  rw [hmark, decide_eq_true_iff]
  omega

/-- Where the last records follow each other, the marked calls were made before all of them. -/
theorem repeats_of_marked (hreadable : Readable workflow (front ++ (batch ++ record :: rest)))
    (hnumbered : Numbered (front ++ (batch ++ record :: rest)))
    (hbatch : ∀ event ∈ batch, event.event.key?.isSome = true)
    (hlast : record.eventId = horizon (front ++ (batch ++ record :: rest)))
    (hlonger : replay other again ref (front ++ (batch ++ record :: rest)) = .ok outcome) :
    ∀ call ∈ outcome.calls, call.context.replaying = true →
      ∃ first ∈ earlier.calls, call.Repeats first := by
  obtain ⟨repeated, more, hcalls, hrepeated, hmore⟩ :=
    repeats_of_longer hdeterministic hreadable hfind hagain hreplay hlonger
  intro call hmem hmarked
  obtain ⟨event, hevent, hkeyless, heventId, hmark⟩ := exists_source hlonger call hmem
  rw [hmark, decide_eq_true_iff, ← hlast] at hmarked
  have hregrouped : Numbered ((front ++ batch) ++ record :: rest) := by
    rwa [List.append_assoc]
  have hfront : event ∈ front := by
    have hinner : event ∈ front ++ batch := by
      refine (hregrouped.mem_front_iff (by rwa [List.append_assoc])).2 ?_
      have hrecord := hregrouped.eventId
      omega
    rcases List.mem_append.1 hinner with hin | hin
    · exact hin
    · have hkey := hbatch event hin
      rw [hkeyless] at hkey
      cases hkey
  have hle := (hnumbered.mem_front_iff hevent).1 hfront
  rw [hcalls] at hmem
  rcases List.mem_append.1 hmem with hin | hin
  · obtain ⟨hlength, hall⟩ := List.forall₂_iff_get.1 hrepeated
    obtain ⟨place, hplace, rfl⟩ := List.getElem_of_mem hin
    exact ⟨_, List.getElem_mem (hlength ▸ hplace), hall place (hlength ▸ hplace) hplace⟩
  · -- a later call is on an event with a greater number
    obtain ⟨later, hlater, hlaterId⟩ := hmore call hin
    have hmemLater := List.mem_append_right front hlater
    have hlaterFront := (hnumbered.mem_front_iff hmemLater).2 (by omega)
    obtain ⟨before, after, hsplit⟩ := List.append_of_mem hlater
    rw [hsplit, ← List.append_assoc] at hnumbered
    have hplace := hnumbered.eventId
    rw [List.length_append] at hplace
    omega

end

end Replay

end Chronicle
