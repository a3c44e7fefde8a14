import Chronicle.Proofs.Engine.Batches
import Chronicle.Proofs.Store.Growth

/-!
# Histories

The events of a run are numbered from 1 on.  The first one starts the run and no other one does;
only the last one can close it, and then the run has ended as that event says.  Every tidy commit
and every announcement keeps a history that way, and nothing reopens a run.
-/

namespace Chronicle

namespace RunRecord

/-- How the run has ended, if it has. -/
def closing? (record : RunRecord) : Option Closing :=
  if record.isClosed then some ⟨record.run.status, record.run.result, record.run.failure⟩ else none

def lastClosing? (record : RunRecord) : Option Closing :=
  record.events.getLast?.bind fun event => event.event.closing?

structure WellFormed (record : RunRecord) : Prop where
  numbered : record.events.map HistoryEvent.eventId = List.range' 1 record.events.length
  length : record.run.historyLength = record.events.length
  starts : ∃ first rest, record.events = first :: rest ∧ first.event.isStart = true ∧
    ∀ event ∈ rest, event.event.isStart = false
  inner : ∀ event ∈ record.events.dropLast, event.event.isClose = false
  closing : record.closing? = record.lastClosing?

theorem map_eventId_number (now : Instant) (eventId : Nat) (events : List Event) :
    (number now eventId events).map HistoryEvent.eventId = List.range' eventId events.length := by
  induction events generalizing eventId with
  | nil => rfl
  | cons event rest ih => simp [number, ih, HistoryEvent.ofEvent, List.range'_succ]

theorem event_mem_of_mem_number {now : Instant} {eventId : Nat} {events : List Event}
    {event : HistoryEvent} (h : event ∈ number now eventId events) : event.event ∈ events := by
  have hmem := List.mem_map_of_mem (f := HistoryEvent.event) h
  rw [map_event_number] at hmem
  exact hmem

theorem lastClosing?_eq (record : RunRecord) :
    record.lastClosing? = (record.events.map HistoryEvent.event).getLast?.bind Event.closing? := by
  unfold lastClosing?
  rw [List.getLast?_map, Option.bind_map]
  rfl

theorem lastClosing?_revise (record : RunRecord) (commit : Commit) (now : Instant) :
    (record.revise commit now).lastClosing? =
      (commit.events.getLast?.or (record.events.map HistoryEvent.event).getLast?).bind
        Event.closing? := by
  rw [lastClosing?_eq, revise_events, List.map_append, map_event_number, List.getLast?_append]

theorem closing?_of_open {record : RunRecord} (hopen : record.isClosed = false) :
    record.closing? = none := by
  simp [closing?, hopen]

theorem closing?_revise_none {record : RunRecord} {commit : Commit} (hopen : record.isClosed = false)
    (hclosing : commit.closing = none) (now : Instant) :
    (record.revise commit now).closing? = none := by
  apply closing?_of_open
  unfold revise
  rw [hclosing]
  exact hopen

theorem closing?_revise_some (record : RunRecord) {commit : Commit} {closing : Closing}
    (hclosing : commit.closing = some closing) (hclosed : closing.status.isClosed = true)
    (now : Instant) : (record.revise commit now).closing? = some closing := by
  unfold revise closing? isClosed
  rw [hclosing]
  simp [close, hclosed]

theorem isClosed_revise_some (record : RunRecord) {commit : Commit} {closing : Closing}
    (hclosing : commit.closing = some closing) (hclosed : closing.status.isClosed = true)
    (now : Instant) : (record.revise commit now).isClosed = true := by
  unfold revise
  rw [hclosing]
  exact hclosed

theorem historyLength_revise (record : RunRecord) (commit : Commit) (now : Instant) :
    (record.revise commit now).run.historyLength = (record.revise commit now).events.length := by
  unfold revise
  cases commit.closing <;> rfl

namespace WellFormed

theorem start (new : NewRun) (now : Instant) : (RunRecord.start new now).WellFormed where
  numbered := rfl
  length := rfl
  starts := ⟨_, [], rfl, rfl, by simp⟩
  inner := by simp [RunRecord.start]
  closing := rfl

/-- No event of an open run closes it. -/
theorem plain {record : RunRecord} (wellFormed : record.WellFormed)
    (hopen : record.isClosed = false) : ∀ event ∈ record.events, event.event.isClose = false := by
  have hclosing := wellFormed.closing
  rw [closing?_of_open hopen] at hclosing
  obtain ⟨first, rest, hevents, -, -⟩ := wellFormed.starts
  intro event hmem
  cases hlast : record.events.getLast? with
  | none =>
      rw [List.getLast?_eq_none_iff.1 hlast] at hevents
      cases hevents
  | some last =>
      have hsplit := List.dropLast_append_getLast? last hlast
      rw [← hsplit] at hmem
      rcases List.mem_append.1 hmem with hinner | hend
      · exact wellFormed.inner event hinner
      · rw [List.mem_singleton.1 hend, ← Event.isSome_closing?]
        simp only [lastClosing?, hlast, Option.bind_some] at hclosing
        rw [← hclosing]
        rfl

theorem revise {record : RunRecord} {commit : Commit} (wellFormed : record.WellFormed)
    (hopen : record.isClosed = false) (tidy : commit.Tidy) (now : Instant) :
    (record.revise commit now).WellFormed where
  numbered := by
    rw [revise_events, List.map_append, wellFormed.numbered, map_eventId_number, List.length_append,
      length_number, version, Nat.add_comm record.events.length 1, List.range'_append_1]
  length := historyLength_revise record commit now
  starts := by
    obtain ⟨first, rest, hevents, hfirst, hrest⟩ := wellFormed.starts
    refine ⟨first, rest ++ number now (record.version + 1) commit.events, ?_, hfirst, ?_⟩
    · rw [revise_events, hevents, List.cons_append]
    · intro event hmem
      rcases List.mem_append.1 hmem with hold | hnew
      · exact hrest event hold
      · exact tidy.starts _ (event_mem_of_mem_number hnew)
  inner := by
    rw [revise_events]
    intro event hmem
    cases hempty : commit.events with
    | nil =>
        rw [hempty] at hmem
        simp only [number, List.append_nil] at hmem
        exact wellFormed.inner event hmem
    | cons head tail =>
        have hsome : number now (record.version + 1) commit.events ≠ [] := by
          rw [hempty]
          exact List.cons_ne_nil _ _
        rw [List.dropLast_append_of_ne_nil hsome] at hmem
        rcases List.mem_append.1 hmem with hold | hnew
        · exact wellFormed.plain hopen event hold
        · have hevent := List.mem_map_of_mem (f := HistoryEvent.event) hnew
          rw [List.map_dropLast, map_event_number] at hevent
          exact tidy.inner _ hevent
  closing := by
    rw [lastClosing?_revise]
    cases hclosing : commit.closing with
    | none =>
        rw [closing?_revise_none hopen hclosing]
        have hcommit := tidy.closing
        rw [hclosing] at hcommit
        cases hlast : commit.events.getLast? with
        | none =>
            -- nothing is recorded, and the last event is that from before
            have hbefore := wellFormed.closing
            rw [closing?_of_open hopen, lastClosing?_eq] at hbefore
            exact hbefore
        | some last =>
            rw [hlast] at hcommit
            exact hcommit
    | some closing =>
        have hcommit := tidy.closing
        rw [hclosing] at hcommit
        cases hlast : commit.events.getLast? with
        | none =>
            rw [hlast] at hcommit
            cases hcommit
        | some last =>
            rw [hlast, Option.bind_some] at hcommit
            rw [closing?_revise_some record hclosing (Event.isClosed_of_closing? hcommit.symm)]
            exact hcommit

theorem notify {record : RunRecord} {event : Event} (wellFormed : record.WellFormed)
    (hopen : record.isClosed = false) (hannouncement : event.isAnnouncement = true)
    (now : Instant) : (record.append [event] now).WellFormed := by
  have htidy : (Commit.ofEvents [event]).Tidy := by
    refine .single rfl (Event.isStart_of_isAnnouncement hannouncement) ?_ ?_
    · rw [Event.closing?_eq_none (Event.isClose_of_isAnnouncement hannouncement)]
      rfl
    · simp [Commit.ofEvents]
  exact wellFormed.revise hopen htidy now

theorem link {record : RunRecord} (wellFormed : record.WellFormed) (next : Uuid) :
    (record.link next).WellFormed :=
  ⟨wellFormed.numbered, wellFormed.length, wellFormed.starts, wellFormed.inner, wellFormed.closing⟩

end WellFormed

variable {warrants : RunRecord → Commit → Prop} {announces : Event → Prop}

theorem Step.wellFormed {before after : RunRecord} (step : Step warrants announces before after)
    (htidy : ∀ record commit, warrants record commit → commit.Tidy)
    (hannounces : ∀ event, announces event → event.isAnnouncement = true)
    (wellFormed : before.WellFormed) : after.WellFormed := by
  cases step with
  | revised now isOpen warranted => exact wellFormed.revise isOpen (htidy _ _ warranted) now
  | notified now isOpen announced => exact wellFormed.notify isOpen (hannounces _ announced) now
  | linked next => exact wellFormed.link next

/-! ## Closed runs -/

/-- What nothing changes once the run is closed. -/
structure Settled (before after : RunRecord) : Prop where
  events : after.events = before.events
  status : after.run.status = before.run.status
  result : after.run.result = before.run.result
  failure : after.run.failure = before.run.failure
  closeTime : after.run.closeTime = before.run.closeTime

/-- The history is only added to, and not even that once the run is closed. -/
structure Continues (before after : RunRecord) : Prop where
  grows : before.events <+: after.events
  settled : before.isClosed = true → Settled before after

theorem Continues.refl (record : RunRecord) : Continues record record :=
  ⟨List.prefix_rfl, fun _ => ⟨rfl, rfl, rfl, rfl, rfl⟩⟩

theorem Continues.trans {first second third : RunRecord} (early : Continues first second)
    (late : Continues second third) : Continues first third where
  grows := early.grows.trans late.grows
  settled := by
    intro hclosed
    have hfirst := early.settled hclosed
    have hsecond := late.settled (by rw [isClosed, hfirst.status]; exact hclosed)
    exact ⟨hsecond.events.trans hfirst.events, hsecond.status.trans hfirst.status,
      hsecond.result.trans hfirst.result, hsecond.failure.trans hfirst.failure,
      hsecond.closeTime.trans hfirst.closeTime⟩

theorem Step.continues {before after : RunRecord} (step : Step warrants announces before after) :
    Continues before after where
  grows := step.events_prefix
  settled := by
    intro hclosed
    cases step with
    | revised now isOpen warranted =>
        rw [isOpen] at hclosed
        cases hclosed
    | notified now isOpen announced =>
        rw [isOpen] at hclosed
        cases hclosed
    | linked next => exact ⟨rfl, rfl, rfl, rfl, rfl⟩

end RunRecord

/-! ## Tables -/

namespace RunTable

open Relation (ReflTransGen)

variable {warrants : RunRecord → Commit → Prop} {announces : Event → Prop}

def WellFormed (table : RunTable) : Prop :=
  ∀ ref record, table.find? ref = some record → record.WellFormed

theorem WellFormed.empty : WellFormed .empty := by
  intro ref record hfind
  cases hfind

theorem WellFormed.steps {before after : RunTable} (wellFormed : before.WellFormed)
    (htidy : ∀ record commit, warrants record commit → commit.Tidy)
    (hannounces : ∀ event, announces event → event.isAnnouncement = true)
    (steps : ReflTransGen (Step warrants announces) before after) : after.WellFormed :=
  every_of_steps RunRecord.WellFormed.start
    (fun _ _ step holds => step.wellFormed htidy hannounces holds) steps wellFormed

theorem continues_of_steps {before after : RunTable}
    (steps : ReflTransGen (Step warrants announces) before after) {ref : RunRef}
    {record : RunRecord} (hfind : before.find? ref = some record) :
    ∃ later, after.find? ref = some later ∧ record.Continues later :=
  related_of_steps RunRecord.Continues.refl (fun _ _ _ first second => first.trans second)
    (fun _ _ step => step.continues) steps hfind

/-- Steps that neither revise nor notify a run leave all histories as they are. -/
theorem events_of_idle_steps {before after : RunTable}
    (steps : ReflTransGen (Step (fun _ _ => False) fun _ => False) before after) {ref : RunRef}
    {record : RunRecord} (hfind : before.find? ref = some record) :
    ∃ later, after.find? ref = some later ∧ later.events = record.events := by
  apply @related_of_steps (fun _ _ => False) (fun _ => False) fun first second =>
    second.events = first.events
  · exact fun _ => rfl
  · exact fun _ _ _ early late => late.trans early
  · intro first second step
    cases step with
    | revised now isOpen warranted => cases warranted
    | notified now isOpen announced => cases announced
    | linked next => rfl
  · exact steps
  · exact hfind

/-- A tidy commit that tells others only of the end of its run adds its batch and no more to its own
history. -/
theorem events_applied_exactly {table : RunTable} {ref : RunRef} {record : RunRecord}
    {commit : Commit} (now : Instant) (hfind : table.find? ref = some record)
    (hfresh : ∀ new ∈ commit.newRuns, table.find? new.ref = none)
    (hdistinct : (commit.newRuns.map NewRun.ref).Nodup) (tidy : commit.Tidy)
    (hsilent : commit.closing = none → commit.notifications = []) :
    ∃ later, (table.applied ref commit now).find? ref = some later ∧
      later.events = record.events ++
        RunRecord.number now (record.events.length + 1) commit.events := by
  have hrevised := find?_revised hfind commit now
  cases hclosing : commit.closing with
  | none =>
      obtain ⟨hsteps, -⟩ := @steps_of_revised (fun _ _ => False) (fun _ => False) table ref commit
        now (by simp [hsilent hclosing]) hfresh hdistinct
      obtain ⟨later, hlater, hevents⟩ := events_of_idle_steps hsteps hrevised
      exact ⟨later, hlater, hevents.trans (RunRecord.revise_events record commit now)⟩
  | some closing =>
      obtain ⟨hsteps, -⟩ := @steps_of_revised (fun _ _ => True) (fun _ => True) table ref commit
        now (fun _ _ => trivial) hfresh hdistinct
      obtain ⟨later, hlater, hcontinues⟩ := continues_of_steps hsteps hrevised
      have hclosed : closing.status.isClosed = true := by
        have hlast := tidy.closing
        rw [hclosing] at hlast
        obtain ⟨event, -, hevent⟩ := Option.bind_eq_some_iff.1 hlast.symm
        exact Event.isClosed_of_closing? hevent
      have hsettled := hcontinues.settled
        (RunRecord.isClosed_revise_some record hclosing hclosed now)
      exact ⟨later, hlater, hsettled.events.trans (RunRecord.revise_events record commit now)⟩

end RunTable

end Chronicle
