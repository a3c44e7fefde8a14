import Mathlib.Logic.Relation
import Chronicle.Store.Basic

/-!
# Growth of the run table

A run table changes in three ways: an open run is revised by a commit, an open run is notified of
an event, and a run begins, which links the previous one of its workflow id to it.  This file
says what each of them does to a single record, and that an accepted commit is a series of them.
-/

namespace Chronicle

/-- The run as it began: what its later life never changes. -/
def Run.origin (run : Run) : Run :=
  { run with
    status := .running
    result := none
    failure := none
    closeTime := none
    historyLength := 0
    nextRunId := none }

theorem Run.ref_eq_of_origin {first second : Run} (h : first.origin = second.origin) :
    first.ref = second.ref := by
  have href := congrArg Run.ref h
  exact href

/-! ## Records -/

namespace RunRecord

def revise (record : RunRecord) (commit : Commit) (now : Instant) : RunRecord :=
  let record := record.append commit.events now
  match commit.closing with
  | some closing => record.close closing now
  | none => record

def link (record : RunRecord) (next : Uuid) : RunRecord :=
  { record with run := { record.run with nextRunId := some next } }

theorem number_append (now : Instant) (eventId : Nat) (first second : List Event) :
    number now eventId (first ++ second) =
      number now eventId first ++ number now (eventId + first.length) second := by
  induction first generalizing eventId with
  | nil => rfl
  | cons event rest ih =>
      have hnext : eventId + 1 + rest.length = eventId + (rest.length + 1) := by omega
      simp [number, ih, hnext]

theorem length_number (now : Instant) (eventId : Nat) (events : List Event) :
    (number now eventId events).length = events.length := by
  induction events generalizing eventId with
  | nil => rfl
  | cons event rest ih => simp [number, ih]

theorem map_event_number (now : Instant) (eventId : Nat) (events : List Event) :
    (number now eventId events).map HistoryEvent.event = events := by
  induction events generalizing eventId with
  | nil => rfl
  | cons event rest ih => simp [number, ih, HistoryEvent.ofEvent]

@[simp] theorem append_events (record : RunRecord) (events : List Event) (now : Instant) :
    (record.append events now).events = record.events ++ number now (record.version + 1) events :=
  rfl

@[simp] theorem append_origin (record : RunRecord) (events : List Event) (now : Instant) :
    (record.append events now).run.origin = record.run.origin := rfl

@[simp] theorem append_ref (record : RunRecord) (events : List Event) (now : Instant) :
    (record.append events now).run.ref = record.run.ref := rfl

@[simp] theorem link_events (record : RunRecord) (next : Uuid) :
    (record.link next).events = record.events := rfl

@[simp] theorem link_origin (record : RunRecord) (next : Uuid) :
    (record.link next).run.origin = record.run.origin := rfl

@[simp] theorem link_ref (record : RunRecord) (next : Uuid) :
    (record.link next).run.ref = record.run.ref := rfl

@[simp] theorem revise_events (record : RunRecord) (commit : Commit) (now : Instant) :
    (record.revise commit now).events =
      record.events ++ number now (record.version + 1) commit.events := by
  unfold revise
  cases commit.closing <;> rfl

@[simp] theorem revise_origin (record : RunRecord) (commit : Commit) (now : Instant) :
    (record.revise commit now).run.origin = record.run.origin := by
  unfold revise
  cases commit.closing <;> rfl

@[simp] theorem revise_ref (record : RunRecord) (commit : Commit) (now : Instant) :
    (record.revise commit now).run.ref = record.run.ref := by
  unfold revise
  cases commit.closing <;> rfl

/-- A step in the life of one run: a commit that its record warrants, a notification, or the link
to the run that was created next. -/
inductive Step (warrants : RunRecord → Commit → Prop) (announces : Event → Prop) :
    RunRecord → RunRecord → Prop where
  | revised {record : RunRecord} {commit : Commit} (now : Instant)
      (isOpen : record.isClosed = false) (warranted : warrants record commit) :
      Step warrants announces record (record.revise commit now)
  | notified {record : RunRecord} {event : Event} (now : Instant)
      (isOpen : record.isClosed = false) (announced : announces event) :
      Step warrants announces record (record.append [event] now)
  | linked {record : RunRecord} (next : Uuid) :
      Step warrants announces record (record.link next)

variable {warrants : RunRecord → Commit → Prop} {announces : Event → Prop}

theorem Step.events_prefix {before after : RunRecord} (step : Step warrants announces before after) :
    before.events <+: after.events := by
  cases step with
  | revised now isOpen warranted =>
      rw [revise_events]
      exact List.prefix_append _ _
  | notified now isOpen announced =>
      rw [append_events]
      exact List.prefix_append _ _
  | linked next => exact List.prefix_rfl

theorem Step.origin {before after : RunRecord} (step : Step warrants announces before after) :
    after.run.origin = before.run.origin := by
  cases step with
  | revised now isOpen warranted => exact revise_origin _ _ _
  | notified now isOpen announced => exact append_origin _ _ _
  | linked next => exact link_origin _ _

end RunRecord

/-! ## Tables -/

namespace RunTable

theorem ref_of_find? {table : RunTable} {ref : RunRef} {record : RunRecord}
    (h : table.find? ref = some record) : record.run.ref = ref := by
  have hfound := List.find?_some h
  simpa using hfound

theorem find?_modify (table : RunTable) (ref target : RunRef) (change : RunRecord → RunRecord)
    (hkeeps : ∀ record, (change record).run.ref = record.run.ref) :
    (table.modify ref change).find? target =
      if target = ref then (table.find? ref).map change else table.find? target := by
  unfold find? modify
  have hsame : ∀ record : RunRecord,
      (if record.run.ref = ref then change record else record).run.ref = record.run.ref := by
    intro record
    split
    · exact hkeeps record
    · rfl
  rw [List.find?_map]
  have hcomp : ((fun record : RunRecord => decide (record.run.ref = target)) ∘
      fun record => if record.run.ref = ref then change record else record) =
        fun record => decide (record.run.ref = target) := by
    funext record
    simp only [Function.comp, hsame]
  rw [hcomp]
  cases hfind : table.records.find? fun record => record.run.ref = target with
  | none =>
      split
      · rename_i htarget
        subst htarget
        simp [hfind]
      · rfl
  | some record =>
      have href : record.run.ref = target := by simpa using List.find?_some hfind
      split
      · rename_i htarget
        subst htarget
        simp [hfind, href]
      · rename_i htarget
        simp [href, htarget]

def linked (table : RunTable) (new : NewRun) : RunTable :=
  match table.currentRef? new.ref.workflowId with
  | none => table
  | some previous => table.modify previous fun record => record.link new.ref.runId

theorem find?_create {table : RunTable} {new : NewRun} (hfresh : table.find? new.ref = none)
    (now : Instant) (target : RunRef) :
    (table.create new now).find? target =
      if target = new.ref then some (.start new now) else (table.linked new).find? target := by
  have hcreate : (table.create new now).records =
      (table.linked new).records ++ [.start new now] := by
    unfold create linked
    simp only [hfresh, Option.isSome_none, Bool.false_eq_true, if_false]
    cases table.currentRef? new.ref.workflowId <;> rfl
  have hlinked : (table.linked new).find? new.ref = none := by
    unfold linked
    cases table.currentRef? new.ref.workflowId with
    | none => exact hfresh
    | some previous =>
        rw [find?_modify _ _ _ _ fun record => RunRecord.link_ref record new.ref.runId]
        split
        · rename_i hprevious
          rw [← hprevious, hfresh]
          rfl
        · exact hfresh
  have hstart : (RunRecord.start new now).run.ref = new.ref := rfl
  show (table.create new now).records.find? _ = _
  rw [hcreate, List.find?_append]
  split
  · rename_i htarget
    subst htarget
    have hnone : (table.linked new).records.find? (fun record => record.run.ref = new.ref) = none :=
      hlinked
    simp [hnone, hstart]
  · rename_i htarget
    have hother : ¬ new.ref = target := fun heq => htarget heq.symm
    have hlast : [RunRecord.start new now].find? (fun record => record.run.ref = target) = none := by
      simp [hstart, hother]
    rw [hlast, Option.or_none]
    rfl

def notified (table : RunTable) (notification : Notification) (now : Instant) : RunTable :=
  match table.find? notification.target with
  | none => table
  | some record =>
      if record.isClosed then table
      else table.modify notification.target fun record => record.append [notification.event] now

inductive Step (warrants : RunRecord → Commit → Prop) (announces : Event → Prop) :
    RunTable → RunTable → Prop where
  | revised {table : RunTable} {ref : RunRef} {record : RunRecord} {commit : Commit} (now : Instant)
      (found : table.find? ref = some record) (isOpen : record.isClosed = false)
      (warranted : warrants record commit) :
      Step warrants announces table (table.modify ref fun record => record.revise commit now)
  | notified {table : RunTable} {target : RunRef} {record : RunRecord} {event : Event}
      (now : Instant) (found : table.find? target = some record)
      (isOpen : record.isClosed = false) (announced : announces event) :
      Step warrants announces table (table.modify target fun record => record.append [event] now)
  | created {table : RunTable} {new : NewRun} (now : Instant)
      (fresh : table.find? new.ref = none) :
      Step warrants announces table (table.create new now)

variable {warrants : RunRecord → Commit → Prop} {announces : Event → Prop}

inductive Evolves (warrants : RunRecord → Commit → Prop) (announces : Event → Prop) :
    Option RunRecord → Option RunRecord → Prop where
  | same (record : Option RunRecord) : Evolves warrants announces record record
  | stepped {before after : RunRecord} (step : RunRecord.Step warrants announces before after) :
      Evolves warrants announces (some before) (some after)
  | begun (new : NewRun) (now : Instant) :
      Evolves warrants announces none (some (.start new now))

theorem Step.evolves {before after : RunTable} (step : Step warrants announces before after)
    (target : RunRef) : Evolves warrants announces (before.find? target) (after.find? target) := by
  cases step with
  | @revised ref record commit now found isOpen warranted =>
      rw [find?_modify _ _ _ _ fun record => RunRecord.revise_ref record commit now]
      split
      · rename_i htarget
        rw [htarget, found]
        exact .stepped (.revised now isOpen warranted)
      · exact .same _
  | @notified ref record event now found isOpen announced =>
      rw [find?_modify _ _ _ _ fun record => RunRecord.append_ref record [event] now]
      split
      · rename_i htarget
        rw [htarget, found]
        exact .stepped (.notified now isOpen announced)
      · exact .same _
  | @created new now fresh =>
      rw [find?_create fresh]
      split
      · rename_i htarget
        rw [htarget, fresh]
        exact .begun new now
      · unfold linked
        cases before.currentRef? new.ref.workflowId with
        | none => exact .same _
        | some previous =>
            simp only
            rw [find?_modify _ _ _ _ fun record => RunRecord.link_ref record new.ref.runId]
            split
            · rename_i htarget
              rw [htarget]
              cases before.find? previous with
              | none => exact .same _
              | some record => exact .stepped (.linked _)
            · exact .same _

/-! ## Series of steps -/

open Relation (ReflTransGen)

/-- What a record has at its beginning and keeps with each step, all records have. -/
theorem every_of_steps {holds : RunRecord → Prop} (hstart : ∀ new now, holds (.start new now))
    (hstep : ∀ before after, RunRecord.Step warrants announces before after → holds before →
      holds after)
    {before after : RunTable} (steps : ReflTransGen (Step warrants announces) before after)
    (hbefore : ∀ ref record, before.find? ref = some record → holds record) :
    ∀ ref record, after.find? ref = some record → holds record := by
  induction steps with
  | refl => exact hbefore
  | tail _ step ih =>
      intro ref record hfind
      have hevolves := step.evolves ref
      rw [hfind] at hevolves
      generalize hearlier : RunTable.find? _ ref = earlier at hevolves
      cases hevolves with
      | same => exact ih ref record hearlier
      | stepped step => exact hstep _ _ step (ih ref _ hearlier)
      | begun new now => exact hstart new now

/-- A run that is there stays, in the relation that each step keeps. -/
theorem related_of_steps {related : RunRecord → RunRecord → Prop}
    (hrefl : ∀ record, related record record)
    (htrans : ∀ first second third, related first second → related second third →
      related first third)
    (hstep : ∀ before after, RunRecord.Step warrants announces before after → related before after)
    {before after : RunTable} (steps : ReflTransGen (Step warrants announces) before after)
    {ref : RunRef} {record : RunRecord} (hfind : before.find? ref = some record) :
    ∃ later, after.find? ref = some later ∧ related record later := by
  induction steps with
  | refl => exact ⟨record, hfind, hrefl record⟩
  | tail _ step ih =>
      obtain ⟨middle, hmiddle, hrelated⟩ := ih
      have hevolves := step.evolves ref
      rw [hmiddle] at hevolves
      generalize RunTable.find? _ ref = last at hevolves ⊢
      cases hevolves with
      | same => exact ⟨middle, rfl, hrelated⟩
      | @stepped _ later step => exact ⟨later, rfl, htrans _ _ _ hrelated (hstep _ _ step)⟩

theorem find?_of_steps {before after : RunTable}
    (steps : ReflTransGen (Step warrants announces) before after) {ref : RunRef}
    {record : RunRecord} (hfind : before.find? ref = some record) :
    ∃ later, after.find? ref = some later ∧ record.events <+: later.events ∧
      later.run.origin = record.run.origin := by
  apply @related_of_steps warrants announces fun first second =>
    first.events <+: second.events ∧ second.run.origin = first.run.origin
  · exact fun _ => ⟨List.prefix_rfl, rfl⟩
  · exact fun _ _ _ early late => ⟨early.1.trans late.1, late.2.trans early.2⟩
  · exact fun _ _ step => ⟨step.events_prefix, step.origin⟩
  · exact steps
  · exact hfind

def applied (table : RunTable) (ref : RunRef) (commit : Commit) (now : Instant) : RunTable :=
  commit.notifications.foldl (fun table notification => table.notified notification now)
    (commit.newRuns.foldl (fun table new => table.create new now)
      (table.modify ref fun record => record.revise commit now))

theorem steps_notified (notifications : List Notification) (now : Instant)
    (hannounced : ∀ notification ∈ notifications, announces notification.event) (table : RunTable) :
    ReflTransGen (Step warrants announces) table
      (notifications.foldl (fun table notification => table.notified notification now) table) := by
  induction notifications generalizing table with
  | nil => exact .refl
  | cons notification rest ih =>
      have hrest := ih (fun other hmem => hannounced other (List.mem_cons_of_mem _ hmem))
        (table.notified notification now)
      refine ReflTransGen.trans ?_ hrest
      unfold notified
      split
      · exact .refl
      · rename_i record hfind
        split
        · exact .refl
        · rename_i hopen
          exact .single (.notified now hfind (by simpa using hopen)
            (hannounced notification List.mem_cons_self))

theorem find?_linked_isSome (table : RunTable) (new : NewRun) (target : RunRef) :
    ((table.linked new).find? target).isSome = (table.find? target).isSome := by
  unfold linked
  cases table.currentRef? new.ref.workflowId with
  | none => rfl
  | some previous =>
      simp only
      rw [find?_modify _ _ _ _ fun record => RunRecord.link_ref record new.ref.runId]
      split
      · rename_i htarget
        rw [htarget, Option.isSome_map]
      · rfl

/-- Runs that are still to begin stay unknown when another one begins. -/
theorem fresh_created {table : RunTable} {new : NewRun} {rest : List NewRun} (now : Instant)
    (hfresh : ∀ other ∈ new :: rest, table.find? other.ref = none)
    (hnot : new.ref ∉ rest.map NewRun.ref) :
    ∀ other ∈ rest, (table.create new now).find? other.ref = none := by
  intro other hmem
  have hother : other.ref ≠ new.ref := fun hsame => hnot (hsame ▸ List.mem_map_of_mem hmem)
  have hlinked := find?_linked_isSome table new other.ref
  rw [hfresh other (List.mem_cons_of_mem _ hmem)] at hlinked
  rw [find?_create (hfresh new List.mem_cons_self), if_neg hother]
  simpa using hlinked

theorem steps_created (newRuns : List NewRun) (now : Instant) (table : RunTable)
    (hfresh : ∀ new ∈ newRuns, table.find? new.ref = none)
    (hdistinct : (newRuns.map NewRun.ref).Nodup) :
    ReflTransGen (Step warrants announces) table
        (newRuns.foldl (fun table new => table.create new now) table) ∧
      ∀ target, ((newRuns.foldl (fun table new => table.create new now) table).find? target).isSome =
        ((table.find? target).isSome || (newRuns.map NewRun.ref).contains target) := by
  induction newRuns generalizing table with
  | nil => exact ⟨.refl, by simp⟩
  | cons new rest ih =>
      have hnew := hfresh new List.mem_cons_self
      simp only [List.map_cons, List.nodup_cons] at hdistinct
      have hstays : ∀ target, ((table.create new now).find? target).isSome =
          ((table.find? target).isSome || decide (target = new.ref)) := by
        intro target
        rw [find?_create hnew]
        split
        · rename_i htarget
          simp [htarget]
        · rename_i htarget
          simp [htarget, find?_linked_isSome]
      obtain ⟨hsteps, hfinds⟩ :=
        ih (table.create new now) (fresh_created now hfresh hdistinct.1) hdistinct.2
      refine ⟨ReflTransGen.trans (.single (.created now hnew)) hsteps, ?_⟩
      intro target
      rw [List.foldl_cons, hfinds, hstays]
      simp [Bool.or_assoc]

theorem find?_notified_isSome (notifications : List Notification) (now : Instant)
    (table : RunTable) (target : RunRef) :
    ((notifications.foldl (fun table notification => table.notified notification now)
        table).find? target).isSome = (table.find? target).isSome := by
  induction notifications generalizing table with
  | nil => rfl
  | cons notification rest ih =>
      rw [List.foldl_cons, ih]
      unfold notified
      split
      · rfl
      · split
        · rfl
        · rw [find?_modify _ _ _ _ fun record =>
            RunRecord.append_ref record [notification.event] now]
          split
          · rename_i htarget
            rw [htarget, Option.isSome_map]
          · rfl

theorem find?_revised_isSome (table : RunTable) (ref : RunRef) (commit : Commit) (now : Instant)
    (target : RunRef) :
    ((table.modify ref fun record => record.revise commit now).find? target).isSome =
      (table.find? target).isSome := by
  rw [find?_modify _ _ _ _ fun record => RunRecord.revise_ref record commit now]
  split
  · rename_i htarget
    rw [htarget, Option.isSome_map]
  · rfl

theorem fresh_of_revised {table : RunTable} {ref : RunRef} {commit : Commit} (now : Instant)
    (fresh : ∀ new ∈ commit.newRuns, table.find? new.ref = none) :
    ∀ new ∈ commit.newRuns,
      (table.modify ref fun record => record.revise commit now).find? new.ref = none := by
  intro new hmem
  have hnone := find?_revised_isSome table ref commit now new.ref
  rw [fresh new hmem] at hnone
  simpa using hnone

/-- After the run itself was revised, a commit begins its new runs and tells others. -/
theorem steps_of_revised {table : RunTable} {ref : RunRef} {commit : Commit} (now : Instant)
    (hannounced : ∀ notification ∈ commit.notifications, announces notification.event)
    (hfresh : ∀ new ∈ commit.newRuns, table.find? new.ref = none)
    (hdistinct : (commit.newRuns.map NewRun.ref).Nodup) :
    ReflTransGen (Step warrants announces)
        (table.modify ref fun record => record.revise commit now)
        (table.applied ref commit now) ∧
      ∀ target, ((table.applied ref commit now).find? target).isSome =
        ((table.find? target).isSome || (commit.newRuns.map NewRun.ref).contains target) := by
  obtain ⟨hcreated, hfinds⟩ := @steps_created warrants announces commit.newRuns now _
    (@fresh_of_revised table ref commit now hfresh) hdistinct
  constructor
  · exact hcreated.trans (steps_notified commit.notifications now hannounced _)
  · intro target
    unfold applied
    rw [find?_notified_isSome, hfinds, find?_revised_isSome]

/-- An accepted commit is a series of steps, after which the only new runs are its own. -/
theorem steps_applied {table : RunTable} {ref : RunRef} {record : RunRecord} {commit : Commit}
    (now : Instant) (hfind : table.find? ref = some record) (hopen : record.isClosed = false)
    (hwarranted : warrants record commit)
    (hannounced : ∀ notification ∈ commit.notifications, announces notification.event)
    (hfresh : ∀ new ∈ commit.newRuns, table.find? new.ref = none)
    (hdistinct : (commit.newRuns.map NewRun.ref).Nodup) :
    ReflTransGen (Step warrants announces) table (table.applied ref commit now) ∧
      ∀ target, ((table.applied ref commit now).find? target).isSome =
        ((table.find? target).isSome || (commit.newRuns.map NewRun.ref).contains target) := by
  obtain ⟨hsteps, hfinds⟩ :=
    @steps_of_revised warrants announces table ref commit now hannounced hfresh hdistinct
  exact ⟨ReflTransGen.trans (.single (.revised now hfind hopen hwarranted)) hsteps, hfinds⟩

theorem find?_revised {table : RunTable} {ref : RunRef} {record : RunRecord}
    (hfind : table.find? ref = some record) (commit : Commit) (now : Instant) :
    (table.modify ref fun record => record.revise commit now).find? ref =
      some (record.revise commit now) := by
  rw [find?_modify _ _ _ _ fun record => RunRecord.revise_ref record commit now]
  simp [hfind]

/-- The batch of an accepted commit follows the history that it was built from. -/
theorem events_applied {table : RunTable} {ref : RunRef} {record : RunRecord} {commit : Commit}
    (now : Instant) (hfind : table.find? ref = some record)
    (hfresh : ∀ new ∈ commit.newRuns, table.find? new.ref = none)
    (hdistinct : (commit.newRuns.map NewRun.ref).Nodup) :
    ∃ later rest, (table.applied ref commit now).find? ref = some later ∧
      later.events = record.events ++
        RunRecord.number now (record.events.length + 1) commit.events ++ rest := by
  obtain ⟨hsteps, -⟩ := @steps_of_revised (fun _ _ => True) (fun _ => True) table ref commit now
    (fun _ _ => trivial) hfresh hdistinct
  obtain ⟨later, hlater, hinitial, -⟩ := find?_of_steps hsteps (find?_revised hfind commit now)
  obtain ⟨rest, hrest⟩ := hinitial
  rw [RunRecord.revise_events] at hrest
  exact ⟨later, rest, hlater, hrest.symm⟩

end RunTable

/-! ## The store -/

namespace Store

@[simp] theorem addTask_runs (store : Store) (task : NewTask) (now : Instant) :
    (store.addTask task now).runs = store.runs := rfl

@[simp] theorem addTimer_runs (store : Store) (timer : Timer) :
    (store.addTimer timer).runs = store.runs := rfl

@[simp] theorem wake_runs (store : Store) : store.wake.runs = store.runs := rfl

@[simp] theorem startRun_runs (store : Store) (new : NewRun) (now : Instant) :
    (store.startRun new now).runs = store.runs.create new now := by
  unfold startRun
  cases new.options.executionTimeout <;> rfl

@[simp] theorem notify_runs (store : Store) (notification : Notification) (now : Instant) :
    (store.notify notification now).runs = store.runs.notified notification now := by
  unfold notify RunTable.notified
  cases hfind : store.runs.find? notification.target with
  | none => rfl
  | some record =>
      simp only
      split <;> rfl

theorem foldl_runs {α : Type} (act : Store → α → Store) (change : RunTable → α → RunTable)
    (hact : ∀ store item, (act store item).runs = change store.runs item) (items : List α)
    (store : Store) : (items.foldl act store).runs = items.foldl change store.runs := by
  induction items generalizing store with
  | nil => rfl
  | cons item rest ih => rw [List.foldl_cons, List.foldl_cons, ih, hact]

theorem foldl_runs_same {α : Type} (act : Store → α → Store)
    (hact : ∀ store item, (act store item).runs = store.runs) (items : List α) (store : Store) :
    (items.foldl act store).runs = store.runs := by
  rw [foldl_runs act (fun table _ => table) hact]
  induction items with
  | nil => rfl
  | cons item rest ih => exact ih

theorem apply_runs (store : Store) (ref : RunRef) (commit : Commit) (now : Instant) :
    (store.apply ref commit now).runs = store.runs.applied ref commit now := by
  unfold apply RunTable.applied
  rw [foldl_runs _ (fun table notification => table.notified notification now)
    fun store notification => notify_runs store notification now]
  rw [foldl_runs _ (fun table new => table.create new now)
    fun store new => startRun_runs store new now]
  congr 2
  split
  · simp only
    rw [foldl_runs_same addTimer addTimer_runs, foldl_runs_same _ fun store task =>
      addTask_runs store task now]
    rfl
  · simp only
    rw [foldl_runs_same addTimer addTimer_runs, foldl_runs_same _ fun store task =>
      addTask_runs store task now]
    rfl

/-- A commit is accepted for an open run at the version it was built from, and then applied. -/
theorem commit_eq_ok {store after : Store} {ref : RunRef} {expected version : Nat}
    {commit : Commit} {now : Instant}
    (h : store.commit ref expected commit now = .ok (after, version)) :
    ∃ record, store.runs.find? ref = some record ∧ record.isClosed = false ∧
      record.events.length = expected ∧ after = (store.apply ref commit now).wake ∧
      ∀ revised, after.runs.find? ref = some revised → version = revised.events.length := by
  unfold Store.commit RunTable.get at h
  cases hfind : store.runs.find? ref with
  | none => simp [hfind] at h
  | some record =>
      simp only [hfind] at h
      split at h
      · cases h
      · rename_i hopen
        split at h
        · cases h
        · rename_i hversion
          split at h
          · cases h
          · simp only [Except.ok.injEq, Prod.mk.injEq] at h
            obtain ⟨hafter, hnumber⟩ := h
            refine ⟨record, rfl, by simpa using hopen, by simpa [RunRecord.version] using hversion,
              hafter.symm, ?_⟩
            intro revised hrevised
            rw [hafter, hrevised] at hnumber
            exact hnumber.symm

end Store

end Chronicle
