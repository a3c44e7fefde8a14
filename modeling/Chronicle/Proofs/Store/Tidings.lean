import Chronicle.Proofs.Store.Applying
import Chronicle.Proofs.Store.Histories

/-!
# Tidings

What a commit means for each run of the store: its own run is revised, its new runs begin, and an
open run that it tells something hears just that and is woken.  Otherwise runs stay as they are.
-/

namespace Chronicle

open Relation (ReflTransGen)

/-- What the target is told, in order. -/
def toldTo (notifications : List Notification) (target : RunRef) : List Event :=
  (notifications.filter fun notification => notification.target = target).map Notification.event

namespace RunRecord

/-- The events of the history, without their numbers and times. -/
def story (record : RunRecord) : List Event := record.events.map HistoryEvent.event

theorem story_start (new : NewRun) (now : Instant) :
    (RunRecord.start new now).story = [new.startEvent] := rfl

theorem story_revise (record : RunRecord) (commit : Commit) (now : Instant) :
    (record.revise commit now).story = record.story ++ commit.events := by
  rw [story, revise_events, List.map_append, map_event_number]
  rfl

/-- The run hears the events, and is otherwise what it was. -/
structure Hears (record : RunRecord) (told : List Event) (later : RunRecord) : Prop where
  origin : later.run.origin = record.run.origin
  closing : later.closing? = record.closing?
  story : later.story = record.story ++ told

theorem isSome_closing? (record : RunRecord) : record.closing?.isSome = record.isClosed := by
  unfold closing?
  cases record.isClosed <;> rfl

namespace Hears

variable {first second third : RunRecord} {early late : List Event}

theorem refl (record : RunRecord) : record.Hears [] record := ⟨rfl, rfl, by simp⟩

theorem trans (hears : first.Hears early second) (more : second.Hears late third) :
    first.Hears (early ++ late) third where
  origin := more.origin.trans hears.origin
  closing := more.closing.trans hears.closing
  story := by rw [more.story, hears.story, List.append_assoc]

theorem isClosed (hears : first.Hears early second) : second.isClosed = first.isClosed := by
  rw [← isSome_closing?, ← isSome_closing?, hears.closing]

theorem append (record : RunRecord) (events : List Event) (now : Instant) :
    record.Hears events (record.append events now) where
  origin := append_origin record events now
  closing := rfl
  story := by rw [RunRecord.story, append_events, List.map_append, map_event_number]; rfl

theorem link (record : RunRecord) (next : Uuid) : record.Hears [] (record.link next) where
  origin := link_origin record next
  closing := rfl
  story := (List.append_nil _).symm

end Hears

end RunRecord

namespace RunTable

theorem hears_notified_once {table : RunTable} {target : RunRef} {record : RunRecord}
    (hfind : table.find? target = some record) (notification : Notification) (now : Instant) :
    ∃ later, (table.notified notification now).find? target = some later ∧
      record.Hears (if record.isClosed then [] else toldTo [notification] target) later := by
  rcases eq_or_ne notification.target target with rfl | hother
  · unfold notified
    simp only [hfind]
    cases hclosed : record.isClosed with
    | true => exact ⟨record, by simpa using hfind, .refl record⟩
    | false =>
        refine ⟨record.append [notification.event] now, ?_, ?_⟩
        · rw [if_neg (by simp), find?_modify _ _ _ _ fun record =>
            RunRecord.append_ref record [notification.event] now]
          simp [hfind]
        · simpa [toldTo] using RunRecord.Hears.append record [notification.event] now
  · have htold : toldTo [notification] target = [] := by simp [toldTo, hother]
    rw [htold, ite_self]
    refine ⟨record, ?_, .refl record⟩
    unfold notified
    split
    · exact hfind
    · split
      · exact hfind
      · rw [find?_modify _ _ _ _ fun record =>
          RunRecord.append_ref record [notification.event] now, if_neg hother.symm]
        exact hfind

/-- A run hears what it is told while it is open. -/
theorem hears_notified (notifications : List Notification) (now : Instant) {table : RunTable}
    {target : RunRef} {record : RunRecord} (hfind : table.find? target = some record) :
    ∃ later, (notifications.foldl (fun table notification => table.notified notification now)
        table).find? target = some later ∧
      record.Hears (if record.isClosed then [] else toldTo notifications target) later := by
  induction notifications generalizing table record with
  | nil => exact ⟨record, hfind, by simpa [toldTo] using RunRecord.Hears.refl record⟩
  | cons notification rest ih =>
      obtain ⟨middle, hmiddle, hears⟩ := hears_notified_once hfind notification now
      obtain ⟨later, hlater, more⟩ := ih hmiddle
      refine ⟨later, hlater, ?_⟩
      have hboth := hears.trans more
      rw [hears.isClosed] at hboth
      cases hclosed : record.isClosed with
      | true => simpa [hclosed] using hboth
      | false =>
          have htold : toldTo (notification :: rest) target =
              toldTo [notification] target ++ toldTo rest target := by
            rw [toldTo, ← List.singleton_append, List.filter_append, List.map_append]
            rfl
          simpa [hclosed, htold] using hboth

theorem hears_create {table : RunTable} {new : NewRun} (fresh : table.find? new.ref = none)
    (now : Instant) {target : RunRef} {record : RunRecord} (hfind : table.find? target = some record) :
    ∃ later, (table.create new now).find? target = some later ∧ record.Hears [] later := by
  have hother : target ≠ new.ref := by
    rintro rfl
    rw [fresh] at hfind
    cases hfind
  rw [find?_create fresh, if_neg hother]
  unfold linked
  cases table.currentRef? new.ref.workflowId with
  | none => exact ⟨record, hfind, .refl record⟩
  | some previous =>
      simp only
      rw [find?_modify _ _ _ _ fun record => RunRecord.link_ref record new.ref.runId]
      split
      · rename_i hprevious
        exact ⟨record.link new.ref.runId, by rw [← hprevious, hfind]; rfl, .link record _⟩
      · exact ⟨record, hfind, .refl record⟩

/-- Others hear nothing of the runs that begin. -/
theorem hears_created {newRuns : List NewRun} (now : Instant) {table : RunTable}
    (fresh : ∀ new ∈ newRuns, table.find? new.ref = none)
    (distinct : (newRuns.map NewRun.ref).Nodup) {target : RunRef} {record : RunRecord}
    (hfind : table.find? target = some record) :
    ∃ later, (newRuns.foldl (fun table new => table.create new now) table).find? target =
      some later ∧ record.Hears [] later := by
  induction newRuns generalizing table record with
  | nil => exact ⟨record, hfind, .refl record⟩
  | cons new rest ih =>
      rw [List.map_cons, List.nodup_cons] at distinct
      obtain ⟨middle, hmiddle, hears⟩ := hears_create (fresh new List.mem_cons_self) now hfind
      obtain ⟨later, hlater, more⟩ := ih (fresh_created now fresh distinct.1) distinct.2 hmiddle
      exact ⟨later, hlater, by simpa using hears.trans more⟩

theorem find?_created {newRuns : List NewRun} (now : Instant) {table : RunTable}
    (fresh : ∀ new ∈ newRuns, table.find? new.ref = none)
    (distinct : (newRuns.map NewRun.ref).Nodup) {new : NewRun} (h : new ∈ newRuns) :
    ∃ later, (newRuns.foldl (fun table new => table.create new now) table).find? new.ref =
      some later ∧ (RunRecord.start new now).Hears [] later := by
  induction newRuns generalizing table with
  | nil => cases h
  | cons first rest ih =>
      rw [List.map_cons, List.nodup_cons] at distinct
      have hfirst := fresh first List.mem_cons_self
      have hrest := fresh_created now fresh distinct.1
      rcases List.mem_cons.1 h with rfl | hmem
      · apply hears_created now hrest distinct.2
        rw [find?_create hfirst, if_pos rfl]
      · exact ih hrest distinct.2 hmem

/-! ## Commits -/

section Applied

variable {table : RunTable} {ref target : RunRef} {record : RunRecord} {commit : Commit}

theorem hears_applied_of_revised (now : Instant)
    (fresh : ∀ new ∈ commit.newRuns, table.find? new.ref = none)
    (distinct : (commit.newRuns.map NewRun.ref).Nodup)
    (hfind : (table.modify ref fun record => record.revise commit now).find? target = some record) :
    ∃ later, (table.applied ref commit now).find? target = some later ∧
      record.Hears (if record.isClosed then [] else toldTo commit.notifications target) later := by
  obtain ⟨middle, hmiddle, hears⟩ := hears_created now (fresh_of_revised now fresh) distinct hfind
  obtain ⟨later, hlater, more⟩ := hears_notified commit.notifications now hmiddle
  rw [hears.isClosed] at more
  exact ⟨later, hlater, by simpa using hears.trans more⟩

theorem hears_applied_own (now : Instant)
    (fresh : ∀ new ∈ commit.newRuns, table.find? new.ref = none)
    (distinct : (commit.newRuns.map NewRun.ref).Nodup) (hfind : table.find? ref = some record) :
    ∃ later, (table.applied ref commit now).find? ref = some later ∧
      (record.revise commit now).Hears (if (record.revise commit now).isClosed then []
        else toldTo commit.notifications ref) later :=
  hears_applied_of_revised now fresh distinct (find?_revised hfind commit now)

theorem hears_applied_other (now : Instant)
    (fresh : ∀ new ∈ commit.newRuns, table.find? new.ref = none)
    (distinct : (commit.newRuns.map NewRun.ref).Nodup) (hother : target ≠ ref)
    (hfind : table.find? target = some record) :
    ∃ later, (table.applied ref commit now).find? target = some later ∧
      record.Hears (if record.isClosed then [] else toldTo commit.notifications target) later := by
  apply hears_applied_of_revised now fresh distinct
  rw [find?_modify _ _ _ _ fun record => RunRecord.revise_ref record commit now, if_neg hother]
  exact hfind

theorem hears_applied_new (now : Instant)
    (fresh : ∀ new ∈ commit.newRuns, table.find? new.ref = none)
    (distinct : (commit.newRuns.map NewRun.ref).Nodup) {new : NewRun} (h : new ∈ commit.newRuns) :
    ∃ later, (table.applied ref commit now).find? new.ref = some later ∧
      (RunRecord.start new now).Hears (toldTo commit.notifications new.ref) later := by
  obtain ⟨middle, hmiddle, hears⟩ := find?_created now (@fresh_of_revised table ref commit now fresh)
    distinct h
  obtain ⟨later, hlater, more⟩ := hears_notified commit.notifications now hmiddle
  rw [hears.isClosed] at more
  exact ⟨later, hlater, hears.trans more⟩

/-- A run that is there after a commit was there before, or is one that the commit begins. -/
theorem find?_applied_cases (now : Instant)
    (fresh : ∀ new ∈ commit.newRuns, table.find? new.ref = none)
    (distinct : (commit.newRuns.map NewRun.ref).Nodup)
    (hfind : (table.applied ref commit now).find? target = some record) :
    (∃ earlier, table.find? target = some earlier) ∨
      ∃ new ∈ commit.newRuns, new.ref = target := by
  obtain ⟨-, hsome⟩ := @steps_of_revised (fun _ _ => True) (fun _ => True) table ref commit now
    (fun _ _ => trivial) fresh distinct
  have htarget := hsome target
  rw [hfind, Option.isSome_some, eq_comm, Bool.or_eq_true, Option.isSome_iff_exists,
    List.contains_iff_mem, List.mem_map] at htarget
  exact htarget

end Applied

end RunTable

/-! ## Waking -/

namespace Store

theorem awaits_notify {store : Store} {notification : Notification} {record : RunRecord}
    (hfind : store.runs.find? notification.target = some record) (hopen : record.isClosed = false)
    (now : Instant) : (store.notify notification now).tasks.Awaits notification.target := by
  unfold notify
  simp only [hfind, hopen, Bool.false_eq_true, if_false]
  exact TaskQueue.awaits_enqueue (by simp [Work.isWorkflowOf]) now

/-- An open run that is told something has a workflow task. -/
theorem awaits_notified {notifications : List Notification} {notification : Notification}
    (hmem : notification ∈ notifications) {store : Store} {record : RunRecord}
    (hfind : store.runs.find? notification.target = some record) (hopen : record.isClosed = false)
    (now : Instant) : (notifications.foldl (fun store notification => store.notify notification now)
      store).tasks.Awaits notification.target := by
  induction notifications generalizing store record with
  | nil => cases hmem
  | cons first rest ih =>
      rcases List.mem_cons.1 hmem with rfl | hrest
      · obtain ⟨slot, hslot, hpending⟩ := awaits_notify hfind hopen now
        refine ⟨slot, TaskQueue.mem_wakes_of_mem hslot ?_, hpending⟩
        exact foldl_wakes (fun store notification => notify_wakes store notification now) rest _
      · obtain ⟨later, hlater, hears⟩ := RunTable.hears_notified_once hfind first now
        rw [← notify_runs] at hlater
        exact ih hrest hlater (hears.isClosed.trans hopen)

theorem awaits_told {commit : Commit} {notification : Notification} {ref : RunRef} {store : Store}
    {record : RunRecord} (hmem : notification ∈ commit.notifications)
    (fresh : ∀ new ∈ commit.newRuns, store.runs.find? new.ref = none)
    (distinct : (commit.newRuns.map NewRun.ref).Nodup) (hother : notification.target ≠ ref)
    (hfind : store.runs.find? notification.target = some record) (hopen : record.isClosed = false)
    (now : Instant) : (store.apply ref commit now).tasks.Awaits notification.target := by
  rw [apply_eq]
  have hrevised : (store.revise ref commit now).runs.find? notification.target = some record := by
    rw [find?_revise, if_neg hother]
    exact hfind
  obtain ⟨middle, hmiddle, hears⟩ := RunTable.hears_created now
    (@RunTable.fresh_of_revised store.runs ref commit now fresh) distinct hrevised
  refine awaits_notified hmem ?_ (hears.isClosed.trans hopen) now
  · rw [foldl_runs _ (fun table new => table.create new now)
      fun store new => startRun_runs store new now]
    exact hmiddle

end Store

end Chronicle
