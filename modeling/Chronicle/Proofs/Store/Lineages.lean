import Mathlib.Data.List.Chain
import Chronicle.Proofs.Engine.Ledgers
import Chronicle.Proofs.Store.Histories

/-!
# Lineages

A run begins only when no run of its workflow id is open, and then becomes the current one.  So the
runs of a workflow id form a single line: each of them is closed and names the next one, up to the
last, which is the current run.
-/

namespace Chronicle

open Relation (ReflTransGen)

namespace RunRecord

/-- The change leaves a run what it is, except that it may close it. -/
structure Tends (change : RunRecord → RunRecord) : Prop where
  origin : ∀ record, (change record).run.origin = record.run.origin
  nextRunId : ∀ record, (change record).run.nextRunId = record.run.nextRunId
  closed : ∀ record, record.isClosed = true → (change record).isClosed = true

theorem Tends.ref {change : RunRecord → RunRecord} (tends : Tends change) (record : RunRecord) :
    (change record).run.ref = record.run.ref :=
  Run.ref_eq_of_origin (tends.origin record)

theorem tends_append (events : List Event) (now : Instant) :
    Tends fun record => record.append events now :=
  ⟨fun _ => rfl, fun _ => rfl, fun _ hclosed => hclosed⟩

theorem tends_revise (commit : Commit)
    (hclosing : ∀ closing, commit.closing = some closing → closing.status.isClosed = true)
    (now : Instant) : Tends fun record => record.revise commit now where
  origin := fun record => revise_origin record commit now
  nextRunId := by
    intro record
    unfold revise
    cases commit.closing <;> rfl
  closed := by
    intro record hclosed
    unfold revise
    cases hcommit : commit.closing with
    | none => exact hclosed
    | some closing => exact hclosing closing hcommit

end RunRecord

theorem Commit.Tidy.closed {commit : Commit} (tidy : commit.Tidy) {closing : Closing}
    (h : commit.closing = some closing) : closing.status.isClosed = true := by
  have hlast := tidy.closing
  rw [h] at hlast
  obtain ⟨event, -, hevent⟩ := Option.bind_eq_some_iff.1 hlast.symm
  exact Event.isClosed_of_closing? hevent

namespace RunTable

/-- No run of the workflow id is open. -/
def Vacant (table : RunTable) (workflowId : String) : Prop :=
  ∀ ref record, table.find? ref = some record → ref.workflowId = workflowId → record.isClosed = true

/-- Runs are tended, and a run begins when no other one of its workflow id is open. -/
inductive Orderly : RunTable → RunTable → Prop where
  | tended {table : RunTable} (ref : RunRef) {change : RunRecord → RunRecord}
      (tends : RunRecord.Tends change) : Orderly table (table.modify ref change)
  | created {table : RunTable} {new : NewRun} (now : Instant) (fresh : table.find? new.ref = none)
      (vacant : table.Vacant new.ref.workflowId) : Orderly table (table.create new now)

/-! ## Look-up -/

theorem find?_tended {table : RunTable} {ref : RunRef} {change : RunRecord → RunRecord}
    (tends : RunRecord.Tends change) (target : RunRef) :
    (table.modify ref change).find? target =
      if target = ref then (table.find? ref).map change else table.find? target :=
  find?_modify table ref target change tends.ref

/-- A run that is open after it was tended was open before. -/
theorem open_of_tended {table : RunTable} {ref target : RunRef} {change : RunRecord → RunRecord}
    (tends : RunRecord.Tends change) {record : RunRecord}
    (hfind : (table.modify ref change).find? target = some record)
    (hopen : record.isClosed = false) :
    ∃ earlier, table.find? target = some earlier ∧ earlier.isClosed = false := by
  rw [find?_tended tends] at hfind
  split at hfind
  · rename_i htarget
    subst htarget
    obtain ⟨earlier, hearlier, rfl⟩ := Option.map_eq_some_iff.1 hfind
    refine ⟨earlier, hearlier, ?_⟩
    cases hclosed : earlier.isClosed with
    | false => rfl
    | true => rw [tends.closed earlier hclosed] at hopen; cases hopen
  · exact ⟨record, hfind, hopen⟩

theorem find?_linked {table : RunTable} {new : NewRun} {target : RunRef} {record : RunRecord}
    (hfind : (table.linked new).find? target = some record) :
    ∃ earlier, table.find? target = some earlier ∧
      (record = earlier ∨ record = earlier.link new.ref.runId) := by
  unfold linked at hfind
  cases hcurrent : table.currentRef? new.ref.workflowId with
  | none =>
      rw [hcurrent] at hfind
      exact ⟨record, hfind, .inl rfl⟩
  | some previous =>
      simp only [hcurrent] at hfind
      rw [find?_modify _ _ _ _ fun record => RunRecord.link_ref record new.ref.runId] at hfind
      split at hfind
      · rename_i htarget
        obtain ⟨earlier, hearlier, rfl⟩ := Option.map_eq_some_iff.1 hfind
        exact ⟨earlier, htarget ▸ hearlier, .inr rfl⟩
      · exact ⟨record, hfind, .inl rfl⟩

/-- A run that is open after another one began was open before, or is the new one. -/
theorem open_of_created {table : RunTable} {new : NewRun} {now : Instant}
    (fresh : table.find? new.ref = none) {target : RunRef} {record : RunRecord}
    (hfind : (table.create new now).find? target = some record) (hopen : record.isClosed = false) :
    target = new.ref ∨ ∃ earlier, table.find? target = some earlier ∧ earlier.isClosed = false := by
  rw [find?_create fresh] at hfind
  split at hfind
  · rename_i htarget
    exact .inl htarget
  · obtain ⟨earlier, hearlier, rfl | rfl⟩ := find?_linked hfind
    · exact .inr ⟨_, hearlier, hopen⟩
    · exact .inr ⟨_, hearlier, hopen⟩

theorem currentRef?_modify (table : RunTable) (ref : RunRef) (change : RunRecord → RunRecord)
    (workflowId : String) :
    (table.modify ref change).currentRef? workflowId = table.currentRef? workflowId := rfl

theorem currentRef?_create (table : RunTable) (new : NewRun) (now : Instant) (workflowId : String) :
    (table.create new now).currentRef? workflowId =
      if workflowId = new.ref.workflowId then some new.ref else table.currentRef? workflowId := by
  have hlookup : (table.create new now).current.lookup workflowId =
      if workflowId = new.ref.workflowId then some new.ref.runId
      else table.current.lookup workflowId :=
    Ledger.lookup_setEntry new.ref.workflowId workflowId new.ref.runId table.current
  rw [currentRef?, hlookup]
  split
  · rename_i hsame
    rw [hsame]
    rfl
  · rfl

/-! ## The open run of a workflow id -/

/-- A run that is open is the current one of its workflow id. -/
def Sole (table : RunTable) : Prop :=
  ∀ ref record, table.find? ref = some record → record.isClosed = false →
    table.currentRef? ref.workflowId = some ref

theorem Sole.empty : RunTable.empty.Sole := fun _ _ hfind => (nomatch hfind)

theorem Sole.orderly {before after : RunTable} (sole : before.Sole) (step : Orderly before after) :
    after.Sole := by
  intro target record hfind hopen
  cases step with
  | tended ref tends =>
      obtain ⟨earlier, hearlier, hbefore⟩ := open_of_tended tends hfind hopen
      exact sole target earlier hearlier hbefore
  | @created new now fresh vacant =>
      rw [currentRef?_create]
      rcases open_of_created fresh hfind hopen with hnew | ⟨earlier, hearlier, hbefore⟩
      · rw [hnew, if_pos rfl]
      · -- an open run of the same workflow id would have kept the new one out
        split
        · rename_i hsame
          rw [vacant target earlier hearlier hsame] at hbefore
          cases hbefore
        · exact sole target earlier hearlier hbefore

theorem Sole.orderlies {before after : RunTable} (sole : before.Sole)
    (steps : ReflTransGen Orderly before after) : after.Sole := by
  induction steps with
  | refl => exact sole
  | tail _ step ih => exact ih.orderly step

theorem Sole.eq {table : RunTable} (sole : table.Sole) {first second : RunRef}
    {one other : RunRecord} (hfirst : table.find? first = some one) (hone : one.isClosed = false)
    (hsecond : table.find? second = some other) (hother : other.isClosed = false)
    (hsame : first.workflowId = second.workflowId) : first = second := by
  have hcurrent := sole first one hfirst hone
  rw [hsame, sole second other hsecond hother] at hcurrent
  exact (Option.some.inj hcurrent).symm

/-- A run may begin if the only open run of its workflow id is about to close. -/
theorem Sole.open_eq {table : RunTable} (sole : table.Sole) {new : NewRun} {closing : Option RunRef}
    (free : table.checkStart new closing = .ok ()) {ref : RunRef} {record : RunRecord}
    (hfind : table.find? ref = some record) (hsame : ref.workflowId = new.ref.workflowId)
    (hopen : record.isClosed = false) : closing = some ref := by
  have hcurrent := sole ref record hfind hopen
  rw [hsame] at hcurrent
  unfold checkStart at free
  simp only [hcurrent, hfind, hopen, Bool.not_false, Bool.true_and] at free
  split at free
  · cases free
  · rename_i hclosing
    simpa using hclosing

theorem Vacant.created {table : RunTable} {workflowId : String} (vacant : table.Vacant workflowId)
    {new : NewRun} {now : Instant} (fresh : table.find? new.ref = none)
    (hother : workflowId ≠ new.ref.workflowId) : (table.create new now).Vacant workflowId := by
  intro target record hfind hsame
  by_contra hopen
  rcases open_of_created fresh hfind (by simpa using hopen) with hnew | ⟨earlier, hearlier, hbefore⟩
  · exact hother (hsame.symm.trans (congrArg RunRef.workflowId hnew))
  · rw [vacant target earlier hearlier hsame] at hbefore
    cases hbefore

/-! ## Runs stay -/

/-- The record is of the same run, which is closed if it was. -/
def Outlasts (record later : RunRecord) : Prop :=
  later.run.origin = record.run.origin ∧ (record.isClosed = true → later.isClosed = true)

theorem Orderly.outlasts {before after : RunTable} (step : Orderly before after) {ref : RunRef}
    {record : RunRecord} (hfind : before.find? ref = some record) :
    ∃ later, after.find? ref = some later ∧ Outlasts record later := by
  cases step with
  | tended target tends =>
      rw [find?_tended tends]
      split
      · rename_i htarget
        subst htarget
        exact ⟨_, by rw [hfind]; rfl, tends.origin record, tends.closed record⟩
      · exact ⟨record, hfind, rfl, id⟩
  | @created new now fresh vacant =>
      rw [find?_create fresh]
      split
      · rename_i htarget
        rw [htarget, fresh] at hfind
        cases hfind
      · have hsome := find?_linked_isSome before new ref
        rw [hfind] at hsome
        obtain ⟨later, hlater⟩ := Option.isSome_iff_exists.1 hsome
        obtain ⟨earlier, hearlier, hlinked⟩ := find?_linked hlater
        rw [hfind, Option.some.injEq] at hearlier
        subst hearlier
        obtain rfl | rfl := hlinked <;> exact ⟨_, hlater, rfl, id⟩

theorem outlasts_of_orderly {before after : RunTable} (steps : ReflTransGen Orderly before after)
    {ref : RunRef} {record : RunRecord} (hfind : before.find? ref = some record) :
    ∃ later, after.find? ref = some later ∧ Outlasts record later := by
  induction steps with
  | refl => exact ⟨record, hfind, rfl, id⟩
  | tail _ step ih =>
      obtain ⟨middle, hmiddle, horigin, hclosed⟩ := ih
      obtain ⟨later, hlater, hsame, hstill⟩ := step.outlasts hmiddle
      exact ⟨later, hlater, hsame.trans horigin, fun hbefore => hstill (hclosed hbefore)⟩

/-- A run that was there and is open now was open before. -/
theorem open_of_orderly {before after : RunTable} (steps : ReflTransGen Orderly before after)
    {ref : RunRef} {record later : RunRecord} (hfind : before.find? ref = some record)
    (hlater : after.find? ref = some later) (hopen : later.isClosed = false) :
    record.isClosed = false := by
  obtain ⟨same, hsame, -, hclosed⟩ := outlasts_of_orderly steps hfind
  rw [hlater, Option.some.injEq] at hsame
  subst hsame
  cases hbefore : record.isClosed with
  | false => rfl
  | true => rw [hclosed hbefore] at hopen; cases hopen

/-! ## Commits -/

theorem orderly_notified (notifications : List Notification) (now : Instant) (table : RunTable) :
    ReflTransGen Orderly table
      (notifications.foldl (fun table notification => table.notified notification now) table) := by
  induction notifications generalizing table with
  | nil => exact .refl
  | cons notification rest ih =>
      refine ReflTransGen.trans ?_ (ih (table.notified notification now))
      unfold notified
      split
      · exact .refl
      · split
        · exact .refl
        · exact .single (.tended _ (RunRecord.tends_append _ now))

theorem orderly_created {newRuns : List NewRun} (now : Instant) {table : RunTable}
    (fresh : ∀ new ∈ newRuns, table.find? new.ref = none)
    (distinct : (newRuns.map fun new => new.ref.workflowId).Nodup)
    (vacant : ∀ new ∈ newRuns, table.Vacant new.ref.workflowId) :
    ReflTransGen Orderly table (newRuns.foldl (fun table new => table.create new now) table) := by
  induction newRuns generalizing table with
  | nil => exact .refl
  | cons new rest ih =>
      rw [List.map_cons, List.nodup_cons] at distinct
      have hnew := fresh new List.mem_cons_self
      have hother : ∀ other ∈ rest, other.ref.workflowId ≠ new.ref.workflowId := by
        intro other hmem heq
        exact distinct.1 (List.mem_map.2 ⟨other, hmem, heq⟩)
      refine ReflTransGen.head (.created now hnew (vacant new List.mem_cons_self)) (ih ?_ distinct.2 ?_)
      · apply fresh_created now fresh
        intro hmem
        obtain ⟨other, hrest, hsame⟩ := List.mem_map.1 hmem
        exact hother other hrest (congrArg RunRef.workflowId hsame)
      · intro other hmem
        exact (vacant other (List.mem_cons_of_mem _ hmem)).created hnew (hother other hmem)

/-- An accepted commit whose new runs have workflow ids of their own is orderly. -/
theorem orderly_applied {table : RunTable} {ref : RunRef} {commit : Commit} (now : Instant)
    (tidy : commit.Tidy) (fresh : ∀ new ∈ commit.newRuns, table.find? new.ref = none)
    (distinct : (commit.newRuns.map fun new => new.ref.workflowId).Nodup)
    (vacant : ∀ new ∈ commit.newRuns,
      (table.modify ref fun record => record.revise commit now).Vacant new.ref.workflowId) :
    ReflTransGen Orderly table (table.applied ref commit now) := by
  have htends := RunRecord.tends_revise commit (fun _ => tidy.closed) now
  refine ReflTransGen.head (.tended ref htends) ?_
  exact ReflTransGen.trans (orderly_created now (fresh_of_revised now fresh) distinct vacant)
    (orderly_notified _ now _)

end RunTable

end Chronicle
