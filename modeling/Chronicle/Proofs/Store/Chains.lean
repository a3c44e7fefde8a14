import Chronicle.Proofs.Store.Lineages

/-!
# Chains of runs

The table keeps its runs in the order in which they were created.  Those of one workflow id form a
chain: each is closed and names the next, the last names none and is the current run.
-/

namespace Chronicle

open Relation (ReflTransGen)

namespace RunTable

/-- The records of a workflow id, in the order in which its runs were created. -/
def recordsOf (table : RunTable) (workflowId : String) : List RunRecord :=
  table.records.filter fun record => record.run.ref.workflowId = workflowId

def runsOf (table : RunTable) (workflowId : String) : List Run :=
  (table.recordsOf workflowId).map RunRecord.run

/-- What the runs of a workflow id were when they began. -/
def originsOf (table : RunTable) (workflowId : String) : List Run :=
  (table.recordsOf workflowId).map fun record => record.run.origin

def refs (table : RunTable) : List RunRef := table.records.map fun record => record.run.ref

theorem workflowId_of_mem_recordsOf {table : RunTable} {workflowId : String} {record : RunRecord}
    (h : record ∈ table.recordsOf workflowId) : record.run.ref.workflowId = workflowId := by
  simpa using (List.mem_filter.1 h).2

theorem not_mem_refs {table : RunTable} {ref : RunRef} (h : table.find? ref = none) :
    ref ∉ table.refs := by
  intro hmem
  obtain ⟨record, hrecord, href⟩ := List.mem_map.1 hmem
  have hmiss := List.find?_eq_none.1 h record hrecord
  simp [href] at hmiss

theorem find?_of_mem {table : RunTable} (distinct : table.refs.Nodup) {record : RunRecord}
    (h : record ∈ table.records) : table.find? record.run.ref = some record := by
  unfold find?
  rw [List.find?_eq_some_iff_append]
  obtain ⟨before, after, hsplit⟩ := List.append_of_mem h
  refine ⟨by simp, before, after, hsplit, ?_⟩
  intro other hother
  have hne : other.run.ref ≠ record.run.ref := by
    unfold refs at distinct
    rw [hsplit, List.map_append, List.nodup_append] at distinct
    exact distinct.2.2 _ (List.mem_map_of_mem hother) _ (by simp)
  simpa using hne

/-! ## Changes -/

theorem recordsOf_modify {table : RunTable} {ref : RunRef} {change : RunRecord → RunRecord}
    (hkeeps : ∀ record, (change record).run.ref = record.run.ref) (workflowId : String) :
    (table.modify ref change).recordsOf workflowId = (table.recordsOf workflowId).map fun record =>
      if record.run.ref = ref then change record else record := by
  unfold recordsOf modify
  rw [List.filter_map]
  congr 2
  funext record
  simp only [Function.comp]
  split
  · rw [hkeeps]
  · rfl

theorem refs_modify {table : RunTable} {ref : RunRef} {change : RunRecord → RunRecord}
    (hkeeps : ∀ record, (change record).run.ref = record.run.ref) :
    (table.modify ref change).refs = table.refs := by
  unfold refs modify
  rw [List.map_map]
  congr 1
  funext record
  simp only [Function.comp]
  split
  · rw [hkeeps]
  · rfl

theorem records_create {table : RunTable} {new : NewRun} (fresh : table.find? new.ref = none)
    (now : Instant) :
    (table.create new now).records = (table.linked new).records ++ [.start new now] := by
  unfold create linked
  simp only [fresh, Option.isSome_none, Bool.false_eq_true, if_false]
  cases table.currentRef? new.ref.workflowId <;> rfl

theorem workflowId_of_currentRef? {table : RunTable} {workflowId : String} {ref : RunRef}
    (h : table.currentRef? workflowId = some ref) : ref.workflowId = workflowId := by
  obtain ⟨runId, -, rfl⟩ := Option.map_eq_some_iff.1 h
  rfl

theorem recordsOf_linked (table : RunTable) (new : NewRun) (workflowId : String) :
    (table.linked new).recordsOf workflowId = (table.recordsOf workflowId).map fun record =>
      if table.currentRef? new.ref.workflowId = some record.run.ref then record.link new.ref.runId
      else record := by
  unfold linked
  cases table.currentRef? new.ref.workflowId with
  | none => simp
  | some previous =>
      simp only
      rw [recordsOf_modify fun record => RunRecord.link_ref record new.ref.runId]
      congr 1
      funext record
      simp [eq_comm]

theorem recordsOf_create {table : RunTable} {new : NewRun} (fresh : table.find? new.ref = none)
    (now : Instant) (workflowId : String) :
    (table.create new now).recordsOf workflowId = (table.linked new).recordsOf workflowId ++
      if new.ref.workflowId = workflowId then [.start new now] else [] := by
  have hstart : (RunRecord.start new now).run.ref = new.ref := rfl
  unfold recordsOf
  rw [records_create fresh, List.filter_append]
  simp [List.filter_cons, hstart]

/-- Runs of other workflow ids are left alone when a run begins. -/
theorem recordsOf_create_other {table : RunTable} {new : NewRun} (fresh : table.find? new.ref = none)
    (now : Instant) {workflowId : String} (hother : new.ref.workflowId ≠ workflowId) :
    (table.create new now).recordsOf workflowId = table.recordsOf workflowId := by
  rw [recordsOf_create fresh, if_neg hother, List.append_nil, recordsOf_linked]
  conv_rhs => rw [← List.map_id (table.recordsOf workflowId)]
  apply List.map_congr_left
  intro record hmem
  rw [if_neg]
  · rfl
  · intro hcurrent
    exact hother ((workflowId_of_currentRef? hcurrent).symm.trans
      (workflowId_of_mem_recordsOf hmem))

/-! ## Chains -/

structure Chained (table : RunTable) : Prop where
  distinct : table.refs.Nodup
  linked : ∀ workflowId, (table.recordsOf workflowId).IsChain fun earlier later =>
    earlier.isClosed = true ∧ earlier.run.nextRunId = some later.run.ref.runId
  last : ∀ workflowId, ∀ record ∈ (table.recordsOf workflowId).getLast?,
    record.run.nextRunId = none
  current : ∀ workflowId, table.currentRef? workflowId =
    (table.recordsOf workflowId).getLast?.map fun record => record.run.ref

theorem Chained.empty : RunTable.empty.Chained where
  distinct := List.nodup_nil
  linked := fun _ => .nil
  last := fun _ _ hmem => (nomatch hmem)
  current := fun _ => rfl

theorem Chained.tended {table : RunTable} (chained : table.Chained) (ref : RunRef)
    {change : RunRecord → RunRecord} (tends : RunRecord.Tends change) :
    (table.modify ref change).Chained := by
  have hrecords := fun workflowId => @recordsOf_modify table ref change tends.ref workflowId
  have href : ∀ record : RunRecord,
      (if record.run.ref = ref then change record else record).run.ref = record.run.ref := by
    intro record
    split
    · exact tends.ref record
    · rfl
  have hnext : ∀ record : RunRecord,
      (if record.run.ref = ref then change record else record).run.nextRunId =
        record.run.nextRunId := by
    intro record
    split
    · exact tends.nextRunId record
    · rfl
  constructor
  · rw [refs_modify tends.ref]
    exact chained.distinct
  · intro workflowId
    rw [hrecords, List.isChain_map]
    apply (chained.linked workflowId).imp
    rintro earlier later ⟨hclosed, hlinked⟩
    refine ⟨?_, by rw [hnext, href, hlinked]⟩
    split
    · exact tends.closed earlier hclosed
    · exact hclosed
  · intro workflowId record hlast
    rw [hrecords, List.getLast?_map] at hlast
    obtain ⟨before, hbefore, rfl⟩ := Option.map_eq_some_iff.1 hlast
    rw [hnext]
    exact chained.last workflowId before hbefore
  · intro workflowId
    rw [currentRef?_modify, chained.current, hrecords, List.getLast?_map, Option.map_map]
    congr 1
    funext record
    exact (href record).symm

/-- The line of the workflow id goes on with the new run, which the last one so far names. -/
theorem Chained.recordsOf_create_same {table : RunTable} (chained : table.Chained) {new : NewRun}
    (fresh : table.find? new.ref = none) (now : Instant) :
    (table.recordsOf new.ref.workflowId = [] ∧
        (table.create new now).recordsOf new.ref.workflowId = [.start new now]) ∨
      ∃ front last, table.recordsOf new.ref.workflowId = front ++ [last] ∧
        (table.create new now).recordsOf new.ref.workflowId =
          front ++ [last.link new.ref.runId, .start new now] := by
  have hcurrent := chained.current new.ref.workflowId
  rw [recordsOf_create fresh, if_pos rfl, recordsOf_linked]
  rcases List.eq_nil_or_concat (table.recordsOf new.ref.workflowId) with hnil | ⟨front, last, hsplit⟩
  · exact .inl ⟨hnil, by simp [hnil]⟩
  · right
    rw [List.concat_eq_append] at hsplit
    refine ⟨front, last, hsplit, ?_⟩
    rw [hsplit, List.getLast?_concat, Option.map_some] at hcurrent
    rw [hsplit, List.map_append, List.map_singleton, if_pos hcurrent, List.append_assoc]
    congr 1
    conv_rhs => rw [← List.map_id front]
    apply List.map_congr_left
    intro record hmem
    rw [if_neg]
    · rfl
    · -- no other record has the reference of the last one
      rw [hcurrent, Option.some.injEq]
      have hdistinct : (table.recordsOf new.ref.workflowId).map (fun record => record.run.ref)
          |>.Nodup := chained.distinct.sublist (List.filter_sublist.map _)
      rw [hsplit, List.map_append, List.nodup_append] at hdistinct
      exact fun heq => hdistinct.2.2 _ (List.mem_map_of_mem hmem) _ (by simp) heq.symm

theorem refs_create {table : RunTable} {new : NewRun} (now : Instant)
    (fresh : table.find? new.ref = none) : (table.create new now).refs = table.refs ++ [new.ref] := by
  unfold refs
  rw [records_create fresh, List.map_append]
  congr 1
  unfold RunTable.linked
  cases table.currentRef? new.ref.workflowId with
  | none => rfl
  | some previous => exact refs_modify fun record => RunRecord.link_ref record new.ref.runId

/-- The chain of the new run goes on from its last run, which is closed and names the new one. -/
theorem Chained.isChain_create {table : RunTable} (chained : table.Chained) {new : NewRun}
    (now : Instant) (fresh : table.find? new.ref = none) (vacant : table.Vacant new.ref.workflowId) :
    ((table.create new now).recordsOf new.ref.workflowId).IsChain fun earlier later =>
      earlier.isClosed = true ∧ earlier.run.nextRunId = some later.run.ref.runId := by
  have hclosed : ∀ record ∈ table.recordsOf new.ref.workflowId, record.isClosed = true := by
    intro record hmem
    exact vacant _ record (find?_of_mem chained.distinct (List.mem_of_mem_filter hmem))
      (workflowId_of_mem_recordsOf hmem)
  rcases chained.recordsOf_create_same fresh now with ⟨-, hone⟩ | ⟨front, last, hsplit, hmore⟩
  · rw [hone]
    exact List.isChain_singleton _
  · have hbefore := chained.linked new.ref.workflowId
    rw [hsplit, List.isChain_append] at hbefore
    rw [hmore, List.isChain_append]
    refine ⟨hbefore.1, ?_, ?_⟩
    · refine .cons_cons ⟨?_, rfl⟩ (List.isChain_singleton _)
      exact hclosed last (by simp [hsplit])
    · intro earlier hearlier later hlater
      obtain rfl : last.link new.ref.runId = later := by simpa using hlater
      exact hbefore.2.2 earlier hearlier last (by simp)

theorem Chained.getLast?_create {table : RunTable} (chained : table.Chained) {new : NewRun}
    (now : Instant) (fresh : table.find? new.ref = none) :
    ((table.create new now).recordsOf new.ref.workflowId).getLast? = some (.start new now) := by
  rcases chained.recordsOf_create_same fresh now with ⟨-, hone⟩ | ⟨front, last, -, hmore⟩
  · rw [hone]
    rfl
  · simp [hmore]

theorem Chained.created {table : RunTable} (chained : table.Chained) {new : NewRun} (now : Instant)
    (fresh : table.find? new.ref = none) (vacant : table.Vacant new.ref.workflowId) :
    (table.create new now).Chained := by
  have hlast := chained.getLast?_create now fresh
  have hcreated : ∀ holds : String → Prop, holds new.ref.workflowId →
      (∀ workflowId, new.ref.workflowId ≠ workflowId → holds workflowId) →
      ∀ workflowId, holds workflowId := by
    intro holds hnew hother workflowId
    rcases eq_or_ne new.ref.workflowId workflowId with rfl | hne
    · exact hnew
    · exact hother workflowId hne
  constructor
  case distinct =>
    rw [refs_create now fresh, List.nodup_append]
    refine ⟨chained.distinct, List.pairwise_singleton _ _, ?_⟩
    intro first hfirst second hsecond heq
    rw [List.mem_singleton.1 hsecond] at heq
    exact not_mem_refs fresh (heq ▸ hfirst)
  case linked =>
    apply hcreated
    · exact chained.isChain_create now fresh vacant
    · intro workflowId hother
      rw [recordsOf_create_other fresh now hother]
      exact chained.linked workflowId
  case last =>
    apply hcreated
    · intro record hmem
      rw [hlast, Option.mem_some] at hmem
      subst hmem
      rfl
    · intro workflowId hother
      rw [recordsOf_create_other fresh now hother]
      exact chained.last workflowId
  case current =>
    apply hcreated
    · rw [currentRef?_create, if_pos rfl, hlast]
      rfl
    · intro workflowId hother
      rw [currentRef?_create, if_neg hother.symm, recordsOf_create_other fresh now hother]
      exact chained.current workflowId

theorem Chained.orderlies {before after : RunTable} (chained : before.Chained)
    (steps : ReflTransGen Orderly before after) : after.Chained := by
  induction steps with
  | refl => exact chained
  | tail _ step ih =>
      cases step with
      | tended ref tends => exact ih.tended ref tends
      | created now fresh vacant => exact ih.created now fresh vacant

/-- The current run is the one that was created last. -/
theorem Chained.currentRun {table : RunTable} (chained : table.Chained) (workflowId : String) :
    table.currentRun workflowId = match (table.runsOf workflowId).getLast? with
      | some run => .ok run
      | none => .error (.workflowNotFound workflowId) := by
  unfold RunTable.currentRun runsOf
  rw [chained.current, List.getLast?_map]
  cases hlast : (table.recordsOf workflowId).getLast? with
  | none => rfl
  | some record =>
      have hmem := List.mem_of_getLast? hlast
      have hfind := find?_of_mem chained.distinct (List.mem_of_mem_filter hmem)
      simp [RunTable.get, hfind, Except.map]

/-! ## Origins -/

theorem find?_of_mem_originsOf {table : RunTable} (chained : table.Chained) {origin : Run}
    {workflowId : String} (h : origin ∈ table.originsOf workflowId) :
    ∃ record, table.find? origin.ref = some record ∧ record.run.origin = origin := by
  obtain ⟨record, hrecord, rfl⟩ := List.mem_map.1 h
  exact ⟨record, find?_of_mem chained.distinct (List.mem_of_mem_filter hrecord), rfl⟩

theorem originsOf_tended {table : RunTable} {ref : RunRef} {change : RunRecord → RunRecord}
    (tends : RunRecord.Tends change) (workflowId : String) :
    (table.modify ref change).originsOf workflowId = table.originsOf workflowId := by
  unfold originsOf
  rw [recordsOf_modify tends.ref, List.map_map]
  congr 1
  funext record
  simp only [Function.comp]
  split
  · exact tends.origin record
  · rfl

theorem originsOf_create {table : RunTable} {new : NewRun} (fresh : table.find? new.ref = none)
    (now : Instant) (workflowId : String) :
    (table.create new now).originsOf workflowId = table.originsOf workflowId ++
      if new.ref.workflowId = workflowId then [(new.toRun now).origin] else [] := by
  unfold originsOf
  rw [recordsOf_create fresh, List.map_append, recordsOf_linked, List.map_map]
  congr 1
  · congr 1
    funext record
    simp only [Function.comp]
    split <;> rfl
  · split <;> rfl

theorem Orderly.origins {before after : RunTable} (step : Orderly before after)
    (workflowId : String) : before.originsOf workflowId <+: after.originsOf workflowId := by
  cases step with
  | tended ref tends =>
      exact (originsOf_tended tends workflowId).symm ▸ List.prefix_rfl
  | created now fresh vacant =>
      rw [originsOf_create fresh]
      exact List.prefix_append _ _

/-- Runs keep their places in the order of their creation. -/
theorem origins_of_orderly {before after : RunTable} (steps : ReflTransGen Orderly before after)
    (workflowId : String) : before.originsOf workflowId <+: after.originsOf workflowId := by
  induction steps with
  | refl => exact List.prefix_rfl
  | tail _ step ih => exact ih.trans (step.origins workflowId)

theorem originsOf_notified (notifications : List Notification) (now : Instant) (table : RunTable)
    (workflowId : String) :
    (notifications.foldl (fun table notification => table.notified notification now)
      table).originsOf workflowId = table.originsOf workflowId := by
  induction notifications generalizing table with
  | nil => rfl
  | cons notification rest ih =>
      rw [List.foldl_cons, ih]
      unfold notified
      split
      · rfl
      · split
        · rfl
        · exact originsOf_tended (RunRecord.tends_append _ now) workflowId

theorem originsOf_created {newRuns : List NewRun} (now : Instant) {table : RunTable}
    (fresh : ∀ new ∈ newRuns, table.find? new.ref = none)
    (distinct : (newRuns.map NewRun.ref).Nodup) (workflowId : String) :
    (newRuns.foldl (fun table new => table.create new now) table).originsOf workflowId =
      table.originsOf workflowId ++ ((newRuns.filter fun new => new.ref.workflowId = workflowId).map
        fun new => (new.toRun now).origin) := by
  induction newRuns generalizing table with
  | nil => simp
  | cons new rest ih =>
      have hnew := fresh new List.mem_cons_self
      rw [List.map_cons, List.nodup_cons] at distinct
      rw [List.foldl_cons, ih (fresh_created now fresh distinct.1) distinct.2, originsOf_create hnew,
        List.append_assoc]
      congr 1
      rw [List.filter_cons]
      split <;> simp_all

/-- A commit adds to the runs of a workflow id those that it begins. -/
theorem originsOf_applied {table : RunTable} {ref : RunRef} {commit : Commit} (now : Instant)
    (tidy : commit.Tidy) (fresh : ∀ new ∈ commit.newRuns, table.find? new.ref = none)
    (distinct : (commit.newRuns.map NewRun.ref).Nodup) (workflowId : String) :
    (table.applied ref commit now).originsOf workflowId = table.originsOf workflowId ++
      ((commit.newRuns.filter fun new => new.ref.workflowId = workflowId).map
        fun new => (new.toRun now).origin) := by
  have tends := RunRecord.tends_revise commit (fun _ => tidy.closed) now
  unfold applied
  rw [originsOf_notified, originsOf_created now (fresh_of_revised now fresh) distinct,
    originsOf_tended tends]

end RunTable

end Chronicle
