import Chronicle.Proofs.Engine.Children
import Chronicle.Proofs.Engine.Succession

/-!
# Heirs

A run that continues another one is the next of its workflow id, and the earlier run names it.  So
whoever goes from a run that failed to the run that it names, and on, comes upon all its retries; the
last of them is the heir of the run.
-/

namespace Chronicle

open Relation (ReflTransGen)

/-! ## The next run -/

theorem RunRecord.closing?_eq_some {record : RunRecord} {closing : Closing} :
    record.closing? = some closing ↔ record.isClosed = true ∧
      closing = ⟨record.run.status, record.run.result, record.run.failure⟩ := by
  rw [closing?, Option.ite_none_right_eq_some, Option.some.injEq, eq_comm (b := closing)]

namespace RunTable

variable {before after table : RunTable} {ref : RunRef} {record : RunRecord} {next : Uuid}

theorem Chained.find?_of_mem_recordsOf (chained : table.Chained) {workflowId : String}
    (h : record ∈ table.recordsOf workflowId) : table.find? record.run.ref = some record :=
  find?_of_mem chained.distinct (List.mem_of_mem_filter h)

theorem Chained.nextRunId_of_current (chained : table.Chained) {workflowId : String}
    (hcurrent : table.currentRef? workflowId = some ref) (hfind : table.find? ref = some record) :
    record.run.nextRunId = none := by
  rw [chained.current] at hcurrent
  obtain ⟨last, hlast, rfl⟩ := Option.map_eq_some_iff.1 hcurrent
  rw [chained.find?_of_mem_recordsOf (List.mem_of_getLast? hlast), Option.some.injEq] at hfind
  subst hfind
  exact chained.last workflowId last hlast

/-- The run that another one names is the next in their line. -/
theorem Chained.next_eq (chained : table.Chained) {workflowId : String} {front rest : List RunRecord}
    (hsplit : table.recordsOf workflowId = front ++ record :: rest)
    (hnext : record.run.nextRunId = some next) :
    ∃ other more, rest = other :: more ∧ other.run.ref = ⟨workflowId, next⟩ := by
  cases rest with
  | nil =>
      have hlast := chained.last workflowId record (by simp [hsplit])
      rw [hnext] at hlast
      cases hlast
  | cons other more =>
      have hlinked := chained.linked workflowId
      rw [hsplit, List.isChain_append, List.isChain_cons_cons] at hlinked
      have hsame := hlinked.2.1.1.2
      rw [hnext, Option.some.injEq] at hsame
      have hother : other ∈ table.recordsOf workflowId := by simp [hsplit]
      have hid := workflowId_of_mem_recordsOf hother
      exact ⟨other, more, rfl, by rw [hsame, ← hid]⟩

theorem Orderly.nextRunId (step : Orderly before after) (chained : before.Chained)
    (hfind : before.find? ref = some record) (hnext : record.run.nextRunId = some next) :
    ∃ later, after.find? ref = some later ∧ later.run.nextRunId = some next := by
  cases step with
  | tended target tends =>
      rw [find?_tended tends]
      split
      · rename_i htarget
        subst htarget
        exact ⟨_, by rw [hfind]; rfl, (tends.nextRunId record).trans hnext⟩
      · exact ⟨record, hfind, hnext⟩
  | @created new now fresh vacant =>
      refine ⟨record, ?_, hnext⟩
      have hold : ref ≠ new.ref := by
        rintro rfl
        rw [fresh] at hfind
        cases hfind
      rw [find?_create fresh, if_neg hold, linked]
      cases hcurrent : before.currentRef? new.ref.workflowId with
      | none => exact hfind
      | some previous =>
          -- the run that is linked names none so far
          have hother : ref ≠ previous := by
            rintro rfl
            rw [chained.nextRunId_of_current hcurrent hfind] at hnext
            cases hnext
          simp only
          rw [find?_modify _ _ _ _ fun record => RunRecord.link_ref record new.ref.runId,
            if_neg hother, hfind]

theorem nextRunId_of_orderly (steps : ReflTransGen Orderly before after) (chained : before.Chained)
    (hfind : before.find? ref = some record) (hnext : record.run.nextRunId = some next) :
    ∃ later, after.find? ref = some later ∧ later.run.nextRunId = some next := by
  induction steps with
  | refl => exact ⟨record, hfind, hnext⟩
  | tail steps step ih =>
      obtain ⟨middle, hmiddle, hsame⟩ := ih
      exact step.nextRunId (chained.orderlies steps) hmiddle hsame

end RunTable

namespace Book

variable {starts : NewRun → Prop} {before after book : Book}

/-! ## Continuations are linked -/

structure Linked (book : Book) : Prop extends WellKept book where
  linked : ∀ earlier later, Continued book.log earlier later → ∃ record,
    book.runs.find? earlier = some record ∧ record.run.nextRunId = some later.runId

/-- The run that a commit begins under the workflow id of its own run is the next after that one. -/
theorem linked_of_new (kept : before.WellKept) {entry : LogEntry} {record : RunRecord} {run : Run}
    {children : List NewRun} {next : Option NewRun}
    (accepted : entry.Accepted before.store record run children next) {new : NewRun}
    (hnew : new ∈ entry.commit.newRuns) (hid : new.ref.workflowId = entry.ref.workflowId) :
    ∃ later, (before.concat entry).runs.find? entry.ref = some later ∧
      later.run.nextRunId = some new.ref.runId := by
  have turn : Turn (fun _ => False) before (before.concat entry) := .committed accepted
  have chained := (kept.turn turn).chained
  obtain ⟨begun, hbegun, hears⟩ := accepted.new hnew
  have href := RunTable.ref_of_find? hbegun
  obtain ⟨added, hadded, horigins⟩ := origins_of_committed accepted entry.ref.workflowId
  have hmem : begun.run.origin ∈
      (before.concat entry).runs.originsOf entry.ref.workflowId := by
    refine List.mem_map_of_mem (f := fun record : RunRecord => record.run.origin)
      (List.mem_filter.2 ⟨List.mem_of_find?_eq_some hbegun, ?_⟩)
    rw [href, hid]
    exact decide_eq_true rfl
  obtain ⟨one, hone, hsame⟩ : ∃ one, added = some one ∧ one.ref = new.ref := by
    change (before.concat entry).runs.originsOf _ = _ at horigins
    rw [horigins] at hmem
    rcases List.mem_append.1 hmem with hold | hlast
    · obtain ⟨earlier, hearlier, -⟩ := RunTable.find?_of_mem_originsOf kept.chained hold
      have hfresh : before.runs.find? new.ref = none := accepted.fresh new hnew
      have hbefore : before.runs.find? new.ref = some earlier := by rw [← href]; exact hearlier
      rw [hfresh] at hbefore
      cases hbefore
    · obtain ⟨one, hone, horigin⟩ := Option.map_eq_some_iff.1 (Option.mem_toList.1 hlast)
      exact ⟨one, hone, (Run.ref_eq_of_origin horigin.symm).symm.trans href⟩
  obtain ⟨front, hfront⟩ :=
    List.getLast?_eq_some_iff.1 (last_origin kept.sole kept.chained accepted)
  -- the two runs are the last of their line
  have hline : ((before.concat entry).runs.recordsOf entry.ref.workflowId).map
      (fun record => record.run.origin) =
        front ++ [record.run.origin, (one.toRun entry.now).origin] := by
    refine Eq.trans horigins ?_
    rw [hfront, hone]
    simp
  obtain ⟨early, late, hsplit, -, hlate⟩ := List.map_eq_append_iff.1 hline
  obtain ⟨first, rest, rfl, hfirst, hrest⟩ := List.map_eq_cons_iff.1 hlate
  obtain ⟨second, more, rfl, hsecond, -⟩ := List.map_eq_cons_iff.1 hrest
  have hlinked := chained.linked entry.ref.workflowId
  rw [hsplit, List.isChain_append, List.isChain_cons_cons] at hlinked
  refine ⟨first, ?_, ?_⟩
  · have hrecord : first.run.ref = entry.ref :=
      (Run.ref_eq_of_origin hfirst).trans (RunTable.ref_of_find? accepted.found)
    have hfirst : first ∈ (before.concat entry).runs.recordsOf entry.ref.workflowId := by
      rw [hsplit]
      exact List.mem_append_right early List.mem_cons_self
    rw [← hrecord]
    exact chained.find?_of_mem_recordsOf hfirst
  · rw [hlinked.2.1.1.2, Run.ref_eq_of_origin hsecond, ← hsame]
    rfl

theorem Linked.opening {store : Store} (blank : store.runs = .empty) : Linked ⟨store, []⟩ where
  toWellKept := .opening blank
  linked := by
    rintro earlier later ⟨entry, hmem, -⟩
    cases hmem

theorem Linked.turn (linked : before.Linked) (turn : Turn starts before after) : after.Linked where
  toWellKept := linked.toWellKept.turn turn
  linked := by
    have hold : ∀ earlier later, Continued before.log earlier later → ∃ record,
        after.runs.find? earlier = some record ∧ record.run.nextRunId = some later.runId := by
      intro earlier later continued
      obtain ⟨record, hfind, hnext⟩ := linked.linked earlier later continued
      exact RunTable.nextRunId_of_orderly (turn.orderly linked.sole) linked.chained hfind hnext
    rintro earlier later ⟨entry, hmem, rfl, hcloses, hbegun, hid⟩
    cases turn with
    | still runs => exact hold _ _ ⟨entry, hmem, rfl, hcloses, hbegun, hid⟩
    | began now allowed free fresh genuine =>
        exact hold _ _ ⟨entry, hmem, rfl, hcloses, hbegun, hid⟩
    | committed accepted =>
        rcases List.mem_append.1 hmem with hbefore | hlast
        · exact hold _ _ ⟨entry, hbefore, rfl, hcloses, hbegun, hid⟩
        · obtain rfl := List.mem_singleton.1 hlast
          obtain ⟨new, hnew, rfl⟩ := List.mem_map.1 hbegun
          exact linked_of_new linked.toWellKept accepted hnew hid

theorem Linked.turns (linked : before.Linked) (turns : ReflTransGen (Turn starts) before after) :
    after.Linked := by
  induction turns with
  | refl => exact linked
  | tail _ turn ih => exact ih.turn turn

/-! ## Retries -/

/-- The earlier run failed, and its retry policy began the later one. -/
def Retries (book : Book) (earlier later : RunRef) : Prop :=
  later.workflowId = earlier.workflowId ∧ ∃ record next, book.runs.find? earlier = some record ∧
    book.runs.find? later = some next ∧ Retried book.log record.run next.run

theorem Linked.of_retries (linked : book.Linked) {earlier later : RunRef}
    (retries : book.Retries earlier later) : ∃ record, book.runs.find? earlier = some record ∧
      record.run.status = .failed ∧ record.run.nextRunId = some later.runId := by
  obtain ⟨hid, record, next, hrecord, hnext, entry, hmem, hentry, hbegun, closing, -, -, -, hclosing,
    hfailed, -⟩ := retries
  have hearlier := RunTable.ref_of_find? hrecord
  rw [hearlier] at hentry
  rw [RunTable.ref_of_find? hnext] at hbegun
  have continued : Continued book.log earlier later :=
    ⟨entry, hmem, hentry, by rw [hclosing]; rfl, hbegun, hid⟩
  obtain ⟨same, hsame, hlinked⟩ := linked.linked earlier later continued
  obtain rfl : record = same := Option.some.inj (hrecord.symm.trans hsame)
  refine ⟨record, hrecord, ?_, hlinked⟩
  obtain ⟨closed, hclosed, hends⟩ := linked.closes entry hmem closing hclosing
  rw [hentry] at hclosed
  obtain rfl : record = closed := Option.some.inj (hrecord.symm.trans hclosed)
  rw [← hfailed, (RunRecord.closing?_eq_some.1 hends).2]

/-- The run at the end of the retries of another one. -/
structure Heir (book : Book) (ref : RunRef) (heir : RunRecord) : Prop where
  found : book.runs.find? heir.run.ref = some heir
  line : ReflTransGen book.Retries ref heir.run.ref
  unretried : ∀ later, ¬ book.Retries heir.run.ref later

theorem Heir.workflowId {ref : RunRef} {heir : RunRecord} (h : book.Heir ref heir) :
    heir.run.ref.workflowId = ref.workflowId := by
  have hline : ∀ last, ReflTransGen book.Retries ref last → last.workflowId = ref.workflowId := by
    intro last line
    induction line with
    | refl => rfl
    | tail _ step ih => exact step.1.trans ih
  exact hline _ h.line

theorem split_of_found {ref : RunRef} {record : RunRecord}
    (hfind : book.runs.find? ref = some record) :
    ∃ front rest, book.runs.recordsOf ref.workflowId = front ++ record :: rest := by
  apply List.append_of_mem
  refine List.mem_filter.2 ⟨List.mem_of_find?_eq_some hfind, ?_⟩
  rw [RunTable.ref_of_find? hfind]
  exact decide_eq_true rfl

theorem Linked.heir_of_split (linked : book.Linked) {workflowId : String}
    {front rest : List RunRecord} {record : RunRecord}
    (hsplit : book.runs.recordsOf workflowId = front ++ record :: rest) :
    ∃ heir, book.Heir record.run.ref heir := by
  have hmember : record ∈ book.runs.recordsOf workflowId := by simp [hsplit]
  have hfound := linked.chained.find?_of_mem_recordsOf hmember
  induction rest generalizing front record with
  | nil =>
      refine ⟨record, hfound, .refl, fun later retries => ?_⟩
      obtain ⟨same, hsame, -, hnext⟩ := linked.of_retries retries
      obtain rfl : record = same := Option.some.inj (hfound.symm.trans hsame)
      obtain ⟨_, _, hnil, -⟩ := linked.chained.next_eq hsplit hnext
      cases hnil
  | cons other more ih =>
      have hother : other ∈ book.runs.recordsOf workflowId := by simp [hsplit]
      by_cases hretried : ∃ later, book.Retries record.run.ref later
      · obtain ⟨later, retries⟩ := hretried
        obtain ⟨same, hsame, -, hnext⟩ := linked.of_retries retries
        obtain rfl : record = same := Option.some.inj (hfound.symm.trans hsame)
        obtain ⟨_, _, heq, href⟩ := linked.chained.next_eq hsplit hnext
        obtain ⟨rfl, rfl⟩ := List.cons.inj heq
        have hid := RunTable.workflowId_of_mem_recordsOf hmember
        have hlater : other.run.ref = later := by rw [href, ← hid, ← retries.1]
        obtain ⟨heir, hheir⟩ := @ih (front ++ [record]) other (by simp [hsplit]) hother
          (linked.chained.find?_of_mem_recordsOf hother)
        exact ⟨heir, hheir.found, hheir.line.head (hlater ▸ retries), hheir.unretried⟩
      · exact ⟨record, hfound, .refl, fun later retries => hretried ⟨later, retries⟩⟩

/-- Every run has an heir, as its workflow id has been used no more than so often. -/
theorem Linked.exists_heir (linked : book.Linked) {ref : RunRef} {record : RunRecord}
    (hfind : book.runs.find? ref = some record) : ∃ heir, book.Heir ref heir := by
  obtain ⟨front, rest, hsplit⟩ := split_of_found hfind
  rw [← RunTable.ref_of_find? hfind]
  exact linked.heir_of_split hsplit

end Book

end Chronicle
