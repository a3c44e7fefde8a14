import Chronicle.Proofs.Engine.Protocol
import Chronicle.Proofs.Engine.Reports

/-!
# Farewells

A run that closes asks those children to cancel that its history shows to be open.  A child that is
open is among them if the run has started it itself, and was not refused a child of the same workflow
id since.  A run that continues a child, and a child that begins with the very commit, run on.
-/

namespace Chronicle

open Relation (ReflTransGen)

/-! ## Children that a ledger shows to be open -/

/-- What the event says of the workflow id: which child is open under it from now on, if any. -/
def Event.childNews? (workflowId : String) : Event → Option (Option Uuid)
  | .childStarted started runId _ =>
      if started = workflowId ∧ runId ≠ .nil then some (some runId) else none
  | .childCompleted ended _ _ => if ended = workflowId then some none else none
  | .childFailed ended _ _ => if ended = workflowId then some none else none
  | _ => none

theorem Event.childNews?_of_rejected {event : Event} {workflowId : String}
    (h : event.rejectedChild? = some workflowId) : event.childNews? workflowId = some none := by
  cases event with
  | childFailed failed runId failure =>
      simp only [rejectedChild?, Option.ite_none_right_eq_some, Option.some.injEq] at h
      simp [childNews?, h.2]
  | _ => cases h

/-- Whatever the event says of the workflow id of the child, the child is open. -/
def Event.LeavesOpen (child : RunRef) (event : Event) : Prop :=
  ∀ news, event.childNews? child.workflowId = some news → news = some child.runId

theorem Event.leavesOpen_or_rejected {child : RunRef} {event : Event}
    (hstarted : ∀ runId workflowType, event = .childStarted child.workflowId runId workflowType →
      runId ≠ .nil → runId = child.runId)
    (hreported : ∀ ended, event.reportOn? = some ended → ended.workflowId = child.workflowId →
      event.rejectedChild? = some child.workflowId) :
    event.LeavesOpen child ∨ event.rejectedChild? = some child.workflowId := by
  cases event with
  | childStarted workflowId runId workflowType =>
      left
      intro news hnews
      simp only [childNews?, Option.ite_none_right_eq_some, Option.some.injEq] at hnews
      obtain ⟨⟨rfl, hgenuine⟩, rfl⟩ := hnews
      rw [hstarted runId workflowType rfl hgenuine]
  | childCompleted workflowId runId result | childFailed workflowId runId failure =>
      by_cases hsame : workflowId = child.workflowId
      · exact .inr (hreported ⟨workflowId, runId⟩ rfl hsame)
      · left
        intro news hnews
        simp [childNews?, hsame] at hnews
  | _ => exact .inl fun _ hnews => nomatch hnews

theorem Event.started_of_childNews? {event : Event} {child : RunRef}
    (h : event.childNews? child.workflowId = some (some child.runId)) :
    child.runId ≠ .nil ∧
      ∃ workflowType, event = .childStarted child.workflowId child.runId workflowType := by
  cases event with
  | childStarted workflowId runId workflowType =>
      simp only [childNews?, Option.ite_none_right_eq_some, Option.some.injEq] at h
      obtain ⟨⟨rfl, hgenuine⟩, rfl⟩ := h
      exact ⟨hgenuine, workflowType, rfl⟩
  | childCompleted | childFailed => simp [childNews?] at h
  | _ => cases h

namespace Ledger

variable {ledger : Ledger} {child : RunRef}

theorem mem_insertRef {ref : RunRef} {refs : List RunRef} :
    child ∈ insertRef ref refs ↔ child = ref ∨ child ∈ refs := by
  induction refs with
  | nil => simp [insertRef]
  | cons other rest ih =>
      unfold insertRef
      split
      · simp
      · rw [List.mem_cons, ih, List.mem_cons]
        exact or_left_comm

theorem mem_children :
    child ∈ ledger.children ↔ (child.workflowId, child.runId) ∈ ledger.openChildren := by
  unfold children
  induction ledger.openChildren with
  | nil => simp
  | cons entry rest ih =>
      obtain ⟨workflowId, runId⟩ := entry
      rw [List.foldr_cons, mem_insertRef, ih, List.mem_cons, RunRef.mk.injEq, Prod.mk.injEq]

theorem openChildren_modifyActivity (ledger : Ledger) (activityId : String)
    (change : ActivityState → ActivityState) :
    (ledger.modifyActivity activityId change).openChildren = ledger.openChildren := by
  unfold modifyActivity
  split <;> rfl

theorem openChildren_modifyAttempt (ledger : Ledger) (activityId : String) (attempt : Nat)
    (change : ActivityState → ActivityState) :
    (ledger.modifyAttempt activityId attempt change).openChildren = ledger.openChildren := by
  unfold modifyAttempt
  split
  · exact openChildren_modifyActivity _ _ _
  · rfl

theorem mem_children_removeChild (workflowId : String) :
    child ∈ (ledger.removeChild workflowId).children ↔
      child ∈ ledger.children ∧ child.workflowId ≠ workflowId := by
  simp [mem_children, removeChild]

theorem mem_children_apply (event : Event) :
    child ∈ (ledger.apply event).children ↔
      match event.childNews? child.workflowId with
      | none => child ∈ ledger.children
      | some news => news = some child.runId := by
  cases event with
  | childStarted workflowId runId workflowType =>
      by_cases hnil : runId = .nil
      · simp [apply, Event.childNews?, hnil]
      · by_cases hsame : workflowId = child.workflowId
        · simp [apply, Event.childNews?, hnil, hsame, mem_children, setEntry, eq_comm]
        · simp [apply, Event.childNews?, hnil, hsame, mem_children, setEntry, Ne.symm hsame]
  | childCompleted workflowId runId result | childFailed workflowId runId failure =>
      rw [apply, mem_children_removeChild]
      by_cases hsame : workflowId = child.workflowId
      · simp [Event.childNews?, hsame]
      · simp [Event.childNews?, hsame, Ne.symm hsame]
  | activityStarted | activityFailed | activityTimedOut =>
      simp [apply, Event.childNews?, mem_children, openChildren_modifyAttempt]
  | activityCompleted | activityCancelled =>
      simp [apply, Event.childNews?, mem_children, openChildren_modifyActivity]
  | _ => exact Iff.rfl

theorem mem_children_foldl (events : List Event) :
    child ∈ (events.foldl apply empty).children ↔ child.runId ≠ .nil ∧
      ∃ before after workflowType,
        events = before ++ .childStarted child.workflowId child.runId workflowType :: after ∧
          ∀ event ∈ after, event.LeavesOpen child := by
  induction events using List.reverseRecOn with
  | nil => simp [empty, children]
  | append_singleton events event ih =>
      rw [List.foldl_append, List.foldl_cons, List.foldl_nil, mem_children_apply]
      cases hnews : event.childNews? child.workflowId with
      | none =>
          refine ih.trans (and_congr_right fun hgenuine => ⟨?_, ?_⟩)
          · rintro ⟨before, after, workflowType, rfl, hleaves⟩
            refine ⟨before, after ++ [event], workflowType, by simp, ?_⟩
            intro later hmem
            rcases List.mem_append.1 hmem with hold | hlast
            · exact hleaves later hold
            · rw [List.mem_singleton.1 hlast]
              exact fun news h => by rw [hnews] at h; cases h
          · rintro ⟨before, after, workflowType, hsplit, hleaves⟩
            rcases concat_eq_split hsplit with ⟨-, rfl, -⟩ | ⟨rest, rfl, hevents⟩
            · simp [Event.childNews?, hgenuine] at hnews
            · exact ⟨before, rest, workflowType, hevents,
                fun later hmem => hleaves later (List.mem_append_left _ hmem)⟩
      | some news =>
          constructor
          · rintro rfl
            obtain ⟨hgenuine, workflowType, rfl⟩ := Event.started_of_childNews? hnews
            exact ⟨hgenuine, events, [], workflowType, rfl, by simp⟩
          · rintro ⟨-, before, after, workflowType, hsplit, hleaves⟩
            rcases concat_eq_split hsplit with ⟨-, rfl, -⟩ | ⟨rest, rfl, -⟩
            · simp only [Event.childNews?, Option.ite_none_right_eq_some, Option.some.injEq] at hnews
              exact hnews.2.symm
            · exact hleaves event (by simp) news hnews

end Ledger

/-- The run has started the child, and was not refused a child of its workflow id since. -/
def RunRecord.Minds (record : RunRecord) (child : RunRef) : Prop :=
  ∃ before after workflowType,
    record.story = before ++ .childStarted child.workflowId child.runId workflowType :: after ∧
      ∀ event ∈ after, event.rejectedChild? ≠ some child.workflowId

theorem RunRecord.children_ledger {record : RunRecord} {child : RunRef} :
    child ∈ (Ledger.ofHistory record.events).children ↔ child.runId ≠ .nil ∧
      ∃ before after workflowType,
        record.story = before ++ .childStarted child.workflowId child.runId workflowType :: after ∧
          ∀ event ∈ after, event.LeavesOpen child := by
  rw [← Ledger.mem_children_foldl, RunRecord.story, List.foldl_map]
  rfl

/-! ## Who is asked to cancel -/

namespace LogEntry.Accepted

variable {entry : LogEntry} {store : Store} {record : RunRecord} {run : Run}
  {children : List NewRun} {next : Option NewRun}

/-- A run that closes asks the children of its ledger to cancel, and nobody else. -/
theorem asked_iff (accepted : entry.Accepted store record run children next)
    (closes : entry.commit.closing.isSome = true) (child : RunRef) :
    .cancellationRequested s!"parent {entry.ref.workflowId} closed" ∈
        toldTo entry.commit.notifications child ↔
      child ∈ (Ledger.ofHistory record.events).children := by
  obtain ⟨closing, hclosing⟩ := Option.isSome_iff_exists.1 closes
  have htold := accepted.begets.told
  simp only [Commit.Tells, hclosing, Decision.farewells, accepted.run_ref] at htold
  have hreport : ∀ reason, Decision.reportToParent run closing ≠ .cancellationRequested reason := by
    intro reason
    unfold Decision.reportToParent
    cases closing.status <;> simp
  rw [htold, toldTo_append, List.mem_append]
  constructor
  · rintro (hasked | hreported)
    · obtain ⟨notification, hnotification, -⟩ := List.mem_map.1 hasked
      obtain ⟨hmem, htarget⟩ := List.mem_filter.1 hnotification
      obtain ⟨ref, href, rfl⟩ := List.mem_map.1 hmem
      exact of_decide_eq_true htarget ▸ href
    · obtain ⟨notification, hnotification, hevent⟩ := List.mem_map.1 hreported
      have hmem := List.mem_of_mem_filter hnotification
      split at hmem
      · cases hmem
      · obtain ⟨parent, -, rfl⟩ := List.mem_map.1 hmem
        exact absurd hevent (hreport _)
  · intro hchild
    exact .inl (List.mem_map.2 ⟨_, List.mem_filter.2 ⟨List.mem_map_of_mem hchild, by simp⟩, rfl⟩)

end LogEntry.Accepted

namespace Book

variable {starts : NewRun → Prop} {before after : Book}

/-- Nothing that a run has recorded since it started a child says that the child is not open while it
is, except rejections of other starts. -/
structure Attentive (book : Book) : Prop extends Lineal book where
  attends : ∀ parent record, book.runs.find? parent = some record →
    ∀ (child : RunRef) earlier later workflowType, record.story =
      earlier ++ .childStarted child.workflowId child.runId workflowType :: later →
    child.runId ≠ .nil → ∀ kept, book.runs.find? child = some kept → kept.isClosed = false →
    ∀ event ∈ later, event.LeavesOpen child ∨ event.rejectedChild? = some child.workflowId

theorem Turn.open_before (turn : Turn starts before after) {ref : RunRef} {earlier later : RunRecord}
    (hearlier : before.runs.find? ref = some earlier) (hlater : after.runs.find? ref = some later)
    (hopen : later.isClosed = false) : earlier.isClosed = false := by
  obtain ⟨same, hsame, -, hstill⟩ := turn.kept hearlier
  obtain rfl : same = later := Option.some.inj (hsame.symm.trans hlater)
  cases hclosing : earlier.closing? with
  | none => rw [← RunRecord.isSome_closing?, hclosing]; rfl
  | some closing =>
      rw [← RunRecord.isSome_closing?, hstill closing hclosing] at hopen
      cases hopen

theorem Attentive.opening {store : Store} (blank : store.runs = .empty) :
    Attentive ⟨store, []⟩ where
  toLineal := .opening blank
  attends := by
    rw [show (Book.mk store []).runs = .empty from blank]
    exact fun _ _ hfind => (nomatch hfind)

/-- A child that its parent has started was there before. -/
theorem Attentive.attends_before (attentive : before.Attentive) (turn : Turn starts before after)
    {parent child : RunRef} {record kept : RunRecord} (hfind : before.runs.find? parent = some record)
    {earlier later : List Event} {workflowType : String} (hstory : record.story =
      earlier ++ .childStarted child.workflowId child.runId workflowType :: later)
    (hgenuine : child.runId ≠ .nil) (hkept : after.runs.find? child = some kept)
    (hopen : kept.isClosed = false) :
    child.workflowId ≠ parent.workflowId ∧
      (∃ known, before.runs.find? child = some known ∧ known.isClosed = false) ∧
      ∀ event ∈ later, event.LeavesOpen child ∨ event.rejectedChild? = some child.workflowId := by
  have hmem : .childStarted child.workflowId child.runId workflowType ∈ record.story := by
    rw [hstory]
    exact List.mem_append_right _ List.mem_cons_self
  obtain ⟨hapart, known, hknown, -⟩ := attentive.started parent record hfind _ _ _ hmem hgenuine
  have hbefore := turn.open_before hknown hkept hopen
  exact ⟨hapart, ⟨known, hknown, hbefore⟩,
    attentive.attends parent record hfind child earlier later workflowType hstory hgenuine known
      hknown hbefore⟩

section Committed

variable {entry : LogEntry} {record : RunRecord} {run : Run} {children : List NewRun}
  {next : Option NewRun}

/-- What a commit records in its own run leaves a child open that is open by then. -/
theorem leavesOpen_own (kept : before.WellKept)
    (accepted : entry.Accepted before.store record run children next) {child : RunRef}
    (hapart : child.workflowId ≠ entry.ref.workflowId)
    (hchild : (∃ known, before.runs.find? child = some known ∧ known.isClosed = false) ∨
      child ∈ children.map NewRun.ref) {event : Event} (hmem : event ∈ entry.commit.events) :
    event.LeavesOpen child ∨ event.rejectedChild? = some child.workflowId := by
  apply Event.leavesOpen_or_rejected
  · rintro runId workflowType rfl hgenuine
    obtain ⟨new, hnew, hbegun, href, -⟩ := accepted.begun_of_started hmem hgenuine
    rcases hchild with ⟨known, hknown, hopen⟩ | hborn
    · -- no child begins under the workflow id of a run that is open
      have hclosing := kept.sole.open_eq (accepted.free new hbegun) hknown (by rw [href]) hopen
      obtain ⟨-, -, hown⟩ := Option.map_eq_some_iff.1 hclosing
      exact absurd (congrArg RunRef.workflowId hown).symm hapart
    · obtain ⟨other, hother, rfl⟩ := List.mem_map.1 hborn
      have hsame := List.inj_on_of_nodup_map accepted.begets.bears.distinct hnew hother (by rw [href])
      rw [← hsame, href]
  · intro ended hreport hid
    have hreported : event.isChildReport = true := by rw [← event.isSome_reportOn?, hreport]; rfl
    obtain ⟨workflowId, hrejected⟩ := accepted.answers.rejected_of_report hmem hreported
    rw [hrejected, ← hid]
    cases event with
    | childFailed failedId runId failure =>
        cases hreport
        simp only [Event.rejectedChild?, Option.ite_none_right_eq_some, Option.some.injEq] at hrejected
        rw [← hrejected.2]
    | _ => cases hrejected

/-- What others are told leaves a child open that is open by then. -/
theorem leavesOpen_told (kept : before.WellKept)
    (accepted : entry.Accepted before.store record run children next) {child parent : RunRef}
    {known later : RunRecord} (hknown : before.runs.find? child = some known)
    (hbefore : known.isClosed = false) (hlater : (before.concat entry).runs.find? child = some later)
    (hopen : later.isClosed = false) {event : Event}
    (hmem : event ∈ toldTo entry.commit.notifications parent) :
    event.LeavesOpen child ∨ event.rejectedChild? = some child.workflowId := by
  apply Event.leavesOpen_or_rejected
  · rintro runId workflowType rfl -
    exact absurd hmem accepted.not_started_of_told
  · intro ended hreport hid
    obtain ⟨closing, hclosing, -, -, -, rfl⟩ := accepted.report_of_told hmem hreport
    -- the run that ends is the child itself, which would be closed
    obtain rfl : entry.ref = child :=
      kept.sole.eq accepted.found accepted.isOpen hknown hbefore hid
    obtain ⟨own, hown, -, hcloses, -⟩ := accepted.own
    obtain rfl : own = later := Option.some.inj (hown.symm.trans hlater)
    rw [← RunRecord.isSome_closing?, hcloses, hclosing] at hopen
    cases hopen

theorem Attentive.committed (attentive : before.Attentive)
    (accepted : entry.Accepted before.store record run children next) :
    (before.concat entry).Attentive := by
  have turn : Turn (fun _ => False) before (before.concat entry) := .committed accepted
  refine ⟨attentive.toLineal.turn turn, ?_⟩
  intro parent grown hfind child earlier later workflowType hstory hgenuine kept hkept hopen event hmem
  cases accepted.source hfind with
  | own origin closing story =>
      rw [story] at hstory
      rcases append_eq_split hstory with ⟨rest, rfl, hold⟩ | ⟨front, -, hnew⟩
      · obtain ⟨hapart, hknown, hattends⟩ :=
          attentive.attends_before turn accepted.found hold hgenuine hkept hopen
        rcases List.mem_append.1 hmem with hrest | hrecorded
        · exact hattends event hrest
        · exact leavesOpen_own attentive.toWellKept accepted hapart (.inl hknown) hrecorded
      · -- the child begins with this commit, and what it records afterwards is its own
        have hevent : event ∈ entry.commit.events := by
          rw [hnew]
          exact List.mem_append_right _ (List.mem_cons_of_mem _ hmem)
        have hstarted : .childStarted child.workflowId child.runId workflowType ∈
            entry.commit.events := by
          rw [hnew]
          exact List.mem_append_right _ List.mem_cons_self
        obtain ⟨new, hchild, -, href, -⟩ := accepted.begun_of_started hstarted hgenuine
        have hapart := accepted.apart new hchild
        rw [href] at hapart
        refine leavesOpen_own attentive.toWellKept accepted hapart (.inr ?_) hevent
        exact List.mem_map.2 ⟨new, hchild, href⟩
  | other other found hears =>
      rw [hears.story] at hstory
      rcases append_eq_split hstory with ⟨rest, rfl, hold⟩ | ⟨front, -, hnew⟩
      · obtain ⟨-, ⟨known, hknown, hbefore⟩, hattends⟩ :=
          attentive.attends_before turn found hold hgenuine hkept hopen
        rcases List.mem_append.1 hmem with hrest | htold
        · exact hattends event hrest
        · split at htold
          · cases htold
          · exact leavesOpen_told attentive.toWellKept accepted hknown hbefore hkept hopen htold
      · have hstarted := hnew ▸ List.mem_append_right front List.mem_cons_self
        split at hstarted
        · cases hstarted
        · exact absurd hstarted accepted.not_started_of_told
  | new mem hears =>
      rw [hears.story, RunRecord.story_start] at hstory
      have hstarted := hstory ▸ List.mem_append_right earlier List.mem_cons_self
      rcases List.mem_append.1 hstarted with hstart | hnew
      · cases List.mem_singleton.1 hstart
      · exact absurd hnew accepted.not_started_of_told

end Committed

/-- Runs that have nothing added to their histories stay attentive. -/
theorem Attentive.quiet (attentive : before.Attentive) (turn : Turn starts before after)
    (hcases : ∀ ref record, after.runs.find? ref = some record →
      (∃ new now, record = .start new now) ∨
        ∃ earlier, before.runs.find? ref = some earlier ∧ earlier.Hears [] record) :
    after.Attentive := by
  refine ⟨attentive.toLineal.turn turn, ?_⟩
  intro parent record hfind child earlier later workflowType hstory hgenuine kept hkept hopen
  rcases hcases parent record hfind with ⟨new, now, rfl⟩ | ⟨known, hknown, hears⟩
  · have hstarted := hstory ▸ List.mem_append_right earlier List.mem_cons_self
    rw [RunRecord.story_start] at hstarted
    cases List.mem_singleton.1 hstarted
  · rw [hears.story, List.append_nil] at hstory
    exact (attentive.attends_before turn hknown hstory hgenuine hkept hopen).2.2

theorem Attentive.turn (attentive : before.Attentive) (turn : Turn starts before after) :
    after.Attentive := by
  rcases turn.quiet_or_committed with ⟨-, hcases⟩ | ⟨_, _, _, _, _, accepted, rfl⟩
  · exact attentive.quiet turn hcases
  · exact attentive.committed accepted

theorem Attentive.turns (attentive : before.Attentive)
    (turns : ReflTransGen (Turn starts) before after) : after.Attentive := by
  induction turns with
  | refl => exact attentive
  | tail _ turn ih => exact ih.turn turn

/-- The ledger of a run shows an open child to be open just if the run minds it. -/
theorem Attentive.mem_children_iff {book : Book} (attentive : book.Attentive) {parent child : RunRef}
    {record kept : RunRecord} (hfind : book.runs.find? parent = some record)
    (hkept : book.runs.find? child = some kept) (hopen : kept.isClosed = false) :
    child ∈ (Ledger.ofHistory record.events).children ↔ record.Minds child := by
  rw [RunRecord.children_ledger]
  constructor
  · rintro ⟨-, earlier, later, workflowType, hstory, hleaves⟩
    refine ⟨earlier, later, workflowType, hstory, fun event hmem hrejected => ?_⟩
    cases hleaves event hmem none (Event.childNews?_of_rejected hrejected)
  · rintro ⟨earlier, later, workflowType, hstory, hnone⟩
    have hgenuine := attentive.genuine child kept hkept
    refine ⟨hgenuine, earlier, later, workflowType, hstory, fun event hmem => ?_⟩
    have hattends := attentive.attends parent record hfind child earlier later workflowType hstory
      hgenuine kept hkept hopen event hmem
    exact hattends.resolve_right (hnone event hmem)

/-- The history of the run, which is empty if there is no such run. -/
def storyOf (book : Book) (ref : RunRef) : List Event :=
  ((book.runs.find? ref).map RunRecord.story).getD []

/-- Of the runs that are open in the end, its own children or others, the run of the entry asks just
those to cancel that it minds. -/
def BidsFarewell (before after : Book) (entry : LogEntry) : Prop :=
  ∀ parent, before.runs.find? entry.ref = some parent →
    ∀ child record, after.runs.find? child = some record → record.isClosed = false →
      ∃ told, record.story = before.storyOf child ++ told ∧
        (.cancellationRequested s!"parent {entry.ref.workflowId} closed" ∈ told ↔
          parent.Minds child)

theorem storyOf_eq {book : Book} {ref : RunRef} {record : RunRecord}
    (hfind : book.runs.find? ref = some record) : book.storyOf ref = record.story := by
  rw [storyOf, hfind]
  rfl

theorem storyOf_fresh {book : Book} {ref : RunRef} (fresh : book.runs.find? ref = none) :
    book.storyOf ref = [] := by
  rw [storyOf, fresh]
  rfl

/-- A run does not know of a child that has not begun. -/
theorem Lineal.not_started_of_fresh {book : Book} (lineal : book.Lineal) {parent child : RunRef}
    {record : RunRecord} (hfind : book.runs.find? parent = some record)
    (fresh : book.runs.find? child = none) (hgenuine : child.runId ≠ .nil)
    (earlier later : List Event) (workflowType : String) : record.story ≠
      earlier ++ .childStarted child.workflowId child.runId workflowType :: later := by
  intro hstory
  have hmem := hstory ▸ List.mem_append_right earlier List.mem_cons_self
  obtain ⟨-, known, hknown, -⟩ := lineal.started parent record hfind _ _ _ hmem hgenuine
  rw [fresh] at hknown
  cases hknown

theorem Attentive.bidsFarewell (attentive : before.Attentive) {entry : LogEntry} {record : RunRecord}
    {run : Run} {children : List NewRun} {next : Option NewRun}
    (accepted : entry.Accepted before.store record run children next)
    (closes : entry.commit.closing.isSome = true) :
    before.BidsFarewell (before.concat entry) entry := by
  have turn : Turn (fun _ => False) before (before.concat entry) := .committed accepted
  intro parent hparent child later hlater hopen
  obtain rfl : record = parent := Option.some.inj (accepted.found.symm.trans hparent)
  have hasked := accepted.asked_iff closes child
  cases accepted.source hlater with
  | own origin closing story =>
      rw [← RunRecord.isSome_closing?, closing, closes] at hopen
      cases hopen
  | other other found hears =>
      have hbefore := turn.open_before found hlater hopen
      refine ⟨toldTo entry.commit.notifications child, ?_, ?_⟩
      · rw [storyOf_eq found, hears.story, hbefore]
        rfl
      · exact hasked.trans (attentive.mem_children_iff hparent found hbefore)
  | @new new _ mem hears =>
      have hfresh : before.runs.find? new.ref = none := accepted.fresh new mem
      refine ⟨new.startEvent :: toldTo entry.commit.notifications new.ref, ?_, ?_⟩
      · rw [storyOf_fresh hfresh, hears.story, RunRecord.story_start]
        rfl
      · have hunknown :=
          attentive.not_started_of_fresh hparent hfresh (accepted.genuine new mem)
        have hstart : ∀ reason, .cancellationRequested reason ≠ new.startEvent := by
          simp [NewRun.startEvent]
        rw [List.mem_cons, or_iff_right (hstart _), hasked, RunRecord.children_ledger]
        constructor
        · rintro ⟨-, earlier, later, workflowType, hstory, -⟩
          exact absurd hstory (hunknown earlier later workflowType)
        · rintro ⟨earlier, later, workflowType, hstory, -⟩
          exact absurd hstory (hunknown earlier later workflowType)

end Book

/-! ## Scenes -/

namespace Operation

/-- A run that closes asks those open children to cancel that its history names, unless it was refused
a child of the same workflow id since. -/
theorem closing_bidsFarewell {start : World} (blank : start.IsBlank) {scene : Scene Operation Unit}
    (reaches : Scene.Reaches program (.opening start) scene) {later : Scene Operation Unit}
    (step : Scene.Step program scene later) {entry : LogEntry}
    (hlog : later.log = scene.log ++ [entry]) (closes : entry.commit.closing.isSome = true) :
    scene.book.BidsFarewell later.book entry := by
  obtain ⟨turns, hstep⟩ := book_turns blank reaches
  have attentive := (Book.Attentive.opening blank).turns turns
  obtain ⟨record, run, children, next, accepted, hafter⟩ := (hstep later step).accepted hlog
  rw [hafter]
  exact attentive.bidsFarewell accepted closes

/-- A run starts a child, whose first attempt fails, and is terminated. -/
def parting : List Operation :=
  [.start (.first sampleRun "delegation" "default" .null .standard),
    .processTask delegationEngine sampleRun, .processTask delegationEngine firstTrial,
    .terminate delegationEngine sampleRun "done"]

/-- A child that is still at its first attempt is asked to cancel. -/
theorem terminated_bidsFarewell :
    ∃ (scene later : Scene Operation Unit) (entry : LogEntry) (record : RunRecord),
      Scene.Reaches program (.opening blankWorld) scene ∧ Scene.Step program scene later ∧
      later.log = scene.log ++ [entry] ∧ entry.commit.closing.isSome = true ∧
      later.book.runs.find? firstTrial = some record ∧ record.isClosed = false ∧
      record.story.getLast? = some (.cancellationRequested "parent orders closed") ∧
      scene.book.BidsFarewell later.book entry := by
  have blank : blankWorld.IsBlank := rfl
  have entered := Scene.reaches_entered program blankWorld parting
  have started := (entered.act 0 rfl rfl).act 0 rfl rfl
  have delegated := (((((started.act 1 rfl rfl).act 1 rfl rfl).act 1 rfl rfl).act 1 rfl rfl).act 1 rfl
    rfl).act 1 rfl rfl
  have asked := (delegated.act 3 rfl rfl).act 3 rfl rfl
  exact ⟨_, _, _, _, asked, @Scene.Step.act _ _ program _ 3 _ _ _ _ _ rfl rfl, rfl, rfl, rfl, rfl, rfl,
    closing_bidsFarewell blank asked (@Scene.Step.act _ _ program _ 3 _ _ _ _ _ rfl rfl) rfl rfl⟩

/-- The second attempt has another run id than the one that the history of the parent names: it is not
asked to cancel. -/
theorem retriedTrial_runsOn :
    ∃ (scene later : Scene Operation Unit) (entry : LogEntry) (record : RunRecord),
      Scene.Reaches program (.opening blankWorld) scene ∧ Scene.Step program scene later ∧
      later.log = scene.log ++ [entry] ∧ entry.commit.closing.isSome = true ∧
      later.book.runs.find? secondTrial = some record ∧ record.isClosed = false ∧
      record.run.parent = some entry.ref ∧
      ∀ reason, .cancellationRequested reason ∉ record.story := by
  have entered := Scene.reaches_entered program blankWorld parting
  have started := (entered.act 0 rfl rfl).act 0 rfl rfl
  have delegated := (((((started.act 1 rfl rfl).act 1 rfl rfl).act 1 rfl rfl).act 1 rfl rfl).act 1 rfl
    rfl).act 1 rfl rfl
  have failed := ((((delegated.act 2 rfl rfl).act 2 rfl rfl).act 2 rfl rfl).act 2 rfl rfl).act 2 rfl
    rfl
  have asked := (failed.act 3 rfl rfl).act 3 rfl rfl
  refine ⟨_, _, _, _, asked, @Scene.Step.act _ _ program _ 3 _ _ _ _ _ rfl rfl,
    rfl, rfl, rfl, rfl, rfl, ?_⟩
  intro reason hmem
  cases List.mem_singleton.1 hmem

end Operation

end Chronicle
