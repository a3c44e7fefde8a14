import Chronicle.Proofs.Engine.Children

/-!
# Reports to the parent

The last run of a line of children tells the parent how it has ended, once, in the commit that ends
it; the runs before it tell nothing.  The parent hears of it if it is still open, and is woken.
-/

namespace Chronicle

open Relation (ReflTransGen)

namespace Event

/-- The child whose end the event reports.  One that was not started has the nil run id. -/
def reportOn? : Event → Option RunRef
  | .childCompleted workflowId runId _ => some ⟨workflowId, runId⟩
  | .childFailed workflowId runId _ => some ⟨workflowId, runId⟩
  | _ => none

theorem isSome_reportOn? (event : Event) : event.reportOn?.isSome = event.isChildReport := by
  cases event <;> rfl

theorem nil_of_rejectedChild? {event : Event} {workflowId : String} {child : RunRef}
    (h : event.rejectedChild? = some workflowId) (hreport : event.reportOn? = some child) :
    child.runId = .nil := by
  cases event with
  | childFailed otherId runId failure =>
      cases hreport
      simp only [rejectedChild?, Option.ite_none_right_eq_some] at h
      exact h.1
  | _ => cases h

end Event

namespace Decision

theorem reportOn?_reportToParent (run : Run) (closing : Closing) :
    (reportToParent run closing).reportOn? = some run.ref := by
  unfold reportToParent
  cases closing.status <;> rfl

theorem reportToParent_congr {first second : Run} (h : first.ref = second.ref) (closing : Closing) :
    reportToParent first closing = reportToParent second closing := by
  unfold reportToParent
  rw [h]

end Decision

/-- The reports among the events of a commit are those on rejected children. -/
theorem Commit.Answers.rejected_of_report {commit : Commit} (answers : commit.Answers) {event : Event}
    (hmem : event ∈ commit.events) (hreport : event.isChildReport = true) :
    ∃ workflowId, event.rejectedChild? = some workflowId := by
  obtain ⟨recorded, rejected, hevents, hrecorded, hrejected⟩ := answers
  rw [hevents] at hmem
  rcases List.mem_append.1 hmem with hold | hlast
  · rw [hrecorded event hold] at hreport
    cases hreport
  · have hname := List.mem_map_of_mem (f := Event.rejectedChild?) hlast
    rw [hrejected] at hname
    split at hname
    · cases hname
    · obtain ⟨workflowId, -, hsome⟩ := List.mem_map.1 hname
      exact ⟨workflowId, hsome.symm⟩

theorem Commit.Answers.nil_of_report {commit : Commit} (answers : commit.Answers) {event : Event}
    (hmem : event ∈ commit.events) {child : RunRef} (hreport : event.reportOn? = some child) :
    child.runId = .nil := by
  have hreported : event.isChildReport = true := by rw [← event.isSome_reportOn?, hreport]; rfl
  obtain ⟨workflowId, hrejected⟩ := answers.rejected_of_report hmem hreported
  exact Event.nil_of_rejectedChild? hrejected hreport

namespace RunRecord

/-- What the parent is told when the run has ended. -/
def report? (record : RunRecord) : Option Event :=
  record.closing?.map (Decision.reportToParent record.run)

/-- What the run was told of the end of a child. -/
def reportsOn (record : RunRecord) (child : RunRef) : List Event :=
  record.story.filter fun event => event.reportOn? = some child

end RunRecord

/-! ## What others are told -/

theorem toldTo_append (first second : List Notification) (target : RunRef) :
    toldTo (first ++ second) target = toldTo first target ++ toldTo second target := by
  rw [toldTo, List.filter_append, List.map_append]
  rfl

namespace LogEntry.Accepted

variable {entry : LogEntry} {store : Store} {record : RunRecord} {run : Run}
  {children : List NewRun} {next : Option NewRun} {target : RunRef}

/-- The parent of a run that ends is told so, and nobody else hears of a child. -/
theorem toldTo_reports (accepted : entry.Accepted store record run children next) :
    (toldTo entry.commit.notifications target).filter Event.isChildReport =
      match entry.commit.closing with
      | none => []
      | some closing =>
          if next = none ∧ run.parent = some target then [Decision.reportToParent run closing]
          else [] := by
  have htold := accepted.begets.told
  unfold Commit.Tells at htold
  rw [htold]
  cases entry.commit.closing with
  | none => rfl
  | some closing =>
      have hfarewell : ∀ refs : List RunRef, (toldTo (refs.map fun child => (⟨child,
          .cancellationRequested s!"parent {run.ref.workflowId} closed"⟩ : Notification))
          target).filter Event.isChildReport = [] := by
        intro refs
        rw [List.filter_eq_nil_iff]
        intro event hmem
        obtain ⟨notification, hnotification, rfl⟩ := List.mem_map.1 hmem
        obtain ⟨child, -, rfl⟩ := List.mem_map.1 (List.mem_of_mem_filter hnotification)
        simp [Event.isChildReport]
      have hreport : (Decision.reportToParent run closing).isChildReport = true := by
        rw [← Event.isSome_reportOn?, Decision.reportOn?_reportToParent]
        rfl
      simp only [Decision.farewells]
      rw [toldTo_append, List.filter_append, hfarewell, List.nil_append]
      cases next with
      | some new => simp [toldTo]
      | none =>
          cases hparent : run.parent with
          | none => simp [toldTo]
          | some parent =>
              by_cases hsame : parent = target <;> simp [toldTo, hsame, hreport]

theorem report_of_told (accepted : entry.Accepted store record run children next) {event : Event}
    (hmem : event ∈ toldTo entry.commit.notifications target) {child : RunRef}
    (hreport : event.reportOn? = some child) :
    ∃ closing, entry.commit.closing = some closing ∧ next = none ∧ run.parent = some target ∧
      event = Decision.reportToParent run closing ∧ child = entry.ref := by
  have hfiltered : event ∈ (toldTo entry.commit.notifications target).filter Event.isChildReport := by
    refine List.mem_filter.2 ⟨hmem, ?_⟩
    rw [← event.isSome_reportOn?, hreport]
    rfl
  rw [accepted.toldTo_reports] at hfiltered
  cases hclosing : entry.commit.closing with
  | none =>
      rw [hclosing] at hfiltered
      cases hfiltered
  | some closing =>
      simp only [hclosing] at hfiltered
      split at hfiltered
      · rename_i hends
        have hevent := List.mem_singleton.1 hfiltered
        refine ⟨closing, rfl, hends.1, hends.2, hevent, ?_⟩
        rw [hevent, Decision.reportOn?_reportToParent, accepted.run_ref] at hreport
        exact (Option.some.inj hreport).symm
      · cases hfiltered

theorem reports_le_one (accepted : entry.Accepted store record run children next)
    (target child : RunRef) : ((toldTo entry.commit.notifications target).filter
      fun event => event.reportOn? = some child).length ≤ 1 := by
  have hsublist : ((toldTo entry.commit.notifications target).filter
      fun event => event.reportOn? = some child).Sublist
        ((toldTo entry.commit.notifications target).filter Event.isChildReport) := by
    apply List.monotone_filter_right
    intro event hreport
    rw [← event.isSome_reportOn?, of_decide_eq_true hreport]
    rfl
  refine hsublist.length_le.trans ?_
  rw [accepted.toldTo_reports]
  split
  · exact Nat.zero_le _
  · split
    · exact Nat.le_refl _
    · exact Nat.zero_le _

/-- What the parent of a run hears when that run ends. -/
theorem tells_parent (accepted : entry.Accepted store record run children none)
    {closing : Closing} (hclosing : entry.commit.closing = some closing)
    (hparent : record.run.parent = some target) :
    (toldTo entry.commit.notifications target).filter Event.isChildReport =
      [Decision.reportToParent record.run closing] := by
  have hsame := Run.parent_eq_of_origin accepted.origin
  rw [accepted.toldTo_reports, hclosing]
  simp only [hsame, hparent, and_self, if_true]
  rw [Decision.reportToParent_congr (Run.ref_eq_of_origin accepted.origin)]

theorem report_mem_told (accepted : entry.Accepted store record run children none)
    {closing : Closing} (hclosing : entry.commit.closing = some closing)
    (hparent : record.run.parent = some target) :
    Decision.reportToParent record.run closing ∈ toldTo entry.commit.notifications target := by
  apply List.mem_of_mem_filter
  rw [accepted.tells_parent hclosing hparent]
  exact List.mem_singleton_self _

end LogEntry.Accepted

/-! ## Books -/

theorem RunRecord.reportsOn_of_story {record later : RunRecord} {told : List Event}
    (h : later.story = record.story ++ told) (child : RunRef) :
    later.reportsOn child = record.reportsOn child ++
      told.filter fun event => event.reportOn? = some child := by
  unfold reportsOn
  rw [h, List.filter_append]

namespace Book

variable {starts : NewRun → Prop} {before after : Book}

/-- The child has ended, and the event tells its parent how. -/
def TellsOf (book : Book) (child parent : RunRef) (event : Event) : Prop :=
  book.Ended child ∧ ∃ record, book.runs.find? child = some record ∧
    record.run.parent = some parent ∧ record.report? = some event

structure Reported (book : Book) : Prop extends Lineal book where
  /-- Only runs that have ended are reported on, and only to their parents. -/
  reported : ∀ parent record, book.runs.find? parent = some record →
    ∀ event ∈ record.story, ∀ child, event.reportOn? = some child → child.runId ≠ .nil →
      book.TellsOf child parent event
  once : ∀ parent record, book.runs.find? parent = some record →
    ∀ child, child.runId ≠ .nil → (record.reportsOn child).length ≤ 1
  /-- A parent that is open has heard of all children whose line has ended. -/
  heard : ∀ parent record, book.runs.find? parent = some record → record.isClosed = false →
    ∀ workflowId runId workflowType, .childStarted workflowId runId workflowType ∈ record.story →
    runId ≠ .nil → ∀ last, ReflTransGen (Continued book.log) ⟨workflowId, runId⟩ last →
    book.Ended last → record.reportsOn last ≠ []

theorem Ended.kept (turn : Turn starts before after) {ref : RunRef} (ended : before.Ended ref)
    (hlog : ∀ later, Continued after.log ref later → Continued before.log ref later) :
    after.Ended ref := by
  obtain ⟨⟨record, hfind, hclosed⟩, hends⟩ := ended
  obtain ⟨later, hlater, -, hstill⟩ := turn.kept hfind
  rw [← RunRecord.isSome_closing?] at hclosed
  obtain ⟨closing, hclosing⟩ := Option.isSome_iff_exists.1 hclosed
  refine ⟨⟨later, hlater, ?_⟩, fun next continued => hends next (hlog next continued)⟩
  rw [← RunRecord.isSome_closing?, hstill closing hclosing]
  rfl

/-- A run that has ended stays as it was reported. -/
theorem Turn.kept_report (turn : Turn starts before after) {ref parent : RunRef} {ended : RunRecord}
    {event : Event} (hfind : before.runs.find? ref = some ended)
    (hparent : ended.run.parent = some parent) (hreport : ended.report? = some event) :
    ∃ later, after.runs.find? ref = some later ∧ later.run.parent = some parent ∧
      later.report? = some event := by
  obtain ⟨later, hlater, horigin, hstill⟩ := turn.kept hfind
  obtain ⟨closing, hclosing, hevent⟩ := Option.map_eq_some_iff.1 hreport
  refine ⟨later, hlater, (Run.parent_eq_of_origin horigin).trans hparent, ?_⟩
  rw [RunRecord.report?, hstill closing hclosing, Option.map_some,
    Decision.reportToParent_congr (Run.ref_eq_of_origin horigin), hevent]

theorem Reported.opening {store : Store} (blank : store.runs = .empty) : Reported ⟨store, []⟩ := by
  refine ⟨.opening blank, ?_, ?_, ?_⟩
  all_goals
    rw [show (Book.mk store []).runs = .empty from blank]
  · exact fun _ _ hfind => (nomatch hfind)
  · exact fun _ _ hfind => (nomatch hfind)
  · exact fun _ _ hfind => (nomatch hfind)

/-- Nothing is told to anybody when a run begins, or when the runs stay as they are. -/
theorem Reported.quiet (reported : before.Reported) (turn : Turn starts before after)
    (hlog : after.log = before.log)
    (hcases : ∀ ref record, after.runs.find? ref = some record →
      (∃ new now, record = .start new now) ∨
        ∃ earlier, before.runs.find? ref = some earlier ∧ earlier.Hears [] record) :
    after.Reported := by
  have hnew : ∀ (new : NewRun) (now : Instant), ∀ event ∈ (RunRecord.start new now).story,
      event.reportOn? = none := by
    intro new now event hmem
    rw [RunRecord.story_start, List.mem_singleton] at hmem
    rw [hmem]
    rfl
  refine ⟨reported.toLineal.turn turn, ?_, ?_, ?_⟩
  · intro parent record hfind event hmem child hreport hgenuine
    rcases hcases parent record hfind with ⟨new, now, rfl⟩ | ⟨earlier, hearlier, hears⟩
    · rw [hnew new now event hmem] at hreport
      cases hreport
    · rw [hears.story, List.append_nil] at hmem
      obtain ⟨ends, ended, hended, hparent, hsays⟩ :=
        reported.reported parent earlier hearlier event hmem child hreport hgenuine
      exact ⟨ends.kept turn fun later => hlog ▸ id, turn.kept_report hended hparent hsays⟩
  · intro parent record hfind child hgenuine
    rcases hcases parent record hfind with ⟨new, now, rfl⟩ | ⟨earlier, hearlier, hears⟩
    · exact List.length_filter_le _ _
    · rw [RunRecord.reportsOn_of_story hears.story, List.filter_nil, List.append_nil]
      exact reported.once parent earlier hearlier child hgenuine
  · intro parent record hfind hopen workflowId runId workflowType hmem hgenuine last line ends
    rcases hcases parent record hfind with ⟨new, now, rfl⟩ | ⟨earlier, hearlier, hears⟩
    · rw [RunRecord.story_start, List.mem_singleton] at hmem
      cases hmem
    · rw [RunRecord.reportsOn_of_story hears.story, List.filter_nil, List.append_nil]
      rw [hears.story, List.append_nil] at hmem
      rw [hlog] at line
      obtain ⟨-, child, hchild, -⟩ :=
        reported.started parent earlier hearlier workflowId runId workflowType hmem hgenuine
      obtain ⟨-, later, hlater, -⟩ := reported.toLineal.line line hchild
      obtain ⟨⟨same, hsame, hclosed⟩, hends⟩ := ends
      refine reported.heard parent earlier hearlier (hears.isClosed.symm.trans hopen) workflowId
        runId workflowType hmem hgenuine last line ⟨⟨later, hlater, ?_⟩, hlog ▸ hends⟩
      rcases hcases last same hsame with ⟨new, now, rfl⟩ | ⟨known, hknown, hears⟩
      · cases hclosed
      · obtain rfl : later = known := Option.some.inj (hlater.symm.trans hknown)
        exact hears.isClosed.symm.trans hclosed

section Committed

variable {entry : LogEntry} {record : RunRecord} {run : Run} {children : List NewRun}
  {next : Option NewRun}

/-- A run that ends with the commit of its entry was the last of its line. -/
theorem ended_own (kept : before.WellKept)
    (accepted : entry.Accepted before.store record run children none) {closing : Closing}
    (hclosing : entry.commit.closing = some closing) :
    (before.concat entry).Ended entry.ref := by
  obtain ⟨own, hown, -, hcloses, -⟩ := accepted.own
  refine ⟨⟨own, hown, ?_⟩, accepted.not_continued kept⟩
  rw [← RunRecord.isSome_closing?, hcloses, hclosing]
  rfl

/-- A run that had ended before is not the run of an entry that is accepted. -/
theorem Ended.ne_own {ref : RunRef} (ended : before.Ended ref)
    (accepted : entry.Accepted before.store record run children next) : ref ≠ entry.ref := by
  rintro rfl
  obtain ⟨⟨closed, hfind, hclosed⟩, -⟩ := ended
  obtain rfl : record = closed := Option.some.inj (accepted.found.symm.trans hfind)
  rw [accepted.isOpen] at hclosed
  cases hclosed

theorem Ended.committed {ref : RunRef} (ended : before.Ended ref)
    (accepted : entry.Accepted before.store record run children next) :
    (before.concat entry).Ended ref := by
  have turn : Turn (fun _ => False) before (before.concat entry) := .committed accepted
  refine ended.kept turn ?_
  rintro later ⟨other, hmem, hsame, hcontinues⟩
  rcases List.mem_append.1 hmem with hold | hlast
  · exact ⟨other, hold, hsame, hcontinues⟩
  · rw [List.mem_singleton.1 hlast] at hsame
    exact absurd hsame.symm (ended.ne_own accepted)

/-- A run that has ended after a commit had ended before, or ends with it. -/
theorem ended_cases (accepted : entry.Accepted before.store record run children next)
    {last : RunRef} (ends : (before.concat entry).Ended last) :
    (∃ known, before.runs.find? last = some known) ∧ (before.Ended last ∨
      (last = entry.ref ∧ next = none ∧ ∃ closing, entry.commit.closing = some closing)) := by
  obtain ⟨⟨later, hlater, hclosed⟩, hends⟩ := ends
  cases accepted.source hlater with
  | own origin closing story =>
      refine ⟨⟨record, accepted.found⟩, .inr ⟨rfl, accepted.next_eq_none hends, ?_⟩⟩
      rw [← RunRecord.isSome_closing?, closing] at hclosed
      exact Option.isSome_iff_exists.1 hclosed
  | other other found hears =>
      refine ⟨⟨_, found⟩, .inl ⟨⟨_, found, hears.isClosed.symm.trans hclosed⟩, ?_⟩⟩
      exact fun next continued => hends next continued.mono
  | new mem hears =>
      rw [hears.isClosed] at hclosed
      cases hclosed

/-- Whoever is reported on after a commit has ended, and its parent is told so. -/
theorem Reported.reported_committed (reported : before.Reported)
    (accepted : entry.Accepted before.store record run children next) {parent : RunRef}
    {later : RunRecord} (hfind : (before.concat entry).runs.find? parent = some later)
    {event : Event} (hmem : event ∈ later.story)
    {child : RunRef} (hreport : event.reportOn? = some child) (hgenuine : child.runId ≠ .nil) :
    (before.concat entry).TellsOf child parent event := by
  have turn : Turn (fun _ => False) before (before.concat entry) := .committed accepted
  have hold : ∀ earlier, before.runs.find? parent = some earlier → event ∈ earlier.story →
      (before.concat entry).TellsOf child parent event := by
    intro earlier hearlier hbefore
    obtain ⟨ends, ended, hended, hparent, hsays⟩ :=
      reported.reported parent earlier hearlier event hbefore child hreport hgenuine
    exact ⟨ends.committed accepted, turn.kept_report hended hparent hsays⟩
  have htold : event ∈ toldTo entry.commit.notifications parent →
      (before.concat entry).TellsOf child parent event := by
    intro hnew
    obtain ⟨closing, hclosing, rfl, hparent, rfl, rfl⟩ := accepted.report_of_told hnew hreport
    obtain ⟨own, hown, horigin, hcloses, -⟩ := accepted.own
    have hsame := horigin.trans accepted.origin.symm
    refine ⟨ended_own reported.toWellKept accepted hclosing, own, hown,
      (Run.parent_eq_of_origin hsame).trans hparent, ?_⟩
    rw [RunRecord.report?, hcloses, hclosing, Option.map_some,
      Decision.reportToParent_congr (Run.ref_eq_of_origin hsame)]
  cases accepted.source hfind with
  | own origin closing story =>
      rw [story] at hmem
      rcases List.mem_append.1 hmem with hbefore | hnew
      · exact hold record accepted.found hbefore
      · exact absurd (accepted.answers.nil_of_report hnew hreport) hgenuine
  | other other found hears =>
      rw [hears.story] at hmem
      rcases List.mem_append.1 hmem with hbefore | hnew
      · exact hold _ found hbefore
      · split at hnew
        · cases hnew
        · exact htold hnew
  | new mem hears =>
      rw [hears.story, RunRecord.story_start] at hmem
      rcases List.mem_append.1 hmem with hstart | hnew
      · rw [List.mem_singleton.1 hstart] at hreport
        cases hreport
      · exact htold hnew

/-- A commit reports on no child again. -/
theorem Reported.once_committed (reported : before.Reported)
    (accepted : entry.Accepted before.store record run children next) {parent : RunRef}
    {later : RunRecord} (hfind : (before.concat entry).runs.find? parent = some later)
    {child : RunRef} (hgenuine : child.runId ≠ .nil) :
    (later.reportsOn child).length ≤ 1 := by
  cases accepted.source hfind with
  | own origin closing story =>
      have hnone : (entry.commit.events.filter fun event => event.reportOn? = some child) = [] := by
        rw [List.filter_eq_nil_iff]
        intro event hmem hreport
        exact hgenuine (accepted.answers.nil_of_report hmem (of_decide_eq_true hreport))
      rw [RunRecord.reportsOn_of_story story, hnone, List.append_nil]
      exact reported.once entry.ref record accepted.found child hgenuine
  | @other _ earlier _ other found hears =>
      rw [RunRecord.reportsOn_of_story hears.story, List.length_append]
      have hbefore := reported.once parent earlier found child hgenuine
      split
      · simpa using hbefore
      · have hadded := accepted.reports_le_one parent child
        rcases Nat.eq_zero_or_pos (earlier.reportsOn child).length with hnone | hsome
        · omega
        · -- a child that was reported on before is closed, so it is not the run of the entry
          have hnew : (toldTo entry.commit.notifications parent).filter
              (fun event => event.reportOn? = some child) = [] := by
            rw [List.filter_eq_nil_iff]
            intro event hmem hreport
            obtain ⟨-, -, -, -, -, rfl⟩ := accepted.report_of_told hmem (of_decide_eq_true hreport)
            obtain ⟨first, hfirst⟩ := List.exists_mem_of_length_pos hsome
            obtain ⟨hstory, hfirstReport⟩ := List.mem_filter.1 hfirst
            obtain ⟨ends, -⟩ := reported.reported parent earlier found first hstory entry.ref
              (of_decide_eq_true hfirstReport) hgenuine
            exact ends.ne_own accepted rfl
          rw [hnew]
          simpa using hbefore
  | @new new _ mem hears =>
      have hstart : (RunRecord.start new entry.now).reportsOn child = [] := by
        simp [RunRecord.reportsOn, RunRecord.story_start, NewRun.startEvent, Event.reportOn?]
      rw [RunRecord.reportsOn_of_story hears.story, hstart, List.nil_append]
      exact accepted.reports_le_one _ child

/-- The run of the entry is the last of a line that a parent has begun. -/
theorem Lineal.parent_of_line (lineal : before.Lineal)
    (accepted : entry.Accepted before.store record run children next) {parent : RunRef}
    {earlier : RunRecord} (hfind : before.runs.find? parent = some earlier)
    {workflowId workflowType : String} {runId : Uuid}
    (hmem : .childStarted workflowId runId workflowType ∈ earlier.story) (hgenuine : runId ≠ .nil)
    (line : ReflTransGen (Continued before.log) ⟨workflowId, runId⟩ entry.ref) :
    parent ≠ entry.ref ∧ record.run.parent = some parent := by
  obtain ⟨hapart, child, hchild, hparent⟩ :=
    lineal.started parent earlier hfind workflowId runId workflowType hmem hgenuine
  obtain ⟨hid, last, hlast, hsame⟩ := lineal.line line hchild
  obtain rfl : record = last := Option.some.inj (accepted.found.symm.trans hlast)
  refine ⟨?_, hsame.trans hparent⟩
  rintro rfl
  exact hapart hid.symm

/-- A parent that is open after a commit has heard of all lines that have ended by then. -/
theorem Reported.heard_committed (reported : before.Reported)
    (accepted : entry.Accepted before.store record run children next) {parent : RunRef}
    {later : RunRecord} (hfind : (before.concat entry).runs.find? parent = some later)
    (hopen : later.isClosed = false)
    {workflowId workflowType : String} {runId : Uuid}
    (hmem : .childStarted workflowId runId workflowType ∈ later.story) (hgenuine : runId ≠ .nil)
    {last : RunRef}
    (line : ReflTransGen (Continued (before.log ++ [entry])) ⟨workflowId, runId⟩ last)
    (ends : (before.concat entry).Ended last) : later.reportsOn last ≠ [] := by
  obtain ⟨⟨known, hknown⟩, hcases⟩ := ended_cases accepted ends
  replace line := accepted.line_before reported.toWellKept hknown line
  have hbefore : ∀ earlier told, before.runs.find? parent = some earlier →
      earlier.isClosed = false → .childStarted workflowId runId workflowType ∈ earlier.story →
      later.story = earlier.story ++ told → before.Ended last → later.reportsOn last ≠ [] := by
    intro earlier told hearlier hstill hstarted hstory ended
    rw [RunRecord.reportsOn_of_story hstory]
    have hheard := reported.heard parent earlier hearlier hstill workflowId runId workflowType
      hstarted hgenuine last line ended
    exact fun hnone => hheard (List.append_eq_nil_iff.1 hnone).1
  cases accepted.source hfind with
  | own origin closing story =>
      have hquiet : entry.commit.closing = none := by
        rw [← closing, ← Option.not_isSome_iff_eq_none, RunRecord.isSome_closing?, hopen]
        exact Bool.false_ne_true
      rw [story] at hmem
      rcases List.mem_append.1 hmem with hold | hnew
      · rcases hcases with ended | ⟨-, -, closing, hclosing⟩
        · exact hbefore record _ accepted.found accepted.isOpen hold story ended
        · rw [hquiet] at hclosing
          cases hclosing
      · -- the child begins with this commit, so its line has not ended
        obtain ⟨child, -, hbegun, href, -⟩ := accepted.begun_of_started hnew hgenuine
        have hfresh : before.runs.find? ⟨workflowId, runId⟩ = none :=
          href ▸ accepted.fresh child hbegun
        rcases line.cases_head with rfl | ⟨middle, ⟨other, hother, hsame, -⟩, -⟩
        · rw [hfresh] at hknown
          cases hknown
        · exact absurd hsame (reported.toWellKept.unmentioned hfresh hother).1
  | @other _ earlier _ other found hears =>
      have hstill : earlier.isClosed = false := hears.isClosed.symm.trans hopen
      have hstory := hears.story
      rw [hstill] at hstory
      have hold : .childStarted workflowId runId workflowType ∈ earlier.story := by
        rw [hstory] at hmem
        exact (List.mem_append.1 hmem).resolve_right accepted.not_started_of_told
      rcases hcases with ended | ⟨rfl, rfl, closing, hclosing⟩
      · exact hbefore earlier _ found hstill hold hstory ended
      · obtain ⟨-, hparent⟩ :=
          reported.toLineal.parent_of_line accepted found hold hgenuine line
        have hreport :=
          accepted.report_mem_told hclosing hparent
        rw [RunRecord.reportsOn_of_story hstory]
        apply List.append_ne_nil_of_right_ne_nil
        refine List.ne_nil_of_mem (List.mem_filter.2 ⟨hreport, ?_⟩)
        rw [Decision.reportOn?_reportToParent, RunTable.ref_of_find? accepted.found]
        simp
  | new mem hears =>
      rw [hears.story, RunRecord.story_start] at hmem
      rcases List.mem_append.1 hmem with hstart | hnew
      · rw [List.mem_singleton] at hstart
        cases hstart
      · exact absurd hnew accepted.not_started_of_told

theorem Reported.committed (reported : before.Reported)
    (accepted : entry.Accepted before.store record run children next) :
    (before.concat entry).Reported where
  toLineal := by
    have turn : Turn (fun _ => False) before (before.concat entry) := .committed accepted
    exact reported.toLineal.turn turn
  reported := fun _ _ hfind _ hmem _ hreport hgenuine =>
    reported.reported_committed accepted hfind hmem hreport hgenuine
  once := fun _ _ hfind _ hgenuine => reported.once_committed accepted hfind hgenuine
  heard := fun _ _ hfind hopen _ _ _ hmem hgenuine _ line ends =>
    reported.heard_committed accepted hfind hopen hmem hgenuine line ends

/-- The commit that ends a line of children of an open run reports on its last run, once, and wakes
the parent. -/
theorem Reported.delivers (reported : before.Reported)
    (accepted : entry.Accepted before.store record run children next) {parent : RunRef}
    {earlier : RunRecord} (hfind : before.runs.find? parent = some earlier)
    (hopen : earlier.isClosed = false) {workflowId workflowType : String} {runId : Uuid}
    (hmem : .childStarted workflowId runId workflowType ∈ earlier.story) (hgenuine : runId ≠ .nil)
    (line : ReflTransGen (Continued before.log) ⟨workflowId, runId⟩ entry.ref)
    (ends : (before.concat entry).Ended entry.ref) :
    ∃ later told report, (before.concat entry).runs.find? parent = some later ∧
      later.story = earlier.story ++ told ∧ told.filter Event.isChildReport = [report] ∧
      (before.concat entry).TellsOf entry.ref parent report ∧
      (before.concat entry).store.tasks.Awaits parent := by
  obtain ⟨hother, hparent⟩ := reported.toLineal.parent_of_line accepted hfind hmem hgenuine line
  obtain ⟨-, hcases⟩ := ended_cases accepted ends
  rcases hcases with ended | ⟨-, rfl, closing, hclosing⟩
  · exact absurd rfl (ended.ne_own accepted)
  · have htells := accepted.tells_parent hclosing hparent
    obtain ⟨later, hlater, hears⟩ := accepted.other hother hfind
    have hstory := hears.story
    rw [hopen] at hstory
    have hreport :=
      accepted.report_mem_told hclosing hparent
    refine ⟨later, _, _, hlater, hstory, htells, ?_, ?_⟩
    · apply reported.reported_committed accepted hlater
      · rw [hstory]
        exact List.mem_append_right _ hreport
      · rw [Decision.reportOn?_reportToParent, RunTable.ref_of_find? accepted.found]
      · exact reported.genuine _ _ accepted.found
    · obtain ⟨notification, hnotification, -⟩ := List.mem_map.1 hreport
      obtain ⟨hnotified, htarget⟩ := List.mem_filter.1 hnotification
      have htarget : notification.target = parent := of_decide_eq_true htarget
      subst htarget
      exact Store.awaits_told hnotified accepted.fresh accepted.refs hother hfind hopen entry.now

end Committed

theorem Reported.turn (reported : before.Reported) (turn : Turn starts before after) :
    after.Reported := by
  rcases turn.quiet_or_committed with ⟨hlog, hcases⟩ | ⟨_, _, _, _, _, accepted, rfl⟩
  · exact reported.quiet turn hlog hcases
  · exact reported.committed accepted

theorem Reported.turns (reported : before.Reported)
    (turns : ReflTransGen (Turn starts) before after) : after.Reported := by
  induction turns with
  | refl => exact reported
  | tail _ turn ih => exact ih.turn turn

/-- If the entry ends a line of children of an open run, that run hears of it, and of no other
child, and is woken. -/
def Delivers (before after : Book) (entry : LogEntry) : Prop :=
  ∀ parent record, before.runs.find? parent = some record → record.isClosed = false →
    ∀ workflowId runId workflowType, .childStarted workflowId runId workflowType ∈ record.story →
    runId ≠ .nil → ReflTransGen (Continued before.log) ⟨workflowId, runId⟩ entry.ref →
    after.Ended entry.ref → ∃ later told report, after.runs.find? parent = some later ∧
      later.story = record.story ++ told ∧ told.filter Event.isChildReport = [report] ∧
      after.TellsOf entry.ref parent report ∧ after.store.tasks.Awaits parent

theorem Reported.delivered (reported : before.Reported) (turn : Turn starts before after)
    {entry : LogEntry} (hlog : after.log = before.log ++ [entry]) :
    before.Delivers after entry := by
  obtain ⟨record, run, children, next, accepted, rfl⟩ := turn.accepted hlog
  exact fun _ _ hfind hopen _ _ _ hmem hgenuine line ends =>
    reported.delivers accepted hfind hopen hmem hgenuine line ends

end Book

/-! ## Scenes -/

namespace Operation

def delegationEngine : Engine := ⟨⟨[Samples.delegation, Samples.trial]⟩, .standard⟩

def firstTrial : RunRef := ⟨"trial", World.runId 1⟩

def secondTrial : RunRef := ⟨"trial", World.runId 2⟩

end Operation

end Chronicle
