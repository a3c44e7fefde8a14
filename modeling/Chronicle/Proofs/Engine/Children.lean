import Chronicle.Proofs.Engine.Bookkeeping

/-!
# Children

A child that a workflow starts is kept with its parent, and so is every run that continues it.
Such a line of runs ends with a run that is closed and that no other one continues.
-/

namespace Chronicle

open Relation (ReflTransGen)

/-! ## Lines of runs -/

/-- The later run continues the earlier one, under its workflow id. -/
def Continued (log : List LogEntry) (earlier later : RunRef) : Prop :=
  ∃ entry ∈ log, entry.ref = earlier ∧ entry.commit.closing.isSome = true ∧
    later ∈ entry.commit.newRuns.map NewRun.ref ∧ later.workflowId = earlier.workflowId

/-- The run is closed, and no other one continues it. -/
def Book.Ended (book : Book) (ref : RunRef) : Prop :=
  (∃ record, book.runs.find? ref = some record ∧ record.isClosed = true) ∧
    ∀ later, ¬ Continued book.log ref later

theorem Run.parent_eq_of_origin {first second : Run} (h : first.origin = second.origin) :
    first.parent = second.parent := by
  have hparent := congrArg Run.parent h
  exact hparent

theorem Continued.mono {log more : List LogEntry} {earlier later : RunRef}
    (continued : Continued log earlier later) : Continued (log ++ more) earlier later := by
  obtain ⟨entry, hmem, hcontinues⟩ := continued
  exact ⟨entry, List.mem_append_left _ hmem, hcontinues⟩

namespace LogEntry.Accepted

variable {entry : LogEntry} {book : Book} {record : RunRecord} {run : Run}
  {children : List NewRun} {next : Option NewRun}

/-- The run of the entry is continued if the commit says so, and not by a child. -/
theorem next_eq_none (accepted : entry.Accepted book.store record run children next)
    (hends : ∀ later, ¬ Continued (book.log ++ [entry]) entry.ref later) : next = none := by
  cases next with
  | none => rfl
  | some new =>
      obtain ⟨closing, hclosing, -⟩ := accepted.begets.continues new rfl
      refine absurd ⟨entry, by simp, rfl, by simp [hclosing], ?_, ?_⟩ (hends new.ref)
      · rw [accepted.begets.newRuns]
        simp
      · exact accepted.next_workflowId new rfl

theorem not_continued (accepted : entry.Accepted book.store record run children none)
    (kept : book.WellKept) : ∀ later, ¬ Continued (book.log ++ [entry]) entry.ref later := by
  rintro later ⟨other, hmem, hsame, hcloses, hbegun, hid⟩
  rcases List.mem_append.1 hmem with hold | hlast
  · rw [kept.unclosed accepted hold hsame] at hcloses
    cases hcloses
  · rw [List.mem_singleton.1 hlast, accepted.begets.newRuns] at hbegun
    obtain ⟨child, hchild, rfl⟩ := List.mem_map.1 hbegun
    exact accepted.apart child (by simpa using hchild) hid

/-- Runs that were there before are continued as before, except by runs that are new. -/
theorem continued_before (accepted : entry.Accepted book.store record run children next)
    {earlier later : RunRef} {known : RunRecord}
    (hfind : book.runs.find? later = some known)
    (continued : Continued (book.log ++ [entry]) earlier later) :
    Continued book.log earlier later := by
  obtain ⟨other, hmem, hsame, hcloses, hbegun, hid⟩ := continued
  rcases List.mem_append.1 hmem with hold | hlast
  · exact ⟨other, hold, hsame, hcloses, hbegun, hid⟩
  · rw [List.mem_singleton.1 hlast] at hbegun
    obtain ⟨new, hnew, rfl⟩ := List.mem_map.1 hbegun
    have hfresh : book.runs.find? new.ref = none := accepted.fresh new hnew
    rw [hfind] at hfresh
    cases hfresh

theorem line_before (accepted : entry.Accepted book.store record run children next)
    (kept : book.WellKept) {first last : RunRef} {known : RunRecord}
    (hfind : book.runs.find? last = some known)
    (line : ReflTransGen (Continued (book.log ++ [entry])) first last) :
    ReflTransGen (Continued book.log) first last := by
  induction line generalizing known with
  | refl => exact .refl
  | tail _ step ih =>
      obtain ⟨other, hmem, hsame, hcontinues⟩ := accepted.continued_before hfind step
      obtain ⟨⟨earlier, hearlier⟩, -⟩ := kept.logged other hmem
      rw [hsame] at hearlier
      exact (ih hearlier).tail ⟨other, hmem, hsame, hcontinues⟩

end LogEntry.Accepted

/-! ## What a commit starts -/

namespace LogEntry.Accepted

variable {entry : LogEntry} {store : Store} {record : RunRecord} {run : Run}
  {children : List NewRun} {next : Option NewRun} {target : RunRef}

theorem not_started_of_told (accepted : entry.Accepted store record run children next)
    {workflowId workflowType : String} {runId : Uuid} :
    .childStarted workflowId runId workflowType ∉ toldTo entry.commit.notifications target := by
  intro hmem
  obtain ⟨notification, hnotification, hevent⟩ := List.mem_map.1 hmem
  have hannounced := accepted.begets.tidy.announced notification
    (List.mem_of_mem_filter hnotification)
  rw [hevent] at hannounced
  cases hannounced

theorem children_genuine (accepted : entry.Accepted store record run children next) :
    ∀ child ∈ children, child.ref.runId ≠ .nil := by
  intro child hchild
  apply accepted.genuine child
  rw [accepted.begets.newRuns]
  exact List.mem_append_left _ hchild

theorem answers (accepted : entry.Accepted store record run children next) :
    entry.commit.Answers := accepted.begets.answers accepted.children_genuine

/-- A child that the commit starts is one of its new runs. -/
theorem begun_of_started (accepted : entry.Accepted store record run children next)
    {workflowId workflowType : String} {runId : Uuid}
    (hmem : .childStarted workflowId runId workflowType ∈ entry.commit.events)
    (hgenuine : runId ≠ .nil) : ∃ child ∈ children, child ∈ entry.commit.newRuns ∧
      child.ref = ⟨workflowId, runId⟩ ∧ child.parent = some entry.ref := by
  obtain ⟨child, hchild, href⟩ := List.mem_map.1
    (accepted.begets.bears.started workflowId runId workflowType hmem hgenuine)
  refine ⟨child, hchild, ?_, href, ?_⟩
  · rw [accepted.begets.newRuns]
    exact List.mem_append_left _ hchild
  · rw [(accepted.begets.bears.begun child hchild).1, accepted.run_ref]

end LogEntry.Accepted

/-! ## Lines stay with the parent -/

namespace Book

variable {starts : NewRun → Prop} {before after : Book}

structure Lineal (book : Book) : Prop extends WellKept book where
  started : ∀ parent record, book.runs.find? parent = some record →
    ∀ workflowId runId workflowType, .childStarted workflowId runId workflowType ∈ record.story →
    runId ≠ .nil → workflowId ≠ parent.workflowId ∧
      ∃ child, book.runs.find? ⟨workflowId, runId⟩ = some child ∧ child.run.parent = some parent
  inherits : ∀ earlier later, Continued book.log earlier later → ∃ record next,
    book.runs.find? earlier = some record ∧ book.runs.find? later = some next ∧
      next.run.parent = record.run.parent
  recorded : ∀ ref record, book.runs.find? ref = some record →
    ∀ workflowId runId workflowType, .childStarted workflowId runId workflowType ∈ record.story →
    ∃ entry ∈ book.log, entry.ref = ref ∧
      .childStarted workflowId runId workflowType ∈ entry.commit.events
  answered : ∀ entry ∈ book.log, entry.commit.Answers

/-- All runs of a line have the parent of the first, and its workflow id. -/
theorem Lineal.line {book : Book} (lineal : book.Lineal) {first last : RunRef}
    (line : ReflTransGen (Continued book.log) first last) {record : RunRecord}
    (hfind : book.runs.find? first = some record) :
    last.workflowId = first.workflowId ∧ ∃ later, book.runs.find? last = some later ∧
      later.run.parent = record.run.parent := by
  induction line with
  | refl => exact ⟨rfl, record, hfind, rfl⟩
  | tail _ step ih =>
      obtain ⟨hid, middle, hmiddle, hparent⟩ := ih
      obtain ⟨same, later, hsame, hlater, hinherits⟩ := lineal.inherits _ _ step
      obtain rfl : middle = same := Option.some.inj (hmiddle.symm.trans hsame)
      obtain ⟨-, -, -, -, -, hstep⟩ := step
      exact ⟨hstep.trans hid, later, hlater, hinherits.trans hparent⟩

theorem Turn.kept_parent (turn : Turn starts before after) {ref : RunRef} {record : RunRecord}
    (hfind : before.runs.find? ref = some record) :
    ∃ later, after.runs.find? ref = some later ∧ later.run.parent = record.run.parent := by
  obtain ⟨later, hlater, horigin, -⟩ := turn.kept hfind
  exact ⟨later, hlater, Run.parent_eq_of_origin horigin⟩

/-- What a book has to say of its children stays true when nothing but other runs is added. -/
theorem Lineal.extend (lineal : before.Lineal) (turn : Turn starts before after)
    (hlog : ∃ more, after.log = before.log ++ more)
    (started : ∀ parent record, after.runs.find? parent = some record →
      ∀ workflowId runId workflowType, .childStarted workflowId runId workflowType ∈ record.story →
      (∃ earlier, before.runs.find? parent = some earlier ∧
          .childStarted workflowId runId workflowType ∈ earlier.story) ∨
        (runId ≠ .nil → workflowId ≠ parent.workflowId ∧
          ∃ child, after.runs.find? ⟨workflowId, runId⟩ = some child ∧
            child.run.parent = some parent) ∧
        ∃ entry ∈ after.log, entry.ref = parent ∧
          .childStarted workflowId runId workflowType ∈ entry.commit.events)
    (inherits : ∀ earlier later, Continued after.log earlier later →
      Continued before.log earlier later ∨ ∃ record next, after.runs.find? earlier = some record ∧
        after.runs.find? later = some next ∧ next.run.parent = record.run.parent)
    (answered : ∀ entry ∈ after.log, entry ∈ before.log ∨ entry.commit.Answers) :
    after.Lineal where
  toWellKept := lineal.toWellKept.turn turn
  started := by
    intro parent record hfind workflowId runId workflowType hmem hgenuine
    rcases started parent record hfind workflowId runId workflowType hmem with
      ⟨earlier, hearlier, hold⟩ | ⟨hnew, -⟩
    · obtain ⟨hapart, child, hchild, hparent⟩ :=
        lineal.started parent earlier hearlier workflowId runId workflowType hold hgenuine
      obtain ⟨later, hlater, hsame⟩ := turn.kept_parent hchild
      exact ⟨hapart, later, hlater, hsame.trans hparent⟩
    · exact hnew hgenuine
  inherits := by
    intro earlier later continued
    rcases inherits earlier later continued with hold | hnew
    · obtain ⟨record, next, hrecord, hnext, hparent⟩ := lineal.inherits earlier later hold
      obtain ⟨record', hrecord', hsame⟩ := turn.kept_parent hrecord
      obtain ⟨next', hnext', hnew⟩ := turn.kept_parent hnext
      exact ⟨record', next', hrecord', hnext', hnew.trans (hparent.trans hsame.symm)⟩
    · exact hnew
  recorded := by
    intro ref record hfind workflowId runId workflowType hmem
    rcases started ref record hfind workflowId runId workflowType hmem with
      ⟨earlier, hearlier, hold⟩ | ⟨-, hentry⟩
    · obtain ⟨more, hmore⟩ := hlog
      obtain ⟨entry, hentry, hrecords⟩ :=
        lineal.recorded ref earlier hearlier workflowId runId workflowType hold
      exact ⟨entry, hmore ▸ List.mem_append_left _ hentry, hrecords⟩
    · exact hentry
  answered := by
    intro entry hmem
    rcases answered entry hmem with hold | hnew
    · exact lineal.answered entry hold
    · exact hnew

theorem Lineal.opening {store : Store} (blank : store.runs = .empty) : Lineal ⟨store, []⟩ where
  toWellKept := .opening blank
  started := by
    rw [show (Book.mk store []).runs = .empty from blank]
    exact fun _ _ hfind => (nomatch hfind)
  inherits := fun _ _ continued => by
    obtain ⟨entry, hmem, -⟩ := continued
    cases hmem
  recorded := by
    rw [show (Book.mk store []).runs = .empty from blank]
    exact fun _ _ hfind => (nomatch hfind)
  answered := fun _ hmem => (nomatch hmem)

section Committed

variable {entry : LogEntry} {record : RunRecord} {run : Run} {children : List NewRun}
  {next : Option NewRun}

/-- A child that a history says was started after a commit was so before, or starts with it. -/
theorem started_cases (accepted : entry.Accepted before.store record run children next)
    {parent : RunRef} {later : RunRecord}
    (hfind : (before.concat entry).runs.find? parent = some later) {workflowId workflowType : String}
    {runId : Uuid} (hmem : .childStarted workflowId runId workflowType ∈ later.story) :
    (∃ earlier, before.runs.find? parent = some earlier ∧
        .childStarted workflowId runId workflowType ∈ earlier.story) ∨
      (parent = entry.ref ∧ .childStarted workflowId runId workflowType ∈ entry.commit.events) := by
  cases accepted.source hfind with
  | own origin closing story =>
      rw [story] at hmem
      rcases List.mem_append.1 hmem with hold | hnew
      · exact .inl ⟨record, accepted.found, hold⟩
      · exact .inr ⟨rfl, hnew⟩
  | other other found hears =>
      rw [hears.story] at hmem
      rcases List.mem_append.1 hmem with hold | hnew
      · exact .inl ⟨_, found, hold⟩
      · split at hnew
        · cases hnew
        · exact absurd hnew accepted.not_started_of_told
  | new mem hears =>
      rw [hears.story, RunRecord.story_start] at hmem
      rcases List.mem_append.1 hmem with hstart | hnew
      · rw [List.mem_singleton] at hstart
        cases hstart
      · exact absurd hnew accepted.not_started_of_told

theorem child_kept (accepted : entry.Accepted before.store record run children next)
    {workflowId workflowType : String} {runId : Uuid}
    (hmem : .childStarted workflowId runId workflowType ∈ entry.commit.events)
    (hgenuine : runId ≠ .nil) : workflowId ≠ entry.ref.workflowId ∧
      ∃ child, (before.concat entry).runs.find? ⟨workflowId, runId⟩ = some child ∧
        child.run.parent = some entry.ref := by
  obtain ⟨new, hchild, hbegun, href, hparent⟩ := accepted.begun_of_started hmem hgenuine
  obtain ⟨child, hfind, hears⟩ := accepted.new hbegun
  have hapart := accepted.apart new hchild
  rw [href] at hfind hapart
  exact ⟨hapart, child, hfind, (Run.parent_eq_of_origin hears.origin).trans hparent⟩

/-- The run that continues the one that closes has its parent. -/
theorem inherits_of_new (accepted : entry.Accepted before.store record run children next)
    {new : NewRun} (hnew : new ∈ entry.commit.newRuns)
    (hid : new.ref.workflowId = entry.ref.workflowId) : ∃ earlier later,
      (before.concat entry).runs.find? entry.ref = some earlier ∧
        (before.concat entry).runs.find? new.ref = some later ∧
        later.run.parent = earlier.run.parent := by
  obtain ⟨earlier, hearlier, horigin, -⟩ := accepted.own
  obtain ⟨later, hlater, hears⟩ := accepted.new hnew
  refine ⟨earlier, later, hearlier, hlater, ?_⟩
  rw [Run.parent_eq_of_origin hears.origin, Run.parent_eq_of_origin horigin,
    ← Run.parent_eq_of_origin accepted.origin]
  -- children have other workflow ids, so it is the run that continues
  rw [accepted.begets.newRuns] at hnew
  rcases List.mem_append.1 hnew with hchild | hnext
  · exact absurd hid (accepted.apart new hchild)
  · replace hnext : new ∈ next := by simpa using hnext
    obtain ⟨closing, -, continues⟩ := accepted.begets.continues new hnext
    obtain ⟨-, now, runId, attempt, delay, -, rfl⟩ := continues new hnext
    rfl

theorem Lineal.committed (lineal : before.Lineal)
    (accepted : entry.Accepted before.store record run children next) :
    (before.concat entry).Lineal := by
  have turn : Turn (fun _ => False) before (before.concat entry) := .committed accepted
  refine lineal.extend turn ⟨_, rfl⟩ ?_ ?_ ?_
  · intro parent later hfind workflowId runId workflowType hmem
    rcases started_cases accepted hfind hmem with hold | ⟨rfl, hnew⟩
    · exact .inl hold
    · exact .inr ⟨child_kept accepted hnew, entry, by simp, rfl, hnew⟩
  · rintro earlier later ⟨other, hmem, rfl, hcloses, hbegun, hid⟩
    rcases List.mem_append.1 hmem with hold | hlast
    · exact .inl ⟨other, hold, rfl, hcloses, hbegun, hid⟩
    · obtain rfl := List.mem_singleton.1 hlast
      obtain ⟨new, hnew, rfl⟩ := List.mem_map.1 hbegun
      exact .inr (inherits_of_new accepted hnew hid)
  · intro other hmem
    rcases List.mem_append.1 hmem with hold | hlast
    · exact .inl hold
    · rw [List.mem_singleton.1 hlast]
      exact .inr accepted.answers

end Committed

theorem Lineal.turn (lineal : before.Lineal) (turn : Turn starts before after) : after.Lineal := by
  rcases turn.quiet_or_committed with ⟨hlog, hcases⟩ | ⟨_, _, _, _, _, accepted, rfl⟩
  · refine lineal.extend turn ⟨[], by simp [hlog]⟩ ?_ ?_ ?_
    · intro parent record hfind workflowId runId workflowType hmem
      rcases hcases parent record hfind with ⟨new, now, rfl⟩ | ⟨earlier, hearlier, hears⟩
      · rw [RunRecord.story_start, List.mem_singleton] at hmem
        cases hmem
      · rw [hears.story, List.append_nil] at hmem
        exact .inl ⟨earlier, hearlier, hmem⟩
    · exact fun earlier later continued => .inl (hlog ▸ continued)
    · exact fun entry hmem => .inl (hlog ▸ hmem)
  · exact lineal.committed accepted

end Book

end Chronicle
