import Chronicle.Proofs.Engine.Books
import Chronicle.Proofs.Store.Tidings

/-!
# Bookkeeping

What a store and its log know of each other.  The log names only runs that are in the store, and a
run is closed exactly when an entry of the log closes it, in the way that the entry says.
-/

namespace Chronicle

open Relation (ReflTransGen)

namespace LogEntry.Accepted

variable {entry : LogEntry} {store : Store} {record : RunRecord} {run : Run}
  {children : List NewRun} {next : Option NewRun} {target : RunRef}

theorem tells_none (accepted : entry.Accepted store record run children next)
    (hopen : entry.commit.closing = none) : entry.commit.notifications = [] := by
  have htold := accepted.begets.told
  rw [Commit.Tells, hopen] at htold
  exact htold

/-- The run of the entry has just the events of the commit added to its history. -/
theorem own (accepted : entry.Accepted store record run children next) :
    ∃ later, (store.apply entry.ref entry.commit entry.now).wake.runs.find? entry.ref = some later ∧
      later.run.origin = record.run.origin ∧ later.closing? = entry.commit.closing ∧
      later.story = record.story ++ entry.commit.events := by
  rw [Store.wake_runs, Store.apply_runs]
  obtain ⟨later, hlater, hears⟩ :=
    RunTable.hears_applied_own entry.now accepted.fresh accepted.refs accepted.found
  have hsilent : (if (record.revise entry.commit entry.now).isClosed then []
      else toldTo entry.commit.notifications entry.ref) = [] := by
    cases hclosing : entry.commit.closing with
    | none => simp [accepted.tells_none hclosing, toldTo]
    | some closing =>
        rw [RunRecord.isClosed_revise_some record hclosing
          (accepted.begets.tidy.closed hclosing) entry.now]
        rfl
  rw [hsilent] at hears
  refine ⟨later, hlater, hears.origin.trans (RunRecord.revise_origin _ _ _), ?_, ?_⟩
  · rw [hears.closing]
    cases hclosing : entry.commit.closing with
    | none => exact RunRecord.closing?_revise_none accepted.isOpen hclosing entry.now
    | some closing =>
        exact RunRecord.closing?_revise_some record hclosing
          (accepted.begets.tidy.closed hclosing) entry.now
  · rw [hears.story, RunRecord.story_revise, List.append_nil]

/-- Any other run hears what it is told, if it is open. -/
theorem other (accepted : entry.Accepted store record run children next) {earlier : RunRecord}
    (hother : target ≠ entry.ref) (hfind : store.runs.find? target = some earlier) :
    ∃ later, (store.apply entry.ref entry.commit entry.now).wake.runs.find? target = some later ∧
      earlier.Hears (if earlier.isClosed then [] else toldTo entry.commit.notifications target)
        later := by
  rw [Store.wake_runs, Store.apply_runs]
  exact RunTable.hears_applied_other entry.now accepted.fresh accepted.refs hother hfind

theorem new (accepted : entry.Accepted store record run children next) {new : NewRun}
    (h : new ∈ entry.commit.newRuns) :
    ∃ later, (store.apply entry.ref entry.commit entry.now).wake.runs.find? new.ref = some later ∧
      (RunRecord.start new entry.now).Hears (toldTo entry.commit.notifications new.ref) later := by
  rw [Store.wake_runs, Store.apply_runs]
  exact RunTable.hears_applied_new entry.now accepted.fresh accepted.refs h

/-- Where the runs of the store come from after a commit. -/
inductive Source (entry : LogEntry) (store : Store) (record : RunRecord) :
    RunRef → RunRecord → Prop where
  | own {later : RunRecord} (origin : later.run.origin = record.run.origin)
      (closing : later.closing? = entry.commit.closing)
      (story : later.story = record.story ++ entry.commit.events) :
      Source entry store record entry.ref later
  | other {target : RunRef} {earlier later : RunRecord} (other : target ≠ entry.ref)
      (found : store.runs.find? target = some earlier)
      (hears : earlier.Hears
        (if earlier.isClosed then [] else toldTo entry.commit.notifications target) later) :
      Source entry store record target later
  | new {new : NewRun} {later : RunRecord} (mem : new ∈ entry.commit.newRuns)
      (hears : (RunRecord.start new entry.now).Hears (toldTo entry.commit.notifications new.ref)
        later) : Source entry store record new.ref later

theorem source (accepted : entry.Accepted store record run children next) {later : RunRecord}
    (hfind : (store.apply entry.ref entry.commit entry.now).wake.runs.find? target = some later) :
    Source entry store record target later := by
  have hcases := hfind
  rw [Store.wake_runs, Store.apply_runs] at hcases
  rcases RunTable.find?_applied_cases entry.now accepted.fresh accepted.refs hcases with
    ⟨earlier, hearlier⟩ | ⟨new, hmem, rfl⟩
  · rcases eq_or_ne target entry.ref with rfl | hother
    · obtain ⟨same, hsame, horigin, hclosing, hstory⟩ := accepted.own
      obtain rfl : same = later := Option.some.inj (hsame.symm.trans hfind)
      exact .own horigin hclosing hstory
    · obtain ⟨same, hsame, hears⟩ := accepted.other hother hearlier
      obtain rfl : same = later := Option.some.inj (hsame.symm.trans hfind)
      exact .other hother hearlier hears
  · obtain ⟨same, hsame, hears⟩ := accepted.new hmem
    obtain rfl : same = later := Option.some.inj (hsame.symm.trans hfind)
    exact .new hmem hears

end LogEntry.Accepted

namespace Book

variable {starts : NewRun → Prop} {before after : Book}

structure WellKept (book : Book) : Prop where
  sole : book.runs.Sole
  chained : book.runs.Chained
  genuine : ∀ ref record, book.runs.find? ref = some record → ref.runId ≠ .nil
  logged : ∀ entry ∈ book.log, (∃ record, book.runs.find? entry.ref = some record) ∧
    ∀ new ∈ entry.commit.newRuns, ∃ record, book.runs.find? new.ref = some record
  closed : ∀ ref record closing, book.runs.find? ref = some record →
    record.closing? = some closing →
    ∃ entry ∈ book.log, entry.ref = ref ∧ entry.commit.closing = some closing
  closes : ∀ entry ∈ book.log, ∀ closing, entry.commit.closing = some closing →
    ∃ record, book.runs.find? entry.ref = some record ∧ record.closing? = some closing

theorem WellKept.opening {store : Store} (blank : store.runs = .empty) : WellKept ⟨store, []⟩ := by
  have hruns : (Book.mk store []).runs = .empty := blank
  constructor
  · rw [hruns]
    exact .empty
  · rw [hruns]
    exact .empty
  · rw [hruns]
    exact fun _ _ hfind => (nomatch hfind)
  · exact fun _ hmem => (nomatch hmem)
  · rw [hruns]
    exact fun _ _ _ hfind => (nomatch hfind)
  · exact fun _ hmem => (nomatch hmem)

/-- A run that was there before is there, with the same beginning; it stays as it was if it was
closed. -/
theorem Turn.kept (turn : Turn starts before after) {ref : RunRef} {record : RunRecord}
    (hfind : before.runs.find? ref = some record) :
    ∃ later, after.runs.find? ref = some later ∧ later.run.origin = record.run.origin ∧
      (∀ closing, record.closing? = some closing → later.closing? = some closing) := by
  cases turn with
  | still runs => exact ⟨record, by rw [← hfind, Book.runs, Book.runs, runs], rfl, fun _ => id⟩
  | @began new now allowed free fresh genuine =>
      obtain ⟨later, hlater, hears⟩ := RunTable.hears_create fresh now hfind
      refine ⟨later, ?_, hears.origin, fun closing hclosing => hears.closing.trans hclosing⟩
      show (before.store.startRun new now).wake.runs.find? ref = some later
      rw [Store.wake_runs, Store.startRun_runs]
      exact hlater
  | @committed entry own run children next accepted =>
      rcases eq_or_ne ref entry.ref with rfl | hother
      · obtain rfl : own = record := Option.some.inj (accepted.found.symm.trans hfind)
        obtain ⟨later, hlater, horigin, -, -⟩ := accepted.own
        refine ⟨later, hlater, horigin, fun closing hclosing => ?_⟩
        rw [RunRecord.closing?_of_open accepted.isOpen] at hclosing
        cases hclosing
      · obtain ⟨later, hlater, hears⟩ := accepted.other hother hfind
        exact ⟨later, hlater, hears.origin, fun closing hclosing => hears.closing.trans hclosing⟩

/-- When a run begins, the others stay as they are. -/
theorem source_of_began {new : NewRun} {now : Instant} {ref : RunRef} {record : RunRecord}
    (fresh : before.runs.find? new.ref = none)
    (hfind : (before.store.startRun new now).wake.runs.find? ref = some record) :
    (ref = new.ref ∧ record = .start new now) ∨
      ∃ earlier, before.runs.find? ref = some earlier ∧ earlier.Hears [] record := by
  have hcreated : (before.runs.create new now).find? ref = some record := by
    rw [Store.wake_runs, Store.startRun_runs] at hfind
    exact hfind
  rw [RunTable.find?_create fresh] at hcreated
  split at hcreated
  · rename_i hnew
    exact .inl ⟨hnew, (Option.some.inj hcreated).symm⟩
  · obtain ⟨earlier, hearlier, rfl | rfl⟩ := RunTable.find?_linked hcreated
    · exact .inr ⟨_, hearlier, .refl _⟩
    · exact .inr ⟨_, hearlier, .link _ _⟩

/-- A turn either applies a commit, or adds no event to the history of any run that there was. -/
theorem Turn.quiet_or_committed (turn : Turn starts before after) :
    (after.log = before.log ∧ ∀ ref record, after.runs.find? ref = some record →
      (∃ new now, record = .start new now) ∨
        ∃ earlier, before.runs.find? ref = some earlier ∧ earlier.Hears [] record) ∨
    ∃ entry record run children next,
      entry.Accepted before.store record run children next ∧ after = before.concat entry := by
  cases turn with
  | still runs =>
      refine .inl ⟨rfl, fun ref record hfind => .inr ⟨record, ?_, .refl record⟩⟩
      rw [← hfind, Book.runs, Book.runs, runs]
  | began now allowed free fresh genuine =>
      refine .inl ⟨rfl, fun ref record hfind => ?_⟩
      rcases source_of_began fresh hfind with ⟨-, rfl⟩ | hold
      · exact .inl ⟨_, now, rfl⟩
      · exact .inr hold
  | committed accepted => exact .inr ⟨_, _, _, _, _, accepted, rfl⟩

theorem WellKept.began (kept : before.WellKept) {new : NewRun} {now : Instant}
    (turn : Turn starts before ⟨(before.store.startRun new now).wake, before.log⟩)
    (fresh : before.runs.find? new.ref = none) (genuine : new.ref.runId ≠ .nil) :
    WellKept ⟨(before.store.startRun new now).wake, before.log⟩ := by
  have steps := turn.orderly kept.sole
  refine ⟨kept.sole.orderlies steps, kept.chained.orderlies steps, ?_, ?_, ?_, ?_⟩
  · intro ref record hfind
    rcases source_of_began fresh hfind with ⟨rfl, -⟩ | ⟨earlier, hearlier, -⟩
    · exact genuine
    · exact kept.genuine ref earlier hearlier
  · intro entry hmem
    obtain ⟨⟨record, hrecord⟩, hnew⟩ := kept.logged entry hmem
    obtain ⟨later, hlater, -⟩ := turn.kept hrecord
    refine ⟨⟨later, hlater⟩, fun new hmem => ?_⟩
    obtain ⟨begun, hbegun⟩ := hnew new hmem
    obtain ⟨still, hstill, -⟩ := turn.kept hbegun
    exact ⟨still, hstill⟩
  · intro ref record closing hfind hclosing
    rcases source_of_began fresh hfind with ⟨-, rfl⟩ | ⟨earlier, hearlier, hears⟩
    · cases hclosing
    · exact kept.closed ref earlier closing hearlier (hears.closing.symm.trans hclosing)
  · intro entry hmem closing hclosing
    obtain ⟨record, hrecord, hclosed⟩ := kept.closes entry hmem closing hclosing
    obtain ⟨later, hlater, -, hstill⟩ := turn.kept hrecord
    exact ⟨later, hlater, hstill closing hclosed⟩

theorem WellKept.committed (kept : before.WellKept) {entry : LogEntry} {record : RunRecord}
    {run : Run} {children : List NewRun} {next : Option NewRun}
    (accepted : entry.Accepted before.store record run children next) :
    (before.concat entry).WellKept := by
  have turn : Turn (fun _ => False) before (before.concat entry) := .committed accepted
  have steps := turn.orderly kept.sole
  obtain ⟨own, hown, -, hclosing, -⟩ := accepted.own
  refine ⟨kept.sole.orderlies steps, kept.chained.orderlies steps, ?_, ?_, ?_, ?_⟩
  · intro ref later hfind
    cases accepted.source hfind with
    | own => exact kept.genuine entry.ref record accepted.found
    | other other found hears => exact kept.genuine ref _ found
    | new mem hears => exact accepted.genuine _ mem
  · intro other hmem
    rcases List.mem_append.1 hmem with hold | hlast
    · obtain ⟨⟨record, hrecord⟩, hnew⟩ := kept.logged other hold
      obtain ⟨later, hlater, -⟩ := turn.kept hrecord
      refine ⟨⟨later, hlater⟩, fun new hmem => ?_⟩
      obtain ⟨begun, hbegun⟩ := hnew new hmem
      obtain ⟨still, hstill, -⟩ := turn.kept hbegun
      exact ⟨still, hstill⟩
    · rw [List.mem_singleton.1 hlast]
      refine ⟨⟨own, hown⟩, fun new hmem => ?_⟩
      obtain ⟨later, hlater, -⟩ := accepted.new hmem
      exact ⟨later, hlater⟩
  · intro ref later closing hfind hlater
    cases accepted.source hfind with
    | own origin closes story => exact ⟨entry, by simp, rfl, closes.symm.trans hlater⟩
    | other other found hears =>
        obtain ⟨other, hmem, href⟩ := kept.closed ref _ closing found
          (hears.closing.symm.trans hlater)
        exact ⟨other, List.mem_append_left _ hmem, href⟩
    | new mem hears =>
        rw [hears.closing] at hlater
        cases hlater
  · intro other hmem closing hcloses
    rcases List.mem_append.1 hmem with hold | hlast
    · obtain ⟨record, hrecord, hclosed⟩ := kept.closes other hold closing hcloses
      obtain ⟨later, hlater, -, hstill⟩ := turn.kept hrecord
      exact ⟨later, hlater, hstill closing hclosed⟩
    · rw [List.mem_singleton.1 hlast] at hcloses ⊢
      exact ⟨own, hown, hclosing.trans hcloses⟩

theorem WellKept.turn (kept : before.WellKept) (turn : Turn starts before after) :
    after.WellKept := by
  cases turn with
  | @still store runs =>
      have hruns : ∀ log, (Book.mk store log).runs = before.runs := fun _ => runs
      constructor
      · rw [hruns]; exact kept.sole
      · rw [hruns]; exact kept.chained
      · rw [hruns]; exact kept.genuine
      · rw [hruns]; exact kept.logged
      · rw [hruns]; exact kept.closed
      · rw [hruns]; exact kept.closes
  | began now allowed free fresh genuine =>
      exact kept.began (.began now allowed free fresh genuine) fresh genuine
  | committed accepted => exact kept.committed accepted

/-- The entry that is accepted last is the first one that closes its run. -/
theorem WellKept.unclosed (kept : before.WellKept) {entry : LogEntry} {record : RunRecord} {run : Run}
    {children : List NewRun} {next : Option NewRun}
    (accepted : entry.Accepted before.store record run children next) {other : LogEntry}
    (hmem : other ∈ before.log) (hsame : other.ref = entry.ref) :
    other.commit.closing = none := by
  cases hclosing : other.commit.closing with
  | none => rfl
  | some closing =>
      obtain ⟨closed, hclosed, hends⟩ := kept.closes other hmem closing hclosing
      rw [hsame] at hclosed
      obtain rfl : record = closed := Option.some.inj (accepted.found.symm.trans hclosed)
      rw [RunRecord.closing?_of_open accepted.isOpen] at hends
      cases hends

/-- The log says nothing yet of a run that has just begun. -/
theorem WellKept.unmentioned (kept : before.WellKept) {ref : RunRef}
    (fresh : before.runs.find? ref = none) {entry : LogEntry} (hmem : entry ∈ before.log) :
    entry.ref ≠ ref ∧ ∀ new ∈ entry.commit.newRuns, new.ref ≠ ref := by
  obtain ⟨⟨record, hrecord⟩, hnew⟩ := kept.logged entry hmem
  constructor
  · rintro rfl
    rw [fresh] at hrecord
    cases hrecord
  · rintro new hbegun rfl
    obtain ⟨later, hlater⟩ := hnew new hbegun
    rw [fresh] at hlater
    cases hlater

end Book

end Chronicle
