import Chronicle.Proofs.Engine.Heeding
import Chronicle.Proofs.Engine.HistoryLog
import Chronicle.Proofs.Engine.Offspring
import Chronicle.Proofs.Store.Chains

/-!
# Books

A store and the log of the commits that it has accepted.  Whatever operations do, the runs of a book
change in two ways: a run is started, or the commit of an open run is applied and logged.  This file
says all that is known of either, so that nothing later has to look at programs again.
-/

namespace Chronicle

open Relation (ReflTransGen)

universe u

structure Book where
  store : Store
  log : List LogEntry

def Scene.book {ι : Type u} {ρ : Type} (scene : Scene ι ρ) : Book := ⟨scene.world.store, scene.log⟩

namespace LogEntry

def ref (entry : LogEntry) : RunRef := entry.acceptance.ref

def commit (entry : LogEntry) : Commit := entry.acceptance.commit

/-- The store accepts the commit of the entry, which was built from the open run that it is made to;
its new runs are new indeed, and no child has the workflow id of the run. -/
structure Accepted (entry : LogEntry) (store : Store) (record : RunRecord) (run : Run)
    (children : List NewRun) (next : Option NewRun) : Prop where
  found : store.runs.find? entry.ref = some record
  isOpen : record.isClosed = false
  origin : run.origin = record.run.origin
  begets : entry.commit.Begets run (.ofHistory record.events) children next
  free : ∀ new ∈ entry.commit.newRuns,
    store.runs.checkStart new (entry.commit.closing.map fun _ => entry.ref) = .ok ()
  fresh : ∀ new ∈ entry.commit.newRuns, store.runs.find? new.ref = none
  refs : (entry.commit.newRuns.map NewRun.ref).Nodup
  genuine : ∀ new ∈ entry.commit.newRuns, new.ref.runId ≠ .nil
  apart : ∀ child ∈ children, child.ref.workflowId ≠ entry.ref.workflowId

end LogEntry

namespace Book

def runs (book : Book) : RunTable := book.store.runs

/-- The book after the commit of the entry was accepted. -/
abbrev concat (book : Book) (entry : LogEntry) : Book :=
  ⟨(book.store.apply entry.ref entry.commit entry.now).wake, book.log ++ [entry]⟩

/-- What can happen to a book, if runs are started only as `starts` allows. -/
inductive Turn (starts : NewRun → Prop) : Book → Book → Prop where
  | still {book : Book} {store : Store} (runs : store.runs = book.store.runs) :
      Turn starts book ⟨store, book.log⟩
  | began {book : Book} {new : NewRun} (now : Instant) (allowed : starts new)
      (free : book.runs.checkStart new none = .ok ()) (fresh : book.runs.find? new.ref = none)
      (genuine : new.ref.runId ≠ .nil) :
      Turn starts book ⟨(book.store.startRun new now).wake, book.log⟩
  | committed {book : Book} {entry : LogEntry} {record : RunRecord} {run : Run}
      {children : List NewRun} {next : Option NewRun}
      (accepted : entry.Accepted book.store record run children next) :
      Turn starts book (book.concat entry)

end Book

/-! ## Turns are orderly -/

namespace LogEntry.Accepted

variable {entry : LogEntry} {store : Store} {record : RunRecord} {run : Run}
  {children : List NewRun} {next : Option NewRun}

theorem run_ref (accepted : entry.Accepted store record run children next) : run.ref = entry.ref :=
  (Run.ref_eq_of_origin accepted.origin).trans (RunTable.ref_of_find? accepted.found)

/-- The run that continues has the workflow id of the run that closes. -/
theorem next_workflowId (accepted : entry.Accepted store record run children next) :
    ∀ new ∈ next, new.ref.workflowId = entry.ref.workflowId := by
  intro new hnew
  obtain ⟨closing, -, continues⟩ := accepted.begets.continues new hnew
  obtain ⟨-, now, runId, attempt, delay, -, rfl⟩ := continues new hnew
  show run.ref.workflowId = entry.ref.workflowId
  rw [accepted.run_ref]

theorem workflowIds (accepted : entry.Accepted store record run children next) :
    (entry.commit.newRuns.map fun new => new.ref.workflowId).Nodup := by
  rw [accepted.begets.newRuns, List.map_append, List.nodup_append]
  refine ⟨accepted.begets.bears.distinct, ?_, ?_⟩
  · cases next <;> simp
  · intro first hfirst second hsecond heq
    obtain ⟨child, hchild, rfl⟩ := List.mem_map.1 hfirst
    obtain ⟨new, hnew, rfl⟩ := List.mem_map.1 hsecond
    exact accepted.apart child hchild
      (heq.trans (accepted.next_workflowId new (by simpa using hnew)))

/-- Once the run itself is revised, no run with the workflow id of a new run is open. -/
theorem vacant (accepted : entry.Accepted store record run children next) (sole : store.runs.Sole) :
    ∀ new ∈ entry.commit.newRuns, (store.runs.modify entry.ref fun record =>
      record.revise entry.commit entry.now).Vacant new.ref.workflowId := by
  intro new hmem target later hlater hsame
  by_contra hopen
  have tends := RunRecord.tends_revise entry.commit (fun _ => accepted.begets.tidy.closed) entry.now
  obtain ⟨earlier, hearlier, hbefore⟩ :=
    RunTable.open_of_tended tends hlater (by simpa using hopen)
  have hclosing := sole.open_eq (accepted.free new hmem) hearlier hsame hbefore
  obtain ⟨closing, hcommit, hown⟩ := Option.map_eq_some_iff.1 hclosing
  subst hown
  rw [RunTable.find?_revised accepted.found] at hlater
  cases hlater
  exact hopen (RunRecord.isClosed_revise_some record hcommit
    (accepted.begets.tidy.closed hcommit) entry.now)

theorem orderly (accepted : entry.Accepted store record run children next)
    (sole : store.runs.Sole) : ReflTransGen RunTable.Orderly store.runs
      (store.apply entry.ref entry.commit entry.now).wake.runs := by
  rw [Store.wake_runs, Store.apply_runs]
  exact RunTable.orderly_applied entry.now accepted.begets.tidy accepted.fresh accepted.workflowIds
    (accepted.vacant sole)

/-- The runs that a commit begins are in the store from then on. -/
theorem begun (accepted : entry.Accepted store record run children next) (sole : store.runs.Sole)
    (chained : store.runs.Chained) {new : NewRun} (h : new ∈ entry.commit.newRuns) :
    ∃ record, (store.apply entry.ref entry.commit entry.now).wake.runs.find? new.ref = some record ∧
      record.run.origin = (new.toRun entry.now).origin := by
  have horigins := @RunTable.originsOf_applied store.runs entry.ref _ entry.now
    accepted.begets.tidy accepted.fresh accepted.refs new.ref.workflowId
  rw [← Store.apply_runs, ← Store.wake_runs] at horigins
  have hmem : (new.toRun entry.now).origin ∈
      (store.apply entry.ref entry.commit entry.now).wake.runs.originsOf new.ref.workflowId := by
    rw [horigins, List.mem_append, List.mem_map]
    exact .inr ⟨new, List.mem_filter.2 ⟨h, by simp⟩, rfl⟩
  exact RunTable.find?_of_mem_originsOf (chained.orderlies (accepted.orderly sole)) hmem

end LogEntry.Accepted

namespace Book

variable {starts : NewRun → Prop} {before after : Book}

theorem Turn.orderly (turn : Turn starts before after) (sole : before.runs.Sole) :
    ReflTransGen RunTable.Orderly before.runs after.runs := by
  cases turn with
  | still runs =>
      show ReflTransGen _ before.store.runs _
      rw [← runs]
      exact .refl
  | @began new now allowed free fresh genuine =>
      have hruns : (before.store.startRun new now).wake.runs = before.runs.create new now := by
        simp [Book.runs]
      show ReflTransGen _ before.runs (before.store.startRun new now).wake.runs
      rw [hruns]
      refine .single (.created now fresh ?_)
      intro target record hfind hsame
      by_contra hopen
      cases sole.open_eq free hfind hsame (by simpa using hopen)
  | committed accepted => exact accepted.orderly sole

/-- A turn that adds an entry to the log applies its commit. -/
theorem Turn.accepted (turn : Turn starts before after) {entry : LogEntry}
    (hlog : after.log = before.log ++ [entry]) : ∃ record run children next,
      entry.Accepted before.store record run children next ∧ after = before.concat entry := by
  cases turn with
  | still runs => simp at hlog
  | began now allowed free fresh genuine => simp at hlog
  | committed accepted =>
      obtain ⟨rfl⟩ : _ = entry := by simpa using hlog
      exact ⟨_, _, _, _, accepted, rfl⟩

theorem orderlies (turns : ReflTransGen (Turn starts) before after) (sole : before.runs.Sole) :
    ReflTransGen RunTable.Orderly before.runs after.runs := by
  induction turns with
  | refl => exact .refl
  | tail _ turn ih => exact ih.trans (turn.orderly (sole.orderlies ih))

end Book

/-! ## Scenes -/

theorem World.runId_ne_nil (number : Nat) : World.runId number ≠ .nil := by
  intro heq
  have hvalue := congrArg Uuid.value heq
  simp only [runId, Uuid.generated, Uuid.nil] at hvalue
  omega

theorem World.genuine_of_answer {request : Request} {answer : request.Answer} {world after : World}
    (answered : World.answer request world = (.ok answer, after)) : request.Genuine answer := by
  cases request with
  | freshRunId =>
      simp only [World.answer, timeless_eq_ok, Prod.mk.injEq] at answered
      rw [← answered.1]
      exact runId_ne_nil _
  | _ => trivial

theorem Store.checkStarts_eq_ok {store : Store} {closing : Option RunRef} {newRuns : List NewRun}
    (h : store.checkStarts closing newRuns = .ok ()) :
    ∀ new ∈ newRuns, store.runs.checkStart new closing = .ok () := by
  induction newRuns with
  | nil => simp
  | cons first rest ih =>
      unfold checkStarts at h
      cases hfirst : store.runs.checkStart first closing with
      | error error => simp [hfirst] at h
      | ok _ =>
          simp only [hfirst] at h
          simpa [hfirst] using ih h

/-- An accepted commit begins no run whose workflow id is taken. -/
theorem World.free_of_commit {ref : RunRef} {expected version : Nat} {commit : Commit}
    {world after : World}
    (answered : World.answer (.commit ref expected commit) world = (.ok (.ok version), after)) :
    ∀ new ∈ commit.newRuns,
      world.store.runs.checkStart new (commit.closing.map fun _ => ref) = .ok () := by
  obtain ⟨now, -, hreply⟩ := timed_eq_ok answered
  apply Store.checkStarts_eq_ok
  cases hstarts : world.store.checkStarts (commit.closing.map fun _ => ref) commit.newRuns with
  | ok _ => rfl
  | error error =>
      unfold update Store.commit RunTable.get at hreply
      cases hfind : world.store.runs.find? ref with
      | none => simp [hfind] at hreply
      | some record =>
          simp only [hfind, hstarts] at hreply
          split at hreply
          · rename_i hcommit
            split at hcommit
            · cases hcommit
            · split at hcommit <;> cases hcommit
          · cases hreply

theorem World.free_of_createRun {new : NewRun} {world after : World}
    (answered : World.answer (.createRun new) world = (.ok (.ok ()), after)) :
    world.store.runs.checkStart new none = .ok () := by
  unfold answer at answered
  cases hcheck : world.store.runs.checkStart new none with
  | error error => simp [hcheck] at answered
  | ok _ => rfl

/-- What an operation writes has the offspring that follows from the run and its history. -/
def Operation.bookCharter (operation : Operation) : Charter where
  admits := fun request => ∀ new, request = .createRun new → operation.Begins new
  warrants := fun run history commit => ∃ children next,
    commit.Begets run (.ofHistory history) children next ∧
      (operation.isTask = false → children = [])
  undecided := fun _ => True

namespace Operation

theorem bookCharter_fits (operation : Operation) :
    operation.bookCharter.Fits (fun _ commit => commit.Tidy)
      fun event => event.isAnnouncement = true where
  warrants := fun _ _ _ _ ⟨_, _, begets, _⟩ => begets.tidy
  announces := fun _ _ _ ⟨_, _, begets, _⟩ => begets.tidy.announced

theorem program_keepsBook (operation : Operation) :
    operation.program.Keeps operation.bookCharter (fun _ _ => True) .nothing := by
  have hrequests : ∀ request, request.leavesRuns = true → operation.bookCharter.admits request := by
    rintro request hleaves new rfl
    cases hleaves
  refine operation.program_obeys_of ?_ ?_ ?_ .nothing
  · rintro new hbegins other hother
    cases hother
    exact hbegins
  · intro _
    exact ⟨⟨hrequests, fun _ => trivial⟩, fun _ _ _ dispatch =>
      ⟨[], none, dispatch.begets, fun _ => rfl⟩⟩
  · intro htask engine _
    refine ⟨⟨hrequests, fun _ => trivial⟩, ?_, ?_⟩
    · intro ref run history commit decided
      obtain ⟨-, outcome, now, -, -, -, hyields⟩ := decided
      obtain ⟨children, next, begets⟩ := Decision.begets_of_build hyields
      exact ⟨children, next, begets, fun hother => by rw [htask] at hother; cases hother⟩
    · intro ref run history commit refused
      exact ⟨[], none, refused.begets, fun _ => rfl⟩

end Operation

namespace Scene

variable {ι : Type u} {operation : ι → Operation}

/-- The actors keep their charters, and those that process workflow tasks remember the run that they
know for as long as it is open. -/
structure Booked (operation : ι → Operation) (scene : Scene ι Unit) (know : Nat → Knowledge) :
    Prop where
  follows : Follows (fun label => (operation label).bookCharter) (fun _ _ _ => True) scene know
  sole : scene.world.store.runs.Sole
  mindful : ∀ index (actor : Actor ι Unit), scene.actors[index]? = some actor →
    (operation actor.label).isTask = true → ∃ own, actor.rest.Heeds (fun _ _ => True) own ∧
      ∀ run record, (know index).run = some run →
        scene.world.store.runs.find? run.ref = some record → record.isClosed = false →
        own = some run.ref

/-- The runs that some label may start. -/
def Starts (operation : ι → Operation) (new : NewRun) : Prop := ∃ label, (operation label).Begins new

theorem Booked.opening {world : World} (blank : world.IsBlank) :
    Booked operation (.opening world) fun _ => .nothing where
  follows := .opening blank.supplied
  sole := by
    show world.store.runs.Sole
    rw [blank]
    exact .empty
  mindful := by simp [Scene.opening]

section Acting

variable {scene : Scene ι Unit} {know : Nat → Knowledge} {index : Nat} {label : ι}
  {request : Request} {next : request.Answer → Program Unit} {answer : request.Answer}
  {world : World}

/-- The run that a heedful actor knows is the one that it takes for open, when it commits to it. -/
theorem Booked.spares {ref : RunRef} {expected : Nat} {commit : Commit} {record : RunRecord}
    {next : Except StoreError Nat → Program Unit} (booked : Booked operation scene know)
    (turn : scene.actors[index]? = some ⟨label, .ask (.commit ref expected commit) next⟩)
    (htask : (operation label).isTask = true) (hfind : scene.world.store.runs.find? ref = some record)
    (hopen : record.isClosed = false) : SparesOwn (some ref) commit.events := by
  obtain ⟨own, heeds, hown⟩ := booked.mindful index _ turn htask
  obtain ⟨-, hpermits, -⟩ := booked.follows.keeps index _ turn
  obtain ⟨run, history, hrun, href, -⟩ := hpermits
  subst href
  rw [← hown run record hrun hfind hopen]
  exact heeds.1

theorem Booked.accepted {ref : RunRef} {expected version : Nat} {commit : Commit}
    {next : Except StoreError Nat → Program Unit} (booked : Booked operation scene know)
    (turn : scene.actors[index]? = some ⟨label, .ask (.commit ref expected commit) next⟩)
    (answered : World.answer (.commit ref expected commit) scene.world = (.ok (.ok version), world)) :
    ∃ (now : Instant) (record : RunRecord) (run : Run) (children : List NewRun)
      (continued : Option NewRun), scene.world.now = some now ∧
      LogEntry.Accepted ⟨index, ⟨ref, expected, commit, version⟩, now⟩ scene.world.store record run
        children continued ∧
      world = { scene.world with store := (scene.world.store.apply ref commit now).wake } := by
  obtain ⟨-, hpermits, -⟩ := booked.follows.keeps index _ turn
  have knows := booked.follows.knows index
  obtain ⟨now, run, record, hnow, hfind, hopen, -, horigin, hwarrants, hfresh, hdistinct, hafter,
    -⟩ := knows.commit hpermits answered
  obtain ⟨children, continued, begets, hchildless⟩ := hwarrants
  have hgenuine : ∀ new ∈ commit.newRuns, new.ref.runId ≠ .nil := by
    intro new hmem
    obtain ⟨-, -, -, -, -, -, -, -, hdrawn⟩ := hpermits
    obtain ⟨number, -, hnumber⟩ := knows.drawn _ (hdrawn _ (List.mem_map_of_mem hmem))
    rw [hnumber]
    exact World.runId_ne_nil number
  have hmine : ∀ child ∈ children, child ∈ commit.newRuns := by
    intro child hchild
    rw [begets.newRuns]
    exact List.mem_append_left _ hchild
  refine ⟨now, record, run, children, continued, hnow, ?_, hafter⟩
  refine ⟨hfind, hopen, horigin, begets, World.free_of_commit answered, hfresh, hdistinct, hgenuine,
    ?_⟩
  intro child hchild
  cases htask : (operation label).isTask with
  | false =>
      rw [hchildless htask] at hchild
      cases hchild
  | true =>
      obtain ⟨-, -, hstarted⟩ := begets.bears.begun child hchild
      exact booked.spares turn htask hfind hopen _ _ _ hstarted (hgenuine child (hmine child hchild))
        ref rfl

/-- An answered request is a turn of the book. -/
theorem Booked.turn (booked : Booked operation scene know)
    (turn : scene.actors[index]? = some ⟨label, .ask request next⟩)
    (answered : World.answer request scene.world = (.ok answer, world)) :
    Book.Turn (Starts operation) scene.book
      ⟨world.store, scene.log ++ entries index scene.world request answer⟩ := by
  have hstill : world.store.runs = scene.world.store.runs →
      entries index scene.world request answer = [] →
      Book.Turn (Starts operation) scene.book
        ⟨world.store, scene.log ++ entries index scene.world request answer⟩ := by
    intro hruns hnone
    rw [hnone, List.append_nil]
    exact .still hruns
  cases request with
  | createRun new =>
      obtain ⟨-, ⟨hbegins, hdrawn⟩, -⟩ := booked.follows.keeps index _ turn
      rcases World.answer_createRun answered with ⟨error, -, hafter⟩ | ⟨hresult, now, -, hafter⟩
      · exact hstill (by rw [hafter]) rfl
      · subst hresult
        have knows := booked.follows.knows index
        obtain ⟨number, -, hnumber⟩ := knows.drawn _ hdrawn
        rw [hafter]
        have hbegan : Book.Turn (Starts operation) scene.book
            ⟨(scene.world.store.startRun new now).wake, scene.log⟩ := by
          refine .began now ⟨label, hbegins new rfl⟩ (World.free_of_createRun answered) ?_ ?_
          · exact RunTable.find?_of_not_uses (knows.unused _ hdrawn)
          · rw [hnumber]
            exact World.runId_ne_nil number
        simpa [entries] using hbegan
  | commit ref expected commit =>
      cases hresult : answer with
      | error error =>
          subst hresult
          rcases World.answer_commit answered with ⟨-, -, hafter⟩ | ⟨version, -, -, hok, -⟩
          · exact hstill (by rw [hafter]) rfl
          · cases hok
      | ok version =>
          subst hresult
          obtain ⟨now, record, run, children, continued, hnow, accepted, hafter⟩ :=
            booked.accepted turn answered
          rw [hafter, entries_commit hnow]
          exact @Book.Turn.committed _ scene.book _ record run children continued accepted
  | _ => exact hstill (World.leavesRuns_of_answer rfl answered).runs rfl

/-- What an actor remembers of its own run is right after its request was answered. -/
theorem Booked.remembers (booked : Booked operation scene know)
    (turn : scene.actors[index]? = some ⟨label, .ask request next⟩)
    (answered : World.answer request scene.world = (.ok answer, world)) {own : Option RunRef}
    (hown : ∀ run record, (know index).run = some run →
      scene.world.store.runs.find? run.ref = some record → record.isClosed = false →
      own = some run.ref) :
    ∀ run record, ((know index).learn request answer).run = some run →
      world.store.runs.find? run.ref = some record → record.isClosed = false →
      request.remember own answer = some run.ref := by
  intro run record hrun hfind hopen
  have hbefore : (know index).run = some run → own = some run.ref := by
    intro hknown
    obtain ⟨earlier, hearlier, -⟩ := (booked.follows.knows index).run run hknown
    have hsteps := (booked.turn turn answered).orderly booked.sole
    exact hown run earlier hknown hearlier (RunTable.open_of_orderly hsteps hearlier hfind hopen)
  cases request with
  | getRun ref =>
      cases answer with
      | error error => exact hbefore hrun
      | ok read =>
          cases hrun
          rfl
  | currentRun workflowId =>
      have hsame := hbefore (by cases answer <;> exact hrun)
      obtain ⟨hanswer, hworld⟩ : scene.world.store.currentRun workflowId = answer ∧
          scene.world = world := by simpa [World.answer] using answered
      subst hworld
      -- an open run is the current one of its workflow id, and then the answer names it
      have hnamed : run.ref.workflowId = workflowId → Program.namesOpenRun answer = true := by
        intro hid
        have hcurrent := booked.sole run.ref record hfind hopen
        rw [hid] at hcurrent
        rw [← hanswer]
        simp only [Store.currentRun, RunTable.currentRun, hcurrent, RunTable.get, hfind, Except.map,
          Program.namesOpenRun]
        simpa [RunRecord.isClosed] using hopen
      show (if Program.namesOpenRun answer then own
        else own.filter fun ref => ref.workflowId != workflowId) = some run.ref
      split
      · exact hsame
      · rename_i hnone
        rw [hsame, Option.filter_some, if_pos]
        simpa using fun hid => hnone (hnamed hid)
  | readEvents ref skipped => cases skipped <;> cases answer <;> exact hbefore hrun
  | createRun new => cases answer <;> exact hbefore hrun
  | commit ref expected commit => cases answer <;> exact hbefore hrun
  | _ => exact hbefore hrun

theorem Booked.act (booked : Booked operation scene know)
    (turn : scene.actors[index]? = some ⟨label, .ask request next⟩)
    (answered : World.answer request scene.world = (.ok answer, world)) :
    ∃ later, Booked operation ⟨world, scene.actors.set index ⟨label, next answer⟩,
      scene.log ++ entries index scene.world request answer⟩ later := by
  have hsteps := (booked.turn turn answered).orderly booked.sole
  refine ⟨_, booked.follows.act (operation label).bookCharter_fits turn answered,
    booked.sole.orderlies hsteps, ?_⟩
  intro other actor hget htask
  rcases actor_of_moved hget with ⟨rfl, rfl⟩ | ⟨hne, hold⟩
  · obtain ⟨own, heeds, hown⟩ := booked.mindful other _ turn htask
    refine ⟨_, heeds.2 answer (World.genuine_of_answer answered), ?_⟩
    simpa using booked.remembers turn answered hown
  · obtain ⟨own, heeds, hown⟩ := booked.mindful other _ hold htask
    refine ⟨own, heeds, ?_⟩
    intro run record hrun hfind hopen
    rw [if_neg hne] at hrun
    obtain ⟨earlier, hearlier, -⟩ := (booked.follows.knows other).run run hrun
    exact hown run earlier hrun hearlier (RunTable.open_of_orderly hsteps hearlier hfind hopen)

end Acting

/-- A step of a scene is a turn of its book. -/
theorem Booked.step {scene later : Scene ι Unit} {know : Nat → Knowledge}
    (booked : Booked operation scene know)
    (step : Step (fun label => (operation label).program) scene later) :
    Book.Turn (Starts operation) scene.book later.book ∧ ∃ know, Booked operation later know := by
  cases step with
  | enter label =>
      have follows := @Follows.enter _ _ (fun label => (operation label).program) _ _ scene know
        booked.follows label (operation label).program_keepsBook
      refine ⟨.still rfl, know, follows, booked.sole, ?_⟩
      intro index actor hget htask
      rcases actor_of_entered hget with hold | ⟨hnew, rfl⟩
      · exact booked.mindful index actor hold htask
      · refine ⟨none, Operation.program_heeds htask none, ?_⟩
        rw [booked.follows.unknown index hnew]
        exact fun run record hrun => (nomatch hrun)
  | tick now => exact ⟨.still rfl, know, booked.follows.tick now, booked.sole, booked.mindful⟩
  | act turn answered => exact ⟨booked.turn turn answered, booked.act turn answered⟩
  | @fall index label request next cause world turn answered =>
      have follows := booked.follows.fall turn answered
      have hworld := World.answer_eq_error answered
      subst hworld
      refine ⟨.still rfl, know, follows, booked.sole, ?_⟩
      intro other actor hget htask
      rcases actor_of_moved hget with ⟨rfl, rfl⟩ | ⟨-, hold⟩
      · obtain ⟨own, -, hown⟩ := booked.mindful other _ turn htask
        exact ⟨own, trivial, hown⟩
      · exact booked.mindful other actor hold htask

theorem Booked.turns {scene later : Scene ι Unit} {know : Nat → Knowledge}
    (booked : Booked operation scene know)
    (reaches : Reaches (fun label => (operation label).program) scene later) :
    ReflTransGen (Book.Turn (Starts operation)) scene.book later.book ∧
      ∃ know, Booked operation later know := by
  induction reaches with
  | refl => exact ⟨.refl, know, booked⟩
  | tail _ step ih =>
      obtain ⟨turns, middle, later⟩ := ih
      obtain ⟨turn, last⟩ := later.step step
      exact ⟨turns.tail turn, last⟩

end Scene

/-- Whatever operations do, they turn the book. -/
theorem Operation.book_turns {start : World} (blank : start.IsBlank) {scene : Scene Operation Unit}
    (reaches : Scene.Reaches program (.opening start) scene) :
    ReflTransGen (Book.Turn (Scene.Starts id)) ⟨start.store, []⟩ scene.book ∧
      ∀ later, Scene.Step program scene later →
        Book.Turn (Scene.Starts id) scene.book later.book := by
  have opening : Scene.Booked id (.opening start : Scene Operation Unit) fun _ => .nothing :=
    .opening blank
  obtain ⟨turns, know, booked⟩ := opening.turns reaches
  refine ⟨turns, fun later step => ?_⟩
  obtain ⟨turn, -⟩ := booked.step step
  exact turn

end Chronicle
