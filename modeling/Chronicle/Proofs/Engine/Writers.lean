import Chronicle.Proofs.Engine.Advancing
import Chronicle.Proofs.Program.Scene
import Chronicle.Samples.Workflows

/-!
# Concurrent writers

Updates and workflow tasks run side by side, one request at a time, in any order.  The store is
what the accepted commits make of it, one after the other; each of them was built from exactly
the history that it continues, and belongs to a writer that says so.
-/

namespace Chronicle

open Relation (ReflTransGen)

universe u

/-- Who writes to a run: an update, which begins no other run, or a workflow task. -/
inductive Writer : Type 1 where
  | update {α : Type} (ref : RunRef) (reviser : Reviser α) (rounds : Nat)
      (beginsNone : ∀ run ledger commit, (reviser run ledger).Writes commit → commit.newRuns = [])
  | task (engine : Engine) (ref : RunRef)

inductive Report where
  | written (version : Nat)
  | kept
  | processed (result : TaskResult)
  | failed (error : EngineError)
  deriving DecidableEq, Repr

def Report.hasWritten : Report → Bool
  | .written _ => true
  | .processed result => 0 < result.eventsWritten
  | _ => false

namespace Writer

def ofNotice {α : Type} (engine : Engine) (ref : RunRef) (reviser : Reviser α)
    (notice : reviser.GivesNotice) : Writer :=
  .update ref reviser engine.rounds fun run ledger commit hwrites =>
    (notice run ledger commit hwrites).newRuns

def ref : Writer → RunRef
  | .update ref .. => ref
  | .task _ ref => ref

def program : Writer → Program Report
  | .update ref reviser rounds _ => do
      match ← Revision.attempt ref reviser rounds with
      | .ok (.written version) => return .written version
      | .ok (.kept _) => return .kept
      | .error error => return .failed error
  | .task engine ref => do
      match ← engine.processTask ref with
      | .ok result => return .processed result
      | .error error => return .failed error

/-- The writer builds the commit from the run and its history. -/
def Builds : Writer → Run → List HistoryEvent → Commit → Prop
  | .update ref reviser _ _, run, history, commit =>
      run.ref = ref ∧ (reviser run (.ofHistory history)).Writes commit
  | .task engine ref, run, history, commit =>
      engine.Decided ref run history commit ∨ engine.Refused ref run history commit

theorem Builds.ref {writer : Writer} {run : Run} {history : List HistoryEvent} {commit : Commit}
    (builds : writer.Builds run history commit) : run.ref = writer.ref := by
  cases writer with
  | update ref reviser rounds beginsNone => exact builds.1
  | task engine ref =>
      rcases builds with decided | refused
      · exact decided.1
      · exact refused.1

def charter (writer : Writer) : Charter where
  admits := fun request => request.isInquiry = true
  warrants := writer.Builds
  undecided := fun accepted => accepted = []

/-- The commits of a writer that returned: one if it reports one, and none otherwise. -/
def Accounts (writer : Writer) (report : Report) (accepted : List Acceptance) : Prop :=
  if report.hasWritten then
    ∃ acceptance, accepted = [acceptance] ∧ acceptance.ref = writer.ref ∧
      ∀ version, report = .written version → acceptance.version = version
  else accepted = []

theorem program_keeps (writer : Writer) :
    writer.program.Keeps writer.charter
      (fun report later => writer.Accounts report later.accepted) .nothing := by
  have hinquiries : writer.charter.AdmitsInquiries := fun _ hrequest => hrequest
  cases writer with
  | update ref reviser rounds beginsNone =>
      apply Program.Keeps.bind
      apply (Revision.attempt_keeps hinquiries rfl rounds .nothing rfl ?_).weaken
      · intro result later htold
        cases result with
        | error error => exact htold
        | ok revised =>
            cases revised with
            | kept reason => exact htold.1
            | written version =>
                obtain ⟨expected, commit, haccepted⟩ := htold
                refine ⟨_, haccepted, rfl, ?_⟩
                intro reported hreported
                cases hreported
                rfl
      · intro run history commit href _ hwrites
        exact ⟨⟨href, hwrites⟩, beginsNone run _ commit hwrites⟩
  | task engine ref =>
      apply Program.Keeps.bind
      apply (Engine.processTask_keeps hinquiries rfl (fun _ _ _ => .inl) (fun _ _ _ => .inr)
        rfl).weaken
      intro result later htold
      cases result with
      | error error => exact htold
      | ok processed =>
          show if (Report.processed processed).hasWritten then _ else _
          cases hwritten : decide (0 < processed.eventsWritten) with
          | true =>
              simp only [Engine.Told, of_decide_eq_true hwritten, if_true] at htold
              obtain ⟨expected, commit, version, haccepted⟩ := htold
              simp only [Report.hasWritten, hwritten, if_true]
              exact ⟨_, haccepted, rfl, by simp⟩
          | false =>
              simp only [Engine.Told, of_decide_eq_false hwritten, if_false] at htold
              simp only [Report.hasWritten, hwritten, Bool.false_eq_true, if_false]
              exact htold

/-- All commits of all writers count as steps of the run table here. -/
theorem charter_fits (writer : Writer) :
    writer.charter.Fits (fun _ _ => True) (fun _ => True) where
  warrants := fun _ _ _ _ _ => trivial
  announces := fun _ _ _ _ _ _ => trivial

end Writer

namespace LogEntry

def perform (store : Store) (entry : LogEntry) : Store :=
  (store.apply entry.acceptance.ref entry.acceptance.commit entry.now).wake

def performAll (store : Store) (log : List LogEntry) : Store := log.foldl perform store

theorem performAll_concat (store : Store) (log : List LogEntry) (entry : LogEntry) :
    performAll store (log ++ [entry]) = perform (performAll store log) entry := by
  simp [performAll]

end LogEntry

namespace Scene

/-- The writer of a logged commit built it from exactly the history that it continues, and its
events are in the last history where the writer has put them. -/
structure Built (start : Store) (scene : Scene Writer Report) (earlier : List LogEntry)
    (entry : LogEntry) (writer : Actor Writer Report) (run : Run) (record last : RunRecord)
    (rest : List HistoryEvent) : Prop where
  actor : scene.actors[entry.actor]? = some writer
  target : entry.acceptance.ref = writer.label.ref
  found : (LogEntry.performAll start earlier).runs.find? entry.acceptance.ref = some record
  isOpen : record.isClosed = false
  version : record.events.length = entry.acceptance.expected
  sameRun : run.origin = record.run.origin
  builds : writer.label.Builds run record.events entry.acceptance.commit
  reported : ∀ revised, (LogEntry.performAll start (earlier ++ [entry])).runs.find?
    entry.acceptance.ref = some revised → entry.acceptance.version = revised.events.length
  stays : scene.world.store.runs.find? entry.acceptance.ref = some last
  contiguous : last.events = record.events ++
    RunRecord.number entry.now (record.events.length + 1) entry.acceptance.commit.events ++ rest

/-- The store is what the logged commits make of the one that the scene began with. -/
structure Replayed (start : Store) (scene : Scene Writer Report) : Prop where
  store : scene.world.store = LogEntry.performAll start scene.log
  built : ∀ earlier entry later, scene.log = earlier ++ entry :: later →
    ∃ writer run record last rest,
      Built start scene earlier entry writer run record last rest

/-- A writer that has not returned, or returned without a commit, has left nothing in the log. -/
def Accounted (scene : Scene Writer Report) : Prop :=
  ∀ index (writer : Actor Writer Report), scene.actors[index]? = some writer →
    match writer.rest with
    | .done report => writer.label.Accounts report (scene.accepted index)
    | _ => scene.accepted index = []

theorem Built.later {start : Store} {before after : Scene Writer Report}
    {earlier : List LogEntry} {entry : LogEntry} {writer : Actor Writer Report} {run : Run}
    {record last : RunRecord} {rest : List HistoryEvent}
    (built : Built start before earlier entry writer run record last rest)
    (hactors : ∃ other, after.actors[entry.actor]? = some other ∧ other.label = writer.label)
    (hsteps : ReflTransGen (RunTable.Step (fun _ _ => True) (fun _ => True))
      before.world.store.runs after.world.store.runs) :
    ∃ other later more, Built start after earlier entry other run record later more := by
  obtain ⟨other, hother, hlabel⟩ := hactors
  obtain ⟨later, hlater, hinitial, -⟩ := RunTable.find?_of_steps hsteps built.stays
  obtain ⟨more, hmore⟩ := hinitial
  refine ⟨other, later, rest ++ more, hother, ?_, built.found, built.isOpen, built.version,
    built.sameRun, ?_, built.reported, hlater, ?_⟩
  · rw [hlabel]
    exact built.target
  · rw [hlabel]
    exact built.builds
  · rw [← hmore, built.contiguous, List.append_assoc]

theorem Step.label {ι : Type u} {ρ : Type} {begins : ι → Program ρ} {before after : Scene ι ρ}
    (step : Step begins before after) {index : Nat} {actor : Actor ι ρ}
    (hget : before.actors[index]? = some actor) :
    ∃ other, after.actors[index]? = some other ∧ other.label = actor.label := by
  have hlt := (List.getElem?_eq_some_iff.1 hget).1
  have hset : ∀ place (moved : Actor ι ρ) earlier, before.actors[place]? = some earlier →
      moved.label = earlier.label →
      ∃ other, (before.actors.set place moved)[index]? = some other ∧
        other.label = actor.label := by
    intro place moved earlier hplace hlabel
    rcases eq_or_ne place index with hsame | hne
    · subst hsame
      rw [hget] at hplace
      cases hplace
      exact ⟨moved, List.getElem?_set_self hlt, hlabel⟩
    · exact ⟨actor, by rw [List.getElem?_set_ne hne, hget], rfl⟩
  cases step with
  | enter label => exact ⟨actor, by rw [List.getElem?_append_left hlt, hget], rfl⟩
  | tick now => exact ⟨actor, hget, rfl⟩
  | act turn answered => exact hset _ _ _ turn rfl
  | fall turn answered => exact hset _ _ _ turn rfl

theorem Replayed.still {start : Store} {before after : Scene Writer Report}
    (replayed : Replayed start before) (step : Step Writer.program before after)
    (hstore : after.world.store = before.world.store) (hlog : after.log = before.log) :
    Replayed start after where
  store := by rw [hstore, hlog, replayed.store]
  built := by
    intro earlier entry later hsplit
    rw [hlog] at hsplit
    obtain ⟨writer, run, record, last, rest, built⟩ := replayed.built earlier entry later hsplit
    obtain ⟨other, final, more, hlater⟩ := built.later (step.label built.actor) (by rw [hstore])
    exact ⟨other, run, record, final, more, hlater⟩

/-- A commit that is accepted is logged, and was built from the history that it continues. -/
theorem Replayed.commit {start : Store} {before : Scene Writer Report} {know : Nat → Knowledge}
    {after : World} {index : Nat} {label : Writer} {ref : RunRef} {expected version : Nat}
    {commit : Commit} {next : Except StoreError Nat → Program Report}
    (replayed : Replayed start before)
    (follows : Follows Writer.charter (fun writer report later =>
      writer.Accounts report later.accepted) before know)
    (turn : before.actors[index]? = some ⟨label, .ask (.commit ref expected commit) next⟩)
    (answered : World.answer (.commit ref expected commit) before.world = (.ok (.ok version), after)) :
    Replayed start ⟨after, before.actors.set index ⟨label, next (.ok version)⟩,
      before.log ++ entries index before.world (.commit ref expected commit) (.ok version)⟩ := by
  obtain ⟨-, hpermits, -⟩ := follows.keeps index _ turn
  obtain ⟨now, run, record, hnow, hfind, hopen, hversion, horigin, hbuilds, hfresh, hdistinct,
    hafter, hreported⟩ := (follows.knows index).commit hpermits answered
  have step : Step Writer.program before ⟨after, before.actors.set index ⟨label, next (.ok version)⟩,
      before.log ++ entries index before.world (.commit ref expected commit) (.ok version)⟩ :=
    .act turn answered
  have hsteps := follows.table Writer.charter_fits step
  have hlt := (List.getElem?_eq_some_iff.1 turn).1
  have hstore : after.store =
      LogEntry.perform (LogEntry.performAll start before.log)
        ⟨index, ⟨ref, expected, commit, version⟩, now⟩ := by
    rw [hafter, ← replayed.store]
    rfl
  rw [entries_commit hnow] at step hsteps ⊢
  constructor
  · rw [LogEntry.performAll_concat]
    exact hstore
  · intro earlier entry later hsplit
    -- the entry is the new one, or its commit was there before
    rcases List.eq_nil_or_concat later with hlast | ⟨others, last, hothers⟩
    · subst hlast
      obtain ⟨hearlier, hentry⟩ := List.append_inj' hsplit rfl
      simp only [List.cons.injEq, and_true] at hentry
      subst hearlier hentry
      obtain ⟨revised, rest, hrevised, hevents⟩ :=
        RunTable.events_applied now hfind hfresh hdistinct
      have hruns : after.store.runs = before.world.store.runs.applied ref commit now := by
        rw [hafter]
        exact Store.apply_runs _ _ _ _
      refine ⟨⟨label, next (.ok version)⟩, run, record, revised, rest, List.getElem?_set_self hlt, ?_,
        ?_, hopen, hversion, horigin, hbuilds, ?_, ?_, hevents⟩
      · rw [← Writer.Builds.ref hbuilds, Run.ref_eq_of_origin horigin]
        exact (RunTable.ref_of_find? hfind).symm
      · rw [← replayed.store]
        exact hfind
      · rw [LogEntry.performAll_concat, ← hstore]
        exact hreported
      · show after.store.runs.find? ref = some revised
        rw [hruns]
        exact hrevised
    · rw [hothers, List.concat_eq_append, ← List.cons_append, ← List.append_assoc] at hsplit
      obtain ⟨hlog, -⟩ := List.append_inj' hsplit rfl
      obtain ⟨writer, run, record, last, rest, built⟩ := replayed.built earlier entry others hlog
      obtain ⟨other, final, more, hlater⟩ := built.later (step.label built.actor) hsteps
      exact ⟨other, run, record, final, more, hlater⟩

theorem Replayed.step {start : Store} {before after : Scene Writer Report} {know : Nat → Knowledge}
    (replayed : Replayed start before)
    (follows : Follows Writer.charter (fun writer report later =>
      writer.Accounts report later.accepted) before know)
    (step : Step Writer.program before after) : Replayed start after := by
  cases step with
  | enter label => exact replayed.still (.enter label) rfl rfl
  | tick now => exact replayed.still (.tick now) rfl rfl
  | fall turn answered =>
      have hworld := World.answer_eq_error answered
      exact replayed.still (.fall turn answered) (by rw [hworld]) rfl
  | @act index label request next answer world turn answered =>
      obtain ⟨-, hpermits, -⟩ := follows.keeps index _ turn
      have hquiet : entries index before.world request answer = [] →
          world.store = before.world.store → Replayed start ⟨world,
            before.actors.set index ⟨label, next answer⟩,
            before.log ++ entries index before.world request answer⟩ := by
        intro hentries hstore
        exact replayed.still (.act turn answered) hstore (by rw [hentries, List.append_nil])
      cases request with
      | commit ref expected commit =>
          cases answer with
          | ok version => exact replayed.commit follows turn answered
          | error error =>
              apply hquiet rfl
              rcases World.answer_commit answered with ⟨cause, -, hworld⟩ | haccepted
              · rw [hworld]
              · obtain ⟨version, now, record, hresult, -⟩ := haccepted
                cases hresult
      | createRun new => cases hpermits.1
      | _ => exact hquiet rfl (World.store_of_inquiry hpermits answered)

theorem Follows.accounted {scene : Scene Writer Report} {know : Nat → Knowledge}
    (follows : Follows Writer.charter (fun writer report later =>
      writer.Accounts report later.accepted) scene know) : Accounted scene := by
  intro index writer hget
  have hkeeps := follows.keeps index writer hget
  rw [follows.accepted index]
  cases hrest : writer.rest with
  | done report =>
      rw [hrest] at hkeeps
      exact hkeeps
  | ask request next =>
      rw [hrest] at hkeeps
      exact hkeeps.1
  | crash cause =>
      rw [hrest] at hkeeps
      exact hkeeps

end Scene

/-- Writers that run side by side are as good as one after the other: the store is what their
accepted commits make of it in turn, each built from exactly the history that it continues, and a
writer has one of them if it reports one, and otherwise none. -/
theorem Writer.serializable {start : World} (hsupplied : start.Supplied)
    {scene : Scene Writer Report} (reaches : Scene.Reaches Writer.program (.opening start) scene) :
    Scene.Replayed start.store scene ∧ Scene.Accounted scene := by
  have hopening : Scene.Follows Writer.charter (fun writer report later =>
      writer.Accounts report later.accepted) (.opening start) fun _ => .nothing :=
    .opening hsupplied
  have hinduct : ∃ know, Scene.Follows Writer.charter (fun writer report later =>
      writer.Accounts report later.accepted) scene know ∧ Scene.Replayed start.store scene := by
    induction reaches with
    | refl =>
        refine ⟨_, hopening, rfl, ?_⟩
        intro earlier entry later hsplit
        cases earlier <;> cases hsplit
    | tail _ step ih =>
        obtain ⟨know, follows, replayed⟩ := ih
        obtain ⟨later, hlater⟩ := follows.step Writer.program_keeps Writer.charter_fits step
        exact ⟨later, hlater, replayed.step follows step⟩
  obtain ⟨know, follows, replayed⟩ := hinduct
  exact ⟨replayed, follows.accounted⟩

namespace Writer

def sampleRef : RunRef := ⟨"orders", World.runId 0⟩

def sampleWorld : World where
  store := Store.empty.startRun (.first sampleRef "bare" "default" .null .standard) ⟨0, 0⟩
  now := some ⟨0, 0⟩
  drawnRuns := 1

def sampleSignal : Writer :=
  ofNotice ⟨⟨[Samples.bare]⟩, .standard⟩ sampleRef
    (Engine.noticeCommit (.signalReceived ⟨"go", .null, ⟨0, 0⟩⟩))
    (Engine.noticeCommit_dispatches rfl rfl rfl rfl).givesNotice

theorem sampleWorld_supplied : sampleWorld.Supplied := by
  intro number hnumber huses
  obtain ⟨ref, record, hfind, hid⟩ := huses
  have hmem := List.mem_of_find?_eq_some hfind
  have hrecord : record = .start (.first sampleRef "bare" "default" .null .standard) ⟨0, 0⟩ :=
    List.mem_singleton.1 hmem
  have href := RunTable.ref_of_find? hfind
  rw [hrecord] at href
  have hsame : World.runId 0 = World.runId number := by
    rw [← hid, ← href]
    rfl
  have hzero := World.runId_injective hsame
  have hdrawn : sampleWorld.drawnRuns = 1 := rfl
  omega

/-- Two signals race for the same version: the second one has to read the run again. -/
theorem sampleWorld_serial :
    ∃ scene, Scene.Reaches program (.opening sampleWorld) scene ∧
      scene.log.map LogEntry.actor = [0, 1] ∧
      Scene.Replayed sampleWorld.store scene ∧ Scene.Accounted scene := by
  have entered : Scene.Reaches program (.opening sampleWorld)
      ⟨sampleWorld,
        [⟨sampleSignal, sampleSignal.program⟩, ⟨sampleSignal, sampleSignal.program⟩], []⟩ :=
    (ReflTransGen.single (.enter sampleSignal)).tail (.enter sampleSignal)
  have read := (((entered.act 0 rfl rfl).act 1 rfl rfl).act 1 rfl rfl).act 0 rfl rfl
  have lost := (read.act 0 rfl rfl).act 1 rfl rfl
  have won := ((lost.act 1 rfl rfl).act 1 rfl rfl).act 1 rfl rfl
  exact ⟨_, won, rfl, serializable sampleWorld_supplied won⟩

end Writer

end Chronicle
