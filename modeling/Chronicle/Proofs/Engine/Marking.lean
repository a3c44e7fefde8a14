import Chronicle.Proofs.Engine.Protocol
import Chronicle.Proofs.Engine.Redelivery
import Chronicle.Proofs.Program.Vouching
import Chronicle.Proofs.Replay.Marking

/-!
# Marks of decisions

The mark of a call tells it from a call that is made for the first time only as far as decisions were
recorded.  A workflow task that had something recorded leaves a mark on all calls that its replay
made; one that found nothing to record leaves none, and its calls come unmarked again.
-/

namespace Chronicle

open Relation (ReflTransGen)

/-! ## Records of a commit -/

/-- The commit records commands first, and then what records none. -/
def Commit.RecordsFirst (commit : Commit) (recorded rejected : List Event) : Prop :=
  commit.events = recorded ++ rejected ∧ (∀ event ∈ recorded, event.key?.isSome = true) ∧
    ∀ event ∈ rejected, event.key? = none

theorem Commit.Notice.recordsFirst {commit : Commit} (notice : commit.Notice) :
    commit.RecordsFirst [] commit.events :=
  ⟨rfl, by simp, notice.keyless⟩

namespace Engine

variable {engine : Engine} {ref : RunRef} {run : Run} {history : List HistoryEvent} {commit : Commit}

theorem Decided.recordsFirst (decided : engine.Decided ref run history commit) :
    ∃ recorded rejected, commit.RecordsFirst recorded rejected ∧ recorded ≠ [] := by
  obtain ⟨-, outcome, now, hreplay, -, hnews, hyields⟩ := decided
  obtain ⟨hkeyed, hcut⟩ := Replay.decided_of_replay hreplay
  obtain ⟨recorded, rejected, batch⟩ := Decision.batch_of_build hyields
  have hkeys := batch.keys
  rw [hcut] at hkeys
  refine ⟨recorded, rejected, ⟨batch.events, fun event hmem => ?_, fun event hmem => ?_⟩, ?_⟩
  · have hkey := List.mem_map_of_mem (f := Event.key?) hmem
    rw [hkeys, List.mem_map] at hkey
    obtain ⟨key, -, hsome⟩ := hkey
    rw [← hsome]
    rfl
  · exact Decision.key?_of_isRejection (batch.rejections event hmem)
  · rintro rfl
    rw [← Replay.map_key?_eq hkeyed] at hkeys
    exact hnews (by simpa using hkeys.symm)

theorem Refused.recordsFirst (refused : engine.Refused ref run history commit) :
    ∃ recorded rejected, commit.RecordsFirst recorded rejected ∧ recorded ≠ [] := by
  obtain ⟨-, reason, -, hwrites⟩ := refused
  cases hwrites
  refine ⟨[.workflowFailed (undecodable reason)], [], ⟨rfl, ?_, by simp⟩, List.cons_ne_nil _ _⟩
  intro event hmem
  rw [List.mem_singleton.1 hmem]
  rfl

end Engine

/-! ## Who may record -/

/-- Workflow tasks decide, and everything else gives notice. -/
def Operation.remit (operation : Operation) : Charter where
  admits := fun _ => True
  warrants := fun run history commit =>
    if operation.isTask then
      ∃ engine, operation.engine? = some engine ∧
        (engine.Decided run.ref run history commit ∨ engine.Refused run.ref run history commit)
    else commit.Notice
  undecided := fun _ => True

namespace Operation

variable {operation : Operation} {run : Run} {history : List HistoryEvent} {commit : Commit}

theorem program_keepsRemit (operation : Operation) :
    operation.program.Obeys operation.remit := by
  apply operation.program_obeys_of
  · exact fun _ _ => trivial
  · intro hother
    refine ⟨⟨fun _ _ => trivial, fun _ => trivial⟩, fun _ _ _ dispatch => ?_⟩
    simp only [remit, hother, Bool.false_eq_true, if_false]
    exact dispatch.toNotice
  · intro htask engine hengine
    refine ⟨⟨fun _ _ => trivial, fun _ => trivial⟩, fun _ _ _ _ decided => ?_,
      fun _ _ _ _ refused => ?_⟩
    · simp only [remit, htask, if_true]
      exact ⟨engine, hengine, .inl (decided.1 ▸ decided)⟩
    · simp only [remit, htask, if_true]
      exact ⟨engine, hengine, .inr (refused.1 ▸ refused)⟩

theorem warrants_of_remit (warranted : operation.remit.warrants run history commit) :
    operation.Warrants run history commit := by
  simp only [remit] at warranted
  split at warranted
  · exact .inr warranted
  · rename_i hother
    exact .inl ⟨by simpa using hother, warranted⟩

/-- Whatever is written, records come first; and only a workflow task records anything. -/
theorem recordsFirst_of_remit (warranted : operation.remit.warrants run history commit) :
    ∃ recorded rejected, commit.RecordsFirst recorded rejected ∧
      (recorded ≠ [] ↔ operation.isTask = true) := by
  simp only [remit] at warranted
  split at warranted
  · rename_i htask
    obtain ⟨engine, -, decided | refused⟩ := warranted
    · obtain ⟨recorded, rejected, hfirst, hsome⟩ := decided.recordsFirst
      exact ⟨recorded, rejected, hfirst, iff_of_true hsome htask⟩
    · obtain ⟨recorded, rejected, hfirst, hsome⟩ := refused.recordsFirst
      exact ⟨recorded, rejected, hfirst, iff_of_true hsome htask⟩
  · rename_i hother
    exact ⟨[], _, warranted.recordsFirst, iff_of_false (by simp) hother⟩

/-- What records a command was decided by a workflow task, or fails a run that cannot be begun. -/
theorem task_of_remit {event : Event} (warranted : operation.remit.warrants run history commit)
    (hmem : event ∈ commit.events) (hkey : event.key?.isSome = true) :
    operation.isTask = true ∧ ∃ engine, operation.engine? = some engine ∧
      (engine.Decided run.ref run history commit ∨
        engine.Refused run.ref run history commit) := by
  simp only [remit] at warranted
  split at warranted
  · rename_i htask
    exact ⟨htask, warranted⟩
  · rw [warranted.keyless event hmem] at hkey
    cases hkey

end Operation

namespace ServingOperation

variable {workflow : WorkflowType}

def remit (serving : ServingOperation workflow) : Charter := serving.operation.remit

theorem program_keepsRemit (serving : ServingOperation workflow) :
    serving.program.Keeps serving.remit (fun _ _ => True) .nothing :=
  serving.operation.program_keepsRemit .nothing

theorem remit_fits (serving : ServingOperation workflow) :
    serving.remit.Fits (fun _ _ => True) fun event => event.isAnnouncement = true where
  warrants := fun _ _ _ _ _ => trivial
  announces := fun _ _ _ warranted =>
    (Operation.Warrants.tidy (Operation.warrants_of_remit warranted)).announced

/-! ## Where records come from -/

/-- Each record of the history is in a batch of records that a logged commit has added. -/
def Attested (scene : Scene (ServingOperation workflow) Unit) (ref : RunRef)
    (history : List HistoryEvent) : Prop :=
  ∀ before event after, history = before ++ event :: after → event.event.key?.isSome = true →
    ∃ entry front batch, before = front ++ batch ∧ front ≠ [] ∧
      (∀ other ∈ batch, other.event.key?.isSome = true) ∧
      Scene.Vouches remit scene entry front ∧ entry.acceptance.ref = ref ∧
      event.event ∈ entry.acceptance.commit.events

variable {scene : Scene (ServingOperation workflow) Unit} {ref : RunRef}
  {history more : List HistoryEvent}

theorem Attested.append (attested : Attested scene ref history)
    (hmore : ∀ before event after, more = before ++ event :: after →
      event.event.key?.isSome = true → history ≠ [] ∧
        (∀ other ∈ before, other.event.key?.isSome = true) ∧
        ∃ entry, Scene.Vouches remit scene entry history ∧ entry.acceptance.ref = ref ∧
          event.event ∈ entry.acceptance.commit.events) :
    Attested scene ref (history ++ more) := by
  intro before event after hsplit hkey
  rcases append_eq_split hsplit with ⟨rest, -, hold⟩ | ⟨front, hbefore, hnew⟩
  · exact attested before event rest hold hkey
  · obtain ⟨hsome, hfront, entry, hentry⟩ := hmore front event after hnew hkey
    exact ⟨entry, history, front, hbefore, hsome, hfront, hentry⟩

theorem Attested.keyless (hkeys : ∀ event ∈ history, event.event.key? = none) :
    Attested scene ref history := by
  intro before event after hsplit hkey
  rw [hkeys event (by simp [hsplit])] at hkey
  cases hkey

/-- What comes before a record of the commit records something as well. -/
theorem recorded_of_numbered {commit : Commit} {recorded rejected : List Event}
    (hfirst : commit.RecordsFirst recorded rejected) {now : Instant} {eventId : Nat}
    {before after : List HistoryEvent} {event : HistoryEvent}
    (hsplit : RunRecord.number now eventId commit.events = before ++ event :: after)
    (hkey : event.event.key?.isSome = true) :
    ∀ other ∈ before, other.event.key?.isSome = true := by
  obtain ⟨hevents, hrecorded, hrejected⟩ := hfirst
  have hmapped := congrArg (List.map HistoryEvent.event) hsplit
  rw [RunRecord.map_event_number, hevents, List.map_append, List.map_cons] at hmapped
  rcases append_eq_split hmapped with ⟨rest, -, hin⟩ | ⟨front, -, hin⟩
  · intro other hmem
    apply hrecorded
    rw [hin]
    exact List.mem_append_left _ (List.mem_map_of_mem hmem)
  · rw [hrejected event.event (by simp [hin])] at hkey
    cases hkey

theorem attested_step {before after : RunRecord}
    (step : RunRecord.Step (Scene.Logs remit scene) (fun event => event.isAnnouncement = true)
      before after)
    (holds : before.events ≠ [] ∧ Attested scene before.run.ref before.events) :
    after.events ≠ [] ∧ Attested scene after.run.ref after.events := by
  obtain ⟨hsome, attested⟩ := holds
  cases step with
  | linked next => exact ⟨hsome, attested⟩
  | notified now isOpen announced =>
      refine ⟨by simp [hsome], attested.append fun front event rest hsplit hkey => ?_⟩
      have hmem := RunRecord.event_mem_of_mem_number
        (hsplit ▸ List.mem_append_right front List.mem_cons_self)
      rw [List.mem_singleton.1 hmem, Event.key?_of_isAnnouncement announced] at hkey
      cases hkey
  | @revised commit now isOpen logs =>
      obtain ⟨entry, vouches, href, rfl⟩ := logs
      obtain ⟨actor, run, -, -, hwarranted⟩ := vouches.warranted
      obtain ⟨recorded, rejected, hfirst, -⟩ := Operation.recordsFirst_of_remit hwarranted
      rw [RunRecord.revise_ref, RunRecord.revise_events]
      refine ⟨by simp [hsome], attested.append fun front event rest hsplit hkey => ?_⟩
      have hmem := RunRecord.event_mem_of_mem_number
        (hsplit ▸ List.mem_append_right front List.mem_cons_self)
      exact ⟨hsome, recorded_of_numbered hfirst hsplit hkey, entry, vouches, href, hmem⟩

theorem attested_of_reaches {start : World} (blank : start.IsBlank)
    (reaches : Scene.Reaches program (.opening start) scene) {record : RunRecord}
    (hfind : scene.world.store.runs.find? ref = some record) :
    record.events ≠ [] ∧ Attested scene record.run.ref record.events := by
  have opening : Scene.Follows remit (fun _ _ _ => True)
      (.opening start : Scene (ServingOperation workflow) Unit) fun _ => .nothing :=
    .opening blank.supplied
  have hlogged := opening.logged program_keepsRemit remit_fits reaches
  refine RunTable.every_of_steps ?_ (fun _ _ step => attested_step step) hlogged ?_ ref record hfind
  · intro new now
    refine ⟨List.cons_ne_nil _ _, Attested.keyless fun event hmem => ?_⟩
    rw [List.mem_singleton.1 hmem]
    rfl
  · intro target earlier hearlier
    rw [Scene.opening, blank] at hearlier
    cases hearlier

theorem numbered_of_reaches {start : World} (blank : start.IsBlank)
    (reaches : Scene.Reaches program (.opening start) scene) {record : RunRecord}
    (hfind : scene.world.store.runs.find? ref = some record) : Replay.Numbered record.events := by
  have opening : Scene.Follows charter (fun _ _ _ => True)
      (.opening start : Scene (ServingOperation workflow) Unit) fun _ => .nothing :=
    .opening blank.supplied
  have hsteps := opening.tables program_keeps
    (fun serving => Operation.charter_fits serving.operation) reaches
  have wellFormed := RunTable.WellFormed.steps (by rw [Scene.opening, blank]; exact .empty)
    (fun _ _ htidy => htidy) (fun _ hannounced => hannounced) hsteps
  exact (wellFormed ref record hfind).numbered

/-! ## Decisions -/

/-- By the entry, a workflow task had something recorded that it decided by a replay of the history
up to then. -/
structure Rules (scene : Scene (ServingOperation workflow) Unit) (entry : LogEntry)
    (history : List HistoryEvent) (outcome : ReplayOutcome) : Prop where
  logged : entry ∈ scene.log
  replayed : ∃ actor engine, scene.actors[entry.actor]? = some actor ∧
    actor.label.operation.isTask = true ∧ actor.label.operation.engine? = some engine ∧
    replay engine.limits.replayLimit engine.registry entry.acceptance.ref
      (history.take entry.acceptance.expected) = .ok outcome
  news : outcome.newCommands ≠ []

/-- An engine that has replayed a part of the history knows the workflow. -/
theorem find?_of_replay {serving : ServingOperation workflow} {engine : Engine} {limit : Nat}
    {front rest : List HistoryEvent} {outcome : ReplayOutcome}
    (hengine : serving.operation.engine? = some engine)
    (hreplay : replay limit engine.registry ref front = .ok outcome)
    (hreadable : Replay.Readable workflow (front ++ rest)) :
    engine.registry.find? workflow.name = some workflow := by
  obtain ⟨_, _, _, _, _, _, found, _, _, hhead, hfound, -, -, -⟩ := Replay.eq_ok_of_replay hreplay
  obtain ⟨input, taskQueue, attempt, parent, options, start, hstart, -⟩ := hreadable
  have hsome : front ≠ [] := by
    rintro rfl
    simp at hhead
  rw [Replay.head?_append hsome, hhead] at hstart
  cases hstart
  rw [hfound, serving.serves engine hengine found hfound]

section

variable (hdeterministic : workflow.Deterministic) {start : World} (blank : start.IsBlank)
  (reaches : Scene.Reaches program (.opening start) scene) {record : RunRecord}
  (hfind : scene.world.store.runs.find? ref = some record)
  (hreadable : Replay.Readable workflow record.events) {limit : Nat} {registry : WorkflowRegistry}
  {outcome : ReplayOutcome} (hregistry : registry.find? workflow.name = some workflow)
  (hreplay : replay limit registry ref record.events = .ok outcome)

include hdeterministic blank reaches hfind hreadable hregistry hreplay

/-- The calls of a decision are made again, and marked. -/
theorem marked_of_rules {entry : LogEntry} {decided : ReplayOutcome}
    (rules : Rules scene entry record.events decided) (href : entry.acceptance.ref = ref) :
    ∃ repeated more, outcome.calls = repeated ++ more ∧
      List.Forall₂ (fun first call => call.Repeats first ∧ call.context.replaying = true)
        decided.calls repeated := by
  obtain ⟨actor, engine, hactor, htask, hengine, hdecided⟩ := rules.replayed
  have opening : Scene.Follows remit (fun _ _ _ => True)
      (.opening start : Scene (ServingOperation workflow) Unit) fun _ => .nothing :=
    .opening blank.supplied
  obtain ⟨same, front, rest, hsame, hevents, vouches⟩ :=
    opening.stands program_keepsRemit remit_fits reaches entry rules.logged
  obtain rfl : record = same := by
    rw [href, hfind] at hsame
    exact Option.some.inj hsame
  obtain ⟨other, run, hother, -, hwarranted⟩ := vouches.warranted
  obtain rfl : actor = other := Option.some.inj (hactor.symm.trans hother)
  obtain ⟨recorded, rejected, ⟨hbatch, hkeys, -⟩, hrecorded⟩ :=
    Operation.recordsFirst_of_remit hwarranted
  obtain ⟨first, others, rfl⟩ := List.exists_cons_of_ne_nil (hrecorded.2 htask)
  rw [hevents, List.append_assoc, vouches.expected, List.take_left, href] at hdecided
  rw [hbatch, List.cons_append, RunRecord.number, List.append_assoc, List.cons_append] at hevents
  have hnumbered := numbered_of_reaches blank reaches hfind
  rw [hevents] at hreadable hnumbered hreplay
  exact Replay.marked_of_record hdeterministic (find?_of_replay hengine hdecided hreadable) hregistry
    hdecided hreadable hnumbered (hkeys first List.mem_cons_self) hreplay

/-- A call that is marked was made for an earlier decision. -/
theorem rules_of_marked {call : HandlerCall} (hmem : call ∈ outcome.calls)
    (hmarked : call.context.replaying = true) :
    ∃ entry decided, Rules scene entry record.events decided ∧ entry.acceptance.ref = ref ∧
      ∃ first ∈ decided.calls, call.Repeats first := by
  obtain ⟨-, attested⟩ := attested_of_reaches blank reaches hfind
  have hnumbered := numbered_of_reaches blank reaches hfind
  have hbeyond : Replay.horizon record.events ≠ 0 := by
    obtain ⟨event, -, -, -, hmark⟩ := Replay.exists_source hreplay call hmem
    rw [hmark, decide_eq_true_iff] at hmarked
    omega
  obtain ⟨event, hevent, hkey, hlast⟩ := Replay.exists_record_of_horizon hbeyond
  obtain ⟨before, after, hsplit⟩ := List.append_of_mem hevent
  obtain ⟨entry, front, batch, rfl, hsome, hbatch, vouches, href, hcommitted⟩ :=
    attested before event after hsplit hkey
  rw [RunTable.ref_of_find? hfind] at href
  obtain ⟨actor, run, hactor, hsame, hwarranted⟩ := vouches.warranted
  obtain ⟨htask, engine, hengine, hcases⟩ := Operation.task_of_remit hwarranted hcommitted hkey
  have hfront : record.events = front ++ (batch ++ event :: after) := by
    rw [hsplit, List.append_assoc]
  rw [hfront] at hreadable hnumbered hreplay hlast
  rw [hsame, href] at hcases
  rcases hcases with ⟨-, decided, -, hdecided, -, hnews, -⟩ | refused
  · have hagain := find?_of_replay hengine hdecided hreadable
    refine ⟨entry, decided, ⟨vouches.logged, ⟨actor, engine, hactor, htask, hengine, ?_⟩, hnews⟩,
      href, ?_⟩
    · rw [hfront, vouches.expected, List.take_left, href]
      exact hdecided
    · exact Replay.repeats_of_marked hdeterministic hagain hregistry hdecided hreadable hnumbered
        hbatch hlast hreplay call hmem hmarked
  · exact absurd (hreadable.of_append hsome) (refused.unreadable (actor.label.serves engine hengine))

/--
At any time, a replay of a run makes all calls again on which a workflow task has decided to record
something, and marks them; and it marks no others.  A workflow task that decides nothing leaves the
world as it is, and no mark on its calls.
-/
theorem marks_ofDecisions :
    (∀ entry decided, Rules scene entry record.events decided → entry.acceptance.ref = ref →
      ∃ repeated more, outcome.calls = repeated ++ more ∧
        List.Forall₂ (fun first call => call.Repeats first ∧ call.context.replaying = true)
          decided.calls repeated) ∧
    (∀ call ∈ outcome.calls, call.context.replaying = true →
      ∃ entry decided, Rules scene entry record.events decided ∧ entry.acceptance.ref = ref ∧
        ∃ first ∈ decided.calls, call.Repeats first) ∧
    ∀ engine : Engine, engine.IsIdle ref record.events →
      ((engine.processTask ref).run World.answer scene.world).2 = scene.world :=
  ⟨fun _ _ => marked_of_rules hdeterministic blank reaches hfind hreadable hregistry hreplay,
    fun _ => rules_of_marked hdeterministic blank reaches hfind hreadable hregistry hreplay,
    fun _ => Engine.processTask_of_idle hfind⟩

end

/-- A run is asked to cancel, and does: from then on both of its calls are marked. -/
theorem cancellation_isMarked :
    ∃ (scene : Scene (ServingOperation Samples.bare) Unit) (record : RunRecord)
      (outcome : ReplayOutcome),
      Scene.Reaches program (.opening Operation.blankWorld) scene ∧
      scene.world.store.runs.find? Operation.sampleRun = some record ∧
      Replay.Readable Samples.bare record.events ∧
      replay Replay.standardLimit Operation.sampleEngine.registry Operation.sampleRun record.events =
        .ok outcome ∧
      outcome.calls.map (fun call => call.context.eventId) = [1, 2] ∧
      (∀ call ∈ outcome.calls, call.context.replaying = true →
        ∃ entry decided, Rules scene entry record.events decided ∧
          entry.acceptance.ref = Operation.sampleRun ∧ ∃ first ∈ decided.calls, call.Repeats first) ∧
      ∃ entry decided repeated more, Rules scene entry record.events decided ∧
        decided.calls.length = 2 ∧ outcome.calls = repeated ++ more ∧
        List.Forall₂ (fun first call => call.Repeats first ∧ call.context.replaying = true)
          decided.calls repeated := by
  have blank : Operation.blankWorld.IsBlank := rfl
  have entered : Scene.Reaches program (.opening Operation.blankWorld)
      ⟨Operation.blankWorld,
        [⟨_, program sampleStart⟩, ⟨_, program sampleCancellation⟩, ⟨_, program sampleTask⟩], []⟩ :=
    ((ReflTransGen.single (.enter _)).tail (.enter _)).tail (.enter _)
  have started := (entered.act 0 rfl rfl).act 0 rfl rfl
  have requested := ((started.act 1 rfl rfl).act 1 rfl rfl).act 1 rfl rfl
  have decided := (((requested.act 2 rfl rfl).act 2 rfl rfl).act 2 rfl rfl).act 2 rfl rfl
  obtain ⟨hmarks, hothers, -⟩ := @marks_ofDecisions _ _ Operation.sampleRun
    bare_deterministic _ blank decided _ rfl ⟨.null, "default", 1, none, .standard, (), rfl, rfl⟩
    Replay.standardLimit Operation.sampleEngine.registry _ rfl rfl
  obtain ⟨repeated, more, hcalls, hrepeated⟩ := hmarks _ _
    ⟨List.mem_cons_of_mem _ List.mem_cons_self, ⟨_, _, rfl, rfl, rfl, rfl⟩, List.cons_ne_nil _ _⟩ rfl
  exact ⟨_, _, _, decided, rfl, ⟨.null, "default", 1, none, .standard, (), rfl, rfl⟩, rfl, rfl,
    hothers, _, _, repeated, more,
    ⟨List.mem_cons_of_mem _ List.mem_cons_self, ⟨_, _, rfl, rfl, rfl, rfl⟩, List.cons_ne_nil _ _⟩,
    rfl, hcalls, hrepeated⟩

/-- A workflow task that decides nothing has made its call, and the next replay makes it again without
a mark. -/
theorem idleTask_leavesNoMark :
    Samples.bare.Deterministic ∧
    ∃ (scene : Scene (ServingOperation Samples.bare) Unit) (record : RunRecord)
      (outcome : ReplayOutcome) (call : HandlerCall),
      Scene.Reaches program (.opening Operation.blankWorld) scene ∧
      (Operation.sampleEngine.processTask Operation.sampleRun).run World.answer scene.world =
        (.ok (.ok .idle), scene.world) ∧
      scene.world.store.runs.find? Operation.sampleRun = some record ∧
      replay Operation.sampleEngine.limits.replayLimit Operation.sampleEngine.registry
        Operation.sampleRun record.events = .ok outcome ∧
      outcome.calls = [call] ∧ call.stimulus = .started ∧ call.context.replaying = false := by
  have entered : Scene.Reaches program (.opening Operation.blankWorld)
      ⟨Operation.blankWorld, [⟨_, program sampleStart⟩], []⟩ :=
    .single (.enter _)
  have started := (entered.act 0 rfl rfl).act 0 rfl rfl
  exact ⟨bare_deterministic, _, _, _, _, started, rfl, rfl, rfl, rfl, rfl, rfl⟩

end ServingOperation

end Chronicle
