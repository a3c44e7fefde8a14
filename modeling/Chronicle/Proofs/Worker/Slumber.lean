import Chronicle.Proofs.Engine.Results
import Chronicle.Proofs.Worker.Avoiding

/-!
# Runs do not begin before their time

A run that begins with a delay is woken by what is recorded for it.  As long as that is nothing, its
first workflow task is handed out no earlier than the delay says, and no worker writes to the run.
-/

namespace Chronicle

open Relation (ReflTransGen)

universe u

namespace Scene

variable {ι : Type u} {ρ : Type} {begins : ι → Program ρ} {due : Instant}

/-- If the clock can be read, it shows a time before the instant. -/
def Precedes (due : Instant) (scene : Scene ι ρ) : Prop :=
  ∀ now, scene.world.now = some now → now < due

/-- Everything on the way happens before the instant. -/
abbrev ReachesBefore (begins : ι → Program ρ) (due : Instant) : Scene ι ρ → Scene ι ρ → Prop :=
  ReflTransGen fun before after => Step begins before after ∧ before.Precedes due

theorem Reaches.before {start scene : Scene ι ρ} (_ : Reaches begins start scene) (due : Instant) :
    ReachesBefore begins due scene scene :=
  .refl

theorem ReachesBefore.act {start scene : Scene ι ρ} (reaches : ReachesBefore begins due start scene)
    (index : Nat) {label : ι} {request : Request} {next : request.Answer → Program ρ}
    {answer : request.Answer} {world : World}
    (turn : scene.actors[index]? = some ⟨label, .ask request next⟩)
    (answered : World.answer request scene.world = (.ok answer, world))
    (precedes : scene.Precedes due) :
    ReachesBefore begins due start ⟨world, scene.actors.set index ⟨label, next answer⟩,
      scene.log ++ entries index scene.world request answer⟩ :=
  ReflTransGen.tail reaches ⟨.act turn answered, precedes⟩

end Scene

namespace Role

/-- Workers have to be handed a task before there is something that they may write. -/
def isWorker : Role → Bool
  | .operate .. => false
  | .serve .. => true

theorem program_avoids {role : Role} (worker : role.isWorker = true) (ref : RunRef) :
    role.program.Avoids ref fun _ => True := by
  cases role with
  | operate operation isPlain => cases worker
  | serve worker catalogue poll moment moments => exact Worker.serve_avoids poll moment moments

/-- The run waits for the instant, and no worker knows of it, unless something was recorded for it. -/
structure Dormant (scene : Scene Role Unit) (ref : RunRef) (due : Instant) : Prop where
  slumbers : scene.world.store.Slumbers ref due
  unknown : scene.world.store.Stirred ref ∨
    ∀ actor ∈ scene.actors, actor.label.isWorker = true → actor.rest.Avoids ref fun _ => True

/-- The only task of the run waits for the instant, and no worker is about to write to the run. -/
structure Sleeps (scene : Scene Role Unit) (ref : RunRef) (due : Instant) : Prop where
  waits : ∃ task, scene.world.store.tasks.tasksOf ref = [task] ∧
    task.work.isWorkflowOf ref = true ∧ task.lease = none ∧ task.visibleAt = due
  unclaimed : ∀ request now tasks task,
    scene.world.store.tasks.claim request now = (tasks, .claimed task) → task.work.run = ref →
      due ≤ now
  unwritten : ∀ actor ∈ scene.actors, actor.label.isWorker = true →
    ∀ request next, actor.rest = .ask request next → request.writesTo ref = false

variable {ref : RunRef} {due : Instant}

theorem Dormant.sleeps {scene : Scene Role Unit} (dormant : Dormant scene ref due)
    {record : RunRecord} (hfind : scene.world.store.runs.find? ref = some record)
    (halone : record.events.length = 1) : Sleeps scene ref due := by
  have quiet : ¬scene.world.store.Stirred ref := by
    rintro ⟨other, hother, hlong⟩
    rw [hfind, Option.some.injEq] at hother
    rw [← hother, halone] at hlong
    exact Nat.lt_irrefl 1 hlong
  constructor
  case waits =>
    cases dormant.slumbers with
    | unborn missing =>
        rw [hfind] at missing
        cases missing
    | @asleep _ task _ _ only begins free visibleAt => exact ⟨task, only, begins, free, visibleAt⟩
    | awake stirred => exact absurd stirred quiet
  case unclaimed =>
    intro request now tasks task hclaim href
    by_contra hearly
    have hlt : now < due := by
      by_contra hlate
      exact hearly (Instant.le_of_not_lt hlate)
    exact (dormant.slumbers.rests quiet (.inr hlt)).not_claimed hclaim href
  case unwritten =>
    intro actor hmem worker request next hrest
    have avoids := (dormant.unknown.resolve_left quiet) actor hmem worker
    rw [hrest] at avoids
    exact avoids.1

/-! ## Steps -/

theorem plays_of_reaches {start : World} (hempty : start.store = .empty) {scene : Scene Role Unit}
    (reaches : Scene.Reaches program (.opening start) scene) :
    (∃ know, Scene.Follows.Permissive scene know) ∧ scene.Plays Rules.lax True := by
  obtain ⟨follows, -, plays⟩ := Scene.plays_of_empty Rules.lax_lawful program_obeys
    (fun role => role.program_plays Rules.lax_lawful (fun _ _ => trivial) fun _ => trivial) hempty
    reaches
  exact ⟨follows, plays⟩

theorem found_of_step {before after : Scene Role Unit} {know : Nat → Knowledge}
    (follows : Scene.Follows.Permissive before know) (step : Scene.Step program before after)
    (found : (before.world.store.runs.find? ref).isSome = true) :
    (after.world.store.runs.find? ref).isSome = true := by
  obtain ⟨record, hfind⟩ := Option.isSome_iff_exists.1 found
  obtain ⟨later, hlater, -⟩ := RunTable.find?_of_steps
    (follows.table (fun _ => Charter.permissive_fits) step) hfind
  exact Option.isSome_iff_exists.2 ⟨later, hlater⟩

theorem missing_of_step {before after : Scene Role Unit} {know : Nat → Knowledge}
    (follows : Scene.Follows.Permissive before know) (step : Scene.Step program before after)
    (missing : after.world.store.runs.find? ref = none) :
    before.world.store.runs.find? ref = none := by
  rw [← Option.not_isSome_iff_eq_none] at missing ⊢
  exact fun found => missing (found_of_step follows step found)

theorem stirred_of_step {before after : Scene Role Unit} {know : Nat → Knowledge}
    (follows : Scene.Follows.Permissive before know) (step : Scene.Step program before after)
    (stirred : before.world.store.Stirred ref) : after.world.store.Stirred ref := by
  obtain ⟨record, hfind, hlong⟩ := stirred
  obtain ⟨later, hlater, hgrown, -⟩ := RunTable.find?_of_steps
    (follows.table (fun _ => Charter.permissive_fits) step) hfind
  exact ⟨later, hlater, Nat.lt_of_lt_of_le hlong hgrown.length_le⟩

/-- A request is answered, and the run goes on waiting if it was begun with that delay. -/
theorem Dormant.act {scene : Scene Role Unit} {know : Nat → Knowledge}
    (follows : Scene.Follows.Permissive scene know) (plays : scene.Plays Rules.lax True)
    (dormant : Dormant scene ref due)
    (early : scene.world.store.runs.find? ref = none ∨ scene.Precedes due)
    {index : Nat} {label : Role} {request : Request} {next : request.Answer → Program Unit}
    {answer : request.Answer} {world : World}
    (turn : scene.actors[index]? = some ⟨label, .ask request next⟩)
    (answered : World.answer request scene.world = (.ok answer, world))
    (hdue : ∀ now, scene.world.now = some now → ∀ new ∈ request.begun answer, new.ref = ref →
      now.after new.firstTaskDelay = due) :
    Dormant ⟨world, scene.actors.set index ⟨label, next answer⟩,
      scene.log ++ Scene.entries index scene.world request answer⟩ ref due := by
  obtain ⟨-, hpermits, -⟩ := follows.keeps index _ turn
  have fresh := (follows.knows index).beginsNew hpermits answered
  obtain ⟨admits, -⟩ := plays.actors _ (List.mem_of_getElem? turn) scene.world .refl plays.sane
  have hearly : ∀ now, scene.world.now = some now →
      scene.world.store.runs.find? ref = none ∨ now < due :=
    fun now hnow => early.imp_right fun precedes => precedes now hnow
  refine ⟨World.slumbers_of_answer dormant.slumbers plays.sane.tasks admits fresh hearly hdue
    answered, ?_⟩
  by_cases stirred : scene.world.store.Stirred ref
  · exact .inl (stirred_of_step follows (.act turn answered) stirred)
  · right
    have hunknown := dormant.unknown.resolve_left stirred
    have apart := World.apart_of_answer
      (fun now hnow => dormant.slumbers.rests stirred (hearly now hnow)) answered
    intro actor hmem worker
    rcases List.mem_or_eq_of_mem_set hmem with hother | hself
    · exact hunknown actor hother worker
    · subst hself
      exact (hunknown _ (List.mem_of_getElem? turn) worker).2 answer apart

/-- What happens while the run waits, or has not begun yet, does not make a worker know of it. -/
theorem Dormant.step {before after : Scene Role Unit} {know : Nat → Knowledge}
    (follows : Scene.Follows.Permissive before know) (plays : before.Plays Rules.lax True)
    (dormant : Dormant before ref due)
    (waits : after.world.store.runs.find? ref = none ∨
      (before.world.store.runs.find? ref).isSome = true ∧ before.Precedes due)
    (step : Scene.Step program before after) : Dormant after ref due := by
  cases step with
  | enter label =>
      refine ⟨dormant.slumbers, dormant.unknown.imp_right ?_⟩
      intro hunknown actor hmem worker
      rcases List.mem_append.1 hmem with hold | hnew
      · exact hunknown actor hold worker
      · rw [List.mem_singleton.1 hnew] at worker ⊢
        exact program_avoids worker ref
  | tick now => exact ⟨dormant.slumbers, dormant.unknown⟩
  | @fall index label request next cause world turn answered =>
      have hworld := World.answer_eq_error answered
      subst hworld
      refine ⟨dormant.slumbers, dormant.unknown.imp_right ?_⟩
      intro hunknown actor hmem worker
      rcases List.mem_or_eq_of_mem_set hmem with hother | hself
      · exact hunknown actor hother worker
      · rw [hself]
        exact .crash _ _
  | @act index label request next answer world turn answered =>
      obtain ⟨-, hpermits, -⟩ := follows.keeps index _ turn
      have fresh := (follows.knows index).beginsNew hpermits answered
      refine dormant.act follows plays ?_ turn answered ?_
      · rcases waits with hnone | ⟨-, precedes⟩
        · exact .inl (missing_of_step follows (.act turn answered) hnone)
        · exact .inr precedes
      · -- nothing that is granted begins the run
        intro now _ new hnew href
        obtain ⟨hmissing, hfound⟩ := World.find?_of_begun fresh answered hnew
        rw [href] at hmissing hfound
        rcases waits with hnone | ⟨hsome, -⟩
        · simp [hnone] at hfound
        · simp [hmissing] at hsome

/-! ## Scenes -/

theorem dormant_unborn {start : World} (hempty : start.store = .empty) {scene : Scene Role Unit}
    (reaches : Scene.Reaches program (.opening start) scene)
    (hmissing : scene.world.store.runs.find? ref = none) (due : Instant) :
    Dormant scene ref due := by
  induction reaches with
  | refl =>
      refine ⟨.unborn hmissing ?_, .inr fun actor hmem => nomatch hmem⟩
      have hnothing : start.store.tasks.tasksOf ref = [] := by rw [hempty]; rfl
      exact hnothing
  | @tail middle last earlier step ih =>
      obtain ⟨⟨know, follows⟩, plays⟩ := plays_of_reaches hempty earlier
      exact (ih (missing_of_step follows step hmissing)).step follows plays (.inl hmissing) step

/-- From the commit on that begins the run, the run waits for its time. -/
theorem dormant_begun {start : World} (hempty : start.store = .empty)
    {scene begun : Scene Role Unit} (reaches : Scene.Reaches program (.opening start) scene)
    (step : Scene.Step program scene begun) {entry : LogEntry}
    (hlog : begun.log = scene.log ++ [entry]) {new : NewRun}
    (hnew : new ∈ entry.acceptance.commit.newRuns) :
    (begun.world.store.runs.find? new.ref).isSome = true ∧
      Dormant begun new.ref (entry.now.after new.firstTaskDelay) := by
  obtain ⟨⟨know, follows⟩, plays⟩ := plays_of_reaches hempty reaches
  cases step with
  | enter label => simp at hlog
  | tick now => simp at hlog
  | fall turn answered => simp at hlog
  | @act index label request next answer world turn answered =>
      have hentries : Scene.entries index scene.world request answer = [entry] :=
        List.append_cancel_left hlog
      obtain ⟨-, hpermits, -⟩ := follows.keeps index _ turn
      have fresh := (follows.knows index).beginsNew hpermits answered
      unfold Scene.entries at hentries
      split at hentries
      · rename_i target expected commit version
        cases hnow : scene.world.now with
        | none => simp [hnow] at hentries
        | some now =>
            simp only [hnow, Option.toList_some, List.map_cons, List.map_nil, List.cons.injEq,
              and_true] at hentries
            subst hentries
            obtain ⟨hmissing, hfound⟩ := World.find?_of_begun fresh answered hnew
            refine ⟨hfound, ?_⟩
            apply (dormant_unborn hempty reaches hmissing _).act follows plays (.inl hmissing) turn
              answered
            intro time htime other hother href
            obtain rfl : now = time := Option.some.inj (hnow.symm.trans htime)
            -- the runs of one commit are told apart by their references
            rw [List.inj_on_of_nodup_map fresh.2 hother hnew href]
      · cases hentries

theorem dormant_later {start : World} (hempty : start.store = .empty) {begun later : Scene Role Unit}
    (reaches : Scene.Reaches program (.opening start) begun)
    (found : (begun.world.store.runs.find? ref).isSome = true) (dormant : Dormant begun ref due)
    (early : Scene.ReachesBefore program due begun later) : Dormant later ref due := by
  suffices h : Scene.Reaches program (.opening start) later ∧
      (later.world.store.runs.find? ref).isSome = true ∧ Dormant later ref due from h.2.2
  induction early with
  | refl => exact ⟨reaches, found, dormant⟩
  | tail _ next ih =>
      obtain ⟨hreached, hfound, hdormant⟩ := ih
      obtain ⟨⟨know, follows⟩, plays⟩ := plays_of_reaches hempty hreached
      exact ⟨hreached.tail next.1, found_of_step follows next.1 hfound,
        hdormant.step follows plays (.inr ⟨hfound, next.2⟩) next.1⟩

/-- As long as nothing but its start is in the history of a run that a commit began with a delay, and
its time has not come, its task is handed out to nobody, and no worker writes to it. -/
theorem newRun_sleeps {start : World} (hempty : start.store = .empty)
    {scene begun later : Scene Role Unit} (reaches : Scene.Reaches program (.opening start) scene)
    (step : Scene.Step program scene begun) {entry : LogEntry}
    (hlog : begun.log = scene.log ++ [entry]) {new : NewRun}
    (hnew : new ∈ entry.acceptance.commit.newRuns)
    (early : Scene.ReachesBefore program (entry.now.after new.firstTaskDelay) begun later)
    {record : RunRecord} (hfind : later.world.store.runs.find? new.ref = some record)
    (halone : record.events.length = 1) :
    Sleeps later new.ref (entry.now.after new.firstTaskDelay) := by
  obtain ⟨found, dormant⟩ := dormant_begun hempty reaches step hlog hnew
  exact (dormant_later hempty (reaches.tail step) found dormant early).sleeps hfind halone

/-! ## A trial that is repeated every minute -/

def minutely : Role :=
  .operate (.start (.first Operation.sampleRun "trial" "default" .null
    { WorkflowOptions.standard with cronSchedule := some "@every 1m" })) rfl

def trialTask : Role := .operate (.processTask Operation.trialEngine Operation.sampleRun) rfl

def trialBell : Role :=
  .operate (.signal Operation.trialEngine Operation.secondRun ⟨"bell", .null, ⟨0, 0⟩⟩) rfl

def trier : Worker := ⟨.standard "trier", .standard, ["trial"], ⟨[]⟩, .running, false, [], []⟩

def trialWork : Role := .serve trier ⟨[Samples.trial]⟩ ⟨trier.pollRequest .workflow, 0, 0, 0⟩ 0 [0]

theorem midnight_lt_minute : (⟨0, 0⟩ : Instant) < Instant.after ⟨0, 0⟩ (.ofSeconds 60) := by decide

theorem precedes_minute {scene : Scene Role Unit} (hnow : scene.world.now = some ⟨0, 0⟩) :
    scene.Precedes (Instant.after ⟨0, 0⟩ (.ofSeconds 60)) := by
  intro now htime
  obtain rfl : ⟨0, 0⟩ = now := Option.some.inj (hnow.symm.trans htime)
  exact midnight_lt_minute

/-- A worker that looks for the second trial too early finds nothing. -/
theorem secondTrial_sleeps :
    ∃ (scene begun later : Scene Role Unit) (entry : LogEntry) (new : NewRun) (record : RunRecord),
      Scene.Reaches program (.opening Operation.blankWorld) scene ∧
      Scene.Step program scene begun ∧ begun.log = scene.log ++ [entry] ∧
      new ∈ entry.acceptance.commit.newRuns ∧ new.firstTaskDelay = .ofSeconds 60 ∧
      Scene.ReachesBefore program (entry.now.after new.firstTaskDelay) begun later ∧
      later.world.store.runs.find? new.ref = some record ∧ record.events.length = 1 ∧
      Sleeps later new.ref (entry.now.after new.firstTaskDelay) := by
  have entered := Scene.reaches_entered program Operation.blankWorld
    [minutely, trialTask, trialBell, trialWork]
  have started := (entered.act 0 rfl rfl).act 0 rfl rfl
  have decided := (((started.act 1 rfl rfl).act 1 rfl rfl).act 1 rfl rfl).act 1 rfl rfl
  have looked := (((decided.act 1 rfl rfl).before (Instant.after ⟨0, 0⟩ (.ofSeconds 60))).act 3 rfl rfl
    (precedes_minute rfl)).act 3 rfl rfl (precedes_minute rfl)
  exact ⟨_, _, _, _, _, _, decided, @Scene.Step.act _ _ program _ 1 _ _ _ _ _ rfl rfl, rfl, .head _,
    rfl, looked, rfl, rfl, newRun_sleeps rfl decided
      (@Scene.Step.act _ _ program _ 1 _ _ _ _ _ rfl rfl) rfl (.head _) looked rfl rfl⟩

/-- A signal makes the first task of the second trial available at once. -/
theorem rungTrial_isHandedOut :
    ∃ (scene begun later : Scene Role Unit) (entry : LogEntry) (new : NewRun) (tasks : TaskQueue)
      (task : LeasedTask),
      Scene.Reaches program (.opening Operation.blankWorld) scene ∧
      Scene.Step program scene begun ∧ begun.log = scene.log ++ [entry] ∧
      new ∈ entry.acceptance.commit.newRuns ∧ new.firstTaskDelay = .ofSeconds 60 ∧
      Scene.ReachesBefore program (entry.now.after new.firstTaskDelay) begun later ∧
      later.world.now = some ⟨0, 0⟩ ∧
      later.world.store.tasks.claim (trier.pollRequest .workflow) ⟨0, 0⟩ = (tasks, .claimed task) ∧
      task.work.run = new.ref ∧ (⟨0, 0⟩ : Instant) < entry.now.after new.firstTaskDelay := by
  have entered := Scene.reaches_entered program Operation.blankWorld
    [minutely, trialTask, trialBell, trialWork]
  have started := (entered.act 0 rfl rfl).act 0 rfl rfl
  have decided := (((started.act 1 rfl rfl).act 1 rfl rfl).act 1 rfl rfl).act 1 rfl rfl
  have rung := ((((decided.act 1 rfl rfl).before (Instant.after ⟨0, 0⟩ (.ofSeconds 60))).act 2 rfl rfl
    (precedes_minute rfl)).act 2 rfl rfl (precedes_minute rfl)).act 2 rfl rfl (precedes_minute rfl)
  exact ⟨_, _, _, _, _, _, _, decided, @Scene.Step.act _ _ program _ 1 _ _ _ _ _ rfl rfl, rfl,
    .head _, rfl, rung, rfl, rfl, rfl, midnight_lt_minute⟩

end Role

end Chronicle
