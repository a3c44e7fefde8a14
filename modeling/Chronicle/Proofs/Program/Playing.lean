import Chronicle.Proofs.Engine.Upkeep
import Chronicle.Proofs.Program.Answers

/-!
# Playing by the rules

A program plays by the rules if every request that it makes is a move, or none at all, whatever
moves were made in between.  What it has learnt from answers it may rely on as long as moves
cannot undo it.
-/

namespace Chronicle

open Relation (ReflTransGen)

/-! ## Requests as moves -/

namespace Rules

/-- The request is a move, if it is answered. -/
def Admits (rules : Rules) (fires : Prop) (store : Store) : Request → Prop
  | .commit ref expected commit => ∀ record, store.runs.find? ref = some record →
      record.isClosed = false → record.events.length = expected →
      ∃ run : Run, run.origin = record.run.origin ∧ rules.Writes fires run record.events commit
  | .completeTask taskId token => rules.MayComplete store taskId token
  | .enqueueTask _ => False
  | .popDueTimers _ _ => fires
  | .scheduleTimer _ => fires
  | _ => True

end Rules

/-- Requests that anybody may make at any time. -/
def Request.isFree : Request → Bool
  | .commit .. | .completeTask .. | .enqueueTask _ | .popDueTimers .. | .scheduleTimer _ => false
  | _ => true

/-- The runs that the request begins are new. -/
def Request.BeginsNew (store : Store) : (request : Request) → request.Answer → Prop
  | .createRun new, .ok _ => store.runs.find? new.ref = none
  | .commit _ _ written, .ok _ => written.BeginsNew store.runs
  | _, _ => True

namespace World

variable {rules : Rules} {fires : Prop} {world after : World}

theorem moves_wake (store : Store) : Move rules fires store store.wake := .still rfl rfl rfl rfl

theorem moves_of_createRun {new : NewRun} {result : Except StoreError Unit}
    (fresh : Request.BeginsNew world.store (.createRun new) result)
    (answered : World.answer (.createRun new) world = (.ok result, after)) :
    ReflTransGen (Move rules fires) world.store after.store := by
  rcases answer_createRun answered with ⟨error, -, hafter⟩ | ⟨hresult, now, -, hafter⟩
  · rw [hafter]
  · subst hresult hafter
    exact (ReflTransGen.single (.created now fresh)).tail (moves_wake _)

theorem moves_of_commit {ref : RunRef} {expected : Nat} {commit : Commit}
    {result : Except StoreError Nat}
    (admits : rules.Admits fires world.store (.commit ref expected commit))
    (fresh : Request.BeginsNew world.store (.commit ref expected commit) result)
    (answered : World.answer (.commit ref expected commit) world = (.ok result, after)) :
    ReflTransGen (Move rules fires) world.store after.store := by
  rcases answer_commit answered with ⟨error, -, hafter⟩ | haccepted
  · rw [hafter]
  · obtain ⟨version, now, record, hresult, -, hfind, hopen, hlength, hafter, -⟩ := haccepted
    subst hresult hafter
    obtain ⟨run, horigin, writes⟩ := admits record hfind hopen hlength
    exact (ReflTransGen.single (.committed now hfind hopen horigin writes fresh)).tail (moves_wake _)

/-! ### Acts on the task queue -/

theorem moves_claim (store : Store) (poll : PollRequest) (now : Instant) :
    Move rules fires store { store with tasks := store.tasks.perform (.claim poll) now } := by
  simp only [TaskQueue.perform]
  cases hclaim : store.tasks.claim poll now with
  | mk tasks result =>
      cases result with
      | claimed task => exact .claimed hclaim
      | nothing next => exact .still rfl (TaskQueue.claim_nothing hclaim) rfl rfl

theorem moves_complete {store : Store} {taskId token : Uuid}
    (done : rules.MayComplete store taskId token) (now : Instant) :
    Move rules fires store
      { store with tasks := store.tasks.perform (.complete taskId token) now } := by
  simp only [TaskQueue.perform]
  cases hcomplete : store.tasks.complete taskId token with
  | error error => exact .still rfl rfl rfl rfl
  | ok tasks => exact .completed hcomplete done

theorem moves_fail (store : Store) (taskId token : Uuid) (reason : String) (delay : Span)
    (now : Instant) :
    Move rules fires store
      { store with tasks := store.tasks.perform (.fail taskId token reason delay) now } := by
  simp only [TaskQueue.perform]
  cases hfail : store.tasks.fail taskId token reason delay now with
  | error error => exact .still rfl rfl rfl rfl
  | ok tasks => exact .failed hfail

theorem moves_heartbeat (store : Store) (taskId token : Uuid) (extension : Span) (now : Instant) :
    Move rules fires store
      { store with tasks := store.tasks.perform (.heartbeat taskId token extension) now } := by
  simp only [TaskQueue.perform]
  cases hbeat : store.tasks.heartbeat taskId token extension now with
  | error error => exact .still rfl rfl rfl rfl
  | ok extended => exact .extended hbeat

/-! ### All requests -/

/-- An answered request that the rules admit is a series of moves. -/
theorem moves_of_answer {request : Request} {answer : request.Answer}
    (admits : rules.Admits fires world.store request)
    (fresh : request.BeginsNew world.store answer)
    (answered : World.answer request world = (.ok answer, after)) :
    ReflTransGen (Move rules fires) world.store after.store := by
  have hacts : ∀ act, request.act? = some act →
      Move rules fires world.store { world.store with
        tasks := world.store.tasks.perform act (world.now.getD ⟨0, 0⟩) } →
      ReflTransGen (Move rules fires) world.store after.store := by
    intro act hact move
    obtain ⟨wakeups, rfl⟩ := answer_act hact answered
    exact (ReflTransGen.single move).tail (.still rfl rfl rfl rfl)
  have hstill : request.leavesRuns = true → request.act? = none → request.concernsTimers = false →
      ReflTransGen (Move rules fires) world.store after.store := by
    intro hleaves hact hfree
    have leaves := leavesRuns_of_answer hleaves answered
    have htasks := leaves.tasks
    rw [hact] at htasks
    exact .single (.still leaves.runs htasks (leaves.live hfree) (leaves.issued hfree))
  cases request with
  | createRun new => exact moves_of_createRun fresh answered
  | commit ref expected commit => exact moves_of_commit admits fresh answered
  | enqueueTask task => exact admits.elim
  | claimTask poll => exact hacts _ rfl (moves_claim world.store poll _)
  | completeTask taskId token => exact hacts _ rfl (moves_complete admits _)
  | failTask taskId token reason delay => exact hacts _ rfl (moves_fail world.store taskId token _ _ _)
  | heartbeatTask taskId token extension =>
      exact hacts _ rfl (moves_heartbeat world.store taskId token _ _)
  | popDueTimers now limit =>
      obtain ⟨-, rfl⟩ := Prod.mk.inj answered
      exact .single (.popped now limit admits)
  | scheduleTimer timer =>
      obtain ⟨-, rfl⟩ := Prod.mk.inj answered
      exact .single (.rescheduled timer admits)
  | _ => exact hstill rfl rfl rfl

end World

/-! ## Programs -/

namespace Program

variable {α β : Type} {rules : Rules} {fires : Prop}

/-- Each request is admitted at any time to come, and so are those that follow its answer; what is
returned satisfies the condition. -/
def Plays (rules : Rules) (fires : Prop) (post : α → Store → Prop) : Program α → Store → Prop
  | .done value, store => post value store
  | .ask request next, store => ∀ world : World, Leads rules store world.store →
      Sane rules world.store → rules.Admits fires world.store request ∧
      ∀ answer after, World.answer request world = (.ok answer, after) →
        request.BeginsNew world.store answer → Plays rules fires post (next answer) after.store
  | .crash _, _ => True

theorem Plays.weaken {first second : α → Store → Prop} {program : Program α} {store : Store}
    (plays : program.Plays rules fires first store)
    (himplies : ∀ value later, first value later → second value later) :
    program.Plays rules fires second store := by
  induction program generalizing store with
  | done value => exact himplies value store plays
  | crash cause => trivial
  | ask request next ih =>
      intro world leads sane
      obtain ⟨admits, hnext⟩ := plays world leads sane
      exact ⟨admits, fun answer after answered fresh =>
        ih answer (hnext answer after answered fresh)⟩

theorem Plays.bind {post : β → Store → Prop} {program : Program α} {next : α → Program β}
    {store : Store}
    (plays : program.Plays rules fires (fun value later => (next value).Plays rules fires post later)
      store) :
    (program >>= next).Plays rules fires post store := by
  induction program generalizing store with
  | done value => exact plays
  | crash cause => trivial
  | ask request rest ih =>
      intro world leads sane
      obtain ⟨admits, hrest⟩ := plays world leads sane
      exact ⟨admits, fun answer after answered fresh =>
        ih answer (hrest answer after answered fresh)⟩

theorem Plays.later {program : Program α} {before after : Store}
    (plays : program.Plays rules fires (fun _ _ => True) before) (leads : Leads rules before after) :
    program.Plays rules fires (fun _ _ => True) after := by
  cases program with
  | done value => trivial
  | crash cause => trivial
  | ask request next => exact fun world more sane => plays world (leads.trans more) sane

theorem Plays.since {post : α → Store → Prop} {program : Program α} {start store : Store}
    (plays : program.Plays rules fires post store) (leads : Leads rules start store) :
    program.Plays rules fires (fun value later => post value later ∧ Leads rules start later)
      store := by
  induction program generalizing store with
  | done value => exact ⟨plays, leads⟩
  | crash cause => trivial
  | ask request next ih =>
      intro world more sane
      obtain ⟨admits, hnext⟩ := plays world more sane
      refine ⟨admits, fun answer after answered fresh => ?_⟩
      have moved : Leads rules world.store after.store :=
        (World.moves_of_answer admits fresh answered).lift id fun _ _ move =>
          move.mono fun _ => trivial
      exact ih answer (hnext answer after answered fresh) ((leads.trans more).trans moved)

theorem Plays.sane {post : α → Store → Prop} {program : Program α} {store : Store}
    (plays : program.Plays rules fires post store) (lawful : rules.Lawful) (sane : Sane rules store) :
    program.Plays rules fires (fun value later => post value later ∧ Sane rules later) store := by
  induction program generalizing store with
  | done value => exact ⟨plays, sane⟩
  | crash cause => trivial
  | ask request next ih =>
      intro world leads here
      obtain ⟨admits, hnext⟩ := plays world leads here
      refine ⟨admits, fun answer after answered fresh => ?_⟩
      apply ih answer (hnext answer after answered fresh)
      apply here.leads lawful
      exact (World.moves_of_answer admits fresh answered).lift id fun _ _ move =>
        move.mono fun _ => trivial

theorem Plays.yields {post : α → Store → Prop} {program : Program α} {store : Store}
    (plays : program.Plays rules fires post store) :
    program.Plays rules fires (fun value later => post value later ∧ program.Yields value)
      store := by
  induction program generalizing store with
  | done value => exact ⟨plays, .done value⟩
  | crash cause => trivial
  | ask request next ih =>
      intro world more sane
      obtain ⟨admits, hnext⟩ := plays world more sane
      refine ⟨admits, fun answer after answered fresh => ?_⟩
      apply (ih answer (hnext answer after answered fresh)).weaken
      intro value later hvalue
      exact ⟨hvalue.1, .ask answer hvalue.2⟩

theorem Plays.request {post : β → Store → Prop} {request : Request}
    {next : request.Answer → Program β} {store : Store}
    (h : ∀ world : World, Leads rules store world.store → Sane rules world.store →
      rules.Admits fires world.store request ∧
      ∀ answer after, World.answer request world = (.ok answer, after) →
        request.BeginsNew world.store answer → (next answer).Plays rules fires post after.store) :
    (Program.request request >>= next).Plays rules fires post store := h

theorem Plays.getRun {post : β → Store → Prop} {ref : RunRef}
    {next : Except StoreError Run → Program β} {store : Store}
    (hnone : ∀ later, later.runs.find? ref = none →
      (next (.error (.runNotFound ref))).Plays rules fires post later)
    (hsome : ∀ later record, Leads rules store later → Sane rules later →
      later.runs.find? ref = some record → (next (.ok record.run)).Plays rules fires post later) :
    (Program.request (.getRun ref) >>= next).Plays rules fires post store := by
  apply Plays.request
  intro world leads sane
  refine ⟨trivial, ?_⟩
  intro answer after answered _
  obtain ⟨rfl, ⟨hfind, rfl⟩ | ⟨record, hfind, rfl⟩⟩ := World.answer_getRun_cases answered
  · exact hnone _ hfind
  · exact hsome _ record leads sane hfind

theorem Plays.readEvents {post : β → Store → Prop} {ref : RunRef}
    {next : Except StoreError (List HistoryEvent) → Program β} {store : Store}
    (hnone : ∀ later, later.runs.find? ref = none →
      (next (.error (.runNotFound ref))).Plays rules fires post later)
    (hsome : ∀ later record, Leads rules store later → Sane rules later →
      later.runs.find? ref = some record →
      (next (.ok record.events)).Plays rules fires post later) :
    (Program.request (.readEvents ref 0) >>= next).Plays rules fires post store := by
  apply Plays.request
  intro world leads sane
  refine ⟨trivial, ?_⟩
  intro answer after answered _
  obtain ⟨rfl, ⟨hfind, rfl⟩ | ⟨record, hfind, rfl⟩⟩ := World.answer_readEvents_cases answered
  · exact hnone _ hfind
  · exact hsome _ record leads sane hfind

/-- A request that anybody may make is a series of moves like those of others. -/
theorem Plays.ask {post : β → Store → Prop} {request : Request}
    {next : request.Answer → Program β} {store : Store} (hfree : request.isFree = true)
    (hnext : ∀ answer later, Leads rules store later →
      (next answer).Plays rules fires post later) :
    (Program.request request >>= next).Plays rules fires post store := by
  apply Plays.request
  intro world leads _
  have admits : rules.Admits fires world.store request := by
    cases request <;> trivial
  refine ⟨admits, fun answer after answered fresh => hnext answer after.store (leads.trans ?_)⟩
  exact (World.moves_of_answer admits fresh answered).lift id fun _ _ move =>
    move.mono fun _ => trivial

/-- A program with nothing to lose plays by the rules from any store on. -/
def PlaysAnywhere (rules : Rules) (fires : Prop) (program : Program α) : Prop :=
  ∀ store, program.Plays rules fires (fun _ _ => True) store

theorem PlaysAnywhere.pure (value : α) : PlaysAnywhere rules fires (pure value : Program α) :=
  fun _ => trivial

theorem PlaysAnywhere.crash (cause : Crash) :
    PlaysAnywhere rules fires (.crash cause : Program α) := fun _ => trivial

theorem PlaysAnywhere.bind {program : Program α} {next : α → Program β}
    (first : PlaysAnywhere rules fires program)
    (rest : ∀ value, PlaysAnywhere rules fires (next value)) :
    PlaysAnywhere rules fires (program >>= next) :=
  fun store => ((first store).weaken fun value later _ => rest value later).bind

theorem PlaysAnywhere.admitted {request : Request}
    (admits : ∀ store, rules.Admits fires store request) :
    PlaysAnywhere rules fires (Program.request request) :=
  fun _ world _ _ => ⟨admits world.store, fun _ _ _ _ => trivial⟩

theorem PlaysAnywhere.ask {request : Request} (hfree : request.isFree = true) :
    PlaysAnywhere rules fires (Program.request request) :=
  fun _ => Plays.ask hfree fun _ _ _ => trivial

end Program

end Chronicle
