import Chronicle.Replay.Engine
import Chronicle.Store.Basic

/-!
# Programs over a store

An operation of the engine is a program: a sequence of requests to the store, the clock and the
supply of run ids, each of which may depend on the answers before it.  Every request is atomic;
between two of them other programs may act.
-/

namespace Chronicle

inductive Request where
  | now
  | freshRunId
  | createRun (new : NewRun)
  | getRun (ref : RunRef)
  | currentRun (workflowId : String)
  | readEvents (ref : RunRef) (after : Nat)
  | historyVersion (ref : RunRef)
  | commit (ref : RunRef) (expected : Nat) (commit : Commit)
  | enqueueTask (task : NewTask)
  /-- Asks whether the store accepts polls at all; the poll itself is a series of claims. -/
  | openPoll
  | claimTask (request : PollRequest)
  | completeTask (taskId token : Uuid)
  | failTask (taskId token : Uuid) (reason : String) (delay : Span)
  | heartbeatTask (taskId token : Uuid) (extension : Span)
  | popDueTimers (now : Instant) (limit : Nat)
  | scheduleTimer (timer : Timer)
  | nextTimerAt
  | wakeups

@[reducible]
def Request.Answer : Request → Type
  | .now => Instant
  | .freshRunId => Uuid
  | .createRun _ => Except StoreError Unit
  | .getRun _ => Except StoreError Run
  | .currentRun _ => Except StoreError Run
  | .readEvents _ _ => Except StoreError (List HistoryEvent)
  | .historyVersion _ => Except StoreError Nat
  | .commit _ _ _ => Except StoreError Nat
  | .enqueueTask _ => Option Uuid
  | .openPoll => Except StoreError Unit
  | .claimTask _ => TaskQueue.Claim
  | .completeTask _ _ => Except StoreError Unit
  | .failTask _ _ _ _ => Except StoreError Unit
  | .heartbeatTask _ _ _ => Except StoreError HeartbeatReply
  | .popDueTimers _ _ => Except StoreError (List Timer)
  | .scheduleTimer _ => Except StoreError Unit
  | .nextTimerAt => Option Instant
  | .wakeups => Nat

inductive Program (α : Type) where
  | done (value : α)
  | ask (request : Request) (next : request.Answer → Program α)
  | crash (cause : Crash)

namespace Program

def bind {α β : Type} : Program α → (α → Program β) → Program β
  | .done value, next => next value
  | .ask request rest, next => .ask request fun answer => (rest answer).bind next
  | .crash cause, _ => .crash cause

instance : Monad Program where
  pure := .done
  bind := Program.bind

def request (request : Request) : Program request.Answer := .ask request .done

def inOrder {α : Type} : List (Program α) → Program (List α)
  | [] => return []
  | program :: rest => do
      let value ← program
      return value :: (← inOrder rest)

/-- What answers requests, one after the other, from a state of its own.  A request may crash. -/
abbrev Handler (σ : Type) := (request : Request) → σ → Except Crash request.Answer × σ

/-- Runs a program without interruption. -/
def run {σ α : Type} (handler : Handler σ) : Program α → σ → Except Crash α × σ
  | .done value, state => (.ok value, state)
  | .ask request next, state =>
      match handler request state with
      | (.ok answer, state) => (next answer).run handler state
      | (.error cause, state) => (.error cause, state)
  | .crash cause, state => (.error cause, state)

end Program

structure World where
  store : Store
  /-- What the clock shows, unless it cannot be read. -/
  now : Option Instant
  drawnRuns : Nat
  deriving DecidableEq, Repr

namespace World

def runId (number : Nat) : Uuid := .generated 0 number

/-- Takes over the store of a successful update. -/
def update (world : World) (result : Except StoreError (Store × α)) : Except StoreError α × World :=
  match result with
  | .ok (store, value) => (.ok value, { world with store := store })
  | .error error => (.error error, world)

/-- An answer for which nobody has to look at the clock. -/
def timeless (answer : α × World) : Except Crash α × World := (.ok answer.1, answer.2)

/-- An answer that depends on the time. -/
def timed (world : World) (answer : Instant → α × World) : Except Crash α × World :=
  match world.now with
  | some now => timeless (answer now)
  | none => (.error .noTime, world)

/-- A run can be refused, and a lease be lost, before anybody looks at the clock. -/
def answer : Program.Handler World
  | .now, world => world.timed fun now => (now, world)
  | .freshRunId, world =>
      timeless (runId world.drawnRuns, { world with drawnRuns := world.drawnRuns + 1 })
  | .createRun new, world =>
      match world.store.runs.checkStart new none with
      | .error error => timeless (.error error, world)
      | .ok _ =>
          world.timed fun now =>
            world.update ((world.store.createRun new now).map fun store => (store, ()))
  | .getRun ref, world => timeless (world.store.getRun ref, world)
  | .currentRun workflowId, world => timeless (world.store.currentRun workflowId, world)
  | .readEvents ref after, world => timeless (world.store.readEvents ref after, world)
  | .historyVersion ref, world => timeless (world.store.historyVersion ref, world)
  | .commit ref expected commit, world =>
      world.timed fun now => world.update (world.store.commit ref expected commit now)
  | .enqueueTask task, world =>
      world.timed fun now =>
        let (store, taskId) := world.store.enqueueTask task now
        (taskId, { world with store := store })
  | .openPoll, world => timeless (.ok (), world)
  | .claimTask request, world =>
      world.timed fun now =>
        let (store, claim) := world.store.claimTask request now
        (claim, { world with store := store })
  | .completeTask taskId token, world =>
      timeless (world.update ((world.store.completeTask taskId token).map fun store => (store, ())))
  | .failTask taskId token reason delay, world =>
      world.timed fun now =>
        world.update ((world.store.failTask taskId token reason delay now).map
          fun store => (store, ()))
  | .heartbeatTask taskId token extension, world =>
      match world.store.tasks.held taskId token with
      | .error error => timeless (.error error, world)
      | .ok _ =>
          world.timed fun now =>
            world.update (world.store.heartbeatTask taskId token extension now)
  | .popDueTimers now limit, world =>
      let (store, due) := world.store.popDueTimers now limit
      timeless (.ok due, { world with store := store })
  | .scheduleTimer timer, world =>
      timeless (.ok (), { world with store := world.store.addTimer timer })
  | .nextTimerAt, world =>
      let (store, next) := world.store.nextTimerAt
      timeless (next, { world with store := store })
  | .wakeups, world => timeless (world.store.wakeups, world)

end World

end Chronicle
