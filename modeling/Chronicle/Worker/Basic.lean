import Chronicle.Worker.Attempt
import Chronicle.Worker.Config
import Chronicle.Worker.TaskLoop

/-!
# Workers

A worker has several parts that take turns: a loop for each kind of task, a ticker for timers,
and the tasks it works on.  Parts with something to do stand in a line; the others wait.
-/

namespace Chronicle

inductive WorkerStatus where
  | running
  | draining
  | stopped
  deriving DecidableEq, Repr

def WorkerStatus.name : WorkerStatus → String
  | .running => "Running"
  | .draining => "Draining"
  | .stopped => "Stopped"

inductive WorkerError where
  | store (error : StoreError)
  | alreadyRunning
  | nothingRegistered
  | shutdownTimeout
  deriving DecidableEq, Repr

def WorkerError.message : WorkerError → String
  | .store error => s!"store error: {error.message}"
  | .alreadyRunning => "worker is already running"
  | .nothingRegistered => "no workflows or activities registered"
  | .shutdownTimeout => "graceful shutdown timed out"

/-! ## Parts -/

inductive WorkerPart where
  | taskLoop (kind : TaskKind) (loop : TaskLoop)
  /-- The ticker has no next tick before its first turn. -/
  | ticker (ticksAt : Option Moment)
  /-- A claimed task that was not begun yet. -/
  | claimed (task : LeasedTask)
  | running (attempt : Attempt)

namespace WorkerPart

/-- Loops and tickers run until the worker stops, tasks run to their end. -/
def isService : WorkerPart → Bool
  | .taskLoop .. => true
  | .ticker _ => true
  | _ => false

def slot? : WorkerPart → Option TaskKind
  | .taskLoop kind loop => if loop.holdsSlot then some kind else none
  | .ticker _ => none
  | .claimed task => some task.work.kind
  | .running _ => some .activity

def nextMoment? : WorkerPart → Option Moment
  | .taskLoop _ loop => loop.nextMoment?
  | .ticker ticksAt => ticksAt
  | .claimed _ => none
  | .running attempt => some attempt.nextMoment

end WorkerPart

structure Worker where
  config : WorkerConfig
  limits : EngineLimits
  workflows : List String
  activities : ActivityRegistry
  status : WorkerStatus
  /-- The services were told to end. -/
  stopping : Bool
  /-- Parts with something to do, in the order of their turns. -/
  ready : List WorkerPart
  /-- Parts that wait, in the order in which they began to. -/
  idle : List WorkerPart

namespace Worker

/-- Greatest number of slots for one kind of task. -/
def slotLimit : Nat := Nat.pow 2 61 - 1

/-- A worker needs a slot for each kind of task, and there is a limit to their number. -/
def create? (config : WorkerConfig) (limits : EngineLimits) (workflows : List String)
    (activities : ActivityRegistry) : Option Worker :=
  let config := (config.withWorkflowSlots config.workflowSlots).withActivitySlots
    config.activitySlots
  if config.workflowSlots ≤ slotLimit && config.activitySlots ≤ slotLimit then
    some ⟨config, limits, workflows, activities, .stopped, false, [], []⟩
  else none

def parts (worker : Worker) : List WorkerPart := worker.ready ++ worker.idle

def busySlots (worker : Worker) (kind : TaskKind) : Nat :=
  (worker.parts.filter fun part => part.slot? = some kind).length

def freeSlots (worker : Worker) (kind : TaskKind) : Nat :=
  worker.config.slots kind - worker.busySlots kind

/-- The engine for the worker's workflow types, with their present code. -/
def engine (worker : Worker) (catalogue : WorkflowRegistry) : Engine :=
  ⟨catalogue.restrict worker.workflows, worker.limits⟩

def activityService (worker : Worker) (catalogue : WorkflowRegistry) : ActivityService :=
  ⟨worker.engine catalogue, worker.activities, worker.config.workerId, worker.config.activityLease⟩

/-! ## Start -/

def pollRequest (worker : Worker) (kind : TaskKind) : PollRequest :=
  { taskQueue := worker.config.taskQueue
    kind := kind
    types := match kind with
      | .workflow => worker.workflows
      | .activity => worker.activities.names
    workerId := worker.config.workerId
    leaseDuration := worker.config.lease kind
    waitLimit := worker.config.longPoll }

def taskLoop (worker : Worker) (kind : TaskKind) : WorkerPart :=
  .taskLoop kind (.create (.create (worker.pollRequest kind) worker.config.poller))

/-- A ticker without a period between its ticks fails at once. -/
def tickerParts (worker : Worker) : List WorkerPart :=
  if worker.config.runTimerService && !worker.config.timer.tickInterval.isZero
  then [.ticker none] else []

def services (worker : Worker) : List WorkerPart :=
  (if worker.workflows.isEmpty then [] else [worker.taskLoop .workflow]) ++
    (if worker.activities.names.isEmpty then [] else [worker.taskLoop .activity]) ++
    worker.tickerParts

def start (worker : Worker) : Worker × Except WorkerError Unit :=
  if worker.status != .stopped then (worker, .error .alreadyRunning)
  else if worker.workflows.isEmpty && worker.activities.names.isEmpty &&
      !worker.config.runTimerService then (worker, .error .nothingRegistered)
  else
    ({ worker with
      status := .running
      stopping := false
      ready := worker.ready ++ worker.services }, .ok ())

/-! ## Turns -/

/-- What a turn of a part leaves: new parts, and the part itself unless it has ended. -/
structure PartTurn where
  spawned : List WorkerPart
  rest : Option WorkerPart

/-- Gives a task back, to be handed out again after a delay. -/
def failTask (worker : Worker) (task : LeasedTask) (error : EngineError) : Program Unit := do
  let _ ← .request (.failTask task.taskId task.token error.message worker.config.taskRetryDelay)

def runWorkflowTask (worker : Worker) (catalogue : WorkflowRegistry) (task : LeasedTask) :
    Program Unit := do
  match ← (worker.engine catalogue).processTask task.work.run with
  | .ok _ =>
      let _ ← .request (.completeTask task.taskId task.token)
  | .error error => worker.failTask task error

def afterAttempt (worker : Worker) (task : LeasedTask) : Attempt.Turn → Program PartTurn
  | .waiting attempt => return ⟨[], some (.running attempt)⟩
  | .finished (.ok _) => return ⟨[], none⟩
  | .finished (.error error) => do
      worker.failTask task error
      return ⟨[], none⟩

/-- A tick that is later than this delays the ticks after it. -/
def tickTolerance : Span := .ofMillis 5

/-- One tick follows another after a period, which starts anew after a tick that came too late. -/
def tickAfter (worker : Worker) (moment ticksAt : Moment) : Moment :=
  let start := if ticksAt.after tickTolerance < moment then moment else ticksAt
  start.after worker.config.timer.tickInterval

/-- The first tick comes at once. -/
def tick (worker : Worker) (catalogue : WorkflowRegistry) (moment : Moment)
    (ticksAt : Option Moment) : Program PartTurn :=
  let dueAt := ticksAt.getD moment
  if worker.stopping then return ⟨[], none⟩
  else if moment < dueAt then return ⟨[], some (.ticker ticksAt)⟩
  else do
    let _ ← (⟨worker.engine catalogue, worker.config.timer⟩ : TimerService).fireDue
    return ⟨[], some (.ticker (some (worker.tickAfter moment dueAt)))⟩

def partTurn (worker : Worker) (catalogue : WorkflowRegistry) (moment : Moment) :
    WorkerPart → Program PartTurn
  | .taskLoop kind loop => do
      let turn ← loop.turn moment worker.stopping (worker.freeSlots kind)
      return ⟨turn.claimed.map .claimed, turn.loop.map (.taskLoop kind)⟩
  | .ticker ticksAt => worker.tick catalogue moment ticksAt
  | .claimed task =>
      match task.work with
      | .workflow .. => do
          worker.runWorkflowTask catalogue task
          return ⟨[], none⟩
      | .activity _ => do
          worker.afterAttempt task (← (worker.activityService catalogue).begin moment task)
  | .running attempt => do
      worker.afterAttempt attempt.task
        (← (worker.activityService catalogue).turn moment attempt)

/-! ## Turn taking -/

def isDue (met : Moment) (part : WorkerPart) : Bool := part.nextMoment?.any (· ≤ met)

/-- The part was woken before its deadline. -/
def isWoken (worker : Worker) (wakeups : Nat) : WorkerPart → Bool
  | .taskLoop _ loop => loop.isWoken worker.stopping wakeups
  | .ticker _ => worker.stopping
  | .claimed _ => true
  | .running _ => false

/-- There is a slot for a part that waits for one. -/
def hasSlotFor (worker : Worker) : WorkerPart → Bool
  | .taskLoop kind loop => loop.stage = .awaitingSlot && 0 < worker.freeSlots kind
  | _ => false

def isDueBefore (left right : WorkerPart) : Bool :=
  match left.nextMoment?, right.nextMoment? with
  | some left, some right => left.tick ≤ right.tick
  | _, _ => true

/--
Moves the parts that have something to do to the end of the line: first those whose deadline has
passed, in the order of their deadlines, then those that were woken, and last, since a task gives
its slot back after all else, those for which there is a slot.
-/
def rouse (worker : Worker) (met : Moment) (wakeups : Nat) : Worker :=
  let (due, idle) := worker.idle.partition (isDue met)
  let (woken, idle) := idle.partition (worker.isWoken wakeups)
  let (admitted, idle) := idle.partition worker.hasSlotFor
  { worker with
    ready := worker.ready ++ due.mergeSort isDueBefore ++ woken ++ admitted
    idle := idle }

/-- Gives a turn to a part that was taken out of the line.  One that crashes is gone. -/
def takeTurn {σ : Type} (handler : Program.Handler σ) (catalogue : WorkflowRegistry)
    (moment : Moment) (worker : Worker) (part : WorkerPart) (state : σ) : Worker × σ :=
  match (worker.partTurn catalogue moment part).run handler state with
  | (.ok turn, state) =>
      ({ worker with
        ready := worker.ready ++ turn.spawned
        idle := worker.idle ++ turn.rest.toList }, state)
  | (.error _, state) => (worker, state)

/--
Gives turns until all parts wait; the last number bounds the turns.  Deadlines are met up to the
first moment, and parts act at the second one.
-/
def settle {σ : Type} (handler : Program.Handler σ) (catalogue : WorkflowRegistry)
    (met moment : Moment) : Nat → Worker → σ → Worker × σ
  | 0, worker, state => (worker, state)
  | limit + 1, worker, state =>
      match handler .wakeups state with
      | (.error _, state) => (worker, state)
      | (.ok wakeups, state) =>
          let worker := worker.rouse met wakeups
          match worker.ready with
          | [] => (worker, state)
          | part :: rest =>
              let (worker, state) :=
                takeTurn handler catalogue moment { worker with ready := rest } part state
              settle handler catalogue met moment limit worker state

def settleLimit : Nat := 100000

def nextMoment? (worker : Worker) : Option Moment :=
  (worker.idle.filterMap WorkerPart.nextMoment?).min?

end Worker

end Chronicle
