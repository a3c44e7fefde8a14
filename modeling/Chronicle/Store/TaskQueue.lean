import Chronicle.Store.Commit

/-!
# The task queue

Tasks in the order in which they were enqueued.  A task is handed out under a lease and stays
in the queue until its holder completes it; when the lease expires it can be handed out again.
A run has at most one workflow task that nobody holds.
-/

namespace Chronicle

structure Lease where
  token : Uuid
  workerId : String
  expiresAt : Instant
  deriving DecidableEq, Repr

structure TaskRecord where
  taskId : Uuid
  taskQueue : String
  work : Work
  visibleAt : Instant
  lease : Option Lease
  deliveryCount : Nat
  cancelRequested : Bool
  lastError : Option String
  deriving DecidableEq, Repr

namespace TaskRecord

def availableAt (record : TaskRecord) : Instant :=
  match record.lease with
  | some lease => lease.expiresAt
  | none => record.visibleAt

def isPendingWorkflowOf (record : TaskRecord) (run : RunRef) : Bool :=
  record.lease.isNone && record.work.isWorkflowOf run

def matchesRequest (record : TaskRecord) (request : PollRequest) : Bool :=
  record.taskQueue = request.taskQueue && record.work.kind = request.kind &&
    (request.types.isEmpty || request.types.contains record.work.typeName)

end TaskRecord

structure TaskQueue where
  records : List TaskRecord
  /-- Number of tasks enqueued so far, which supplies task ids. -/
  issued : Nat
  /-- Number of leases granted so far, which supplies lease tokens. -/
  granted : Nat
  deriving DecidableEq, Repr

namespace TaskQueue

def empty : TaskQueue := ⟨[], 0, 0⟩

def taskId (number : Nat) : Uuid := .generated 1 number

def leaseToken (number : Nat) : Uuid := .generated 2 number

/-- Number of tasks without a lease; an expired lease still counts. -/
def pendingCount (queue : TaskQueue) : Nat :=
  (queue.records.filter fun record => record.lease.isNone).length

def find? (queue : TaskQueue) (taskId : Uuid) : Option TaskRecord :=
  queue.records.find? fun record => record.taskId = taskId

def modify (queue : TaskQueue) (taskId : Uuid) (change : TaskRecord → TaskRecord) : TaskQueue :=
  { queue with
    records := queue.records.map fun record =>
      if record.taskId = taskId then change record else record }

def remove (queue : TaskQueue) (taskId : Uuid) : TaskQueue :=
  { queue with records := queue.records.filter fun record => record.taskId != taskId }

/-- Makes a task visible no later than at the given instant. -/
def hasten (visibleAt : Instant) (record : TaskRecord) : TaskRecord :=
  { record with visibleAt := if visibleAt < record.visibleAt then visibleAt else record.visibleAt }

def modifyFirst (condition : TaskRecord → Bool) (change : TaskRecord → TaskRecord) :
    List TaskRecord → List TaskRecord
  | [] => []
  | record :: rest =>
      if condition record then change record :: rest
      else record :: modifyFirst condition change rest

/-- Whether the task would repeat a workflow task that is waiting already. -/
def isCovered (queue : TaskQueue) (work : Work) : Bool :=
  match work with
  | .workflow run _ => queue.records.any fun record => record.isPendingWorkflowOf run
  | .activity _ => false

def add (queue : TaskQueue) (task : NewTask) (visibleAt : Instant) : TaskQueue :=
  { queue with
    records := queue.records ++
      [⟨taskId queue.issued, task.taskQueue, task.work, visibleAt, none, 0, false, none⟩]
    issued := queue.issued + 1 }

/-- Adds a task, or hastens the waiting one that covers it. -/
def enqueue (queue : TaskQueue) (task : NewTask) (now : Instant) : TaskQueue × Option Uuid :=
  let visibleAt := now.after task.delay
  if queue.isCovered task.work then
    ({ queue with
        records := modifyFirst (fun record => record.isPendingWorkflowOf task.work.run)
          (hasten visibleAt) queue.records }, none)
  else (queue.add task visibleAt, some (taskId queue.issued))

/-- Earliest of the instants at which the tasks become available. -/
def earliest? : List TaskRecord → Option Instant
  | [] => none
  | record :: rest =>
      match earliest? rest with
      | some other => some (if other < record.availableAt then other else record.availableAt)
      | none => some record.availableAt

/-- A task that was handed out, or the instant at which there may be one. -/
inductive Claim where
  | claimed (task : LeasedTask)
  | nothing (next : Option Instant)
  deriving DecidableEq, Repr

def claim (queue : TaskQueue) (request : PollRequest) (now : Instant) : TaskQueue × Claim :=
  let matching := queue.records.filter fun record => record.matchesRequest request
  match matching.find? fun record => record.availableAt ≤ now with
  | none => (queue, .nothing (earliest? matching))
  | some record =>
      let lease : Lease :=
        ⟨leaseToken queue.granted, request.workerId, now.after request.leaseDuration⟩
      let delivery := record.deliveryCount + 1
      let queue := queue.modify record.taskId fun record =>
        { record with lease := some lease, deliveryCount := delivery }
      ({ queue with granted := queue.granted + 1 },
        .claimed ⟨record.taskId, lease.token, record.taskQueue, record.work, delivery,
          lease.expiresAt⟩)

/-- The task, if the token is the one of its current lease. -/
def held (queue : TaskQueue) (taskId token : Uuid) : Except StoreError TaskRecord :=
  match queue.find? taskId with
  | none => .error (.taskNotFound taskId)
  | some record =>
      match record.lease with
      | some lease => if lease.token = token then .ok record else .error (.leaseLost taskId)
      | none => .error (.leaseLost taskId)

def complete (queue : TaskQueue) (taskId token : Uuid) : Except StoreError TaskQueue :=
  match queue.held taskId token with
  | .ok _ => .ok (queue.remove taskId)
  | .error error => .error error

/-- Gives a task back; a workflow task disappears if another one is waiting for its run. -/
def fail (queue : TaskQueue) (taskId token : Uuid) (reason : String) (delay : Span)
    (now : Instant) : Except StoreError TaskQueue :=
  match queue.held taskId token with
  | .error error => .error error
  | .ok record =>
      let released := queue.modify taskId fun record =>
        { record with lease := none, visibleAt := now.after delay, lastError := some reason }
      if queue.isCovered record.work then .ok (released.remove taskId) else .ok released

def heartbeat (queue : TaskQueue) (taskId token : Uuid) (extension : Span) (now : Instant) :
    Except StoreError (TaskQueue × HeartbeatReply) :=
  match queue.held taskId token with
  | .error error => .error error
  | .ok record =>
      let extended := queue.modify taskId fun record =>
        { record with
          lease := record.lease.map fun lease => { lease with expiresAt := now.after extension } }
      .ok (extended, ⟨true, record.cancelRequested⟩)

/-- Removes the selected tasks nobody holds and asks the holders of the others to cancel. -/
def withdraw (queue : TaskQueue) (selected : Work → Bool) : TaskQueue :=
  { queue with
    records := queue.records.filterMap fun record =>
      if selected record.work then
        if record.lease.isNone then none else some { record with cancelRequested := true }
      else some record }

def cancelActivity (queue : TaskQueue) (run : RunRef) (activityId : String) : TaskQueue :=
  queue.withdraw fun work => work.isActivityOf run activityId

def purge (queue : TaskQueue) (run : RunRef) : TaskQueue :=
  queue.withdraw fun work => work.run = run

end TaskQueue

end Chronicle
