import Chronicle.Worker.Poller

/-!
# Task loops

A loop claims tasks of one kind for a worker.  It takes a slot, polls until there is a task, and
hands the slot over to the task; without a task it gives the slot back and pauses.  It ends when
the worker stops, but does not notice that while it waits for a slot.
-/

namespace Chronicle

inductive LoopStage where
  | awaitingSlot
  /-- With a slot, for a task. -/
  | polling (poll : LongPoll)
  | pausing (endsAt : Moment)
  deriving DecidableEq, Repr

structure TaskLoop where
  poller : Poller
  stage : LoopStage
  deriving DecidableEq, Repr

namespace TaskLoop

/-- Tasks that were claimed in a turn, and the loop unless it has ended. -/
structure Turn where
  claimed : List LeasedTask
  loop : Option TaskLoop
  deriving DecidableEq, Repr

def create (poller : Poller) : TaskLoop := ⟨poller, .awaitingSlot⟩

def holdsSlot (loop : TaskLoop) : Bool :=
  match loop.stage with
  | .polling _ => true
  | _ => false

/-- Goes on after a poll: with the next poll, or with a pause.  A poller that fails ends the loop. -/
def afterPoll (moment : Moment) (again : Poller → Nat → List LeasedTask → Program Turn)
    (poller : Poller) (free : Nat) (claimed : List LeasedTask)
    (result : Except StoreError (Option LeasedTask)) : Program Turn :=
  match poller.afterPoll? result, result with
  | none, _ => return ⟨claimed, none⟩
  | some poller, .ok (some task) => again poller (free - 1) (claimed ++ [task])
  | some poller, _ =>
      if poller.interval.isZero then again poller free claimed
      else return ⟨claimed, some ⟨poller, .pausing (moment.after poller.interval)⟩⟩

def look (moment : Moment) (again : Poller → Nat → List LeasedTask → Program Turn)
    (poller : Poller) (free : Nat) (claimed : List LeasedTask) (poll : LongPoll) :
    Program Turn := do
  match ← poll.look moment with
  | .finished task => afterPoll moment again poller free claimed (.ok task)
  | .waiting poll => return ⟨claimed, some ⟨poller, .polling poll⟩⟩

/-- Claims tasks into free slots, one after the other; the first number bounds the polls. -/
def seek (moment : Moment) (stopping : Bool) : Nat → Poller → Nat → List LeasedTask → Program Turn
  | 0, _, _, _ => .crash .endless
  | limit + 1, poller, free, claimed =>
      if stopping then return ⟨claimed, none⟩
      else if free = 0 then return ⟨claimed, some ⟨poller, .awaitingSlot⟩⟩
      else do
        match ← LongPoll.start poller.request moment with
        | .error error =>
            afterPoll moment (seek moment stopping limit) poller free claimed (.error error)
        | .ok poll => look moment (seek moment stopping limit) poller free claimed poll

def seekLimit : Nat := 100000

/-- Lets the loop go on, with so many slots free besides those of the other holders. -/
def turn (moment : Moment) (stopping : Bool) (free : Nat) (loop : TaskLoop) : Program Turn :=
  match loop.stage with
  | .polling poll =>
      if stopping then return ⟨[], none⟩
      else look moment (seek moment stopping seekLimit) loop.poller free [] poll
  | _ => seek moment stopping seekLimit loop.poller free []

/-- Whether the store or the end of the worker has woken the loop. -/
def isWoken (stopping : Bool) (wakeups : Nat) (loop : TaskLoop) : Bool :=
  match loop.stage with
  | .awaitingSlot => false
  | .polling poll => stopping || wakeups != poll.seen
  | .pausing _ => stopping

def nextMoment? (loop : TaskLoop) : Option Moment :=
  match loop.stage with
  | .awaitingSlot => none
  | .polling poll => some poll.lookAgainAt
  | .pausing endsAt => some endsAt

end TaskLoop

end Chronicle
