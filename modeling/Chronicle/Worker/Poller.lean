import Chronicle.Engine.Program
import Chronicle.Time.Moment

/-!
# Polling for tasks

A long poll waits in the store until there is a task for it or its time is over.  Between
unsuccessful polls a poller pauses, longer each time.
-/

namespace Chronicle

/-! ## Long polls -/

structure LongPoll where
  request : PollRequest
  deadline : Moment
  lookAgainAt : Moment
  /-- Wakeups of the store up to the last look. -/
  seen : Nat
  deriving DecidableEq, Repr

namespace LongPoll

/-- The end of a poll, or the poll that goes on. -/
inductive Look where
  | finished (task : Option LeasedTask)
  | waiting (poll : LongPoll)
  deriving DecidableEq, Repr

/-- Shortest wait for a task that is about to become available. -/
def shortestWait : Span := .ofMillis 1

/-- Time to wait if there may be a task at the given instant. -/
def pause (poll : LongPoll) (moment : Moment) (next : Option Instant) (now : Instant) : Nat :=
  let rest := poll.deadline - moment
  match next with
  | some instant => min rest (max (instant.remaining now).nanos shortestWait.nanos)
  | none => rest

/-- Looks into the store, and says when to look again if there is no task. -/
def look (poll : LongPoll) (moment : Moment) : Program Look := do
  let seen ← .request .wakeups
  match ← .request (.claimTask poll.request) with
  | .claimed task => return .finished (some task)
  | .nothing next =>
      if poll.deadline ≤ moment then return .finished none
      else
        let now ← .request .now
        return .waiting { poll with
          lookAgainAt := moment + poll.pause moment next now
          seen := seen }

/-- Begins a poll; the store may refuse it. -/
def start (request : PollRequest) (moment : Moment) : Program (Except StoreError LongPoll) := do
  match ← .request .openPoll with
  | .ok _ => return .ok ⟨request, moment.after request.waitLimit, moment, 0⟩
  | .error error => return .error error

/-- A poll looks again after a while, or when the store wakes it. -/
def isReady (poll : LongPoll) (moment : Moment) (wakeups : Nat) : Bool :=
  poll.lookAgainAt ≤ moment || wakeups != poll.seen

end LongPoll

/-! ## Pauses -/

structure PollerConfig where
  minInterval : Span
  maxInterval : Span
  multiplier : Binary64
  deriving DecidableEq, Repr

namespace PollerConfig

def standard : PollerConfig := ⟨.zero, .ofSeconds 1, .ofNat 2⟩

/-- A pause never shrinks after an unsuccessful poll. -/
def withMultiplier (config : PollerConfig) (multiplier : Binary64) : PollerConfig :=
  { config with multiplier := multiplier.max (.ofNat 1) }

def toJson (config : PollerConfig) : Json :=
  .record [("min_interval", config.minInterval.toJson), ("max_interval", config.maxInterval.toJson),
    ("backoff_multiplier", .ofFloat config.multiplier)]

def ofJson? (value : Json) : Option PollerConfig := do
  let minInterval ← value.required "min_interval" Span.ofJson?
  let maxInterval ← value.required "max_interval" Span.ofJson?
  let multiplier ← value.required "backoff_multiplier" Json.number?
  some ⟨minInterval, maxInterval, multiplier⟩

end PollerConfig

structure Poller where
  request : PollRequest
  config : PollerConfig
  interval : Span
  deriving DecidableEq, Repr

namespace Poller

def create (request : PollRequest) (config : PollerConfig) : Poller :=
  ⟨request, config, config.minInterval⟩

/-- Pause from which a poller without one grows. -/
def firstStep : Span := .ofMillis 10

def reset (poller : Poller) : Poller := { poller with interval := poller.config.minInterval }

/-- The next longer pause; none if the product is no span at all. -/
def slower? (poller : Poller) : Option Poller :=
  let base := poller.interval.max firstStep
  (Span.ofBinary64? (base.toBinary64.mul poller.config.multiplier)).map fun next =>
    { poller with interval := next.min poller.config.maxInterval }

/-- The poller after a poll; none if it fails. -/
def afterPoll? (poller : Poller) (result : Except StoreError (Option LeasedTask)) : Option Poller :=
  match result with
  | .ok (some _) => some poller.reset
  | .ok none => poller.slower?
  | .error _ => poller.slower?

end Poller

end Chronicle
