import Chronicle.Store.Timer

/-!
# The timer queue

Timers by fire time, those of one instant in the order in which they were scheduled.  A run has
at most one timer for each purpose.  Cancelling a timer leaves its place in the order behind;
such places are skipped when they come up.
-/

namespace Chronicle

/-- Place of a timer in the order: fire time, then number. -/
structure TimerSlot where
  fireAt : Instant
  number : Nat
  deriving DecidableEq, Repr

def TimerSlot.notAfter (left right : TimerSlot) : Bool :=
  left.fireAt < right.fireAt || (left.fireAt = right.fireAt && left.number ≤ right.number)

structure TimerQueue where
  /-- Places in ascending order, also those of timers that are gone. -/
  slots : List TimerSlot
  live : List (Nat × Timer)
  issued : Nat
  deriving DecidableEq, Repr

namespace TimerQueue

def empty : TimerQueue := ⟨[], [], 0⟩

def count (queue : TimerQueue) : Nat := queue.live.length

def insertSlot (slot : TimerSlot) : List TimerSlot → List TimerSlot
  | [] => [slot]
  | other :: rest =>
      if slot.notAfter other then slot :: other :: rest else other :: insertSlot slot rest

def cancel (queue : TimerQueue) (run : RunRef) (purpose : TimerPurpose) : TimerQueue :=
  { queue with
    live := queue.live.filter fun entry => !(entry.2.run = run && entry.2.purpose = purpose) }

/-- Adds a timer in place of the run's earlier one for the same purpose. -/
def schedule (queue : TimerQueue) (timer : Timer) : TimerQueue :=
  let queue := queue.cancel timer.run timer.purpose
  { slots := insertSlot ⟨timer.fireAt, queue.issued⟩ queue.slots
    live := queue.live ++ [(queue.issued, timer)]
    issued := queue.issued + 1 }

def purge (queue : TimerQueue) (run : RunRef) : TimerQueue :=
  { queue with live := queue.live.filter fun entry => entry.2.run != run }

/-- Takes at most `limit` live timers that are due from the front of the order. -/
def take (now : Instant) : Nat → List TimerSlot → List (Nat × Timer) →
    List Timer × List TimerSlot × List (Nat × Timer)
  | 0, slots, live => ([], slots, live)
  | _, [], live => ([], [], live)
  | limit + 1, slot :: slots, live =>
      match live.lookup slot.number with
      | none => take now (limit + 1) slots live
      | some timer =>
          if now < slot.fireAt then ([], slot :: slots, live)
          else
            let (due, slots, live) :=
              take now limit slots (live.filter fun entry => entry.1 != slot.number)
            (timer :: due, slots, live)

def popDue (queue : TimerQueue) (now : Instant) (limit : Nat) : TimerQueue × List Timer :=
  let (due, slots, live) := take now limit queue.slots queue.live
  ({ queue with slots := slots, live := live }, due)

/-- The order without the places of timers that are gone at its front. -/
def skipGone (live : List (Nat × Timer)) : List TimerSlot → List TimerSlot
  | [] => []
  | slot :: slots =>
      if (live.lookup slot.number).isSome then slot :: slots else skipGone live slots

def nextAt (queue : TimerQueue) : TimerQueue × Option Instant :=
  let slots := skipGone queue.live queue.slots
  ({ queue with slots := slots }, slots.head?.map TimerSlot.fireAt)

end TimerQueue

end Chronicle
