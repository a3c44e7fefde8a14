import Chronicle.Activity.Behaviour

/-!
# The context of an attempt

Heartbeats travel through a channel of limited capacity; cancellation is a flag.
-/

namespace Chronicle

structure HeartbeatChannel where
  capacity : Nat
  /-- Details of the heartbeats that were not received yet, oldest first. -/
  queue : List (Option Json)
  closed : Bool
  deriving DecidableEq, Repr

namespace HeartbeatChannel

def capacityLimit : Nat := Nat.pow 2 61 - 1

/-- A channel has at least one place, and no more places than the limit. -/
def create? (capacity : Nat) : Option HeartbeatChannel :=
  if capacity ≤ capacityLimit then some ⟨max capacity 1, [], false⟩ else none

def standard : HeartbeatChannel := ⟨16, [], false⟩

def isFull (channel : HeartbeatChannel) : Bool := channel.capacity ≤ channel.queue.length

def push (channel : HeartbeatChannel) (details : Option Json) : HeartbeatChannel :=
  { channel with queue := channel.queue ++ [details] }

def pop? (channel : HeartbeatChannel) : Option (Option Json × HeartbeatChannel) :=
  match channel.queue with
  | [] => none
  | details :: rest => some (details, { channel with queue := rest })

/-- What is in the channel is lost. -/
def close (channel : HeartbeatChannel) : HeartbeatChannel :=
  { channel with queue := [], closed := true }

end HeartbeatChannel

structure ActivityContext where
  info : AttemptInfo
  /-- Without a channel, heartbeats go nowhere. -/
  channel : Option HeartbeatChannel
  cancelled : Bool
  deriving DecidableEq, Repr

inductive Sending where
  | sent (context : ActivityContext)
  | blocked
  | refused (error : HeartbeatError)
  deriving DecidableEq, Repr

namespace ActivityContext

def start (info : AttemptInfo) : ActivityContext := ⟨info, none, false⟩

def cancel (context : ActivityContext) : ActivityContext := { context with cancelled := true }

/-- Sends to the channel, whether or not the attempt is cancelled. -/
def send (context : ActivityContext) (details : Option Json) : Sending :=
  match context.channel with
  | none => .sent context
  | some channel =>
      if channel.closed then .refused .channelClosed
      else if channel.isFull then .blocked
      else .sent { context with channel := some (channel.push details) }

/-- A cancelled attempt sends no heartbeats. -/
def heartbeat (context : ActivityContext) (details : Option Json) : Sending :=
  if context.cancelled then .refused .cancelled else context.send details

def receive (context : ActivityContext) : Option (Option Json) × ActivityContext :=
  match context.channel.bind HeartbeatChannel.pop? with
  | some (details, channel) => (some details, { context with channel := some channel })
  | none => (none, context)

def closeChannel (context : ActivityContext) : ActivityContext :=
  { context with channel := context.channel.map HeartbeatChannel.close }

end ActivityContext

end Chronicle
