import Chronicle.Simulation.Session

/-!
# Watches

A watch is a single wait in a session: for others to act, for a task, or for a result.
-/

namespace Chronicle

/-- What a poller has done: its pause and state afterwards, and how long it took. -/
structure PollerReport (α : Type) where
  result : α
  interval : Span
  stopped : Bool
  took : Nat
  deriving Repr

inductive Watch (α : Type) where
  /-- The clock was set forward to the moment. -/
  | landing (moment : Moment) (answer : Instant → α)
  | task (label : String) (poll : LongPoll) (answer : Except StoreError (Option LeasedTask) → α)
  | pollerTask (name label : String) (held : HeldPoller) (poll : LongPoll) (startedAt : Moment)
      (answer : PollerReport (Except StoreError (Option LeasedTask)) → α)
  | pollerPause (held : HeldPoller) (endsAt startedAt : Moment) (answer : PollerReport Bool → α)
  | result (client : Client) (wait : ResultWait) (lookAgainAt startedAt : Moment)
      (answer : Except ClientError Json → Nat → α)

namespace Watch

variable {α : Type}

/-- A watch goes on, or ends with an answer. -/
abbrev Turn (α : Type) := Session × Except (Watch α) (Except Crash α)

def lookAgainAt : Watch α → Moment
  | .landing moment _ => moment
  | .task _ poll _ => poll.lookAgainAt
  | .pollerTask _ _ _ poll _ _ => poll.lookAgainAt
  | .pollerPause _ endsAt _ _ => endsAt
  | .result _ _ lookAgainAt _ _ => lookAgainAt

def report {β : Type} (session : Session) (held : HeldPoller) (startedAt : Moment) (result : β) :
    PollerReport β :=
  ⟨result, held.poller.interval, held.stopped, Moment.millis (session.moment - startedAt)⟩

/-- The end of a poller's poll.  A poller that fails is lost. -/
def endPollerPoll (session : Session) (name label : String) (held : HeldPoller)
    (startedAt : Moment) (answer : PollerReport (Except StoreError (Option LeasedTask)) → α)
    (result : Except StoreError (Option LeasedTask)) : Turn α :=
  match held.poller.afterPoll? result with
  | none => (session.dropPoller name, .ok (.error (.panicked ⟨none⟩)))
  | some poller =>
      let held := { held with poller := poller }
      ((session.keepResult label result).keepPoller name held,
        .ok (.ok (answer (report session held startedAt result))))

def turn (session : Session) : Watch α → Turn α
  | .landing moment answer =>
      if session.setFrom.isSome then (session, .error (.landing moment answer))
      else
        match session.now with
        | some now => (session, .ok (.ok (answer now)))
        | none => (session, .ok (.error .noTime))
  | .task label poll answer =>
      if !poll.isReady session.moment session.wakeups then
        (session, .error (.task label poll answer))
      else
        match session.ask (poll.look session.moment) with
        | (.error cause, session) => (session, .ok (.error cause))
        | (.ok (.finished found), session) =>
            (session.keepResult label (.ok found), .ok (.ok (answer (.ok found))))
        | (.ok (.waiting poll), session) => (session, .error (.task label poll answer))
  | .pollerTask name label held poll startedAt answer =>
      if !poll.isReady session.moment session.wakeups then
        (session, .error (.pollerTask name label held poll startedAt answer))
      else
        match session.ask (poll.look session.moment) with
        | (.error cause, session) => (session.dropPoller name, .ok (.error cause))
        | (.ok (.finished found), session) =>
            endPollerPoll session name label held startedAt answer (.ok found)
        | (.ok (.waiting poll), session) =>
            (session, .error (.pollerTask name label held poll startedAt answer))
  | .pollerPause held endsAt startedAt answer =>
      if endsAt ≤ session.moment then
        (session, .ok (.ok (answer (report session held startedAt held.stopped))))
      else (session, .error (.pollerPause held endsAt startedAt answer))
  | .result client wait lookAgainAt startedAt answer =>
      if session.moment < lookAgainAt then
        (session, .error (.result client wait lookAgainAt startedAt answer))
      else
        match session.ask (wait.turn client session.moment) with
        | (.error cause, session) => (session, .ok (.error cause))
        | (.ok (.finished found), session) =>
            (session, .ok (.ok (answer found (Moment.millis (session.moment - startedAt)))))
        | (.ok (.waiting wait lookAgainAt), session) =>
            (session, .error (.result client wait lookAgainAt startedAt answer))

end Watch

end Chronicle
