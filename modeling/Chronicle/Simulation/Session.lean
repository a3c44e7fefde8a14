import Chronicle.Engine.ResultWait
import Chronicle.Simulation.Shell
import Chronicle.Worker.Shutdown

/-!
# Sessions

A session is a store in a shell, a clock, and what the steps of a scenario leave behind for
later ones.  The clock stands still until it is moved: to the next deadline when everything
waits, or past deadlines when a step sets it forward.  Deadlines that were passed over are met
together once everything waits again.
-/

namespace Chronicle

structure HeldPoller where
  poller : Poller
  stopped : Bool
  deriving DecidableEq, Repr

structure Session where
  shell : Shell
  origin : Instant
  moment : Moment
  /-- After the clock was set forward: where it stood before. -/
  setFrom : Option Moment
  version : Nat
  leases : List (String × LeasedTask)
  pollers : List (String × HeldPoller)
  /-- Stopped workers whose tasks still run. -/
  background : List Worker

namespace Session

def start (origin : Instant) : Session :=
  ⟨⟨⟨.empty, origin.reading? 0, 0⟩, [], .empty⟩, origin, 0, none, 0, [], [], []⟩

def store (session : Session) : Store := session.shell.world.store

def roster (session : Session) : Roster := session.shell.roster

def wakeups (session : Session) : Nat := session.store.wakeups

/-- What the clock shows, unless it cannot be read. -/
def now (session : Session) : Option Instant := session.shell.world.now

/-- Deadlines up to this moment have been met. -/
def metUntil (session : Session) : Moment := session.setFrom.getD session.moment

def setClock (session : Session) (moment : Moment) : Session :=
  let world := { session.shell.world with now := session.origin.reading? moment }
  { session with moment := moment, shell := { session.shell with world := world } }

/-- Moves the clock on to a moment, in whole milliseconds, and meets all deadlines up to there. -/
def advanceTo (session : Session) (moment : Moment) : Session :=
  { session.setClock (max session.moment moment.tick) with setFrom := none }

/-- Sets the clock forward at once. -/
def setForward (session : Session) (span : Span) : Session :=
  { session.setClock (session.moment.after span).tick with setFrom := some session.metUntil }

def ask {α : Type} (session : Session) (program : Program α) : Except Crash α × Session :=
  let (result, shell) := program.run Shell.answer session.shell
  (result, { session with shell := shell })

def observe {α : Type} (session : Session) (program : Program α) : Except Crash α × Session :=
  let (result, world) := program.run World.answer session.shell.world
  (result, { session with shell := { session.shell with world := world } })

def addFault (session : Session) (fault : Fault) : Session :=
  { session with shell := { session.shell with faults := session.shell.faults ++ [fault] } }

def clearStore (session : Session) : Session :=
  { session with
    shell := { session.shell with
      world := { session.shell.world with store := session.store.clear } } }

def deploy (session : Session) (version : Nat) : Session := { session with version := version }

def setEntry {α : Type} (key : String) (value : α) (entries : List (String × α)) :
    List (String × α) :=
  (key, value) :: entries.filter fun entry => entry.1 != key

/-- A task that nobody was ever given. -/
def nobodysTask : LeasedTask := ⟨.nil, .nil, "", .workflow ⟨"", .nil⟩ "", 0, ⟨0, 0⟩⟩

def lease (session : Session) (label : String) : LeasedTask :=
  (session.leases.lookup label).getD nobodysTask

def keepLease (session : Session) (label : String) (task : LeasedTask) : Session :=
  { session with leases := setEntry label task session.leases }

def nameTask (session : Session) (taskId : Uuid) : Session :=
  { session with shell := { session.shell with roster := session.roster.addTask taskId } }

/-- Names and remembers the task that a poll has found. -/
def keepResult (session : Session) (label : String)
    (result : Except StoreError (Option LeasedTask)) : Session :=
  match result with
  | .ok (some task) => (session.nameTask task.taskId).keepLease label task
  | _ => session

def keepPoller (session : Session) (name : String) (poller : HeldPoller) : Session :=
  { session with pollers := setEntry name poller session.pollers }

def dropPoller (session : Session) (name : String) : Session :=
  { session with pollers := session.pollers.filter fun entry => entry.1 != name }

/-- Lets the parts of a worker act until they wait. -/
def settleWorker (session : Session) (catalogue : WorkflowRegistry) (worker : Worker) :
    Session × Worker :=
  let (worker, shell) :=
    worker.settle Shell.answer catalogue session.metUntil session.moment Worker.settleLimit
      session.shell
  ({ session with shell := shell }, worker)

def settleBackground (session : Session) (catalogue : WorkflowRegistry) : Session :=
  let workers := session.background
  workers.foldl (fun session worker =>
    let (session, worker) := session.settleWorker catalogue worker
    { session with background := session.background ++ [worker] }) { session with background := [] }

def nextMoment? (session : Session) : Option Moment :=
  (session.background.filterMap Worker.nextMoment?).min?

end Session

end Chronicle
