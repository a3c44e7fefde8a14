import Chronicle.Worker.Basic

/-!
# Shutdown

A worker that shuts down first waits for its services to end, for as long as that takes.  Then
it looks at regular intervals whether its tasks have ended, until its timeout.
-/

namespace Chronicle

inductive Shutdown where
  | joining
  | draining (deadline checkAt : Moment)
  deriving DecidableEq, Repr

namespace Shutdown

def checkInterval : Span := .ofMillis 10

def nextMoment? : Shutdown → Option Moment
  | .joining => none
  | .draining _ checkAt => some checkAt

end Shutdown

namespace Worker

def isBusy (worker : Worker) : Bool := worker.parts.any fun part => part.slot?.isSome

/-- A worker that has stopped has nothing to shut down. -/
def beginShutdown (worker : Worker) : Worker × Option Shutdown :=
  if worker.status = .stopped then (worker, none)
  else ({ worker with status := .draining, stopping := true }, some .joining)

def hasServices (worker : Worker) : Bool := worker.parts.any WorkerPart.isService

def stopped (worker : Worker) : Worker := { worker with status := .stopped }

/-- Looks at the tasks: the shutdown ends with them, or without them at its deadline. -/
def drain (worker : Worker) (moment deadline : Moment) :
    Worker × Except Shutdown (Except WorkerError Unit) :=
  if !worker.isBusy then (worker.stopped, .ok (.ok ()))
  else if deadline ≤ moment then (worker.stopped, .ok (.error .shutdownTimeout))
  else (worker, .error (.draining deadline (moment.after Shutdown.checkInterval)))

/-- Goes on with a shutdown: it ends with a result, or stays where it is. -/
def continueShutdown (worker : Worker) (moment : Moment) :
    Shutdown → Worker × Except Shutdown (Except WorkerError Unit)
  | .joining =>
      if worker.hasServices then (worker, .error .joining)
      else worker.drain moment (moment.after worker.config.shutdownTimeout)
  | .draining deadline checkAt =>
      if moment < checkAt then (worker, .error (.draining deadline checkAt))
      else worker.drain moment deadline

end Worker

end Chronicle
