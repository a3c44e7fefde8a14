import Chronicle.Engine.Client
import Chronicle.Time.Moment

/-!
# Waiting for results

A client that waits for the result of a run looks at it at regular intervals, and goes over to
the run that continues it once it has closed without a result.
-/

namespace Chronicle

structure ResultWait where
  run : RunRef
  deadline : Moment
  deriving DecidableEq, Repr

namespace ResultWait

/-- The end of the wait, or the run that is now waited for and when to look at it again. -/
inductive Turn where
  | finished (result : Except ClientError Json)
  | waiting (wait : ResultWait) (lookAgainAt : Moment)
  deriving Repr

/-- Follows the chain of runs to its end; the number bounds their number. -/
def follow (interval : Span) (moment : Moment) : Nat → ResultWait → Program Turn
  | 0, _ => .crash .endless
  | limit + 1, wait => do
      match ← Client.lookForResult wait.run with
      | .finished result => return .finished result
      | .follow next => follow interval moment limit { wait with run := next }
      | .stillRunning =>
          if wait.deadline ≤ moment then
            return .finished (.error (.resultTimeout wait.run.workflowId))
          else return .waiting wait (moment.after interval)

def chainLimit : Nat := 100000

def turn (client : Client) (moment : Moment) (wait : ResultWait) : Program Turn :=
  follow client.config.resultPollInterval moment chainLimit wait

end ResultWait

/-- The run whose result stands for the workflow id. -/
def Client.resultRun (workflowId : String) : Program (Except ClientError RunRef) :=
  onCurrentRun workflowId fun run => return .ok run.ref

end Chronicle
