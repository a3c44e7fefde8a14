import Chronicle.Proofs.Program.Company
import Chronicle.Proofs.Store.Slumber

/-!
# Programs that leave a run alone

A worker does not know of a run before it is handed a task of it.  Until then nothing that it writes
is for that run; and a run that waits for its time goes on waiting, whatever is asked of the store
for others.
-/

namespace Chronicle

namespace Request

def writesTo (ref : RunRef) : Request → Bool
  | .commit target _ _ => target = ref
  | _ => false

/-- The answer hands out no task of the run, and a run that was read is the one that was asked for. -/
def Apart (ref : RunRef) : (request : Request) → request.Answer → Prop
  | .claimTask _, .claimed task => task.work.run ≠ ref
  | .getRun target, .ok run => run.ref = target
  | _, _ => True

/-- Runs that begin when the request is granted. -/
def begun : (request : Request) → request.Answer → List NewRun
  | .createRun new, .ok _ => [new]
  | .commit _ _ written, .ok _ => written.newRuns
  | _, _ => []

end Request

/-! ## Programs -/

namespace Program

variable {α β : Type} {ref : RunRef}

/-- The program writes nothing to the run, unless it is handed a task of it. -/
def Avoids (ref : RunRef) (post : α → Prop) : Program α → Prop
  | .done value => post value
  | .ask request next => request.writesTo ref = false ∧
      ∀ answer, request.Apart ref answer → Avoids ref post (next answer)
  | .crash _ => True

theorem Avoids.pure {post : α → Prop} {value : α} (h : post value) :
    (pure value : Program α).Avoids ref post := h

theorem Avoids.crash (post : α → Prop) (cause : Crash) :
    (.crash cause : Program α).Avoids ref post := trivial

theorem Avoids.bind {first : α → Prop} {post : β → Prop} {program : Program α}
    {next : α → Program β} (avoids : program.Avoids ref first)
    (hnext : ∀ value, first value → (next value).Avoids ref post) :
    (program >>= next).Avoids ref post := by
  induction program with
  | done value => exact hnext value avoids
  | ask request rest ih => exact ⟨avoids.1, fun answer apart => ih answer (avoids.2 answer apart)⟩
  | crash cause => trivial

theorem Avoids.request {post : β → Prop} {request : Request} {next : request.Answer → Program β}
    (hwrites : request.writesTo ref = false)
    (hnext : ∀ answer, request.Apart ref answer → (next answer).Avoids ref post) :
    (Program.request request >>= next).Avoids ref post := ⟨hwrites, hnext⟩

/-- A request whose answer does not matter. -/
theorem Avoids.ask {request : Request} (hwrites : request.writesTo ref = false) :
    (Program.request request).Avoids ref fun _ => True :=
  ⟨hwrites, fun _ _ => trivial⟩

end Program

/-! ## Worlds -/

namespace World

variable {world after : World} {request : Request} {answer : request.Answer} {ref : RunRef}
  {due : Instant}

/-- The runs that a request begins are new, and are there afterwards. -/
theorem find?_of_begun (fresh : request.BeginsNew world.store answer)
    (answered : World.answer request world = (.ok answer, after)) {new : NewRun}
    (hnew : new ∈ request.begun answer) :
    world.store.runs.find? new.ref = none ∧ (after.store.runs.find? new.ref).isSome = true := by
  cases request with
  | createRun other =>
      rcases answer_createRun answered with ⟨error, hresult, -⟩ | ⟨hresult, now, -, hafter⟩
      · subst hresult
        cases hnew
      · subst hresult hafter
        obtain rfl : new = other := List.mem_singleton.1 hnew
        exact ⟨fresh, by simp [RunTable.find?_create fresh]⟩
  | commit target expected commit =>
      rcases answer_commit answered with ⟨error, hresult, -⟩ | haccepted
      · subst hresult
        cases hnew
      · obtain ⟨version, now, record, hresult, -, hfind, hopen, -, hafter, -⟩ := haccepted
        subst hresult hafter
        obtain ⟨-, hfinds⟩ := @RunTable.steps_applied (fun _ _ => True) (fun _ => True) _ _ _ _ now
          hfind hopen trivial (fun _ _ => trivial) fresh.1 fresh.2
        have hmem : new.ref ∈ commit.newRuns.map NewRun.ref := List.mem_map_of_mem hnew
        refine ⟨fresh.1 new hnew, ?_⟩
        show ((world.store.apply target commit now).runs.find? new.ref).isSome = true
        rw [Store.apply_runs, hfinds, List.contains_iff_mem.2 hmem, Bool.or_true]
  | _ => cases hnew

/-- Nobody is handed out a task of a run that waits for its time. -/
theorem apart_of_answer
    (rests : ∀ now, world.now = some now → world.store.tasks.Rests ref now)
    (answered : World.answer request world = (.ok answer, after)) : request.Apart ref answer := by
  cases request with
  | getRun target =>
      cases answer with
      | error error => trivial
      | ok run =>
          obtain ⟨-, record, hfind, hrun⟩ := answer_getRun answered
          rw [Request.Apart, hrun]
          exact RunTable.ref_of_find? hfind
  | claimTask poll =>
      cases answer with
      | nothing next => trivial
      | claimed task =>
          obtain ⟨now, tasks, hnow, hclaim, -⟩ := answer_claimTask answered
          exact (rests now hnow).not_claimed hclaim
  | _ => trivial

/-- A run goes on waiting whatever is asked of the store, until something is recorded for it. -/
theorem slumbers_of_answer (slumbers : world.store.Slumbers ref due)
    (wellKept : world.store.tasks.WellKept) (admits : Rules.lax.Admits True world.store request)
    (fresh : request.BeginsNew world.store answer)
    (early : ∀ now, world.now = some now → world.store.runs.find? ref = none ∨ now < due)
    (hdue : ∀ now, world.now = some now → ∀ new ∈ request.begun answer, new.ref = ref →
      now.after new.firstTaskDelay = due)
    (answered : World.answer request world = (.ok answer, after)) :
    after.store.Slumbers ref due := by
  have hstill : request.leavesRuns = true → (¬world.store.Stirred ref →
      after.store.tasks.tasksOf ref = world.store.tasks.tasksOf ref) →
      after.store.Slumbers ref due := by
    intro hleaves htasks
    exact slumbers.frame (by rw [(leavesRuns_of_answer hleaves answered).runs]) htasks
  have hpassed : ∀ act, request.act? = some act → act.Passes ref → request.leavesRuns = true →
      after.store.Slumbers ref due := by
    intro act hact passes hleaves
    apply hstill hleaves
    intro quiet
    rw [(leavesRuns_of_answer hleaves answered).tasks, hact]
    exact TaskQueue.tasksOf_perform (slumbers.free quiet) wellKept passes _
  cases request with
  | createRun new =>
      rcases answer_createRun answered with ⟨error, -, hafter⟩ | ⟨hresult, now, hnow, hafter⟩
      · rwa [hafter]
      · subst hresult hafter
        exact (slumbers.startRun fresh (hdue now hnow new List.mem_cons_self)).wake
  | commit target expected commit =>
      rcases answer_commit answered with ⟨error, -, hafter⟩ | haccepted
      · rwa [hafter]
      · obtain ⟨version, now, record, hresult, hnow, hfind, hopen, hlength, hafter, -⟩ := haccepted
        subst hresult hafter
        obtain ⟨run, horigin, writes⟩ := admits record hfind hopen hlength
        obtain ⟨hevents, htasks⟩ := writes.records
        have href : run.ref = target :=
          (Run.ref_eq_of_origin horigin).trans (RunTable.ref_of_find? hfind)
        exact (slumbers.apply wellKept hfind hevents (href ▸ htasks) fresh (hdue now hnow)).wake
  | enqueueTask task => exact admits.elim
  | claimTask poll =>
      apply hstill rfl
      intro quiet
      obtain ⟨now, hnow, -⟩ := timed_eq_ok answered
      rw [(leavesRuns_of_answer rfl answered).tasks, hnow]
      exact TaskQueue.tasksOf_claim (slumbers.rests quiet (early now hnow)) wellKept poll
  | completeTask taskId token => exact hpassed _ rfl trivial rfl
  | failTask taskId token reason delay => exact hpassed _ rfl trivial rfl
  | heartbeatTask taskId token extension => exact hpassed _ rfl trivial rfl
  | _ =>
      apply hstill rfl
      intro _
      rw [(leavesRuns_of_answer rfl answered).tasks]
      rfl

end World

end Chronicle
