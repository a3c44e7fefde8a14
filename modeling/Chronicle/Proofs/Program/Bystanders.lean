import Chronicle.Proofs.Engine.Revising
import Chronicle.Proofs.Program.Answers

/-!
# Programs among bystanders

A program runs while others act between its requests.  As long as the others begin and revise no
run, and the clock can be read, the program sees one and the same table of runs.
-/

namespace Chronicle

/-- Answers requests, before each of which others act.  The requests are counted. -/
def World.among (others : Nat → World → World) : Program.Handler (Nat × World) :=
  fun request state =>
    let (answer, after) := World.answer request (others state.1 state.2)
    (answer, state.1 + 1, after)

/-- Others who write to no run. -/
structure World.Bystanders (others : Nat → World → World) : Prop where
  runs : ∀ number world, (others number world).store.runs = world.store.runs
  clock : ∀ number world, world.now ≠ none → (others number world).now ≠ none

/-- The runs are those of the table, and the clock can be read. -/
structure World.Shows (table : RunTable) (state : Nat × World) : Prop where
  runs : state.2.store.runs = table
  clock : state.2.now ≠ none

/-! ## Programs that come to an end -/

namespace Program

variable {σ α β : Type} {handler : Handler σ} {holds : σ → Prop} {stops : Crash → Prop}

/-- A program that follows another one is run on what that one leaves. -/
theorem run_bind_eq (program : Program α) (next : α → Program β) (state : σ) :
    (program >>= next).run handler state =
      match program.run handler state with
      | (.ok value, middle) => (next value).run handler middle
      | (.error cause, middle) => (.error cause, middle) := by
  show (program.bind next).run handler state = _
  induction program generalizing state with
  | done value => rfl
  | crash cause => rfl
  | ask request rest ih =>
      rw [Program.bind, Program.run, Program.run]
      split
      · rename_i answer middle _
        exact ih answer middle
      · rfl

/-- Whenever the program is run while something holds, it holds afterwards; and the program comes to
a value as described, or stops for a cause as described. -/
def Comes (handler : Handler σ) (holds : σ → Prop) (stops : Crash → Prop) (post : α → Prop)
    (program : Program α) : Prop :=
  ∀ state, holds state → ∃ result after, program.run handler state = (result, after) ∧
    holds after ∧ match result with
      | .ok value => post value
      | .error cause => stops cause

theorem Comes.pure {post : α → Prop} {value : α} (h : post value) :
    Comes handler holds stops post (pure value) :=
  fun state hstate => ⟨.ok value, state, rfl, hstate, h⟩

theorem Comes.crash {post : α → Prop} {cause : Crash} (h : stops cause) :
    Comes handler holds stops post (.crash cause : Program α) :=
  fun state hstate => ⟨.error cause, state, rfl, hstate, h⟩

theorem Comes.bind {first : α → Prop} {post : β → Prop} {program : Program α}
    {next : α → Program β} (comes : Comes handler holds stops first program)
    (hnext : ∀ value, first value → Comes handler holds stops post (next value)) :
    Comes handler holds stops post (program >>= next) := by
  intro state hstate
  obtain ⟨result, middle, hrun, hmiddle, hresult⟩ := comes state hstate
  rw [run_bind_eq, hrun]
  cases result with
  | ok value => exact hnext value hresult middle hmiddle
  | error cause => exact ⟨.error cause, middle, rfl, hmiddle, hresult⟩

theorem Comes.weaken {first post : α → Prop} {program : Program α}
    (comes : Comes handler holds stops first program)
    (himplies : ∀ value, first value → post value) : Comes handler holds stops post program := by
  intro state hstate
  obtain ⟨result, after, hrun, hafter, hresult⟩ := comes state hstate
  refine ⟨result, after, hrun, hafter, ?_⟩
  cases result with
  | ok value => exact himplies value hresult
  | error cause => exact hresult

theorem yields_of_run {program : Program α} {state after : σ} {value : α}
    (h : program.run handler state = (.ok value, after)) : program.Yields value := by
  induction program generalizing state with
  | done result =>
      obtain ⟨hvalue, -⟩ := Prod.mk.inj h
      cases hvalue
      exact .done value
  | crash cause => cases h
  | ask request next ih =>
      rw [Program.run] at h
      split at h
      · rename_i answer middle _
        exact .ask answer (ih answer h)
      · cases h

/-- What a program comes to is something that it can yield. -/
theorem Comes.yields {post : α → Prop} {program : Program α}
    (comes : Comes handler holds stops post program) :
    Comes handler holds stops (fun value => post value ∧ program.Yields value) program := by
  intro state hstate
  obtain ⟨result, after, hrun, hafter, hresult⟩ := comes state hstate
  refine ⟨result, after, hrun, hafter, ?_⟩
  cases result with
  | ok value => exact ⟨hresult, yields_of_run hrun⟩
  | error cause => exact hresult

end Program

/-! ## Inquiries -/

namespace World

variable {others : Nat → World → World} {table : RunTable} {state : Nat × World}
  {stops : Crash → Prop}

theorem Bystanders.keep (bystanders : Bystanders others) (shows : World.Shows table state) :
    World.Shows table (state.1, others state.1 state.2) :=
  ⟨(bystanders.runs _ _).trans shows.runs, bystanders.clock _ _ shows.clock⟩

/-- What an inquiry tells about the runs is read off the table. -/
def Reads (table : RunTable) : (request : Request) → request.Answer → Prop
  | .getRun ref, run => run = (table.get ref).map RunRecord.run
  | .currentRun workflowId, run => run = table.currentRun workflowId
  | .readEvents ref after, events =>
      events = (table.get ref).map fun record => record.events.drop after
  | _, _ => True

/-- An inquiry is answered from the table, and changes nothing that it shows. -/
theorem answer_inquiry {request : Request} {world : World} (hinquiry : request.isInquiry = true)
    (hclock : world.now ≠ none) : ∃ answer after, World.answer request world = (.ok answer, after) ∧
      Reads world.store.runs request answer ∧ after.store.runs = world.store.runs ∧
      after.now = world.now := by
  cases request with
  | now =>
      obtain ⟨now, hnow⟩ := Option.ne_none_iff_exists'.1 hclock
      exact ⟨now, world, by simp [World.answer, World.timed, World.timeless, hnow], trivial, rfl, rfl⟩
  | freshRunId => exact ⟨_, _, rfl, trivial, rfl, rfl⟩
  | getRun ref => exact ⟨_, _, rfl, rfl, rfl, rfl⟩
  | currentRun workflowId => exact ⟨_, _, rfl, rfl, rfl, rfl⟩
  | readEvents ref after => exact ⟨_, _, rfl, rfl, rfl, rfl⟩
  | _ => cases hinquiry

theorem among_inquiry (bystanders : Bystanders others) (shows : World.Shows table state)
    {request : Request} (hinquiry : request.isInquiry = true) :
    ∃ answer after, among others request state = (.ok answer, after) ∧
      Reads table request answer ∧ World.Shows table after := by
  have kept := bystanders.keep shows
  obtain ⟨answer, after, hanswer, reads, hruns, hnow⟩ := answer_inquiry hinquiry kept.clock
  refine ⟨answer, (state.1 + 1, after), ?_, kept.runs ▸ reads, hruns.trans kept.runs, ?_⟩
  · simp [among, hanswer]
  · rw [hnow]
    exact kept.clock

theorem comes_inquiry {β : Type} (bystanders : Bystanders others) {request : Request}
    (hinquiry : request.isInquiry = true) {post : β → Prop} {next : request.Answer → Program β}
    (hnext : ∀ answer, Reads table request answer →
      (next answer).Comes (among others) (World.Shows table) stops post) :
    (Program.request request >>= next).Comes (among others) (World.Shows table) stops post := by
  intro state shows
  obtain ⟨answer, after, hanswer, reads, hafter⟩ := among_inquiry bystanders shows hinquiry
  obtain ⟨result, last, hrun, hlast⟩ := hnext answer reads after hafter
  refine ⟨result, last, ?_, hlast⟩
  show (Program.ask request fun answer => next answer).run (among others) state = _
  rw [Program.run, hanswer]
  exact hrun

end World

end Chronicle
