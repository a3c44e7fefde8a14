import Chronicle.Engine.Program

/-!
# Charters

What a program may ask of a store depends on what it has been told before: it may only commit to a
run whose history it has read, and only begin runs under ids that it has drawn itself.  A charter
says which requests are permitted; a program keeps the charter if it makes no other request,
whatever credible answers it gets.
-/

namespace Chronicle

structure Acceptance where
  ref : RunRef
  expected : Nat
  commit : Commit
  version : Nat
  deriving DecidableEq, Repr

/-- What a program has been told so far. -/
structure Knowledge where
  /-- Run ids that were drawn and belong to no run yet. -/
  drawn : List Uuid
  run : Option Run
  /-- The history that was read last, and the run that it belongs to. -/
  history : Option (RunRef × List HistoryEvent)
  accepted : List Acceptance
  deriving DecidableEq, Repr

def Commit.newRunIds (commit : Commit) : List Uuid := commit.newRuns.map fun new => new.ref.runId

namespace Knowledge

def nothing : Knowledge := ⟨[], none, none, []⟩

def learn (knowledge : Knowledge) : (request : Request) → request.Answer → Knowledge
  | .freshRunId, runId => { knowledge with drawn := runId :: knowledge.drawn }
  | .createRun new, .ok _ =>
      { knowledge with drawn := knowledge.drawn.filter fun runId => runId != new.ref.runId }
  | .getRun _, .ok run => { knowledge with run := some run }
  | .readEvents ref 0, .ok history => { knowledge with history := some (ref, history) }
  | .commit ref expected commit, .ok version =>
      { knowledge with
        drawn := knowledge.drawn.filter fun runId => !commit.newRunIds.contains runId
        accepted := knowledge.accepted ++ [⟨ref, expected, commit, version⟩] }
  | _, _ => knowledge

/-- Drawn ids are new, a run has the reference that was asked for, and histories only grow. -/
def Credible (knowledge : Knowledge) : (request : Request) → request.Answer → Prop
  | .freshRunId, runId => runId ∉ knowledge.drawn
  | .getRun ref, .ok run => run.ref = ref
  | .readEvents ref 0, .ok history =>
      ∀ earlier, knowledge.history = some (ref, earlier) → earlier <+: history
  | _, _ => True

end Knowledge

structure Charter where
  admits : Request → Prop
  warrants : Run → List HistoryEvent → Commit → Prop
  /-- After these commits the program may go on, or end without a result. -/
  undecided : List Acceptance → Prop

namespace Charter

/-- New runs have ids that were drawn for them, and a commit is built from what was read last. -/
def permits (charter : Charter) (knowledge : Knowledge) : Request → Prop
  | .createRun new => charter.admits (.createRun new) ∧ new.ref.runId ∈ knowledge.drawn
  | .commit ref expected commit =>
      ∃ run history, knowledge.run = some run ∧ run.ref = ref ∧
        knowledge.history = some (ref, history) ∧ history.length = expected ∧
        charter.warrants run history commit ∧ commit.newRunIds.Nodup ∧
        ∀ runId ∈ commit.newRunIds, runId ∈ knowledge.drawn
  | request => charter.admits request

end Charter

namespace Program

variable {α β : Type} {charter : Charter}

/-- The program keeps the charter, and what it returns satisfies the given condition. -/
def Keeps (charter : Charter) (post : α → Knowledge → Prop) : Program α → Knowledge → Prop
  | .done value, knowledge => post value knowledge
  | .ask request next, knowledge =>
      charter.undecided knowledge.accepted ∧ charter.permits knowledge request ∧
        ∀ answer, knowledge.Credible request answer →
          Keeps charter post (next answer) (knowledge.learn request answer)
  | .crash _, knowledge => charter.undecided knowledge.accepted

theorem Keeps.weaken {first second : α → Knowledge → Prop} {program : Program α}
    {knowledge : Knowledge} (keeps : program.Keeps charter first knowledge)
    (himplies : ∀ value knowledge, first value knowledge → second value knowledge) :
    program.Keeps charter second knowledge := by
  induction program generalizing knowledge with
  | done value => exact himplies value knowledge keeps
  | ask request next ih =>
      obtain ⟨hundecided, hpermits, hnext⟩ := keeps
      exact ⟨hundecided, hpermits, fun answer hcredible => ih answer (hnext answer hcredible)⟩
  | crash cause => exact keeps

theorem Keeps.bind {post : β → Knowledge → Prop} {program : Program α} {next : α → Program β}
    {knowledge : Knowledge}
    (keeps : program.Keeps charter (fun value later => (next value).Keeps charter post later)
      knowledge) :
    (program >>= next).Keeps charter post knowledge := by
  induction program generalizing knowledge with
  | done value => exact keeps
  | ask request rest ih =>
      obtain ⟨hundecided, hpermits, hrest⟩ := keeps
      exact ⟨hundecided, hpermits, fun answer hcredible => ih answer (hrest answer hcredible)⟩
  | crash cause => exact keeps

theorem Keeps.request {post : β → Knowledge → Prop} {request : Request}
    {next : request.Answer → Program β} {knowledge : Knowledge}
    (hundecided : charter.undecided knowledge.accepted) (hpermits : charter.permits knowledge request)
    (hnext : ∀ answer, knowledge.Credible request answer →
      (next answer).Keeps charter post (knowledge.learn request answer)) :
    (Program.request request >>= next).Keeps charter post knowledge :=
  ⟨hundecided, hpermits, hnext⟩

/-! ## Results -/

/-- Some answers to the requests of the program lead to the value. -/
inductive Yields : Program α → α → Prop where
  | done (value : α) : Yields (.done value) value
  | ask {request : Request} {next : request.Answer → Program α} {value : α}
      (answer : request.Answer) (rest : Yields (next answer) value) :
      Yields (.ask request next) value

theorem Yields.of_bind {program : Program α} {next : α → Program β} {value : β}
    (h : (program >>= next).Yields value) :
    ∃ middle, program.Yields middle ∧ (next middle).Yields value := by
  induction program with
  | done middle => exact ⟨middle, .done middle, h⟩
  | ask request rest ih =>
      cases h with
      | ask answer hrest =>
          obtain ⟨middle, hmiddle, hvalue⟩ := ih answer hrest
          exact ⟨middle, .ask answer hmiddle, hvalue⟩
  | crash cause => cases h

theorem Yields.eq_of_pure {first second : α} (h : (pure first : Program α).Yields second) :
    first = second := by
  cases h
  rfl

theorem Keeps.yields {post : α → Knowledge → Prop} {program : Program α} {knowledge : Knowledge}
    (keeps : program.Keeps charter post knowledge) :
    program.Keeps charter (fun value later => post value later ∧ program.Yields value) knowledge := by
  induction program generalizing knowledge with
  | done value => exact ⟨keeps, .done value⟩
  | ask request next ih =>
      obtain ⟨hundecided, hpermits, hnext⟩ := keeps
      refine ⟨hundecided, hpermits, fun answer hcredible => ?_⟩
      apply (ih answer (hnext answer hcredible)).weaken
      intro value later hvalue
      exact ⟨hvalue.1, .ask answer hvalue.2⟩
  | crash cause => exact keeps

/-! ## Programs with nothing at stake -/

/-- The program keeps the charter whatever it was told before. -/
def Obeys (charter : Charter) (program : Program α) : Prop :=
  ∀ knowledge, program.Keeps charter (fun _ _ => True) knowledge

theorem Obeys.pure (value : α) : Obeys charter (pure value : Program α) := fun _ => trivial

theorem Obeys.bind {program : Program α} {next : α → Program β} (first : Obeys charter program)
    (rest : ∀ value, Obeys charter (next value)) : Obeys charter (program >>= next) := by
  intro knowledge
  apply Keeps.bind
  exact (first knowledge).weaken fun value later _ => rest value later

theorem Obeys.crash (hundecided : ∀ accepted, charter.undecided accepted) (cause : Crash) :
    Obeys charter (.crash cause : Program α) := fun knowledge => hundecided knowledge.accepted

theorem Obeys.request (hundecided : ∀ accepted, charter.undecided accepted) {request : Request}
    (hpermits : ∀ knowledge, charter.permits knowledge request) :
    Obeys charter (Program.request request) :=
  fun knowledge => ⟨hundecided knowledge.accepted, hpermits knowledge, fun _ _ => trivial⟩

end Program

end Chronicle
