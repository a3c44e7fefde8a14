import Chronicle.Engine.ResultWait
import Chronicle.Proofs.Engine.Heirs
import Chronicle.Samples.Workflows

/-!
# Results of runs

A client that waits for the result of a run goes from each run that has closed without one to the run
that it names.  It gets to the heir of the run, and is told what has become of that, provided that the
heir has a result, or that its workflow id has not been used again.
-/

namespace Chronicle

open Relation (ReflTransGen)

universe u

/-! ## Looks -/

/-- What is told of a closed run: its result, or else its own failure. -/
def Run.answer (run : Run) : Except ClientError Json :=
  if run.status = .completed then .ok (run.result.getD .null)
  else .error (.workflowFailed (run.failure.getD
    (.ofKind .infrastructure s!"workflow closed as {run.status.name}")))

namespace Client

variable {run : Run}

theorem judge_of_open (hopen : run.status.isClosed = false) : judge run = .stillRunning := by
  unfold judge
  cases hstatus : run.status <;> simp_all [RunStatus.isClosed]

theorem judge_of_completed (hcompleted : run.status = .completed) :
    judge run = .finished run.answer := by
  simp [judge, Run.answer, hcompleted]

theorem judge_of_last (hclosed : run.status.isClosed = true) (hlast : run.nextRunId = none) :
    judge run = .finished run.answer := by
  unfold judge Run.answer
  rw [hlast]
  cases hstatus : run.status <;> simp_all [RunStatus.isClosed]

theorem judge_eq_follow {next : RunRef} : judge run = .follow next ↔
    run.status.isClosed = true ∧ run.status ≠ .completed ∧
      ∃ runId, run.nextRunId = some runId ∧ next = ⟨run.ref.workflowId, runId⟩ := by
  unfold judge
  cases hstatus : run.status <;> cases hnext : run.nextRunId <;>
    simp [RunStatus.isClosed, eq_comm]

end Client

namespace RunTable

/-- What a client sees that looks for the result of the run. -/
def look (table : RunTable) (ref : RunRef) : Client.ResultLook :=
  match table.get ref with
  | .ok record => Client.judge record.run
  | .error error => .finished (.error (.ofStore error))

/-- Whoever waits for the earlier run goes over to the later one. -/
def Passes (table : RunTable) (earlier later : RunRef) : Prop := table.look earlier = .follow later

variable {table : RunTable} {ref : RunRef} {record : RunRecord}

theorem look_of_found (hfind : table.find? ref = some record) :
    table.look ref = Client.judge record.run := by
  simp [look, get, hfind]

theorem passes_iff {next : RunRef} : table.Passes ref next ↔ ∃ record,
    table.find? ref = some record ∧ record.isClosed = true ∧ record.run.status ≠ .completed ∧
      record.run.nextRunId = some next.runId ∧ next.workflowId = ref.workflowId := by
  cases hfind : table.find? ref with
  | none => simp [Passes, look, get, hfind]
  | some record =>
      rw [Passes, look_of_found hfind, Client.judge_eq_follow, ref_of_find? hfind]
      constructor
      · rintro ⟨hclosed, hstatus, runId, hnext, rfl⟩
        exact ⟨record, rfl, hclosed, hstatus, hnext, rfl⟩
      · rintro ⟨same, hsame, hclosed, hstatus, hnext, hid⟩
        obtain rfl := Option.some.inj hsame
        exact ⟨hclosed, hstatus, next.runId, hnext, by rw [← hid]⟩

end RunTable

/-! ## Waits among other actors -/

namespace Scene

variable {ι : Type u} {ρ α β : Type} {begins : ι → Program ρ}

/-- The program has its requests answered in one scene after the other and changes none of them;
between two of its requests the others may act. -/
inductive Reads (begins : ι → Program ρ) : Scene ι ρ → Program α → Scene ι ρ → α → Prop where
  | done {scene : Scene ι ρ} {value : α} : Reads begins scene (.done value) scene value
  | ask {scene seen last : Scene ι ρ} {request : Request} {next : request.Answer → Program α}
      {answer : request.Answer} {value : α} (reaches : Reaches begins scene seen)
      (answered : World.answer request seen.world = (.ok answer, seen.world))
      (rest : Reads begins seen (next answer) last value) :
      Reads begins scene (.ask request next) last value

theorem answer_getRun (ref : RunRef) (world : World) :
    World.answer (.getRun ref) world = (.ok (world.store.getRun ref), world) := rfl

/-- A client that looks for a result goes on with what it sees. -/
theorem reads_look {scene last : Scene ι ρ} {ref : RunRef} {next : Client.ResultLook → Program α} {value : α}
    (reads : Reads begins scene (Client.lookForResult ref >>= next) last value) :
    ∃ seen, Reaches begins scene seen ∧
      Reads begins seen (next (seen.book.runs.look ref)) last value := by
  cases reads with
  | @ask _ seen _ _ _ answer _ reaches answered rest =>
      refine ⟨seen, reaches, ?_⟩
      rw [answer_getRun, Prod.mk.injEq, Except.ok.injEq] at answered
      rw [← answered.1] at rest
      unfold RunTable.look
      simp only [Store.getRun] at rest
      cases hget : seen.world.store.runs.get ref with
      | error error =>
          rw [hget] at rest
          simp only [Scene.book, Book.runs, hget]
          exact rest
      | ok record =>
          rw [hget] at rest
          simp only [Scene.book, Book.runs, hget]
          exact rest

end Scene

namespace ResultWait

variable {ι : Type u} {ρ : Type} {begins : ι → Program ρ} {interval : Span}

/-- The wait ends with the result, after any number of turns at moments of its own; a turn may follow
any number of runs. -/
inductive Ends (begins : ι → Program ρ) (interval : Span) :
    Scene ι ρ → ResultWait → Scene ι ρ → Except ClientError Json → Prop where
  | finished {scene last : Scene ι ρ} {wait : ResultWait} {moment : Moment} {limit : Nat}
      {result : Except ClientError Json}
      (turn : scene.Reads begins (follow interval moment limit wait) last (.finished result)) :
      Ends begins interval scene wait last result
  | again {scene seen last : Scene ι ρ} {wait next : ResultWait} {moment lookAgainAt : Moment}
      {limit : Nat} {result : Except ClientError Json}
      (turn : scene.Reads begins (follow interval moment limit wait) seen
        (.waiting next lookAgainAt))
      (rest : Ends begins interval seen next last result) : Ends begins interval scene wait last result

variable {scene last : Scene ι ρ} {wait : ResultWait} {result : Except ClientError Json}

/-- What a turn begins with: it ends with what the client sees, or goes over to another run. -/
theorem reads_follow {moment : Moment} {limit : Nat} {turn : Turn}
    (reads : scene.Reads begins (follow interval moment limit wait) last turn) :
    ∃ seen, Scene.Reaches begins scene seen ∧
      ((∃ result, seen.book.runs.look wait.run = .finished result ∧ last = seen ∧
          turn = .finished result) ∨
        (∃ next fewer, seen.book.runs.Passes wait.run next ∧
          seen.Reads begins (follow interval moment fewer { wait with run := next }) last turn) ∨
        (seen.book.runs.look wait.run = .stillRunning ∧ last = seen ∧
          (turn = .finished (.error (.resultTimeout wait.run.workflowId)) ∨
            ∃ lookAgainAt, turn = .waiting wait lookAgainAt))) := by
  cases limit with
  | zero => cases reads
  | succ limit =>
      obtain ⟨seen, reaches, rest⟩ := Scene.reads_look reads
      refine ⟨seen, reaches, ?_⟩
      cases hlook : seen.book.runs.look wait.run with
      | finished found =>
          rw [hlook] at rest
          cases rest
          exact .inl ⟨found, rfl, rfl, rfl⟩
      | follow next =>
          rw [hlook] at rest
          exact .inr (.inl ⟨next, limit, hlook, rest⟩)
      | stillRunning =>
          refine .inr (.inr ⟨rfl, ?_⟩)
          simp only [hlook] at rest
          split at rest
          · cases rest
            exact ⟨rfl, .inl rfl⟩
          · cases rest
            exact ⟨rfl, .inr ⟨_, rfl⟩⟩

/-- What a wait begins with: the run is finished, or it is still running when the wait has to end, or
the wait goes over to another run, and then ends as a wait for that one does. -/
theorem Ends.cases_at (ends : Ends begins interval scene wait last result) :
    last.book.runs.look wait.run = .finished result ∨
      (last.book.runs.look wait.run = .stillRunning ∧
        result = .error (.resultTimeout wait.run.workflowId)) ∨
      ∃ next seen, Scene.Reaches begins scene seen ∧ seen.book.runs.Passes wait.run next ∧
        Ends begins interval seen { wait with run := next } last result := by
  induction ends with
  | finished turn =>
      obtain ⟨seen, reaches, ⟨_, hlook, rfl, ⟨⟩⟩ | ⟨next, fewer, passes, rest⟩ |
        ⟨hlook, rfl, ⟨⟨⟩⟩ | ⟨_, ⟨⟩⟩⟩⟩ := reads_follow turn
      · exact .inl hlook
      · exact .inr (.inr ⟨next, seen, reaches, passes, .finished rest⟩)
      · exact .inr (.inl ⟨hlook, rfl⟩)
  | again turn later ih =>
      obtain ⟨seen, reaches, ⟨_, _, _, ⟨⟩⟩ | ⟨next, fewer, passes, rest⟩ |
        ⟨-, rfl, ⟨⟨⟩⟩ | ⟨_, ⟨⟩⟩⟩⟩ := reads_follow turn
      · exact .inr (.inr ⟨next, seen, reaches, passes, .again rest later⟩)
      · refine ih.imp_right (Or.imp_right ?_)
        rintro ⟨next, after, hafter, passes, ends⟩
        exact ⟨next, after, reaches.trans hafter, passes, ends⟩

theorem run_look {α : Type} (world : World) (ref : RunRef) (next : Client.ResultLook → Program α) :
    (Client.lookForResult ref >>= next).run World.answer world =
      (next (world.store.runs.look ref)).run World.answer world := by
  simp only [Client.lookForResult, bind, Program.bind, Program.request, Program.run,
    Scene.answer_getRun, Store.getRun, RunTable.look]
  cases world.store.runs.get ref <;> rfl

theorem run_follow_of_finished {world : World} (moment : Moment) (limit : Nat)
    (hlook : world.store.runs.look wait.run = .finished result) :
    (follow interval moment (limit + 1) wait).run World.answer world =
      (.ok (.finished result), world) := by
  rw [follow, run_look, hlook]
  rfl

theorem run_follow_of_passes {world : World} (moment : Moment) (limit : Nat) {next : RunRef}
    (passes : world.store.runs.Passes wait.run next) :
    (follow interval moment (limit + 1) wait).run World.answer world =
      (follow interval moment limit { wait with run := next }).run World.answer world := by
  rw [follow, run_look, passes]

end ResultWait

/-! ## Heirs -/

namespace Book

variable {starts : NewRun → Prop} {before after book : Book}

/-- The run has a result, or it is closed and the last one of its workflow id. -/
def Stands (book : Book) (record : RunRecord) : Prop :=
  record.run.status = .completed ∨ (record.isClosed = true ∧
    (book.runs.runsOf record.run.ref.workflowId).getLast? = some record.run)

theorem Linked.passes_of_retries (linked : book.Linked) {earlier later : RunRef}
    (retries : book.Retries earlier later) : book.runs.Passes earlier later := by
  obtain ⟨record, hfind, hfailed, hnext⟩ := linked.of_retries retries
  refine RunTable.passes_iff.2 ⟨record, hfind, ?_, ?_, hnext, retries.1⟩
  · rw [RunRecord.isClosed, hfailed]
    rfl
  · rw [hfailed]
    decide

theorem Linked.passes_of_line (linked : book.Linked) {earlier later : RunRef}
    (line : ReflTransGen book.Retries earlier later) :
    ReflTransGen book.runs.Passes earlier later :=
  ReflTransGen.mono (fun _ _ => linked.passes_of_retries) _ _ line

theorem Linked.look_of_stands (linked : book.Linked) {record : RunRecord}
    (hfind : book.runs.find? record.run.ref = some record) (stands : book.Stands record) :
    book.runs.look record.run.ref = .finished record.run.answer := by
  rw [RunTable.look_of_found hfind]
  rcases stands with hcompleted | ⟨hclosed, hlast⟩
  · exact Client.judge_of_completed hcompleted
  · apply Client.judge_of_last hclosed
    rw [RunTable.runsOf, List.getLast?_map] at hlast
    obtain ⟨last, hrecord, hsame⟩ := Option.map_eq_some_iff.1 hlast
    rw [← hsame]
    exact linked.chained.last _ last hrecord

/-- A closed run that does not stand is passed. -/
theorem Linked.passes_of_not_stands (linked : book.Linked) {record : RunRecord}
    (hfind : book.runs.find? record.run.ref = some record) (hclosed : record.isClosed = true)
    (stands : ¬ book.Stands record) : ∃ next, record.run.nextRunId = some next ∧
      book.runs.Passes record.run.ref ⟨record.run.ref.workflowId, next⟩ := by
  obtain ⟨hstatus, hothers⟩ := not_or.1 stands
  obtain ⟨front, rest, hsplit⟩ := split_of_found hfind
  cases rest with
  | nil =>
      refine absurd ⟨hclosed, ?_⟩ hothers
      rw [RunTable.runsOf, hsplit]
      simp
  | cons other more =>
      have hlinked := linked.chained.linked record.run.ref.workflowId
      rw [hsplit, List.isChain_append, List.isChain_cons_cons] at hlinked
      have hnext := hlinked.2.1.1.2
      exact ⟨_, hnext, RunTable.passes_iff.2 ⟨record, hfind, hclosed, hstatus, hnext, rfl⟩⟩

/-! ## What is told stays true -/

theorem kept_closing (turns : ReflTransGen (Turn starts) before after) {ref : RunRef}
    {record : RunRecord} (hfind : before.runs.find? ref = some record) {closing : Closing}
    (hclosing : record.closing? = some closing) :
    ∃ later, after.runs.find? ref = some later ∧ later.closing? = some closing := by
  induction turns with
  | refl => exact ⟨record, hfind, hclosing⟩
  | tail _ turn ih =>
      obtain ⟨middle, hmiddle, hsame⟩ := ih
      obtain ⟨later, hlater, -, hkept⟩ := turn.kept hmiddle
      exact ⟨later, hlater, hkept closing hsame⟩

theorem Linked.passes_kept (linked : before.Linked)
    (turns : ReflTransGen (Turn starts) before after) {earlier next : RunRef}
    (passes : before.runs.Passes earlier next) : after.runs.Passes earlier next := by
  obtain ⟨record, hfind, hclosed, hstatus, hnext, hid⟩ := RunTable.passes_iff.1 passes
  obtain ⟨later, hlater, hclosing⟩ :=
    kept_closing turns hfind (RunRecord.closing?_eq_some.2 ⟨hclosed, rfl⟩)
  obtain ⟨same, hsame, hlinked⟩ :=
    RunTable.nextRunId_of_orderly (orderlies turns linked.sole) linked.chained hfind hnext
  obtain rfl : later = same := Option.some.inj (hlater.symm.trans hsame)
  obtain ⟨hstill, hclosing⟩ := RunRecord.closing?_eq_some.1 hclosing
  have hsameStatus : record.run.status = later.run.status := congrArg Closing.status hclosing
  exact RunTable.passes_iff.2 ⟨later, hlater, hstill, hsameStatus ▸ hstatus, hlinked, hid⟩

theorem look_kept (turns : ReflTransGen (Turn starts) before after) {ref : RunRef}
    {record : RunRecord} (hfind : before.runs.find? ref = some record)
    (hcompleted : record.run.status = .completed) :
    after.runs.look ref = .finished record.run.answer := by
  have hclosed : record.isClosed = true := by
    rw [RunRecord.isClosed, hcompleted]
    rfl
  obtain ⟨later, hlater, hclosing⟩ :=
    kept_closing turns hfind (RunRecord.closing?_eq_some.2 ⟨hclosed, rfl⟩)
  have hsame := (RunRecord.closing?_eq_some.1 hclosing).2
  have hstatus : later.run.status = .completed :=
    (congrArg Closing.status hsame).symm.trans hcompleted
  have hresult : record.run.result = later.run.result := congrArg Closing.result hsame
  rw [RunTable.look_of_found hlater, Client.judge_of_completed hstatus]
  simp [Run.answer, hstatus, hcompleted, hresult]

end Book

/-! ## Scenes -/

/-- How the waits for a run end that begin at the scene. -/
structure ResultWait.FollowsRetries {ι : Type u} {ρ : Type} (begins : ι → Program ρ)
    (scene : Scene ι ρ) (ref : RunRef) : Prop where
  heir : ∃ heir, scene.book.Heir ref heir
  /-- A turn is enough if the heir stands. -/
  ready : ∀ heir, scene.book.Heir ref heir → scene.book.Stands heir →
    ∀ interval moment deadline limit, (scene.book.runs.runsOf ref.workflowId).length ≤ limit →
      (ResultWait.follow interval moment limit ⟨ref, deadline⟩).run World.answer scene.world =
        (.ok (.finished heir.run.answer), scene.world)
  /-- Of an heir that has a result everybody is told that result, whatever happens later. -/
  lasting : ∀ heir, scene.book.Heir ref heir → heir.run.status = .completed →
    ∀ interval deadline last result, ResultWait.Ends begins interval scene ⟨ref, deadline⟩ last result →
      result = heir.run.answer
  expires : ∀ interval deadline last result,
    ResultWait.Ends begins interval scene ⟨ref, deadline⟩ last result →
    ∀ heir, last.book.Heir ref heir → heir.isClosed = false →
      result = .error (.resultTimeout ref.workflowId)
  answers : ∀ interval deadline last result,
    ResultWait.Ends begins interval scene ⟨ref, deadline⟩ last result →
    ∀ heir, last.book.Heir ref heir → last.book.Stands heir → result = heir.run.answer
  /-- An heir that has no result is passed when its workflow id has been used again. -/
  passes : ∀ interval deadline last result,
    ResultWait.Ends begins interval scene ⟨ref, deadline⟩ last result →
    ∀ heir, last.book.Heir ref heir → heir.isClosed = true → ¬ last.book.Stands heir →
      ∃ next seen, heir.run.nextRunId = some next ∧ Scene.Reaches begins scene seen ∧
        ResultWait.Ends begins interval seen ⟨⟨ref.workflowId, next⟩, deadline⟩ last result

theorem Scene.Reads.reaches {ι : Type u} {ρ α : Type} {begins : ι → Program ρ}
    {scene last : Scene ι ρ} {program : Program α} {value : α}
    (reads : scene.Reads begins program last value) : Scene.Reaches begins scene last := by
  induction reads with
  | done => exact .refl
  | ask reaches _ _ ih => exact reaches.trans ih

theorem ResultWait.Ends.reaches {ι : Type u} {ρ : Type} {begins : ι → Program ρ} {interval : Span}
    {scene last : Scene ι ρ} {wait : ResultWait} {result : Except ClientError Json}
    (ends : Ends begins interval scene wait last result) : Scene.Reaches begins scene last := by
  induction ends with
  | finished turn => exact turn.reaches
  | again turn _ ih => exact turn.reaches.trans ih

namespace Operation

variable {start : World} {scene last : Scene Operation Unit} {interval : Span} {deadline : Moment}
  {ref : RunRef} {result : Except ClientError Json}

theorem linked (blank : start.IsBlank) (reaches : Scene.Reaches program (.opening start) scene) :
    scene.book.Linked :=
  (Book.Linked.opening blank).turns (book_turns blank reaches).1

theorem book_turns_of_reaches (blank : start.IsBlank)
    (reaches : Scene.Reaches program (.opening start) scene)
    (later : Scene.Reaches program scene last) :
    ReflTransGen (Book.Turn (Scene.Starts id)) scene.book last.book := by
  have opening : Scene.Booked id (.opening start : Scene Operation Unit) fun _ => .nothing :=
    .opening blank
  obtain ⟨-, know, booked⟩ := opening.turns reaches
  exact (booked.turns later).1

open ResultWait in
/-- A wait gets to every run that is reached from its own by passing on. -/
theorem ends_of_line (blank : start.IsBlank)
    (reaches : Scene.Reaches program (.opening start) scene)
    (ends : Ends program interval scene ⟨ref, deadline⟩ last result) {heir : RunRef}
    (line : ReflTransGen last.book.runs.Passes ref heir) :
    ∃ seen, Scene.Reaches program scene seen ∧
      Ends program interval seen ⟨heir, deadline⟩ last result := by
  induction line with
  | refl => exact ⟨scene, .refl, ends⟩
  | @tail middle heir _ passes ih =>
      obtain ⟨seen, hseen, rest⟩ := ih
      rcases rest.cases_at with hfinished | ⟨hrunning, -⟩ | ⟨next, after, hafter, hpasses, hends⟩
      · cases hfinished.symm.trans passes
      · cases hrunning.symm.trans passes
      · have hreached := (reaches.trans hseen).trans hafter
        have hkept := (linked blank hreached).passes_kept
          (book_turns_of_reaches blank hreached hends.reaches) hpasses
        cases hkept.symm.trans passes
        exact ⟨after, hseen.trans hafter, hends⟩

open ResultWait in
/-- A wait ends with what is seen of a run that it gets to and does not pass. -/
theorem told_of_line (blank : start.IsBlank)
    (reaches : Scene.Reaches program (.opening start) scene)
    (ends : Ends program interval scene ⟨ref, deadline⟩ last result) {heir : RunRef}
    (line : ReflTransGen last.book.runs.Passes ref heir)
    (hstays : ∀ next, ¬ last.book.runs.Passes heir next) :
    last.book.runs.look heir = .finished result ∨
      (last.book.runs.look heir = .stillRunning ∧
        result = .error (.resultTimeout heir.workflowId)) := by
  obtain ⟨seen, hseen, rest⟩ := ends_of_line blank reaches ends line
  rcases rest.cases_at with hfinished | hrunning | ⟨next, after, hafter, hpasses, hends⟩
  · exact .inl hfinished
  · exact .inr hrunning
  · have hreached := (reaches.trans hseen).trans hafter
    exact absurd ((linked blank hreached).passes_kept
      (book_turns_of_reaches blank hreached hends.reaches) hpasses) (hstays next)

open ResultWait in
theorem eq_answer_of_line (blank : start.IsBlank)
    (reaches : Scene.Reaches program (.opening start) scene)
    (ends : Ends program interval scene ⟨ref, deadline⟩ last result) {heir : RunRef}
    (line : ReflTransGen last.book.runs.Passes ref heir) {answer : Except ClientError Json}
    (hlook : last.book.runs.look heir = .finished answer) : result = answer := by
  have hstays : ∀ next, ¬ last.book.runs.Passes heir next := by
    intro next passes
    cases hlook.symm.trans passes
  rcases told_of_line blank reaches ends line hstays with hfinished | ⟨hrunning, -⟩
  · cases hlook.symm.trans hfinished
    rfl
  · cases hlook.symm.trans hrunning

/-- The turns of a wait are over when it has got to a run that is finished. -/
theorem run_follow (moment : Moment) {heir : RunRef} {world : World} {runs : RunTable}
    (hruns : world.store.runs = runs) (chained : runs.Chained)
    (line : ReflTransGen runs.Passes ref heir) (hlook : runs.look heir = .finished result)
    {front rest : List RunRecord} {record : RunRecord} (hfind : runs.find? ref = some record)
    (hsplit : runs.recordsOf ref.workflowId = front ++ record :: rest) {limit : Nat}
    (hlimit : rest.length < limit) :
    (ResultWait.follow interval moment limit ⟨ref, deadline⟩).run World.answer world =
      (.ok (.finished result), world) := by
  obtain ⟨limit, rfl⟩ := Nat.exists_eq_add_one_of_ne_zero (Nat.ne_zero_of_lt hlimit)
  induction line using ReflTransGen.head_induction_on generalizing front rest record limit with
  | refl => exact ResultWait.run_follow_of_finished moment limit (by rw [hruns]; exact hlook)
  | @head ref next passes _ ih =>
      rw [ResultWait.run_follow_of_passes moment limit (by rw [hruns]; exact passes)]
      obtain ⟨same, hsame, -, -, hnext, hid⟩ := RunTable.passes_iff.1 passes
      obtain rfl : record = same := Option.some.inj (hfind.symm.trans hsame)
      obtain ⟨other, more, rfl, hother⟩ := chained.next_eq hsplit hnext
      have hmember : other ∈ runs.recordsOf ref.workflowId := by simp [hsplit]
      have hfound := chained.find?_of_mem_recordsOf hmember
      have hnextRef : other.run.ref = next := by rw [hother, ← hid]
      rw [List.length_cons] at hlimit
      obtain ⟨fewer, rfl⟩ := Nat.exists_eq_add_one_of_ne_zero (n := limit) (by omega)
      refine @ih (front ++ [record]) more other ?_ ?_ fewer (by omega)
      · rw [← hnextRef]
        exact hfound
      · rw [hid, hsplit]
        simp

open ResultWait in
/-- Whoever waits for the result of a run is told what has become of it and its retries, unless they
have come to nothing and its workflow id has been used again. -/
theorem results_followRetries (blank : start.IsBlank)
    (reaches : Scene.Reaches program (.opening start) scene) {record : RunRecord}
    (found : scene.book.runs.find? ref = some record) : FollowsRetries program scene ref := by
  have linkedNow := linked blank reaches
  have hlast : ∀ {interval deadline last result},
      Ends program interval scene ⟨ref, deadline⟩ last result → last.book.Linked :=
    fun ends => linked blank (reaches.trans ends.reaches)
  constructor
  · exact linkedNow.exists_heir found
  · intro heir hheir stands interval moment deadline limit hlimit
    obtain ⟨front, rest, hsplit⟩ := Book.split_of_found found
    refine run_follow moment rfl linkedNow.chained (linkedNow.passes_of_line hheir.line)
      (linkedNow.look_of_stands hheir.found stands) found hsplit ?_
    rw [RunTable.runsOf, hsplit] at hlimit
    simp at hlimit
    omega
  · intro heir hheir hcompleted interval deadline last result ends
    have turns := book_turns_of_reaches blank reaches ends.reaches
    have line : ReflTransGen last.book.runs.Passes ref heir.run.ref :=
      ReflTransGen.mono (fun _ _ => linkedNow.passes_kept turns) _ _
        (linkedNow.passes_of_line hheir.line)
    exact eq_answer_of_line blank reaches ends line (Book.look_kept turns hheir.found hcompleted)
  · intro interval deadline last result ends heir hheir hopen
    have line := (hlast ends).passes_of_line hheir.line
    have hlook : last.book.runs.look heir.run.ref = .stillRunning :=
      (RunTable.look_of_found hheir.found).trans (Client.judge_of_open hopen)
    have hstays : ∀ next, ¬ last.book.runs.Passes heir.run.ref next := by
      intro next passes
      cases hlook.symm.trans passes
    rcases told_of_line blank reaches ends line hstays with hfinished | ⟨-, hresult⟩
    · cases hlook.symm.trans hfinished
    · rw [hresult, hheir.workflowId]
  · intro interval deadline last result ends heir hheir stands
    exact eq_answer_of_line blank reaches ends ((hlast ends).passes_of_line hheir.line)
      ((hlast ends).look_of_stands hheir.found stands)
  · intro interval deadline last result ends heir hheir hclosed stands
    obtain ⟨next, hnext, passes⟩ :=
      (hlast ends).passes_of_not_stands hheir.found hclosed stands
    obtain ⟨seen, hseen, rest⟩ := ends_of_line blank reaches ends
      (((hlast ends).passes_of_line hheir.line).tail passes)
    rw [hheir.workflowId] at rest
    exact ⟨next, seen, hnext, hseen, rest⟩

/-- A run that names no other one is not retried. -/
theorem unretried_of_last {book : Book} (linked : book.Linked) {record : RunRecord}
    (hfind : book.runs.find? ref = some record) (hlast : record.run.nextRunId = none) (later : RunRef) :
    ¬ book.Retries ref later := by
  intro retries
  obtain ⟨same, hsame, -, hnext⟩ := linked.of_retries retries
  obtain rfl : record = same := Option.some.inj (hfind.symm.trans hsame)
  rw [hlast] at hnext
  cases hnext

def trialEngine : Engine := ⟨⟨[Samples.trial]⟩, .standard⟩

def secondRun : RunRef := ⟨"orders", World.runId 1⟩

/-- A run fails at its first attempt, and its second one is terminated. -/
def trying : List Operation :=
  [.start (.first sampleRun "trial" "default" .null Samples.trialOptions),
    .processTask trialEngine sampleRun, .terminate trialEngine secondRun "done"]

/-- Whoever waits for the first attempt is told that the second one was terminated. -/
theorem retriedRun_tellsOfRetry :
    ∃ (scene : Scene Operation Unit) (record heir : RunRecord),
      Scene.Reaches program (.opening blankWorld) scene ∧
      scene.book.runs.find? sampleRun = some record ∧
      scene.book.runs.find? secondRun = some heir ∧ scene.book.Heir sampleRun heir ∧
      scene.book.Stands heir ∧ ResultWait.FollowsRetries program scene sampleRun := by
  have blank : blankWorld.IsBlank := rfl
  have entered := Scene.reaches_entered program blankWorld trying
  have started := (entered.act 0 rfl rfl).act 0 rfl rfl
  have failed := ((((started.act 1 rfl rfl).act 1 rfl rfl).act 1 rfl rfl).act 1 rfl rfl).act 1 rfl
    rfl
  have terminated := ((failed.act 2 rfl rfl).act 2 rfl rfl).act 2 rfl rfl
  refine ⟨_, _, _, terminated, rfl, rfl, ⟨rfl, ?_, ?_⟩, .inr ⟨rfl, rfl⟩,
    results_followRetries blank terminated rfl⟩
  · exact .single ⟨rfl, _, _, rfl, rfl, _, .head _, rfl, .head _, _, _, _, _, rfl, rfl, rfl, rfl, rfl⟩
  · exact unretried_of_last (linked blank terminated) rfl rfl

def counterEngine : Engine := ⟨⟨[Samples.counter]⟩, .standard⟩

/-- A run is terminated, and its workflow id is used again by a run that completes. -/
def startingOver : List Operation :=
  [.start (.first sampleRun "counter" "default" (Samples.CounterInput.toJson ⟨0, 0⟩) .standard),
    .terminate counterEngine sampleRun "done",
    .start (.first sampleRun "counter" "default" (Samples.CounterInput.toJson ⟨0, 0⟩) .standard),
    .processTask counterEngine secondRun]

/-- Whoever waits for the run that was terminated is told the result of the other one. -/
theorem terminatedRun_tellsOfOther :
    ∃ (scene : Scene Operation Unit) (record : RunRecord),
      Scene.Reaches program (.opening blankWorld) scene ∧
      scene.book.runs.find? sampleRun = some record ∧ record.run.status = .terminated ∧
      scene.book.Heir sampleRun record ∧
      ∀ deadline, ResultWait.Ends program (.ofMillis 25) scene ⟨sampleRun, deadline⟩ scene
        (.ok (.record [("final_value", .int 0)])) := by
  have blank : blankWorld.IsBlank := rfl
  have entered := Scene.reaches_entered program blankWorld startingOver
  have started := (entered.act 0 rfl rfl).act 0 rfl rfl
  have terminated := ((started.act 1 rfl rfl).act 1 rfl rfl).act 1 rfl rfl
  have again := (terminated.act 2 rfl rfl).act 2 rfl rfl
  have completed := (((again.act 3 rfl rfl).act 3 rfl rfl).act 3 rfl rfl).act 3 rfl rfl
  refine ⟨_, _, completed, rfl, rfl, ⟨rfl, .refl, ?_⟩, fun deadline => ?_⟩
  · rintro later ⟨-, _, _, _, -, entry, hmem, -, hbegun, -⟩
    -- neither of the two commits begins a run
    obtain _ | ⟨_, _ | ⟨_, ⟨⟩⟩⟩ := hmem
    · cases hbegun
    · cases hbegun
  · refine @ResultWait.Ends.finished _ _ _ _ _ _ _ 0 2 _ ?_
    exact .ask .refl rfl (.ask .refl rfl .done)

end Operation

end Chronicle
