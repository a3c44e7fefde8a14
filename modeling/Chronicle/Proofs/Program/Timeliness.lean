import Chronicle.Proofs.Engine.Awaiting
import Chronicle.Proofs.Program.Playing
import Chronicle.Proofs.Time.Elapsing

/-!
# Programs that keep to the time

What a program may write about deadlines depends on the clock: a timer that it sets counts from what
the clock has shown since the program read the history, and an end of time that it records is that of
a timer that it was given as due, once for each time, or of a task for which it has waited long
enough itself.
-/

namespace Chronicle

/-! ## Limits and alarms -/

/-- What the time was up for when the event was recorded. -/
def Event.alarm? : Event → Option TimerPurpose
  | .timerFired timerId => some (.workflowTimer timerId)
  | .activityTimedOut activityId _ .scheduleToStart _ _ => some (.activityPickup activityId)
  | .activityTimedOut activityId attempt .startToClose _ _ =>
      some (.activityAttempt activityId attempt)
  | .activityTimedOut activityId attempt .heartbeat _ _ =>
      some (.activityHeartbeat activityId attempt)
  | .workflowTimedOut => some .runTimeout
  | _ => none

def ActivityOptions.limit? (options : ActivityOptions) : TimerPurpose → Option Span
  | .activityPickup _ => options.pickupTimeout
  | .activityAttempt .. => some options.attemptTimeout
  | .activityHeartbeat .. => options.heartbeatTimeout
  | _ => none

/-- For how long a timer has to run, as the event says. -/
def Event.limit? (event : Event) (purpose : TimerPurpose) : Option Span :=
  match event with
  | .workflowStarted _ _ _ _ _ options =>
      if purpose = .runTimeout then options.executionTimeout else none
  | .timerStarted timerId _ duration =>
      if purpose = .workflowTimer timerId then some duration else none
  | .activityScheduled activityId _ _ _ options =>
      if purpose.activityId? = some activityId then options.limit? purpose else none
  | _ => none

/-- How long a worker may take for the task. -/
def ActivityTask.limit? (work : ActivityTask) (purpose : TimerPurpose) : Option Span :=
  if purpose ∈ AttemptOutcome.attemptTimers work.activityId work.attempt then
    work.options.limit? purpose
  else
    none

namespace Commit

def alarms (commit : Commit) : List TimerPurpose := commit.events.filterMap Event.alarm?

/-- The events call for a timer that runs so long.  A timer of the workflow has to be started by the
commit itself. -/
inductive Calls (commit : Commit) (history : List HistoryEvent) (purpose : TimerPurpose)
    (span : Span) : Prop where
  | now {event : Event} (mem : event ∈ commit.events) (limit : event.limit? purpose = some span) :
      Calls commit history purpose span
  | before {event : Event} (mem : event ∈ history.map HistoryEvent.event)
      (limit : event.limit? purpose = some span) (activity : purpose.activityId? ≠ none) :
      Calls commit history purpose span

end Commit

/-- What a timer is to measure: from when on, how long at least, and how long it was made to run. -/
structure Deadline where
  since : Instant
  span : Span
  delay : Span

/-- The span has passed, or a century if it is longer, unless the delay leads past the end of time. -/
def Deadline.IsMet (deadline : Deadline) (now : Instant) : Prop :=
  deadline.since.Elapsed deadline.span now ∨ deadline.since.Overruns deadline.delay

theorem Deadline.isMet_of_le {deadline : Deadline} {now : Instant}
    (longer : (deadline.span.min Instant.century).nanos ≤ deadline.delay.nanos)
    (h : deadline.since.after deadline.delay ≤ now) : deadline.IsMet now := by
  by_cases hreach : deadline.since.Overruns deadline.delay
  · exact .inr hreach
  · exact .inl ((Instant.elapsed_after longer hreach).later h)

/-- A delay that is as long as it is asked for. -/
def Deadline.exact (since : Instant) (span : Span) : Deadline := ⟨since, span, span⟩

theorem Deadline.exact_isMet {since now : Instant} {span : Span} (h : since.after span ≤ now) :
    (exact since span).IsMet now :=
  isMet_of_le (Instant.min_century_le span) h

/-- The timer runs as long as the deadline says, and that is not too short. -/
structure Timer.Counts (timer : Timer) (deadline : Deadline) : Prop where
  longer : (deadline.span.min Instant.century).nanos ≤ deadline.delay.nanos
  fireAt : timer.fireAt = deadline.since.after deadline.delay

theorem Timer.Counts.isMet {timer : Timer} {deadline : Deadline} {now : Instant}
    (counts : timer.Counts deadline) (h : timer.fireAt ≤ now) : deadline.IsMet now :=
  Deadline.isMet_of_le counts.longer (counts.fireAt ▸ h)

/-! ## What a program has seen -/

structure Charge where
  /-- Tasks that were handed out to the program. -/
  works : List ActivityTask
  /-- Timers that it was given as due, and for which it has recorded nothing since. -/
  due : List Timer

namespace Charge

/-- The charge of a program that is given no timers. -/
def ofWorks (works : List ActivityTask) : Charge := ⟨works, []⟩

/-- What is left when the timers for these keys are seen to. -/
def settle (charge : Charge) (keys : List (RunRef × TimerPurpose)) : Charge :=
  { charge with due := charge.due.filter fun timer => timer.key ∉ keys }

structure Within (small large : Charge) : Prop where
  works : small.works ⊆ large.works
  due : small.due ⊆ large.due

theorem Within.ofWorks {works : List ActivityTask} {charge : Charge} (h : works ⊆ charge.works) :
    (ofWorks works).Within charge :=
  ⟨h, List.nil_subset _⟩

theorem mem_settle {charge : Charge} {keys : List (RunRef × TimerPurpose)} {timer : Timer} :
    timer ∈ (charge.settle keys).due ↔ timer ∈ charge.due ∧ timer.key ∉ keys := by
  simp [settle]

/-- The time is up for the purpose. -/
def Raises (charge : Charge) (outlasts : Span → Prop) (ref : RunRef) (purpose : TimerPurpose) :
    Prop :=
  (ref, purpose) ∈ charge.due.map Timer.key ∨
    ∃ work ∈ charge.works, work.run = ref ∧ ∃ span, work.limit? purpose = some span ∧ outlasts span

/-- Timers count from what the clock showed, and alarms are for what has come due. -/
structure Allows (charge : Charge) (outlasts : Span → Prop) (ref : RunRef)
    (history : List HistoryEvent) (clock : Option Instant) (commit : Commit) : Prop where
  timers : ∀ timer ∈ commit.timers, timer.run = ref ∧ ∃ deadline, clock = some deadline.since ∧
    timer.Counts deadline ∧ (commit.Calls history timer.purpose deadline.span ∨
      ∃ work ∈ charge.works, work.run = ref ∧ work.limit? timer.purpose = some deadline.span)
  alarms : ∀ purpose ∈ commit.alarms, charge.Raises outlasts ref purpose

variable {charge : Charge} {outlasts : Span → Prop} {ref : RunRef} {history : List HistoryEvent}
  {clock : Option Instant} {commit : Commit}

theorem Allows.grow {large : Charge} (allows : charge.Allows outlasts ref history clock commit)
    (within : charge.Within large) : large.Allows outlasts ref history clock commit where
  timers := by
    intro timer hmem
    obtain ⟨hrun, deadline, hclock, counts, hcalls⟩ := allows.timers timer hmem
    refine ⟨hrun, deadline, hclock, counts, hcalls.imp_right ?_⟩
    rintro ⟨work, hwork, hlimit⟩
    exact ⟨work, within.works hwork, hlimit⟩
  alarms := by
    intro purpose hmem
    refine (allows.alarms purpose hmem).imp (fun hdue => ?_) ?_
    · exact List.map_subset _ within.due hdue
    · rintro ⟨work, hwork, houtlasts⟩
      exact ⟨work, within.works hwork, houtlasts⟩

/-- A commit that has nothing to do with deadlines. -/
theorem Allows.of_plain (htimers : commit.timers = []) (halarms : commit.alarms = []) :
    charge.Allows outlasts ref history clock commit where
  timers := fun _ hmem => absurd (htimers ▸ hmem) List.not_mem_nil
  alarms := fun _ hmem => absurd (halarms ▸ hmem) List.not_mem_nil

end Charge

/-- The timers for these keys are seen to when the request is granted: the commit tells that their
time is up, or one is put back. -/
def Request.settles : (request : Request) → request.Answer → List (RunRef × TimerPurpose)
  | .commit ref _ written, .ok _ => written.alarms.map fun purpose => (ref, purpose)
  | .scheduleTimer timer, .ok _ => [timer.key]
  | _, _ => []

structure Sight where
  charge : Charge
  /-- The history that was read last, and the run that it belongs to. -/
  history : Option (RunRef × List HistoryEvent)
  /-- What the clock has shown since then. -/
  clock : Option Instant

namespace Sight

def nothing : Sight := ⟨.ofWorks [], none, none⟩

def learn (sight : Sight) : (request : Request) → request.Answer → Sight
  | .now, now => { sight with clock := some now }
  | .readEvents ref 0, .ok history => { sight with history := some (ref, history), clock := none }
  | .claimTask _, .claimed task =>
      match task.work with
      | .workflow .. => sight
      | .activity work =>
          { sight with charge := { sight.charge with works := work :: sight.charge.works } }
  | .popDueTimers _ _, .ok due =>
      { sight with charge := { sight.charge with due := due ++ sight.charge.due } }
  | .commit ref expected commit, .ok version =>
      { sight with
        charge := sight.charge.settle (Request.settles (.commit ref expected commit) (.ok version)) }
  | .scheduleTimer timer, .ok _ => { sight with charge := sight.charge.settle [timer.key] }
  | _, _ => sight

/-- Commits continue the history that was read; only timers that were due are put back. -/
def Permits (outlasts : Span → Prop) (sight : Sight) : Request → Prop
  | .commit ref expected commit => ∃ history, sight.history = some (ref, history) ∧
      history.length = expected ∧ sight.charge.Allows outlasts ref history sight.clock commit
  | .popDueTimers now _ => sight.clock = some now
  | .scheduleTimer timer => timer.key ∈ sight.charge.due.map Timer.key
  | _ => True

/-- Tasks that were handed out once stay in sight. -/
theorem works_learn (sight : Sight) (request : Request) (answer : request.Answer) :
    sight.charge.works ⊆ (sight.learn request answer).charge.works := by
  unfold learn
  split
  case h_3 =>
    split
    · exact List.Subset.refl _
    · exact List.subset_cons_self _ _
  all_goals exact List.Subset.refl _

end Sight

/-- The request shows neither a history nor the time. -/
def Request.looksAway : Request → Bool
  | .freshRunId | .currentRun _ => true
  | _ => false

theorem Sight.permits_of_free {outlasts : Span → Prop} (sight : Sight) {request : Request}
    (hfree : request.concernsTimers = false) : sight.Permits outlasts request := by
  cases request <;> trivial

/-- A run that was read is the one that was asked for, and no two due timers are for the same. -/
def Request.Truthful : (request : Request) → request.Answer → Prop
  | .getRun ref, .ok run => run.ref = ref
  | .popDueTimers _ _, .ok due => (due.map Timer.key).Nodup
  | _, _ => True

theorem TimerQueue.WellKept.due_nodup {queue : TimerQueue} (wellKept : queue.WellKept)
    (now : Instant) (limit : Nat) : ((queue.popDue now limit).2.map Timer.key).Nodup := by
  have hperm := (wellKept.popDue_perm now limit).map Timer.key
  rw [List.map_append] at hperm
  exact (hperm.nodup_iff.1 wellKept.single).of_append_left

theorem World.truthful_of_answer {request : Request} {answer : request.Answer} {world after : World}
    (wellKept : world.store.timers.WellKept)
    (answered : World.answer request world = (.ok answer, after)) : request.Truthful answer := by
  cases request with
  | getRun ref =>
      cases answer with
      | error error => trivial
      | ok run =>
          obtain ⟨-, record, hfind, hrun⟩ := answer_getRun answered
          rw [Request.Truthful, hrun]
          exact RunTable.ref_of_find? hfind
  | popDueTimers now limit =>
      cases answer with
      | error error => trivial
      | ok due =>
          simp only [answer, timeless_eq_ok, Prod.mk.injEq, Except.ok.injEq] at answered
          rw [← answered.1]
          exact wellKept.due_nodup now limit
  | _ => trivial

/-! ## Programs -/

namespace Program

variable {α β : Type} {outlasts : Span → Prop} {works : List ActivityTask}

/-- The program writes nothing about deadlines but what it has seen that it may. -/
def Timely (outlasts : Span → Prop) (post : α → Sight → Prop) : Program α → Sight → Prop
  | .done value, sight => post value sight
  | .ask request next, sight => sight.Permits outlasts request ∧
      ∀ answer, request.Truthful answer →
        Timely outlasts post (next answer) (sight.learn request answer)
  | .crash _, _ => True

theorem Timely.weaken {first second : α → Sight → Prop} {program : Program α} {sight : Sight}
    (timely : program.Timely outlasts first sight)
    (himplies : ∀ value later, sight.charge.works ⊆ later.charge.works → first value later →
      second value later) : program.Timely outlasts second sight := by
  induction program generalizing sight with
  | done value => exact himplies value sight (List.Subset.refl _) timely
  | ask request next ih =>
      refine ⟨timely.1, fun answer truthful => ih answer (timely.2 answer truthful) ?_⟩
      exact fun value later grown =>
        himplies value later (List.Subset.trans (sight.works_learn _ _) grown)
  | crash cause => trivial

theorem Timely.bind {post : β → Sight → Prop} {program : Program α} {next : α → Program β}
    {sight : Sight}
    (timely : program.Timely outlasts (fun value later => (next value).Timely outlasts post later)
      sight) :
    (program >>= next).Timely outlasts post sight := by
  induction program generalizing sight with
  | done value => exact timely
  | ask request rest ih =>
      exact ⟨timely.1, fun answer truthful => ih answer (timely.2 answer truthful)⟩
  | crash cause => trivial

theorem Timely.request {post : β → Sight → Prop} {request : Request}
    {next : request.Answer → Program β} {sight : Sight} (permits : sight.Permits outlasts request)
    (hnext : ∀ answer, request.Truthful answer →
      (next answer).Timely outlasts post (sight.learn request answer)) :
    (Program.request request >>= next).Timely outlasts post sight := ⟨permits, hnext⟩

theorem Timely.inquire {post : β → Sight → Prop} {request : Request}
    {next : request.Answer → Program β} {sight : Sight} (hfree : request.concernsTimers = false)
    (hnext : ∀ answer, (next answer).Timely outlasts post (sight.learn request answer)) :
    (Program.request request >>= next).Timely outlasts post sight :=
  .request (sight.permits_of_free hfree) fun answer _ => hnext answer

/-- The program keeps to the time whatever it has seen besides these tasks. -/
def OnTime (outlasts : Span → Prop) (works : List ActivityTask) (post : α → Prop)
    (program : Program α) : Prop :=
  ∀ sight, works ⊆ sight.charge.works → program.Timely outlasts (fun value _ => post value) sight

theorem OnTime.pure {post : α → Prop} {value : α} (h : post value) :
    (pure value : Program α).OnTime outlasts works post := fun _ _ => h

theorem OnTime.crash (post : α → Prop) (cause : Crash) :
    (.crash cause : Program α).OnTime outlasts works post := fun _ _ => trivial

theorem OnTime.bind {first : α → Prop} {post : β → Prop} {program : Program α}
    {next : α → Program β} (onTime : program.OnTime outlasts works first)
    (hnext : ∀ value, first value → (next value).OnTime outlasts works post) :
    (program >>= next).OnTime outlasts works post := by
  intro sight hworks
  apply Timely.bind
  apply (onTime sight hworks).weaken
  exact fun value later grown hfirst => hnext value hfirst later (List.Subset.trans hworks grown)

theorem OnTime.request {post : β → Prop} {request : Request} {next : request.Answer → Program β}
    (hfree : request.concernsTimers = false)
    (hnext : ∀ answer, request.Truthful answer → (next answer).OnTime outlasts works post) :
    (Program.request request >>= next).OnTime outlasts works post := by
  intro sight hworks
  refine ⟨sight.permits_of_free hfree, fun answer truthful => ?_⟩
  exact hnext answer truthful _ (List.Subset.trans hworks (sight.works_learn _ _))

/-- A request whose answer does not matter. -/
theorem OnTime.ask {request : Request} (hfree : request.concernsTimers = false) :
    (Program.request request).OnTime outlasts works fun _ => True :=
  fun sight _ => ⟨sight.permits_of_free hfree, fun _ _ => trivial⟩

/-! ## Programs that look at nothing -/

/-- The program only asks which run is current, and draws run ids. -/
def LooksAway : Program α → Prop
  | .done _ => True
  | .ask request next => request.looksAway = true ∧ ∀ answer, LooksAway (next answer)
  | .crash _ => True

theorem LooksAway.bind {program : Program α} {next : α → Program β} (first : program.LooksAway)
    (rest : ∀ value, (next value).LooksAway) : (program >>= next).LooksAway := by
  induction program with
  | done value => exact rest value
  | ask request later ih => exact ⟨first.1, fun answer => ih answer (first.2 answer)⟩
  | crash cause => trivial

theorem LooksAway.timely {program : Program α} (looksAway : program.LooksAway) (sight : Sight) :
    program.Timely outlasts (fun value later => program.Yields value ∧ later = sight) sight := by
  induction program with
  | done value => exact ⟨.done value, rfl⟩
  | ask request next ih =>
      obtain ⟨hrequest, hnext⟩ := looksAway
      have hsight : ∀ answer : request.Answer, sight.learn request answer = sight := by
        intro answer
        cases request <;> first | rfl | cases hrequest
      have hfree : request.concernsTimers = false := by
        cases request <;> first | rfl | cases hrequest
      refine ⟨sight.permits_of_free hfree, fun answer _ => ?_⟩
      rw [hsight answer]
      exact (ih answer (hnext answer)).weaken fun value later _ ⟨yields, hsame⟩ =>
        ⟨.ask answer yields, hsame⟩
  | crash cause => trivial

end Program

end Chronicle
