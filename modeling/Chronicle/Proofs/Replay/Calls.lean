import Chronicle.Replay.Engine

/-!
# Calls of workflow code

A replay enters workflow code in four places: it creates a state, hands it a stimulus, and asks
whether a signal is taken and whether a condition holds.  The traced replay notes each of these calls
where it makes it, and is otherwise the same.  A call that panics is the last one of a replay; the
panic of a handler becomes an error, and that of any other code leaves the caller without an answer.
-/

namespace Chronicle

inductive CodeCall where
  | create (workflow : WorkflowType) (input : Json)
  | react (workflow : WorkflowType) (state : workflow.State) (context : Context)
      (stimulus : Stimulus)
  | acceptsSignal (workflow : WorkflowType) (state : workflow.State) (name : String)
  | conditionHolds (workflow : WorkflowType) (state : workflow.State) (conditionId : String)

namespace CodeCall

@[reducible]
def Answer : CodeCall → Type
  | .create workflow _ => Except String workflow.State
  | .react workflow .. => Reaction workflow.State
  | .acceptsSignal .. => Bool
  | .conditionHolds .. => Bool

/-- Enters workflow code. -/
def enter : (call : CodeCall) → Except Panic call.Answer
  | .create workflow input =>
      match workflow.create input with
      | .ok state => .ok (.ok state)
      | .error (.undecodable reason) => .ok (.error reason)
      | .error (.panicked panic) => .error panic
  | .react workflow state context stimulus => workflow.react state context stimulus
  | .acceptsSignal workflow state name => workflow.acceptsSignal state name
  | .conditionHolds workflow state conditionId => workflow.conditionHolds state conditionId

def Panics (call : CodeCall) (panic : Panic) : Prop := call.enter = .error panic

/-- What a replay makes of a panic. -/
def stop : CodeCall → Panic → ReplayStop
  | .react _ _ context _, panic => .error (.handlerPanicked context.eventId panic.message)
  | _, panic => .crash (.panicked panic)

end CodeCall

def ReplayStop.isPanic : ReplayStop → Bool
  | .error (.handlerPanicked ..) => true
  | .crash (.panicked _) => true
  | _ => false

universe u v

/-- A result together with the calls that led to it. -/
structure Traced (α : Type u) where
  calls : List CodeCall
  result : Except ReplayStop α

namespace Traced

def bind {α : Type u} {β : Type v} (first : Traced α) (next : α → Traced β) : Traced β :=
  match first.result with
  | .error stop => ⟨first.calls, .error stop⟩
  | .ok value => ⟨first.calls ++ (next value).calls, (next value).result⟩

instance : Monad Traced where
  pure value := ⟨[], .ok value⟩
  bind := bind

def ofResult {α : Type u} (result : Except ReplayStop α) : Traced α := ⟨[], result⟩

def stop {α : Type u} (stop : ReplayStop) : Traced α := ofResult (.error stop)

/-- Notes a call and makes it. -/
def call (call : CodeCall) : Traced call.Answer := ⟨[call], call.enter.mapError call.stop⟩

/-! ## The traced replay -/

section

variable {workflow : WorkflowType}

open Replayer (contextOf)

def dispatch (frame : ReplayFrame) (event : HistoryEvent) (replayer : Replayer workflow)
    (stimulus : Stimulus) : Traced (Replayer workflow) :=
  if replayer.terminalPending || replayer.closed then pure replayer
  else do
    let context := contextOf frame event
    let reaction ← call (.react workflow replayer.state context stimulus)
    let noted : HandlerCall := ⟨context, stimulus, reaction.step, reaction.drawn⟩
    return { replayer with
      state := reaction.state
      calls := replayer.calls ++ [noted] }.accept reaction.step

def findIndex? {α : Type} (holds : α → Traced Bool) : Nat → List α → Traced (Option Nat)
  | _, [] => return none
  | index, item :: rest => do
      if ← holds item then return some index else findIndex? holds (index + 1) rest

def isDeliverable (replayer : Replayer workflow) (signal : Signal) : Traced Bool :=
  if replayer.awaited.contains signal.name then return true
  else call (.acceptsSignal workflow replayer.state signal.name)

def isSatisfied (replayer : Replayer workflow) (condition : AwaitedCondition) : Traced Bool :=
  call (.conditionHolds workflow replayer.state condition.id)

def deliver (frame : ReplayFrame) (event : HistoryEvent) (replayer : Replayer workflow)
    (index : Nat) : Traced (Replayer workflow) :=
  match replayer.inbox[index]? with
  | none => return replayer
  | some signal =>
      dispatch frame event
        { replayer with
          inbox := replayer.inbox.eraseIdx index
          awaited := replayer.awaited.erase signal.name }
        (.signalled signal)

def satisfy (frame : ReplayFrame) (event : HistoryEvent) (replayer : Replayer workflow)
    (index : Nat) : Traced (Replayer workflow) :=
  match replayer.conditions[index]? with
  | none => return replayer
  | some condition =>
      let replayer := { replayer with conditions := replayer.conditions.eraseIdx index }
      let replayer := if condition.hasTimer
        then replayer.acceptCommand (.cancelTimer (Command.conditionTimer condition.id))
        else replayer
      dispatch frame event replayer (.conditionResolved condition.id .satisfied)

def settle (frame : ReplayFrame) (event : HistoryEvent) :
    Nat → Replayer workflow → Traced (Replayer workflow)
  | 0, _ => stop (.crash .endless)
  | limit + 1, replayer =>
      if replayer.closed || replayer.terminalPending then return replayer
      else do
        match ← findIndex? (isDeliverable replayer) 0 replayer.inbox with
        | some index => settle frame event limit (← deliver frame event replayer index)
        | none =>
            match ← findIndex? (isSatisfied replayer) 0 replayer.conditions with
            | some index => settle frame event limit (← satisfy frame event replayer index)
            | none => return replayer

def conditionTimedOut (frame : ReplayFrame) (event : HistoryEvent) (replayer : Replayer workflow)
    (conditionId : String) : Traced (Replayer workflow) :=
  match replayer.conditions.findIdx? fun condition => condition.id = conditionId with
  | none => return replayer
  | some index =>
      dispatch frame event { replayer with conditions := replayer.conditions.eraseIdx index }
        (.conditionResolved conditionId .timedOut)

def timerFired (frame : ReplayFrame) (event : HistoryEvent) (replayer : Replayer workflow)
    (timerId : String) : Traced (Replayer workflow) :=
  if replayer.cancelledTimers.contains timerId || !replayer.startedTimers.contains timerId then
    return replayer
  else
    match Command.conditionOfTimer? timerId with
    | some conditionId => conditionTimedOut frame event replayer conditionId
    | none => dispatch frame event replayer (.timerFired timerId)

def activityClosed (frame : ReplayFrame) (event : HistoryEvent) (replayer : Replayer workflow)
    (activityId : String) (stimulus : Stimulus) : Traced (Replayer workflow) :=
  if replayer.cancelledActivities.contains activityId then return replayer
  else dispatch frame event replayer stimulus

def perceive (frame : ReplayFrame) (event : HistoryEvent) (replayer : Replayer workflow) :
    Traced (Replayer workflow) :=
  match event.event with
  | .workflowStarted .. => dispatch frame event replayer .started
  | .activityCompleted activityId _ result =>
      activityClosed frame event replayer activityId (.activityCompleted activityId result)
  | .activityFailed activityId _ failure _ _ =>
      activityClosed frame event replayer activityId (.activityFailed activityId failure)
  | .activityTimedOut activityId _ timeout _ _ =>
      activityClosed frame event replayer activityId
        (.activityFailed activityId (.timedOut timeout.name))
  | .timerFired timerId => timerFired frame event replayer timerId
  | .signalReceived signal => return { replayer with inbox := replayer.inbox ++ [signal] }
  | .childCompleted workflowId _ result =>
      dispatch frame event replayer (.childCompleted workflowId result)
  | .childFailed workflowId _ failure =>
      dispatch frame event replayer (.childFailed workflowId failure)
  | .cancellationRequested reason =>
      if replayer.cancelRequested then return replayer
      else dispatch frame event { replayer with cancelRequested := true } (.cancelRequested reason)
  | _ => return replayer

def apply (limit : Nat) (frame : ReplayFrame) (replayer : Replayer workflow)
    (event : HistoryEvent) : Traced (Replayer workflow) :=
  match event.event.key? with
  | some found => ofResult (replayer.matchCommand event found)
  | none =>
      if event.event.isProgress then return replayer
      else if event.event.isForcedClose then return { replayer with closed := true }
      else if replayer.draining && !replayer.pending.isEmpty then
        stop (replayer.mismatch event.eventId event.event.name)
      else do settle frame event limit (← perceive frame event replayer)

def applyAll (limit : Nat) (frame : ReplayFrame) :
    Replayer workflow → List HistoryEvent → Traced (Replayer workflow)
  | replayer, [] => return replayer
  | replayer, event :: rest => do
      let replayer ← apply limit frame replayer event
      if replayer.closed then return replayer else applyAll limit frame replayer rest

end

def run (limit : Nat) (workflow : WorkflowType) (frame : ReplayFrame) (input : Json)
    (history : List HistoryEvent) : Traced ReplayOutcome :=
  (call (.create workflow input)).bind fun
    | .error reason => stop (.error (.registry (.undecodableInput reason)))
    | .ok state =>
        (applyAll limit frame (.initial state) history).bind fun replayer =>
          ofResult (Replay.conclude replayer (Replay.lastEventId history))

def replay (limit : Nat) (registry : WorkflowRegistry) (ref : RunRef)
    (history : List HistoryEvent) : Traced ReplayOutcome :=
  match history.head?.map HistoryEvent.event with
  | some (.workflowStarted workflowType input _ attempt _ _) =>
      match registry.find? workflowType with
      | none => stop (.error (.registry (.unknownType workflowType)))
      | some workflow =>
          run limit workflow ⟨ref, workflowType, attempt, Replay.horizon history⟩ input history
  | _ => stop (.error (.missingStart ref))

/-! ## The same results -/

@[simp] theorem pure_result {α : Type} (value : α) : (pure value : Traced α).result = .ok value :=
  rfl

theorem bind_result {α : Type u} {β : Type v} (first : Traced α) (next : α → Traced β) :
    (first.bind next).result = match first.result with
      | .error stop => .error stop
      | .ok value => (next value).result := by
  unfold bind
  cases first.result <;> rfl

theorem do_result {α β : Type} (first : Traced α) (next : α → Traced β) :
    (first >>= next).result = match first.result with
      | .error stop => .error stop
      | .ok value => (next value).result :=
  bind_result first next

theorem call_result (code : CodeCall) :
    (call code).result = match code.enter with
      | .error panic => .error (code.stop panic)
      | .ok answer => .ok answer := by
  unfold call
  cases code.enter <;> rfl

section

variable {workflow : WorkflowType} (frame : ReplayFrame) (event : HistoryEvent)
  (replayer : Replayer workflow)

theorem dispatch_result (stimulus : Stimulus) :
    (dispatch frame event replayer stimulus).result =
      replayer.dispatch frame event stimulus := by
  unfold dispatch Replayer.dispatch
  split
  · rfl
  · rw [do_result, call_result]
    simp only [CodeCall.enter]
    cases workflow.react replayer.state (Replayer.contextOf frame event) stimulus <;> rfl

/-- A predicate of workflow code that panics leaves no answer. -/
def answered {α : Type} : Except Panic α → Except ReplayStop α
  | .ok value => .ok value
  | .error panic => .error (.crash (.panicked panic))

theorem findIndex?_result {α : Type} {traced : α → Traced Bool} {holds : α → Except Panic Bool}
    (hsame : ∀ item, (traced item).result = answered (holds item)) (items : List α) (start : Nat) :
    (findIndex? traced start items).result =
      answered (Replayer.findIndex? holds start items) := by
  induction items generalizing start with
  | nil => rfl
  | cons item rest ih =>
      rw [findIndex?, do_result, hsame, Replayer.findIndex?]
      cases holds item with
      | error panic => rfl
      | ok value =>
          cases value with
          | true => rfl
          | false => exact ih (start + 1)

theorem isDeliverable_result (signal : Signal) :
    (isDeliverable replayer signal).result = answered (replayer.isDeliverable signal) := by
  unfold isDeliverable Replayer.isDeliverable
  split
  · rfl
  · rw [call_result]
    simp only [CodeCall.enter]
    cases workflow.acceptsSignal replayer.state signal.name <;> rfl

theorem isSatisfied_result (condition : AwaitedCondition) :
    (isSatisfied replayer condition).result = answered (replayer.isSatisfied condition) := by
  unfold isSatisfied Replayer.isSatisfied
  rw [call_result]
  simp only [CodeCall.enter]
  cases workflow.conditionHolds replayer.state condition.id <;> rfl

theorem deliver_result (index : Nat) :
    (deliver frame event replayer index).result = replayer.deliver frame event index := by
  unfold deliver Replayer.deliver
  cases replayer.inbox[index]? with
  | none => rfl
  | some signal => exact dispatch_result frame event _ _

theorem satisfy_result (index : Nat) :
    (satisfy frame event replayer index).result = replayer.satisfy frame event index := by
  unfold satisfy Replayer.satisfy
  cases replayer.conditions[index]? with
  | none => rfl
  | some condition => exact dispatch_result frame event _ _

theorem settle_result (limit : Nat) :
    (settle frame event limit replayer).result = replayer.settle frame event limit := by
  induction limit generalizing replayer with
  | zero => rfl
  | succ limit ih =>
      unfold settle Replayer.settle
      split
      · rfl
      · rw [do_result, findIndex?_result (isDeliverable_result replayer)]
        cases Replayer.findIndex? replayer.isDeliverable 0 replayer.inbox with
        | error panic => rfl
        | ok found =>
            cases found with
            | some index =>
                simp only [answered]
                rw [do_result, deliver_result]
                cases replayer.deliver frame event index with
                | error stop => rfl
                | ok next => exact ih next
            | none =>
                -- conditions are looked at when no signal can be delivered
                simp only [answered]
                rw [do_result, findIndex?_result (isSatisfied_result replayer)]
                cases Replayer.findIndex? replayer.isSatisfied 0 replayer.conditions with
                | error panic => rfl
                | ok found =>
                    cases found with
                    | none => rfl
                    | some index =>
                        simp only [answered]
                        rw [do_result, satisfy_result]
                        cases replayer.satisfy frame event index with
                        | error stop => rfl
                        | ok next => exact ih next

theorem timerFired_result (timerId : String) :
    (timerFired frame event replayer timerId).result =
      replayer.timerFired frame event timerId := by
  unfold timerFired Replayer.timerFired
  split
  · rfl
  · cases Command.conditionOfTimer? timerId with
    | none => exact dispatch_result frame event _ _
    | some conditionId =>
        simp only [conditionTimedOut, Replayer.conditionTimedOut]
        cases replayer.conditions.findIdx? fun condition => condition.id = conditionId with
        | none => rfl
        | some index => exact dispatch_result frame event _ _

theorem activityClosed_result (activityId : String) (stimulus : Stimulus) :
    (activityClosed frame event replayer activityId stimulus).result =
      replayer.activityClosed frame event activityId stimulus := by
  unfold activityClosed Replayer.activityClosed
  split
  · rfl
  · exact dispatch_result frame event _ _

theorem perceive_result :
    (perceive frame event replayer).result = replayer.perceive frame event := by
  unfold perceive Replayer.perceive
  cases event.event with
  | workflowStarted => exact dispatch_result frame event _ _
  | activityCompleted => exact activityClosed_result frame event _ _ _
  | activityFailed => exact activityClosed_result frame event _ _ _
  | activityTimedOut => exact activityClosed_result frame event _ _ _
  | timerFired => exact timerFired_result frame event _ _
  | childCompleted => exact dispatch_result frame event _ _
  | childFailed => exact dispatch_result frame event _ _
  | cancellationRequested reason =>
      simp only
      split
      · rfl
      · exact dispatch_result frame event _ _
  | _ => rfl

theorem apply_result (limit : Nat) :
    (apply limit frame replayer event).result = replayer.apply limit frame event := by
  unfold apply Replayer.apply
  cases event.event.key? with
  | some found => rfl
  | none =>
      simp only
      split
      · rfl
      · split
        · rfl
        · split
          · rfl
          · rw [do_result, perceive_result]
            cases replayer.perceive frame event with
            | error stop => rfl
            | ok next => exact settle_result frame event next limit

end

theorem applyAll_result {workflow : WorkflowType} (frame : ReplayFrame)
    (replayer : Replayer workflow) (limit : Nat) (events : List HistoryEvent) :
    (applyAll limit frame replayer events).result = replayer.applyAll limit frame events := by
  induction events generalizing replayer with
  | nil => rfl
  | cons event rest ih =>
      rw [applyAll, do_result, apply_result, Replayer.applyAll]
      cases replayer.apply limit frame event with
      | error stop => rfl
      | ok next =>
          simp only
          split
          · rfl
          · exact ih next

theorem run_result (limit : Nat) (workflow : WorkflowType) (frame : ReplayFrame) (input : Json)
    (history : List HistoryEvent) :
    (run limit workflow frame input history).result =
      Replay.run limit workflow frame input history := by
  rw [run, bind_result, call_result, Replay.run]
  simp only [CodeCall.enter]
  cases workflow.create input with
  | error cause => cases cause <;> rfl
  | ok state =>
      simp only
      rw [bind_result, applyAll_result]
      cases (Replayer.initial state).applyAll limit frame history <;> rfl

theorem replay_result (limit : Nat) (registry : WorkflowRegistry) (ref : RunRef)
    (history : List HistoryEvent) :
    (replay limit registry ref history).result = Chronicle.replay limit registry ref history := by
  unfold replay Chronicle.replay
  cases history.head?.map HistoryEvent.event with
  | none => rfl
  | some event =>
      cases event with
      | workflowStarted workflowType =>
          simp only
          cases registry.find? workflowType with
          | none => rfl
          | some workflow => exact run_result _ _ _ _ _
      | _ => rfl

/-! ## A panic is the end -/

/-- No call panics and no panic is reported, or the last call panics and that is the result. -/
inductive EndsWithPanic {α : Type u} (traced : Traced α) : Prop where
  | calm (quiet : ∀ code ∈ traced.calls, ∀ panic, ¬code.Panics panic)
      (unreported : ∀ stop, traced.result = .error stop → stop.isPanic = false)
  | panicked {earlier : List CodeCall} {last : CodeCall} {panic : Panic}
      (split : traced.calls = earlier ++ [last])
      (quiet : ∀ code ∈ earlier, ∀ panic, ¬code.Panics panic) (panics : last.Panics panic)
      (stops : traced.result = .error (last.stop panic))

namespace EndsWithPanic

theorem ofResult {α : Type u} {result : Except ReplayStop α}
    (h : ∀ stop, result = .error stop → stop.isPanic = false) :
    (Traced.ofResult result).EndsWithPanic :=
  .calm (fun _ hnone => nomatch hnone) h

theorem pure {α : Type} (value : α) : (Pure.pure value : Traced α).EndsWithPanic :=
  .ofResult fun _ hnone => nomatch hnone

theorem stop {α : Type u} {stop : ReplayStop} (h : stop.isPanic = false) :
    (Traced.stop stop : Traced α).EndsWithPanic :=
  .ofResult fun other hsame => by cases hsame; exact h

theorem call (code : CodeCall) : (Traced.call code).EndsWithPanic := by
  cases henter : code.enter with
  | error panic =>
      refine .panicked (List.nil_append [code]).symm (fun other hnone => nomatch hnone) henter ?_
      simp only [call_result, henter]
  | ok answer =>
      constructor
      · intro other hmem panic hpanics
        obtain rfl : other = code := List.mem_singleton.1 hmem
        rw [CodeCall.Panics, henter] at hpanics
        cases hpanics
      · intro stop hstop
        simp only [call_result, henter] at hstop
        cases hstop

theorem bind {α : Type u} {β : Type v} {first : Traced α} {next : α → Traced β}
    (hfirst : first.EndsWithPanic) (hnext : ∀ value, (next value).EndsWithPanic) :
    (first.bind next).EndsWithPanic := by
  cases hresult : first.result with
  | error stop =>
      have hbind : first.bind next = ⟨first.calls, .error stop⟩ := by
        unfold Traced.bind
        rw [hresult]
      rw [hbind]
      cases hfirst with
      | calm quiet unreported =>
          refine .calm quiet ?_
          rintro other ⟨⟩
          exact unreported stop hresult
      | panicked split quiet panics stops =>
          refine .panicked split quiet panics ?_
          rw [hresult] at stops
          cases stops
          rfl
  | ok value =>
      have hbind : first.bind next =
          ⟨first.calls ++ (next value).calls, (next value).result⟩ := by
        unfold Traced.bind
        rw [hresult]
      rw [hbind]
      cases hfirst with
      | panicked split quiet panics stops =>
          rw [hresult] at stops
          cases stops
      | calm earlyQuiet unreported =>
          cases hnext value with
          | calm quiet unreported =>
              refine .calm ?_ unreported
              intro code hmem
              exact (List.mem_append.1 hmem).elim (earlyQuiet code) (quiet code)
          | @panicked earlier last panic split quiet panics stops =>
              refine @panicked _ _ (first.calls ++ earlier) last panic ?_ ?_ panics stops
              · rw [split, List.append_assoc]
              · intro code hmem
                exact (List.mem_append.1 hmem).elim (earlyQuiet code) (quiet code)

section

variable {workflow : WorkflowType} (frame : ReplayFrame) (event : HistoryEvent)
  (replayer : Replayer workflow)

theorem dispatch (stimulus : Stimulus) :
    (Traced.dispatch frame event replayer stimulus).EndsWithPanic := by
  unfold Traced.dispatch
  split
  · exact .pure _
  · exact .bind (.call _) fun _ => .pure _

theorem findIndex? {α : Type} {holds : α → Traced Bool} (hholds : ∀ item, (holds item).EndsWithPanic)
    (items : List α) (start : Nat) : (Traced.findIndex? holds start items).EndsWithPanic := by
  induction items generalizing start with
  | nil => exact .pure _
  | cons item rest ih =>
      refine .bind (hholds item) fun value => ?_
      cases value with
      | true => exact .pure _
      | false => exact ih (start + 1)

theorem isDeliverable (signal : Signal) : (Traced.isDeliverable replayer signal).EndsWithPanic := by
  unfold Traced.isDeliverable
  split
  · exact .pure _
  · exact .call _

theorem deliver (index : Nat) : (Traced.deliver frame event replayer index).EndsWithPanic := by
  unfold Traced.deliver
  split
  · exact .pure _
  · exact dispatch frame event _ _

theorem satisfy (index : Nat) : (Traced.satisfy frame event replayer index).EndsWithPanic := by
  unfold Traced.satisfy
  split
  · exact .pure _
  · exact dispatch frame event _ _

theorem settle (limit : Nat) : (Traced.settle frame event limit replayer).EndsWithPanic := by
  induction limit generalizing replayer with
  | zero => exact .stop rfl
  | succ limit ih =>
      unfold Traced.settle
      split
      · exact .pure _
      · refine .bind (findIndex? (isDeliverable replayer) _ 0) fun found => ?_
        cases found with
        | some index => exact .bind (deliver frame event replayer index) fun next => ih next
        | none =>
            refine .bind (findIndex? (fun _ => .call _) _ 0) fun found => ?_
            cases found with
            | some index => exact .bind (satisfy frame event replayer index) fun next => ih next
            | none => exact .pure _

theorem timerFired (timerId : String) :
    (Traced.timerFired frame event replayer timerId).EndsWithPanic := by
  unfold Traced.timerFired Traced.conditionTimedOut
  split
  · exact .pure _
  · split
    · split
      · exact .pure _
      · exact dispatch frame event _ _
    · exact dispatch frame event _ _

theorem activityClosed (activityId : String) (stimulus : Stimulus) :
    (Traced.activityClosed frame event replayer activityId stimulus).EndsWithPanic := by
  unfold Traced.activityClosed
  split
  · exact .pure _
  · exact dispatch frame event _ _

theorem perceive : (Traced.perceive frame event replayer).EndsWithPanic := by
  unfold Traced.perceive
  split
  · exact dispatch frame event _ _
  · exact activityClosed frame event _ _ _
  · exact activityClosed frame event _ _ _
  · exact activityClosed frame event _ _ _
  · exact timerFired frame event _ _
  · exact .pure _
  · exact dispatch frame event _ _
  · exact dispatch frame event _ _
  · split
    · exact .pure _
    · exact dispatch frame event _ _
  · exact .pure _

theorem matchCommand (found : CommandKey) :
    (Traced.ofResult (replayer.matchCommand event found)).EndsWithPanic := by
  refine .ofResult fun stop hstop => ?_
  unfold Replayer.matchCommand at hstop
  split at hstop
  · cases hstop
    rfl
  · split at hstop
    · cases hstop
    · cases hstop
      rfl

theorem apply (limit : Nat) : (Traced.apply limit frame replayer event).EndsWithPanic := by
  unfold Traced.apply
  split
  · exact matchCommand event replayer _
  · split
    · exact .pure _
    · split
      · exact .pure _
      · split
        · exact .stop rfl
        · exact .bind (perceive frame event replayer) fun next => settle frame event next limit

end

theorem applyAll {workflow : WorkflowType} (frame : ReplayFrame) (replayer : Replayer workflow)
    (limit : Nat) (events : List HistoryEvent) :
    (Traced.applyAll limit frame replayer events).EndsWithPanic := by
  induction events generalizing replayer with
  | nil => exact .pure _
  | cons event rest ih =>
      refine .bind (apply frame event replayer limit) fun next => ?_
      split
      · exact .pure _
      · exact ih next

theorem conclude {workflow : WorkflowType} (replayer : Replayer workflow) (lastEventId : Nat) :
    (Traced.ofResult (Replay.conclude replayer lastEventId)).EndsWithPanic := by
  refine .ofResult fun stop hstop => ?_
  unfold Replay.conclude at hstop
  split at hstop
  · cases hstop
    rfl
  · cases hstop

/-- Whatever the workflow and the history, a panic is the end of the replay and its result. -/
theorem replay (limit : Nat) (registry : WorkflowRegistry) (ref : RunRef)
    (history : List HistoryEvent) : (Traced.replay limit registry ref history).EndsWithPanic := by
  unfold Traced.replay
  split
  · split
    · exact .stop rfl
    · refine .bind (.call _) fun created => ?_
      cases created with
      | error reason => exact .stop rfl
      | ok state =>
          exact .bind (applyAll _ _ _ _) fun replayer => conclude replayer _
  · exact .stop rfl

end EndsWithPanic

end Traced

namespace Replay

variable {limit : Nat} {registry : WorkflowRegistry} {ref : RunRef} {history : List HistoryEvent}

/-- The calls of workflow code in a replay, in their order. -/
def calls (limit : Nat) (registry : WorkflowRegistry) (ref : RunRef) (history : List HistoryEvent) :
    List CodeCall :=
  (Traced.replay limit registry ref history).calls

/-- A call that panics is why a replay has no outcome. -/
theorem stop_of_panics {code : CodeCall} {panic : Panic}
    (hcall : code ∈ calls limit registry ref history) (hpanics : code.Panics panic) :
    replay limit registry ref history = .error (code.stop panic) := by
  rw [← Traced.replay_result]
  cases Traced.EndsWithPanic.replay limit registry ref history with
  | calm quiet unreported => exact absurd hpanics (quiet code hcall panic)
  | @panicked earlier last other split quiet panics stops =>
      rw [calls, split] at hcall
      rcases List.mem_append.1 hcall with hearly | hlast
      · exact absurd hpanics (quiet code hearly panic)
      · obtain rfl : code = last := List.mem_singleton.1 hlast
        obtain rfl : other = panic := by
          rw [CodeCall.Panics, hpanics] at panics
          cases panics
          rfl
        exact stops

end Replay

end Chronicle
