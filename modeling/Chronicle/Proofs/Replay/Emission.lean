import Chronicle.Proofs.Replay.Reaction

/-!
# What the calls of a replay emit

The calls of workflow code determine which commands a replay wants recorded: waits are left out,
a wait with a timeout stands for its timer, a satisfied wait cancels that timer, and nothing
follows the first command that ends the run.  A replay accepts a history only if the recorded
commands are the first of those, each emitted before it was recorded, and it returns the rest.
-/

namespace Chronicle

/-! ## Emitted commands -/

namespace Command

/-- The commands that history records for one that a handler returns. -/
def recorded : Command → List Command
  | .awaitSignal _ => []
  | .awaitCondition conditionId (some timeout) =>
      [.startTimer (conditionTimer conditionId) timeout]
  | .awaitCondition _ none => []
  | command => [command]

def awaited? : Command → Option AwaitedCondition
  | .awaitCondition conditionId timeout => some ⟨conditionId, timeout.isSome⟩
  | _ => none

def untilTerminal : List Command → List Command
  | [] => []
  | command :: rest => if command.isTerminal then [command] else command :: untilTerminal rest

theorem untilTerminal_append (first second : List Command) :
    untilTerminal (first ++ second) =
      if (untilTerminal first).any isTerminal then untilTerminal first
      else untilTerminal first ++ untilTerminal second := by
  induction first with
  | nil => simp [untilTerminal]
  | cons command rest ih =>
      cases hterminal : command.isTerminal with
      | true => simp [untilTerminal, hterminal]
      | false =>
          simp only [List.cons_append, untilTerminal, hterminal, Bool.false_eq_true, if_false, ih,
            List.any_cons, Bool.false_or]
          split <;> rfl

theorem untilTerminal_prefix (commands : List Command) : untilTerminal commands <+: commands := by
  induction commands with
  | nil => exact List.prefix_rfl
  | cons command rest ih =>
      unfold untilTerminal
      split
      · exact ⟨rest, rfl⟩
      · exact (List.prefix_cons_inj command).2 ih

theorem untilTerminal_untilTerminal (commands : List Command) :
    untilTerminal (untilTerminal commands) = untilTerminal commands := by
  induction commands with
  | nil => rfl
  | cons command rest ih =>
      cases hterminal : command.isTerminal with
      | true => simp [untilTerminal, hterminal]
      | false => simp [untilTerminal, hterminal, ih]

theorem untilTerminal_append_of_none {first : List Command}
    (h : ∀ command ∈ first, command.isTerminal = false) (second : List Command) :
    untilTerminal (first ++ second) = first ++ untilTerminal second := by
  induction first with
  | nil => rfl
  | cons command rest ih =>
      rw [List.cons_append, untilTerminal, if_neg (by simp [h command]),
        ih fun other hmem => h other (List.mem_cons_of_mem _ hmem), List.cons_append]

theorem untilTerminal_of_append (first : List Command) {second : List Command}
    (h : untilTerminal (first ++ second) = first ++ second) : untilTerminal second = second := by
  induction first with
  | nil => exact h
  | cons command rest ih =>
      simp only [List.cons_append, untilTerminal] at h
      split at h
      · have hempty : rest ++ second = [] := by simpa using h
        rw [(List.append_eq_nil_iff.1 hempty).2]
        rfl
      · exact ih (List.cons.inj h).2

theorem key?_isSome_of_mem_recorded {command emitted : Command}
    (h : emitted ∈ command.recorded) : emitted.key?.isSome = true := by
  cases command with
  | awaitCondition conditionId timeout =>
      cases timeout with
      | none => simp [recorded] at h
      | some timeout =>
          simp only [recorded, List.mem_singleton] at h
          subst h
          rfl
  | awaitSignal signalName => simp [recorded] at h
  | _ =>
      simp only [recorded, List.mem_singleton] at h
      subst h
      rfl

end Command

namespace HandlerCall

/-- The waits that go on when a stimulus is handled: a resolved condition is the oldest wait of
its id. -/
def remaining (waits : List AwaitedCondition) : Stimulus → List AwaitedCondition
  | .conditionResolved conditionId _ => waits.eraseP fun wait => wait.id = conditionId
  | _ => waits

/-- The cancellation that goes before the call for a satisfied condition with a timer. -/
def cancellations (waits : List AwaitedCondition) : Stimulus → List Command
  | .conditionResolved conditionId .satisfied =>
      match waits.find? fun wait => wait.id = conditionId with
      | some ⟨_, true⟩ => [.cancelTimer (Command.conditionTimer conditionId)]
      | _ => []
  | _ => []

def waitsAfter (waits : List AwaitedCondition) (call : HandlerCall) : List AwaitedCondition :=
  remaining waits call.stimulus ++ (Step.commands call.step).filterMap Command.awaited?

def emits (waits : List AwaitedCondition) (call : HandlerCall) : List Command :=
  cancellations waits call.stimulus ++ (Step.commands call.step).flatMap Command.recorded

/-- Waits that the calls, oldest first, have begun and not ended. -/
def waits (calls : List HandlerCall) : List AwaitedCondition := calls.foldl waitsAfter []

def emittedFrom : List AwaitedCondition → List HandlerCall → List Command
  | _, [] => []
  | waits, call :: rest => call.emits waits ++ emittedFrom (call.waitsAfter waits) rest

def emitted (calls : List HandlerCall) : List Command :=
  Command.untilTerminal (emittedFrom [] calls)

/-- The calls have emitted the command that ends the run. -/
def ended (calls : List HandlerCall) : Bool := (emitted calls).any Command.isTerminal

theorem waits_concat (calls : List HandlerCall) (call : HandlerCall) :
    waits (calls ++ [call]) = call.waitsAfter (waits calls) := by
  simp [waits]

theorem emittedFrom_concat (start : List AwaitedCondition) (calls : List HandlerCall)
    (call : HandlerCall) :
    emittedFrom start (calls ++ [call]) =
      emittedFrom start calls ++ call.emits (calls.foldl waitsAfter start) := by
  induction calls generalizing start with
  | nil => simp [emittedFrom]
  | cons first rest ih => simp [emittedFrom, ih]

theorem emitted_concat (calls : List HandlerCall) (call : HandlerCall) (hopen : ended calls = false) :
    emitted (calls ++ [call]) =
      emitted calls ++ Command.untilTerminal (call.emits (waits calls)) := by
  unfold ended at hopen
  unfold emitted at *
  rw [emittedFrom_concat, Command.untilTerminal_append, hopen]
  simp [waits]

theorem eq_cancelTimer_of_mem_cancellations {waits : List AwaitedCondition} {stimulus : Stimulus}
    {command : Command} (h : command ∈ cancellations waits stimulus) :
    ∃ timerId, command = .cancelTimer timerId := by
  unfold cancellations at h
  split at h
  · split at h
    · exact ⟨_, List.mem_singleton.1 h⟩
    · cases h
  · cases h

theorem not_isTerminal_of_mem_cancellations {waits : List AwaitedCondition} {stimulus : Stimulus}
    {command : Command} (h : command ∈ cancellations waits stimulus) :
    command.isTerminal = false := by
  obtain ⟨timerId, rfl⟩ := eq_cancelTimer_of_mem_cancellations h
  rfl

theorem key?_isSome_of_mem_emits {waits : List AwaitedCondition} {call : HandlerCall}
    {command : Command} (h : command ∈ call.emits waits) : command.key?.isSome = true := by
  unfold emits at h
  rcases List.mem_append.1 h with hcancel | hreturned
  · obtain ⟨timerId, rfl⟩ := eq_cancelTimer_of_mem_cancellations hcancel
    rfl
  · obtain ⟨returned, -, hmem⟩ := List.mem_flatMap.1 hreturned
    exact Command.key?_isSome_of_mem_recorded hmem

theorem key?_isSome_of_mem_emitted {calls : List HandlerCall} {command : Command}
    (h : command ∈ emitted calls) : command.key?.isSome = true := by
  have hall : ∀ start, ∀ command ∈ emittedFrom start calls, command.key?.isSome = true := by
    clear h
    induction calls with
    | nil => simp [emittedFrom]
    | cons call rest ih =>
        intro start command hmem
        rcases List.mem_append.1 hmem with hmem | hmem
        · exact key?_isSome_of_mem_emits hmem
        · exact ih _ command hmem
  exact hall [] command ((Command.untilTerminal_prefix _).subset h)

/-- The calls lead from one state of the workflow to another. -/
inductive Lead (workflow : WorkflowType) (start : workflow.State) :
    List HandlerCall → workflow.State → Prop where
  | none : Lead workflow start [] start
  | call {calls : List HandlerCall} {state : workflow.State} {context : Context}
      {stimulus : Stimulus} {reaction : Reaction workflow.State}
      (before : Lead workflow start calls state)
      (reacted : workflow.react state context stimulus = .ok reaction) :
      Lead workflow start (calls ++ [⟨context, stimulus, reaction.step, reaction.drawn⟩])
        reaction.state

end HandlerCall

/-! ## Queued commands -/

namespace Replayer

variable {workflow : WorkflowType}

theorem foldl_acceptCommand_of_terminal (commands : List Command) (replayer : Replayer workflow)
    (h : replayer.terminalPending = true) : commands.foldl acceptCommand replayer = replayer := by
  induction commands with
  | nil => rfl
  | cons command rest ih =>
      have hsame : acceptCommand replayer command = replayer := by simp [acceptCommand, h]
      rw [List.foldl_cons, hsame, ih]

theorem acceptCommand_of_open (replayer : Replayer workflow) (command : Command)
    (h : replayer.terminalPending = false) :
    (replayer.acceptCommand command).pending = replayer.pending ++ command.recorded ∧
      (replayer.acceptCommand command).terminalPending = command.isTerminal ∧
      (replayer.acceptCommand command).conditions =
        replayer.conditions ++ command.awaited?.toList := by
  unfold acceptCommand
  rw [h]
  cases command with
  | awaitCondition conditionId timeout => cases timeout <;> simp [Command.recorded,
      Command.isTerminal, Command.awaited?]
  | _ => simp [Command.recorded, Command.isTerminal, Command.awaited?]

theorem untilTerminal_recorded (command : Command) (rest : List Command) :
    Command.untilTerminal (command.recorded ++ rest) =
      if command.isTerminal then command.recorded
      else command.recorded ++ Command.untilTerminal rest := by
  cases command with
  | awaitCondition conditionId timeout =>
      cases timeout <;> simp [Command.recorded, Command.untilTerminal, Command.isTerminal]
  | _ => simp [Command.recorded, Command.untilTerminal, Command.isTerminal]

theorem any_isTerminal_recorded (command : Command) :
    command.recorded.any Command.isTerminal = command.isTerminal := by
  cases command with
  | awaitCondition conditionId timeout =>
      cases timeout <;> simp [Command.recorded, Command.isTerminal]
  | _ => simp [Command.recorded, Command.isTerminal]

theorem foldl_acceptCommand_of_open (commands : List Command) (replayer : Replayer workflow)
    (h : replayer.terminalPending = false) :
    let result := commands.foldl acceptCommand replayer
    let queued := Command.untilTerminal (commands.flatMap Command.recorded)
    result.pending = replayer.pending ++ queued ∧
      result.terminalPending = queued.any Command.isTerminal ∧
      (result.terminalPending = false →
        result.conditions = replayer.conditions ++ commands.filterMap Command.awaited?) := by
  induction commands generalizing replayer with
  | nil => simp [Command.untilTerminal, h]
  | cons command rest ih =>
      obtain ⟨hpending, hterminal, hconditions⟩ := acceptCommand_of_open replayer command h
      simp only [List.foldl_cons, List.flatMap_cons]
      rw [untilTerminal_recorded]
      cases hcommand : command.isTerminal with
      | true =>
          rw [foldl_acceptCommand_of_terminal rest _ (by rw [hterminal, hcommand])]
          rw [hterminal, hcommand, hpending]
          simp [any_isTerminal_recorded, hcommand]
      | false =>
          obtain ⟨hrest, hlast, hwaits⟩ := ih (acceptCommand replayer command)
            (by rw [hterminal, hcommand])
          simp only [Bool.false_eq_true, if_false, List.any_append, any_isTerminal_recorded,
            hcommand, Bool.false_or]
          refine ⟨by rw [hrest, hpending, List.append_assoc], hlast, ?_⟩
          intro hopen
          rw [hwaits hopen, hconditions, List.append_assoc, List.filterMap_cons]
          cases command.awaited? <;> rfl

theorem accept_of_open (replayer : Replayer workflow) (step : Step)
    (h : replayer.terminalPending = false) :
    let queued := Command.untilTerminal ((Step.commands step).flatMap Command.recorded)
    (replayer.accept step).pending = replayer.pending ++ queued ∧
      (replayer.accept step).terminalPending = queued.any Command.isTerminal ∧
      ((replayer.accept step).terminalPending = false →
        (replayer.accept step).conditions =
          replayer.conditions ++ (Step.commands step).filterMap Command.awaited?) := by
  rw [accept_eq_foldl]
  exact foldl_acceptCommand_of_open (Step.commands step) replayer h

theorem afterCall_of_open (frame : ReplayFrame) (event : HistoryEvent)
    {replayer : Replayer workflow} (stimulus : Stimulus) (reaction : Reaction workflow.State)
    (h : replayer.terminalPending = false) :
    let queued := Command.untilTerminal ((Step.commands reaction.step).flatMap Command.recorded)
    let after := replayer.afterCall frame event stimulus reaction
    after.pending = replayer.pending ++ queued ∧
      after.terminalPending = queued.any Command.isTerminal ∧
      (after.terminalPending = false →
        after.conditions =
          replayer.conditions ++ (Step.commands reaction.step).filterMap Command.awaited?) :=
  accept_of_open _ reaction.step h

end Replayer

end Chronicle
