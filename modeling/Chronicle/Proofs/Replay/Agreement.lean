import Chronicle.Proofs.Replay.Acceptance
import Chronicle.Proofs.Replay.Repeating
import Chronicle.Proofs.Replay.Stops

/-!
# Replay and commit agree

Between two decisions no recorded command is outstanding.  This stays so when events that record
no command are added, and when all that a replay wants recorded is, in its order.  Such a history
is replayed without an objection, unless a handler never comes to rest.
-/

namespace Chronicle

structure WorkflowType.NeverPanics (workflow : WorkflowType) : Prop where
  react : ∀ state context stimulus panic, workflow.react state context stimulus ≠ .error panic
  acceptsSignal : ∀ state name panic, workflow.acceptsSignal state name ≠ .error panic
  conditionHolds : ∀ state conditionId panic,
    workflow.conditionHolds state conditionId ≠ .error panic

theorem ReplayStop.FromCode.eq_endless {workflow : WorkflowType} {stop : ReplayStop}
    (fromCode : stop.FromCode workflow) (hpanics : workflow.NeverPanics) :
    stop = .crash .endless := by
  cases fromCode with
  | endless => rfl
  | react eventId panics => exact absurd panics (hpanics.react _ _ _ _)
  | acceptsSignal panics => exact absurd panics (hpanics.acceptsSignal _ _ _)
  | conditionHolds panics => exact absurd panics (hpanics.conditionHolds _ _ _)

namespace Replayer

variable {workflow : WorkflowType} {limit : Nat} {frame : ReplayFrame}

/-- If the replay comes to an end at all, then in the described way. -/
def Ends (holds : Replayer workflow → Prop) (result : Except ReplayStop (Replayer workflow)) : Prop :=
  result = .error (.crash .endless) ∨ ∃ replayer, result = .ok replayer ∧ holds replayer

theorem Ends.mono {first second : Replayer workflow → Prop}
    {result : Except ReplayStop (Replayer workflow)} (ends : Ends first result)
    (himplies : ∀ replayer, first replayer → second replayer) : Ends second result := by
  rcases ends with hendless | ⟨replayer, hresult, hfirst⟩
  · exact .inl hendless
  · exact .inr ⟨replayer, hresult, himplies replayer hfirst⟩

/-! ## Histories in parts -/

theorem applyAll_append (replayer : Replayer workflow) (hopen : replayer.closed = false)
    (first second : List HistoryEvent) :
    applyAll limit frame replayer (first ++ second) =
      match applyAll limit frame replayer first with
      | .error stop => .error stop
      | .ok middle =>
          if middle.closed then .ok middle else applyAll limit frame middle second := by
  induction first generalizing replayer with
  | nil => simp [applyAll, hopen]
  | cons event rest ih =>
      simp only [List.cons_append, applyAll]
      cases apply limit frame replayer event with
      | error stop => rfl
      | ok next =>
          simp only
          cases hclosed : next.closed with
          | true => simp [hclosed]
          | false => simpa using ih next hclosed

theorem Ends.append {first second : Replayer workflow → Prop} {replayer : Replayer workflow}
    {history more : List HistoryEvent} (ends : Ends first (applyAll limit frame replayer history))
    (hopen : replayer.closed = false)
    (hclosed : ∀ middle, first middle → middle.closed = true → second middle)
    (hmore : ∀ middle, first middle → middle.closed = false →
      Ends second (applyAll limit frame middle more)) :
    Ends second (applyAll limit frame replayer (history ++ more)) := by
  rw [applyAll_append replayer hopen]
  rcases ends with hendless | ⟨middle, hresult, hfirst⟩
  · rw [hendless]
    exact .inl rfl
  · rw [hresult]
    cases hmiddle : middle.closed with
    | true => exact .inr ⟨middle, by simp [hmiddle], hclosed middle hfirst hmiddle⟩
    | false =>
        simp only [hmiddle, Bool.false_eq_true, if_false]
        exact hmore middle hfirst hmiddle

/-! ## Events from outside -/

/-- An event that records no command, met between two decisions. -/
theorem apply_keyless (hpanics : workflow.NeverPanics) {event : HistoryEvent}
    {replayer : Replayer workflow} (hkey : event.event.key? = none)
    (hdraining : replayer.draining = false) :
    Ends (fun result => result.draining = false) (apply limit frame replayer event) := by
  cases happlied : apply limit frame replayer event with
  | error stop =>
      left
      rw [(apply_stops hkey hdraining happlied).eq_endless hpanics]
  | ok result =>
      refine .inr ⟨result, rfl, ?_⟩
      have kept := @kept_part workflow _ Replayer.draining (fun _ _ _ _ _ _ _ _ _ => rfl) frame
        event false
      cases apply_cases happlied with
      | recorded found hfound => simp [hkey] at hfound
      | progress _ _ hresult => exact hresult ▸ hdraining
      | forced _ _ hresult => exact hresult ▸ hdraining
      | perceived _ _ middle hperceived hsettled =>
          exact kept.settle (kept.perceive hdraining hperceived) hsettled

theorem applyAll_keyless (hpanics : workflow.NeverPanics) {events : List HistoryEvent}
    {replayer : Replayer workflow} (hkeys : ∀ event ∈ events, event.event.key? = none)
    (hdraining : replayer.draining = false) :
    Ends (fun result => result.draining = false) (applyAll limit frame replayer events) := by
  induction events generalizing replayer with
  | nil => exact .inr ⟨replayer, rfl, hdraining⟩
  | cons event rest ih =>
      have hrest : ∀ event ∈ rest, event.event.key? = none :=
        fun other hmem => hkeys other (List.mem_cons_of_mem _ hmem)
      unfold applyAll
      rcases @apply_keyless workflow limit frame hpanics event replayer
        (hkeys event List.mem_cons_self) hdraining with hendless | ⟨next, happlied, hnext⟩
      · rw [hendless]
        exact .inl rfl
      · rw [happlied]
        cases hclosed : next.closed with
        | true => exact .inr ⟨next, by simp [hclosed], hnext⟩
        | false => simpa [hclosed] using ih hrest hnext

/-! ## Recorded decisions -/

def Drained (replayer : Replayer workflow) : Prop :=
  replayer.draining = false ∧ replayer.pending = []

/-- The record of the oldest outstanding command. -/
theorem apply_recorded {event : HistoryEvent} {replayer : Replayer workflow} {command : Command}
    {commands : List Command} (hopen : replayer.closed = false)
    (hpending : replayer.pending = command :: commands)
    (hkey : event.event.key? = command.key?) (hsome : command.key?.isSome = true) :
    ∃ next, apply limit frame replayer event = .ok next ∧ next.pending = commands ∧
      next.closed = event.event.isClose ∧ (commands = [] → next.draining = false) := by
  obtain ⟨found, hfound⟩ := Option.isSome_iff_exists.1 hsome
  rw [hfound] at hkey
  refine ⟨({ replayer with pending := commands, draining := !commands.isEmpty } :
    Replayer workflow).noteRecorded event.event, ?_, ?_, ?_, ?_⟩
  · simp [apply, hkey, matchCommand, hpending, hfound]
  · simp
  · rw [noteRecorded_closed]
    simp [hopen]
  · intro hnone
    simp [hnone]

/-- All outstanding commands are recorded, in their order; only the last record can close the
run. -/
theorem applyAll_recorded {events : List HistoryEvent} {replayer : Replayer workflow}
    (hopen : replayer.closed = false)
    (hkeys : events.map (fun event => event.event.key?) = replayer.pending.map Command.key?)
    (hsome : ∀ command ∈ replayer.pending, command.key?.isSome = true)
    (hinner : ∀ event ∈ events.dropLast, event.event.isClose = false)
    (hdraining : replayer.pending = [] → replayer.draining = false) :
    ∃ result, applyAll limit frame replayer events = .ok result ∧ result.Drained := by
  induction events generalizing replayer with
  | nil =>
      have hnone : replayer.pending = [] := by simpa using hkeys.symm
      exact ⟨replayer, rfl, hdraining hnone, hnone⟩
  | cons event rest ih =>
      cases hpending : replayer.pending with
      | nil => simp [hpending] at hkeys
      | cons command commands =>
          rw [hpending] at hkeys hsome
          simp only [List.map_cons, List.cons.injEq] at hkeys
          obtain ⟨hkey, hothers⟩ := hkeys
          obtain ⟨next, happlied, hnext, hclosed, hrests⟩ := @apply_recorded workflow limit frame
            event replayer command commands hopen hpending hkey (hsome command List.mem_cons_self)
          unfold applyAll
          rw [happlied]
          cases hclose : event.event.isClose with
          | true =>
              -- only the last record can close the run, so the queue is empty with it
              have hlast : rest = [] := by
                cases rest with
                | nil => rfl
                | cons other others =>
                    have hearly := hinner event (by simp)
                    rw [hclose] at hearly
                    cases hearly
              subst hlast
              have hnone : commands = [] := by simpa using hothers.symm
              refine ⟨next, ?_, hrests hnone, hnext.trans hnone⟩
              simp [hclosed, hclose]
          | false =>
              rw [hclose] at hclosed
              have hrest : ∀ event ∈ rest.dropLast, event.event.isClose = false := by
                intro other hmem
                apply hinner other
                cases rest with
                | nil => cases hmem
                | cons head tail => exact List.mem_cons_of_mem _ hmem
              have hkeyed : ∀ command ∈ next.pending, command.key?.isSome = true := by
                rw [hnext]
                exact fun other hmem => hsome other (List.mem_cons_of_mem _ hmem)
              obtain ⟨result, hresult, hdrained⟩ := ih hclosed (by rw [hnext]; exact hothers) hkeyed
                hrest fun hnone => hrests (hnext.symm.trans hnone)
              exact ⟨result, by simpa [hclosed] using hresult, hdrained⟩

end Replayer

namespace Replay

variable {workflow : WorkflowType} {ref : RunRef} {history : List HistoryEvent}

/-- The history begins with a start of the workflow from an input that it can read. -/
def Readable (workflow : WorkflowType) (history : List HistoryEvent) : Prop :=
  ∃ input taskQueue attempt parent options start,
    history.head?.map HistoryEvent.event =
      some (.workflowStarted workflow.name input taskQueue attempt parent options) ∧
    workflow.create input = .ok start

/-- Replays of the history by the workflow end in the described way, if at all. -/
def EndsWith (workflow : WorkflowType) (ref : RunRef) (history : List HistoryEvent)
    (holds : Replayer workflow → Prop) : Prop :=
  ∀ input taskQueue attempt parent options start,
    history.head?.map HistoryEvent.event =
      some (.workflowStarted workflow.name input taskQueue attempt parent options) →
    workflow.create input = .ok start → ∀ limit horizon,
      Replayer.Ends holds (Replayer.applyAll limit ⟨ref, workflow.name, attempt, horizon⟩
        (.initial start) history)

/-- Replays end between two decisions. -/
def Agrees (workflow : WorkflowType) (ref : RunRef) (history : List HistoryEvent) : Prop :=
  EndsWith workflow ref history fun replayer => replayer.draining = false

theorem EndsWith.mono {first second : Replayer workflow → Prop}
    (ends : EndsWith workflow ref history first)
    (himplies : ∀ replayer, first replayer → second replayer) :
    EndsWith workflow ref history second := by
  intro input taskQueue attempt parent options start hhead hcreate limit horizon
  exact (ends input taskQueue attempt parent options start hhead hcreate limit horizon).mono himplies

theorem head?_append {more : List HistoryEvent} (hsome : history ≠ []) :
    (history ++ more).head? = history.head? := by
  cases history with
  | nil => exact absurd rfl hsome
  | cons first rest => rfl

theorem Readable.of_append {more : List HistoryEvent} (hreadable : Readable workflow (history ++ more))
    (hsome : history ≠ []) : Readable workflow history := by
  obtain ⟨input, taskQueue, attempt, parent, options, start, hhead, hcreate⟩ := hreadable
  rw [head?_append hsome] at hhead
  exact ⟨input, taskQueue, attempt, parent, options, start, hhead, hcreate⟩

/-- No registry that knows the workflow finds its input undecodable. -/
theorem Readable.decodes {limit : Nat} {registry : WorkflowRegistry}
    (hreadable : Readable workflow history)
    (hregistry : ∀ other, registry.find? workflow.name = some other → other = workflow)
    (reason : String) : replay limit registry ref history ≠
      .error (.error (.registry (.undecodableInput reason))) := by
  intro hreplay
  obtain ⟨input, taskQueue, attempt, parent, options, start, hhead, hcreate⟩ := hreadable
  obtain ⟨workflowType, input', taskQueue', attempt', parent', options', found, hhead', hfind,
    hrefused⟩ := undecodable_iff.1 hreplay
  rw [hhead] at hhead'
  cases hhead'
  rw [hregistry found hfind, hcreate] at hrefused
  cases hrefused

theorem map_key?_eq {commands : List Command}
    (h : ∀ command ∈ commands, command.key?.isSome = true) :
    commands.map Command.key? = (commands.filterMap Command.key?).map some := by
  induction commands with
  | nil => rfl
  | cons command rest ih =>
      obtain ⟨key, hkey⟩ := Option.isSome_iff_exists.1 (h command List.mem_cons_self)
      rw [List.filterMap_cons_some hkey, List.map_cons, List.map_cons, hkey,
        ih fun other hmem => h other (List.mem_cons_of_mem _ hmem)]

theorem agrees_of_keyless (hpanics : workflow.NeverPanics)
    (hkeys : ∀ event ∈ history, event.event.key? = none) : Agrees workflow ref history := by
  intro input taskQueue attempt parent options start _ _ limit horizon
  exact Replayer.applyAll_keyless hpanics hkeys rfl

theorem Agrees.extend {more : List HistoryEvent} (agrees : Agrees workflow ref history)
    (hpanics : workflow.NeverPanics) (hsome : history ≠ [])
    (hkeys : ∀ event ∈ more, event.event.key? = none) : Agrees workflow ref (history ++ more) := by
  intro input taskQueue attempt parent options start hhead hcreate limit horizon
  rw [head?_append hsome] at hhead
  apply (agrees input taskQueue attempt parent options start hhead hcreate limit horizon).append rfl
  · exact fun _ hdraining _ => hdraining
  · exact fun _ hdraining _ => Replayer.applyAll_keyless hpanics hkeys hdraining

theorem replayer_of_replay {limit : Nat} {registry : WorkflowRegistry} {outcome : ReplayOutcome}
    {input : Json} {taskQueue : String} {attempt : Nat} {parent : Option RunRef}
    {options : WorkflowOptions} {start : workflow.State}
    (hregistry : ∀ other, registry.find? workflow.name = some other → other = workflow)
    (hreplay : replay limit registry ref history = .ok outcome)
    (hhead : history.head?.map HistoryEvent.event =
      some (.workflowStarted workflow.name input taskQueue attempt parent options))
    (hcreate : workflow.create input = .ok start) :
    ∃ replayer, registry.find? workflow.name = some workflow ∧
      Replayer.applyAll limit ⟨ref, workflow.name, attempt, horizon history⟩ (.initial start)
        history = .ok replayer ∧
      outcome = ⟨workflow, replayer.state, if replayer.closed then [] else replayer.pending,
        replayer.closed, lastEventId history, replayer.calls⟩ := by
  obtain ⟨workflowType, input', taskQueue', attempt', parent', options', found, start', replayer,
    hhead', hfind, hcreate', happlied, houtcome⟩ := eq_ok_of_replay hreplay
  rw [hhead] at hhead'
  cases hhead'
  obtain rfl := hregistry found hfind
  rw [hcreate, Except.ok.injEq] at hcreate'
  subst hcreate'
  exact ⟨replayer, hfind, happlied, houtcome⟩

/-- After all that a replay wanted recorded was, nothing is outstanding. -/
theorem Agrees.record {limit : Nat} {registry : WorkflowRegistry} {outcome : ReplayOutcome}
    {recorded : List HistoryEvent} (agrees : Agrees workflow ref history)
    (hdeterministic : workflow.Deterministic) (hsome : history ≠ [])
    (hregistry : ∀ other, registry.find? workflow.name = some other → other = workflow)
    (hreplay : replay limit registry ref history = .ok outcome) (hopen : outcome.closed = false)
    (hkeys : recorded.map (fun event => event.event.key?) = outcome.newCommands.map Command.key?)
    (hinner : ∀ event ∈ recorded.dropLast, event.event.isClose = false) :
    EndsWith workflow ref (history ++ recorded) Replayer.Drained := by
  intro input taskQueue attempt parent options start hhead hcreate other horizon
  rw [head?_append hsome] at hhead
  have hkeyed := (decided_of_replay hreplay).1
  obtain ⟨replayer, hfind, happlied, rfl⟩ := replayer_of_replay hregistry hreplay hhead hcreate
  simp only at hopen hkeys hkeyed
  rw [hopen, if_neg Bool.false_ne_true] at hkeys hkeyed
  have hdraining : replayer.draining = false := by
    rcases agrees input taskQueue attempt parent options start hhead hcreate limit
      (Replay.horizon history) with hendless | ⟨same, hsame, hrest⟩
    · rw [hendless] at happlied
      cases happlied
    · rw [hsame] at happlied
      cases happlied
      exact hrest
  have hagain : Replayer.Ends (fun middle => ∃ calls, middle = replayer.withCalls calls)
      (Replayer.applyAll other ⟨ref, workflow.name, attempt, horizon⟩ (.initial start) history) := by
    rcases Replayer.applyAll_again hdeterministic happlied other horizon with
      hendless | ⟨calls, hcalls⟩
    · exact .inl hendless
    · exact .inr ⟨_, hcalls, calls, rfl⟩
  apply hagain.append rfl
  · intro middle hmiddle hclosed
    obtain ⟨calls, rfl⟩ := hmiddle
    rw [show (replayer.withCalls calls).closed = replayer.closed from rfl, hopen] at hclosed
    cases hclosed
  · intro middle hmiddle hstill
    obtain ⟨calls, rfl⟩ := hmiddle
    exact .inr (Replayer.applyAll_recorded hstill hkeys hkeyed hinner fun _ => hdraining)

/-! ## Replays by an engine -/

/-- A replay of a readable history stops only if a handler never comes to rest. -/
theorem replay_of_endsWith {limit : Nat} {registry : WorkflowRegistry}
    {holds : Replayer workflow → Prop} (ends : EndsWith workflow ref history holds)
    (hdraining : ∀ replayer, holds replayer → replayer.draining = false)
    (hreadable : Readable workflow history) (hfind : registry.find? workflow.name = some workflow) :
    replay limit registry ref history = .error (.crash .endless) ∨
      ∃ replayer, holds replayer ∧ replay limit registry ref history =
        .ok ⟨workflow, replayer.state, if replayer.closed then [] else replayer.pending,
          replayer.closed, lastEventId history, replayer.calls⟩ := by
  obtain ⟨input, taskQueue, attempt, parent, options, start, hhead, hcreate⟩ := hreadable
  rcases ends input taskQueue attempt parent options start hhead hcreate limit
    (Replay.horizon history) with hendless | ⟨replayer, happlied, hholds⟩
  · left
    simp only [replay, hhead, hfind, Replay.run, hcreate, hendless]
  · right
    refine ⟨replayer, hholds, ?_⟩
    simp [replay, hhead, hfind, Replay.run, hcreate, happlied, conclude, hdraining replayer hholds]

end Replay

end Chronicle
