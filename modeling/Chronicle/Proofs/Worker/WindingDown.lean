import Chronicle.Proofs.Program.Bystanders
import Chronicle.Proofs.Worker.Timeliness
import Chronicle.Worker.Shutdown

/-!
# Shutdowns that end in time

A worker that was told to stop takes on nothing new: its loops and tickers end at their next turn,
and attempts that go on keep their slots.  A shutdown waits for the loops and tickers without a
limit, and only then for the attempts until its timeout.  So it ends in time unless a loop waits for
a slot, which is the one wait that does not notice the end of the worker.
-/

namespace Chronicle

open Relation (ReflTransGen)

/-! ## Attempts that wait -/

theorem Pause.resume_sleeping {moment wakesAt : Moment} {pause : Pause} {context : ActivityContext}
    {next : Behaviour} (h : (pause.resume moment context).1 = .sleeping wakesAt next) :
    moment < wakesAt := by
  obtain fresh | ⟨outcome, rfl, hsame⟩ := pause.resume_cases moment context
  · rwa [h] at fresh
  · rw [hsame] at h
    cases h

theorem Moment.lt_foldl_min {moment first : Moment} {others : List Moment} (hfirst : moment < first)
    (hothers : ∀ other ∈ others, moment < other) : moment < others.foldl min first := by
  induction others generalizing first with
  | nil => exact hfirst
  | cons other rest ih =>
      simp only [List.forall_mem_cons] at hothers
      exact ih (Nat.lt_min.2 ⟨hfirst, hothers.1⟩) hothers.2

theorem Attempt.lt_nextMoment {moment : Moment} {attempt : Attempt}
    (hsleeps : ∀ wakesAt next, attempt.pause = .sleeping wakesAt next → moment < wakesAt)
    (hdeadline : moment < attempt.deadline) (hspeaks : attempt.isSilent moment = false)
    (hrenew : moment < attempt.renewAt) : moment < attempt.nextMoment := by
  have hlimits : ∀ limit ∈ [attempt.renewAt] ++ attempt.heartbeatDeadline.toList,
      moment < limit := by
    intro limit hmem
    rcases List.mem_append.1 hmem with hrenewed | hsilence
    · exact List.mem_singleton.1 hrenewed ▸ hrenew
    · rw [Option.mem_toList] at hsilence
      simpa [isSilent, Option.mem_def.1 hsilence] using hspeaks
  apply Moment.lt_foldl_min hdeadline
  split
  · rename_i wakesAt next hpause
    exact List.forall_mem_cons.2 ⟨hsleeps wakesAt next hpause, hlimits⟩
  · exact hlimits

namespace ActivityService

variable {service : ActivityService} {moment : Moment} {next : Attempt}

theorem not_waiting_of_release {task : LeasedTask} {report : AttemptReport} :
    ¬(release task report).Yields (.waiting next) := by
  intro h
  obtain ⟨answer, -, h⟩ := h.of_bind
  split at h <;> cases h

theorem not_waiting_of_conclude {task : LeasedTask} {work : ActivityTask}
    {outcome : AttemptOutcome} : ¬(service.conclude task work outcome).Yields (.waiting next) := by
  intro h
  obtain ⟨result, -, h⟩ := h.of_bind
  split at h
  · exact not_waiting_of_release h
  · exact not_waiting_of_release h
  · cases h

/-- An attempt that waits has done all that was due. -/
theorem drive_waiting {limit : Nat} {attempt : Attempt}
    (h : (service.drive moment limit attempt).Yields (.waiting next)) :
    moment < next.nextMoment := by
  induction limit generalizing attempt with
  | zero => cases h
  | succ limit ih =>
      unfold drive at h
      simp only at h
      split at h
      · exact absurd h not_waiting_of_conclude
      split at h
      · exact absurd h not_waiting_of_conclude
      rename_i hdeadline
      split at h
      · exact absurd h not_waiting_of_conclude
      rename_i hspeaks
      split at h
      · obtain ⟨beaten, -, h⟩ := h.of_bind
        obtain ⟨renewed, -, h⟩ := h.of_bind
        cases renewed with
        | none => cases h
        | some later => exact ih h
      · split at h
        · -- whatever is left of the work is done in the next round
          obtain ⟨renewed, -, h⟩ := h.of_bind
          cases renewed with
          | none => cases h
          | some later => exact ih h
        · -- only here does the attempt wait, and all its deadlines are ahead
          rename_i hrenew
          cases h
          exact Attempt.lt_nextMoment (fun _ _ => Pause.resume_sleeping)
            (Nat.lt_of_not_le hdeadline) (Bool.eq_false_iff.2 hspeaks) (Nat.lt_of_not_le hrenew)

theorem begin_waiting {task : LeasedTask}
    (h : (service.begin moment task).Yields (.waiting next)) : moment < next.nextMoment := by
  unfold begin at h
  split at h
  · exact absurd h not_waiting_of_release
  obtain ⟨started, -, h⟩ := h.of_bind
  split at h
  · cases h
  · exact absurd h not_waiting_of_release
  · split at h
    · exact drive_waiting h
    · exact absurd h not_waiting_of_conclude

end ActivityService

/-! ## Turns of a worker that stops -/

/-- What is left of a part: nothing, or an attempt in the slot of the part that waits for a later
moment. -/
def WorkerPart.Subsides (moment : Moment) (part : WorkerPart) : Option WorkerPart → Prop
  | none => True
  | some rest => ∃ attempt, rest = .running attempt ∧ moment < attempt.nextMoment ∧
      part.slot? = some .activity

theorem TaskLoop.turn_stopping {moment : Moment} {free : Nat} {loop : TaskLoop} :
    loop.turn moment true free = pure ⟨[], none⟩ := by
  unfold turn
  split <;> rfl

namespace Worker

variable {worker : Worker} {catalogue : WorkflowRegistry} {moment : Moment} {part : WorkerPart}

theorem afterAttempt_subsides {task : LeasedTask} {result : Attempt.Turn} {turn : PartTurn}
    (hslot : part.slot? = some .activity)
    (hlater : ∀ next, result = .waiting next → moment < next.nextMoment)
    (h : (worker.afterAttempt task result).Yields turn) :
    turn.spawned = [] ∧ part.Subsides moment turn.rest := by
  cases result with
  | waiting next =>
      cases h
      exact ⟨rfl, next, rfl, hlater next rfl, hslot⟩
  | finished report =>
      cases report with
      | ok report =>
          cases h
          exact ⟨rfl, trivial⟩
      | error error =>
          obtain ⟨-, -, h⟩ := h.of_bind
          cases h
          exact ⟨rfl, trivial⟩

theorem partTurn_subsides (hstopping : worker.stopping = true) {turn : PartTurn}
    (h : (worker.partTurn catalogue moment part).Yields turn) :
    turn.spawned = [] ∧ part.Subsides moment turn.rest := by
  cases part with
  | taskLoop kind loop =>
      simp only [partTurn, hstopping, TaskLoop.turn_stopping] at h
      cases h
      exact ⟨rfl, trivial⟩
  | ticker ticksAt =>
      simp only [partTurn, tick, hstopping, if_true] at h
      cases h
      exact ⟨rfl, trivial⟩
  | claimed task =>
      simp only [partTurn] at h
      split at h
      · obtain ⟨-, -, h⟩ := h.of_bind
        cases h
        exact ⟨rfl, trivial⟩
      · rename_i work hwork
        obtain ⟨result, hresult, h⟩ := h.of_bind
        refine afterAttempt_subsides ?_ ?_ h
        · simp [WorkerPart.slot?, hwork, Work.kind]
        · rintro next rfl
          exact ActivityService.begin_waiting hresult
  | running attempt =>
      obtain ⟨result, hresult, h⟩ := h.of_bind
      refine afterAttempt_subsides rfl ?_ h
      rintro next rfl
      exact ActivityService.drive_waiting hresult

/-- A turn leaves at most an attempt that waits. -/
theorem takeTurn_subsides {σ : Type} (handler : Program.Handler σ) (catalogue : WorkflowRegistry)
    (moment : Moment) (hstopping : worker.stopping = true) (part : WorkerPart) (state : σ) :
    ∃ rest, part.Subsides moment rest ∧
      (takeTurn handler catalogue moment worker part state).1 =
        { worker with idle := worker.idle ++ rest.toList } := by
  unfold takeTurn
  split
  · rename_i turn after hrun
    obtain ⟨hspawned, hsubsides⟩ := partTurn_subsides hstopping (Program.yields_of_run hrun)
    exact ⟨turn.rest, hsubsides, by simp [hspawned]⟩
  · exact ⟨none, trivial, by simp⟩

/-! ## Rousing -/

/-- The part has something to do: its time has come, it was woken, or there is a slot for it. -/
def isRoused (worker : Worker) (met : Moment) (wakeups : Nat) (part : WorkerPart) : Bool :=
  isDue met part || worker.isWoken wakeups part || worker.hasSlotFor part

theorem rouse_eq (worker : Worker) (met : Moment) (wakeups : Nat) :
    ∃ roused waiting, worker.rouse met wakeups =
        { worker with ready := worker.ready ++ roused, idle := waiting } ∧
      (roused ++ waiting).Perm worker.idle ∧ waiting.Sublist worker.idle ∧
      (∀ part ∈ roused, worker.isRoused met wakeups part = true) ∧
      ∀ part ∈ waiting, worker.isRoused met wakeups part = false := by
  let undue := worker.idle.filter fun part => !isDue met part
  let asleep := undue.filter fun part => !worker.isWoken wakeups part
  let due := (worker.idle.filter (isDue met)).mergeSort isDueBefore
  let woken := undue.filter (worker.isWoken wakeups)
  let admitted := asleep.filter worker.hasSlotFor
  let waiting := asleep.filter fun part => !worker.hasSlotFor part
  refine ⟨due ++ woken ++ admitted, waiting, ?_, ?_, ?_, ?_, ?_⟩
  · simp only [rouse, List.partition_eq_filter_filter, List.append_assoc, due, woken, admitted,
      waiting, asleep, undue]
    rfl
  · have hslots : (admitted ++ waiting).Perm asleep := List.filter_append_perm _ _
    have hwoken : (woken ++ asleep).Perm undue := List.filter_append_perm _ _
    have hdue : (due ++ undue).Perm worker.idle :=
      ((List.mergeSort_perm _ _).append_right undue).trans (List.filter_append_perm _ _)
    rw [List.append_assoc, List.append_assoc]
    exact (((hslots.append_left woken).trans hwoken).append_left due).trans hdue
  · exact List.filter_sublist.trans (List.filter_sublist.trans List.filter_sublist)
  · intro part hmem
    simp only [List.mem_append, List.mem_mergeSort, List.mem_filter, due, woken, admitted,
      asleep, undue] at hmem
    rcases hmem with (⟨-, hdue⟩ | ⟨-, hwoken⟩) | ⟨-, hslot⟩
    · simp [isRoused, hdue]
    · simp [isRoused, hwoken]
    · simp [isRoused, hslot]
  · intro part hmem
    simp only [List.mem_filter, Bool.not_eq_true', waiting, asleep, undue] at hmem
    obtain ⟨⟨⟨-, hdue⟩, hwoken⟩, hslot⟩ := hmem
    simp [isRoused, hdue, hwoken, hslot]

/-- Everything waits. -/
def Rests (worker : Worker) (moment : Moment) : Prop :=
  ∃ wakeups, (worker.rouse moment wakeups).ready = []

theorem rouse_eq_self {wakeups : Nat} (h : (worker.rouse moment wakeups).ready = []) :
    worker.rouse moment wakeups = worker ∧ worker.ready = [] ∧
      ∀ part ∈ worker.idle, worker.isRoused moment wakeups part = false := by
  obtain ⟨roused, waiting, heq, hperm, hsublist, -, hwaiting⟩ := worker.rouse_eq moment wakeups
  rw [heq] at h
  obtain ⟨hready, rfl⟩ := List.append_eq_nil_iff.1 h
  obtain rfl : waiting = worker.idle := hsublist.eq_of_length hperm.length_eq
  refine ⟨?_, hready, hwaiting⟩
  rw [heq, List.append_nil]

theorem Rests.lt_nextMoment (rests : worker.Rests moment) {due : Moment}
    (hnext : worker.nextMoment? = some due) : moment < due := by
  obtain ⟨wakeups, hrouse⟩ := rests
  obtain ⟨part, hmem, hpart⟩ := List.mem_filterMap.1 (List.min?_mem hnext)
  have hasleep := (rouse_eq_self hrouse).2.2 part hmem
  simp only [isRoused, Bool.or_eq_false_iff, isDue, hpart, Option.any_some,
    decide_eq_false_iff_not] at hasleep
  exact Nat.lt_of_not_le hasleep.1.1

/-! ## Rounds -/

/-- One part is roused and takes its turn, in a worker that stops. -/
def Round (moment : Moment) (before after : Worker) : Prop :=
  ∃ wakeups part line rest, (before.rouse moment wakeups).ready = part :: line ∧
    part.Subsides moment rest ∧
    after = { before.rouse moment wakeups with
      ready := line
      idle := (before.rouse moment wakeups).idle ++ rest.toList }

theorem settle_succ {σ : Type} (handler : Program.Handler σ) (catalogue : WorkflowRegistry)
    (moment : Moment) (limit : Nat) (hstopping : worker.stopping = true) (state : σ) :
    (∃ cause, (handler .wakeups state).1 = .error cause ∧
        (settle handler catalogue moment moment (limit + 1) worker state).1 = worker) ∨
      (worker.Rests moment ∧
        (settle handler catalogue moment moment (limit + 1) worker state).1 = worker) ∨
      ∃ next later, Round moment worker next ∧
        settle handler catalogue moment moment (limit + 1) worker state =
          settle handler catalogue moment moment limit next later := by
  rw [settle]
  split
  · rename_i cause later hanswer
    exact .inl ⟨cause, by rw [hanswer], rfl⟩
  · rename_i wakeups later _
    right
    simp only
    split
    · rename_i hready
      exact .inl ⟨⟨wakeups, hready⟩, (rouse_eq_self hready).1⟩
    · rename_i part line hready
      obtain ⟨roused, waiting, heq, -⟩ := worker.rouse_eq moment wakeups
      have hstops : Worker.stopping { worker.rouse moment wakeups with ready := line } = true := by
        rw [heq]
        exact hstopping
      obtain ⟨rest, hsubsides, hturn⟩ :=
        takeTurn_subsides handler catalogue moment hstops part later
      exact .inr ⟨_, _, ⟨wakeups, part, line, rest, hready, hsubsides, hturn⟩, rfl⟩

/-- A worker that stops comes to no new loops and tickers, and takes no more slots. -/
structure Dwindles (before after : Worker) : Prop where
  config : after.config = before.config
  stopping : after.stopping = before.stopping
  services : ∀ part ∈ after.parts, part.isService = true → part ∈ before.parts
  idle : ∀ part ∈ after.idle, part.isService = true → part ∈ before.idle
  slots : ∀ kind, after.busySlots kind ≤ before.busySlots kind

theorem Dwindles.refl (worker : Worker) : Dwindles worker worker :=
  ⟨rfl, rfl, fun _ hmem _ => hmem, fun _ hmem _ => hmem, fun _ => Nat.le_refl _⟩

theorem Dwindles.trans {first second third : Worker} (early : Dwindles first second)
    (late : Dwindles second third) : Dwindles first third where
  config := late.config.trans early.config
  stopping := late.stopping.trans early.stopping
  services := fun part hmem hservice =>
    early.services part (late.services part hmem hservice) hservice
  idle := fun part hmem hservice => early.idle part (late.idle part hmem hservice) hservice
  slots := fun kind => Nat.le_trans (late.slots kind) (early.slots kind)

theorem dwindles_rouse (worker : Worker) (met : Moment) (wakeups : Nat) :
    Dwindles worker (worker.rouse met wakeups) := by
  obtain ⟨roused, waiting, heq, hperm, hsublist, -⟩ := worker.rouse_eq met wakeups
  have hparts : (worker.rouse met wakeups).parts.Perm worker.parts := by
    rw [heq, parts, List.append_assoc]
    exact hperm.append_left worker.ready
  constructor
  case config => rw [heq]
  case stopping => rw [heq]
  case services => exact fun part hmem _ => hparts.mem_iff.1 hmem
  case idle =>
    intro part hmem _
    rw [heq] at hmem
    exact hsublist.subset hmem
  case slots => exact fun kind => Nat.le_of_eq (hparts.filter _).length_eq

theorem dwindles_turn {line : List WorkerPart} (hready : worker.ready = part :: line)
    {rest : Option WorkerPart} (hsubsides : part.Subsides moment rest) :
    Dwindles worker { worker with ready := line, idle := worker.idle ++ rest.toList } := by
  have hrest : ∀ other ∈ rest.toList, other.isService = false := by
    intro other hmem
    obtain rfl := Option.mem_toList.1 hmem
    obtain ⟨attempt, rfl, -⟩ := hsubsides
    rfl
  constructor
  case config => rfl
  case stopping => rfl
  case services =>
    intro other hmem hservice
    simp only [parts, hready, List.mem_append, List.mem_cons] at hmem ⊢
    rcases hmem with hline | hidle | hnew
    · exact .inl (.inr hline)
    · exact .inr hidle
    · simp [hrest other hnew] at hservice
  case idle =>
    intro other hmem hservice
    rcases List.mem_append.1 hmem with hidle | hnew
    · exact hidle
    · simp [hrest other hnew] at hservice
  case slots =>
    intro kind
    have hkept : rest.toList.countP (fun other => other.slot? = some kind) ≤
        if part.slot? = some kind then 1 else 0 := by
      cases rest with
      | none => exact Nat.zero_le _
      | some left =>
          obtain ⟨attempt, rfl, -, hslot⟩ := hsubsides
          rw [hslot]
          simp [WorkerPart.slot?]
    simp only [busySlots, parts, hready, ← List.countP_eq_length_filter, List.countP_append,
      List.cons_append, List.countP_cons, decide_eq_true_eq]
    omega

theorem Round.dwindles {before after : Worker} (round : Round moment before after) :
    Dwindles before after := by
  obtain ⟨wakeups, part, line, rest, hready, hsubsides, rfl⟩ := round
  exact (dwindles_rouse before moment wakeups).trans (dwindles_turn hready hsubsides)

theorem settle_dwindles {σ : Type} (handler : Program.Handler σ) (catalogue : WorkflowRegistry)
    (moment : Moment) (limit : Nat) (hstopping : worker.stopping = true) (state : σ) :
    Dwindles worker (settle handler catalogue moment moment limit worker state).1 := by
  induction limit generalizing worker state with
  | zero => exact .refl worker
  | succ limit ih =>
      obtain ⟨-, -, hsame⟩ | ⟨-, hsame⟩ | ⟨next, later, round, hnext⟩ :=
        settle_succ handler catalogue moment limit hstopping state
      · rw [hsame]
        exact .refl worker
      · rw [hsame]
        exact .refl worker
      · rw [hnext]
        exact round.dwindles.trans (ih (round.dwindles.stopping.trans hstopping) later)

/-! ## Rest -/

/-- The part may have a turn at the moment. -/
def isRestless (moment : Moment) : WorkerPart → Bool
  | .running attempt => attempt.nextMoment ≤ moment
  | _ => true

/-- Turns that a worker that stops has at the moment, at most. -/
def load (worker : Worker) (moment : Moment) : Nat :=
  worker.ready.length + worker.idle.countP (isRestless moment)

theorem isRestless_of_isRoused {wakeups : Nat} (h : worker.isRoused moment wakeups part = true) :
    isRestless moment part = true := by
  cases part with
  | running attempt =>
      simpa [isRoused, isDue, WorkerPart.nextMoment?, isWoken, hasSlotFor, isRestless] using h
  | _ => rfl

theorem load_rouse (worker : Worker) (moment : Moment) (wakeups : Nat) :
    (worker.rouse moment wakeups).load moment = worker.load moment := by
  obtain ⟨roused, waiting, heq, hperm, -, hroused, -⟩ := worker.rouse_eq moment wakeups
  have hrestless : roused.countP (isRestless moment) = roused.length :=
    List.countP_eq_length.2 fun part hmem => isRestless_of_isRoused (hroused part hmem)
  have hcount := hperm.countP_eq (isRestless moment)
  rw [List.countP_append, hrestless] at hcount
  rw [heq]
  simp only [load, List.length_append]
  omega

theorem Round.load_lt {before after : Worker} (round : Round moment before after) :
    after.load moment < before.load moment := by
  obtain ⟨wakeups, part, line, rest, hready, hsubsides, rfl⟩ := round
  have hquiet : rest.toList.countP (isRestless moment) = 0 := by
    cases rest with
    | none => rfl
    | some left =>
        obtain ⟨attempt, rfl, hlater, -⟩ := hsubsides
        simp [isRestless, hlater]
  rw [← before.load_rouse moment wakeups]
  simp only [load, hready, List.length_cons, List.countP_append, hquiet]
  omega

/-- A worker that stops rests after as many turns as it has parts. -/
theorem settle_rests {σ : Type} {handler : Program.Handler σ}
    (hanswers : ∀ state, ∃ wakeups after, handler .wakeups state = (.ok wakeups, after))
    (catalogue : WorkflowRegistry) (hstopping : worker.stopping = true) {limit : Nat}
    (hlimit : worker.load moment < limit) (state : σ) :
    (settle handler catalogue moment moment limit worker state).1.Rests moment := by
  induction limit generalizing worker state with
  | zero => exact absurd hlimit (Nat.not_lt_zero _)
  | succ limit ih =>
      obtain ⟨cause, hfails, -⟩ | ⟨rests, hsame⟩ | ⟨next, later, round, hnext⟩ :=
        settle_succ handler catalogue moment limit hstopping state
      · obtain ⟨wakeups, after, hanswer⟩ := hanswers state
        simp [hanswer] at hfails
      · rwa [hsame]
      · have hless := round.load_lt
        rw [hnext]
        exact ih (round.dwindles.stopping.trans hstopping) (by omega) later

/-! ## Loops that wait in vain -/

/-- A loop waits for a slot of the worker, and all are taken. -/
def isHeld (worker : Worker) : Bool :=
  worker.idle.any fun
    | .taskLoop kind loop => loop.stage = .awaitingSlot && worker.freeSlots kind = 0
    | _ => false

theorem Dwindles.isHeld {before after : Worker} (dwindles : Dwindles before after)
    (hfree : before.isHeld = false) : after.isHeld = false := by
  simp only [Worker.isHeld, List.any_eq_false] at hfree ⊢
  intro part hmem
  cases part with
  | taskLoop kind loop =>
      have hslots := dwindles.slots kind
      have hbefore := hfree _ (dwindles.idle _ hmem rfl)
      simp only [freeSlots, dwindles.config, Bool.and_eq_true, decide_eq_true_eq] at hbefore ⊢
      rintro ⟨hstage, hfull⟩
      exact hbefore ⟨hstage, decide_eq_true (by omega)⟩
  | _ => exact Bool.false_ne_true

theorem Dwindles.hasServices {before after : Worker} (dwindles : Dwindles before after)
    (hnone : before.hasServices = false) : after.hasServices = false := by
  simp only [Worker.hasServices, List.any_eq_false] at hnone ⊢
  exact fun part hmem hservice => hnone part (dwindles.services part hmem hservice) hservice

theorem isHeld_of_not_hasServices (hnone : worker.hasServices = false) : worker.isHeld = false := by
  simp only [Worker.hasServices, List.any_eq_false] at hnone
  simp only [Worker.isHeld, List.any_eq_false]
  intro part hmem
  cases part with
  | taskLoop kind loop => exact absurd rfl (hnone _ (List.mem_append_right _ hmem))
  | _ => exact Bool.false_ne_true

/-- All other waits notice the end of the worker. -/
theorem Rests.isHeld (rests : worker.Rests moment) (hstopping : worker.stopping = true)
    (hservices : worker.hasServices = true) : worker.isHeld = true := by
  obtain ⟨wakeups, hrouse⟩ := rests
  obtain ⟨-, hready, hasleep⟩ := rouse_eq_self hrouse
  obtain ⟨part, hmem, hservice⟩ := List.any_eq_true.1 hservices
  rw [parts, hready, List.nil_append] at hmem
  have hpart := hasleep part hmem
  simp only [isRoused, Bool.or_eq_false_iff] at hpart
  obtain ⟨⟨-, hwoken⟩, hslot⟩ := hpart
  refine List.any_eq_true.2 ⟨part, hmem, ?_⟩
  cases part with
  | ticker ticksAt => simp [isWoken, hstopping] at hwoken
  | claimed task => cases hservice
  | running attempt => cases hservice
  | taskLoop kind loop =>
      cases hstage : loop.stage with
      | awaitingSlot => simpa [hasSlotFor, hstage] using hslot
      | polling poll => simp [isWoken, TaskLoop.isWoken, hstage, hstopping] at hwoken
      | pausing endsAt => simp [isWoken, TaskLoop.isWoken, hstage, hstopping] at hwoken

end Worker

/-! ## Shutdowns among others -/

theorem Moment.le_tick (moment : Nat) : moment ≤ Moment.tick moment := by
  unfold tick
  omega

theorem Moment.tick_mono {first second : Moment} (h : first ≤ second) :
    first.tick ≤ second.tick :=
  Nat.mul_le_mul_right _ (Nat.div_le_div_right (Nat.add_le_add_right h _))

/-- A worker that shuts down, and the state of its store. -/
structure WindDown (σ : Type) where
  worker : Worker
  state : σ
  moment : Moment
  /-- Up to here a loop waited in vain for a slot, since the shutdown began. -/
  heldUntil : Moment
  stage : Except Shutdown (Except WorkerError Unit)

namespace WindDown

variable {σ : Type} {handler : Program.Handler σ} {catalogue : WorkflowRegistry}
  {phase : WindDown σ} {shutdown : Shutdown}

def begin (worker : Worker) (state : σ) (moment : Moment) : WindDown σ :=
  match worker.beginShutdown with
  | (worker, none) => ⟨worker, state, moment, moment, .ok (.ok ())⟩
  | (worker, some shutdown) => ⟨worker, state, moment, moment, .error shutdown⟩

/-- Gives turns to the parts of the worker. -/
def act (handler : Program.Handler σ) (catalogue : WorkflowRegistry) (limit : Nat)
    (phase : WindDown σ) : WindDown σ :=
  let (worker, state) :=
    phase.worker.settle handler catalogue phase.moment phase.moment limit phase.state
  { phase with worker := worker, state := state }

/-- Goes on with the shutdown. -/
def look (shutdown : Shutdown) (phase : WindDown σ) : WindDown σ :=
  let (worker, stage) := phase.worker.continueShutdown phase.moment shutdown
  { phase with worker := worker, stage := stage }

/-- Lets time pass, in whole milliseconds. -/
def wait (next : Moment) (phase : WindDown σ) : WindDown σ :=
  let moment := max phase.moment next.tick
  { phase with
    moment := moment
    heldUntil := if phase.worker.isHeld then moment else phase.heldUntil }

/-- The parts of the worker wait, and so does the shutdown. -/
structure Waits (phase : WindDown σ) (shutdown : Shutdown) : Prop where
  stage : phase.stage = .error shutdown
  rests : phase.worker.Rests phase.moment
  still : phase.look shutdown = phase

/-- One thing that happens before the shutdown has ended.  Time passes only when everything waits,
and not beyond the next deadline. -/
inductive Step (handler : Program.Handler σ) (catalogue : WorkflowRegistry) :
    WindDown σ → WindDown σ → Prop where
  /-- Others do something to the store. -/
  | others {phase : WindDown σ} {shutdown : Shutdown} (stage : phase.stage = .error shutdown)
      (state : σ) : Step handler catalogue phase { phase with state := state }
  | act {phase : WindDown σ} {shutdown : Shutdown} (stage : phase.stage = .error shutdown)
      (limit : Nat) : Step handler catalogue phase (phase.act handler catalogue limit)
  | look {phase : WindDown σ} {shutdown : Shutdown} (stage : phase.stage = .error shutdown) :
      Step handler catalogue phase (phase.look shutdown)
  | wait {phase : WindDown σ} {shutdown : Shutdown} (waits : phase.Waits shutdown) {next : Moment}
      (parts : ∀ due, phase.worker.nextMoment? = some due → next ≤ due)
      (check : ∀ checkAt, shutdown.nextMoment? = some checkAt → next ≤ checkAt) :
      Step handler catalogue phase (phase.wait next)

abbrev Reaches (handler : Program.Handler σ) (catalogue : WorkflowRegistry) :
    WindDown σ → WindDown σ → Prop :=
  ReflTransGen (Step handler catalogue)

/-! ### Looks -/

theorem drain_cases (worker : Worker) (moment deadline : Moment) :
    (∃ result, worker.drain moment deadline = (worker.stopped, .ok result) ∧
        (result = .ok () ∨ result = .error .shutdownTimeout ∧ deadline ≤ moment)) ∨
      (moment < deadline ∧ worker.drain moment deadline =
        (worker, .error (.draining deadline (moment.after Shutdown.checkInterval)))) := by
  unfold Worker.drain
  split
  · exact .inl ⟨_, rfl, .inl rfl⟩
  split
  · rename_i hlate
    exact .inl ⟨_, rfl, .inr ⟨rfl, hlate⟩⟩
  · rename_i hearly
    exact .inr ⟨Nat.lt_of_not_le hearly, rfl⟩

/-- The shutdown is about to look at the tasks, which have time until the deadline. -/
def Inspects (worker : Worker) (moment deadline : Moment) : Shutdown → Prop
  | .joining => worker.hasServices = false ∧ deadline = moment.after worker.config.shutdownTimeout
  | .draining limit checkAt => limit = deadline ∧ checkAt ≤ moment

theorem look_cases (worker : Worker) (moment : Moment) (shutdown : Shutdown) :
    worker.continueShutdown moment shutdown = (worker, .error shutdown) ∨
      ∃ deadline, Inspects worker moment deadline shutdown ∧
        worker.continueShutdown moment shutdown = worker.drain moment deadline := by
  cases shutdown with
  | joining =>
      cases hservices : worker.hasServices with
      | true => exact .inl (if_pos hservices)
      | false => exact .inr ⟨_, ⟨hservices, rfl⟩, if_neg (by simp [hservices])⟩
  | draining deadline checkAt =>
      by_cases hearly : moment < checkAt
      · exact .inl (if_pos hearly)
      · exact .inr ⟨deadline, ⟨rfl, Nat.le_of_not_lt hearly⟩, if_neg hearly⟩

theorem look_worker (phase : WindDown σ) (shutdown : Shutdown) :
    (phase.look shutdown).worker = phase.worker ∨
      (phase.look shutdown).worker = phase.worker.stopped := by
  change (phase.worker.continueShutdown phase.moment shutdown).1 = _ ∨
    (phase.worker.continueShutdown phase.moment shutdown).1 = _
  obtain hsame | ⟨deadline, -, hlooks⟩ := look_cases phase.worker phase.moment shutdown
  · exact .inl (by rw [hsame])
  · rw [hlooks]
    obtain ⟨result, hended, -⟩ | ⟨-, hgoes⟩ := drain_cases phase.worker phase.moment deadline
    · exact .inr (by rw [hended])
    · exact .inl (by rw [hgoes])

theorem lt_nextCheck (moment : Moment) : moment < moment.after Shutdown.checkInterval :=
  Nat.lt_add_of_pos_right (by decide)

theorem Waits.of_drain (waits : phase.Waits shutdown) {deadline : Moment}
    (hlooks : phase.worker.continueShutdown phase.moment shutdown =
      phase.worker.drain phase.moment deadline) :
    shutdown = .draining deadline (phase.moment.after Shutdown.checkInterval) := by
  have hstage : (phase.worker.continueShutdown phase.moment shutdown).2 = .error shutdown :=
    (congrArg WindDown.stage waits.still).trans waits.stage
  rw [hlooks] at hstage
  obtain ⟨result, hended, -⟩ | ⟨-, hgoes⟩ := drain_cases phase.worker phase.moment deadline
  · rw [hended] at hstage
    cases hstage
  · rw [hgoes] at hstage
    cases hstage
    rfl

theorem Waits.hasServices (waits : phase.Waits .joining) : phase.worker.hasServices = true := by
  by_contra hnone
  have hnext := waits.of_drain (if_neg hnone)
  cases hnext

/-! ### In time -/

/-- The shutdown ends by its timeout and one more check after no loop waits in vain any more. -/
def dueBy (phase : WindDown σ) : Moment :=
  ((phase.heldUntil.after phase.worker.config.shutdownTimeout).after Shutdown.checkInterval).tick

theorem heldUntil_le_dueBy (phase : WindDown σ) : phase.heldUntil ≤ phase.dueBy :=
  Nat.le_trans (Nat.le_trans (Nat.le_add_right _ _) (Nat.le_add_right _ _)) (Moment.le_tick _)

/-- How far the shutdown has come. -/
inductive OnTime (phase : WindDown σ) : Prop where
  | joining (stage : phase.stage = .error .joining) (stopping : phase.worker.stopping = true)
      (held : phase.moment = phase.heldUntil)
  | draining {deadline checkAt : Moment} (stage : phase.stage = .error (.draining deadline checkAt))
      (stopping : phase.worker.stopping = true) (joined : phase.worker.hasServices = false)
      (deadline_eq : deadline = phase.heldUntil.after phase.worker.config.shutdownTimeout)
      (checks : checkAt < deadline.after Shutdown.checkInterval)
      (reached : phase.moment ≤ checkAt.tick)
  | ended {result : Except WorkerError Unit} (stage : phase.stage = .ok result)
      (stopped : phase.worker.status = .stopped)
      (result_eq : result = .ok () ∨ result = .error .shutdownTimeout ∧
        phase.heldUntil.after phase.worker.config.shutdownTimeout ≤ phase.moment)
      (inTime : phase.moment ≤ phase.dueBy)

namespace OnTime

theorem le_dueBy (onTime : phase.OnTime) : phase.moment ≤ phase.dueBy := by
  cases onTime with
  | joining stage stopping held => exact held ▸ phase.heldUntil_le_dueBy
  | draining stage stopping joined deadline_eq checks reached =>
      subst deadline_eq
      exact Nat.le_trans reached (Moment.tick_mono (Nat.le_of_lt checks))
  | ended stage stopped result_eq inTime => exact inTime

theorem stopping (onTime : phase.OnTime) (hstage : phase.stage = .error shutdown) :
    phase.worker.stopping = true := by
  cases onTime with
  | joining _ stopping _ => exact stopping
  | draining _ stopping _ _ _ _ => exact stopping
  | ended stage _ _ _ => cases hstage.symm.trans stage

/-- Turns of the worker and of others do not matter. -/
theorem dwindles (onTime : phase.OnTime) (hstage : phase.stage = .error shutdown) {after : Worker}
    (dwindles : phase.worker.Dwindles after) (state : σ) :
    OnTime { phase with worker := after, state := state } := by
  cases onTime with
  | joining stage stopping held =>
      exact .joining stage (dwindles.stopping.trans stopping) held
  | draining stage stopping joined deadline_eq checks reached =>
      refine .draining stage (dwindles.stopping.trans stopping) (dwindles.hasServices joined) ?_
        checks reached
      rw [dwindles.config]
      exact deadline_eq
  | ended stage _ _ _ => cases hstage.symm.trans stage

/-- The tasks are looked at. -/
theorem drain (onTime : phase.OnTime) (hstage : phase.stage = .error shutdown)
    (hjoined : phase.worker.hasServices = false) {deadline : Moment}
    (hdeadline : deadline = phase.heldUntil.after phase.worker.config.shutdownTimeout) :
    OnTime { phase with
      worker := (phase.worker.drain phase.moment deadline).1
      stage := (phase.worker.drain phase.moment deadline).2 } := by
  obtain ⟨result, hended, hresult⟩ | ⟨hearly, hgoes⟩ :=
    drain_cases phase.worker phase.moment deadline
  · rw [hended]
    subst hdeadline
    exact .ended rfl rfl hresult onTime.le_dueBy
  · rw [hgoes]
    exact .draining rfl (onTime.stopping hstage) hjoined hdeadline
      (Nat.add_lt_add_right hearly _)
      (Nat.le_trans (Nat.le_of_lt (lt_nextCheck phase.moment)) (Moment.le_tick _))

theorem look (onTime : phase.OnTime) (hstage : phase.stage = .error shutdown) :
    (phase.look shutdown).OnTime := by
  unfold WindDown.look
  obtain hsame | ⟨deadline, hinspects, hlooks⟩ := look_cases phase.worker phase.moment shutdown
  · rw [hsame, ← hstage]
    exact onTime
  · rw [hlooks]
    cases onTime with
    | joining stage stopping held =>
        obtain rfl : shutdown = .joining := by simpa [hstage] using stage
        exact (joining stage stopping held).drain stage hinspects.1 (held ▸ hinspects.2)
    | draining stage stopping joined deadline_eq checks reached =>
        obtain rfl : shutdown = .draining _ _ := by simpa [hstage] using stage
        exact (draining stage stopping joined deadline_eq checks reached).drain stage joined
          (hinspects.1 ▸ deadline_eq)
    | ended stage _ _ _ => cases hstage.symm.trans stage

theorem wait (onTime : phase.OnTime) (waits : phase.Waits shutdown) {next : Moment}
    (hcheck : ∀ checkAt, shutdown.nextMoment? = some checkAt → next ≤ checkAt) :
    (phase.wait next).OnTime := by
  cases onTime with
  | joining stage stopping held =>
      obtain rfl : shutdown = .joining := by simpa [waits.stage] using stage
      refine .joining stage stopping ?_
      -- the shutdown would not wait if no loop did so in vain
      simp [WindDown.wait, waits.rests.isHeld stopping waits.hasServices]
  | @draining deadline checkAt stage stopping joined deadline_eq checks reached =>
      obtain rfl : shutdown = .draining deadline checkAt := by simpa [waits.stage] using stage
      have hfree := Worker.isHeld_of_not_hasServices joined
      refine .draining stage stopping joined ?_ checks ?_
      · simp [WindDown.wait, hfree, deadline_eq]
      · exact Nat.max_le.2 ⟨reached, Moment.tick_mono (hcheck checkAt rfl)⟩
  | ended stage _ _ _ => cases waits.stage.symm.trans stage

end OnTime

/-! ### Runs -/

/-- The shutdown of the worker, which began at the moment, has come this far. -/
structure Follows (worker : Worker) (moment : Moment) (phase : WindDown σ) : Prop where
  config : phase.worker.config = worker.config
  onTime : phase.OnTime
  free : worker.isHeld = false → phase.worker.isHeld = false ∧ phase.heldUntil = moment

namespace Follows

variable {worker : Worker} {moment : Moment}

theorem others (follows : Follows worker moment phase) (hstage : phase.stage = .error shutdown)
    (state : σ) : Follows worker moment { phase with state := state } :=
  ⟨follows.config, follows.onTime.dwindles hstage (.refl phase.worker) state, follows.free⟩

theorem act (follows : Follows worker moment phase) (hstage : phase.stage = .error shutdown)
    (handler : Program.Handler σ) (catalogue : WorkflowRegistry) (limit : Nat) :
    Follows worker moment (phase.act handler catalogue limit) := by
  have dwindles := Worker.settle_dwindles handler catalogue phase.moment limit
    (follows.onTime.stopping hstage) phase.state
  exact ⟨dwindles.config.trans follows.config, follows.onTime.dwindles hstage dwindles _,
    fun hfree => ⟨dwindles.isHeld (follows.free hfree).1, (follows.free hfree).2⟩⟩

theorem look (follows : Follows worker moment phase) (hstage : phase.stage = .error shutdown) :
    Follows worker moment (phase.look shutdown) := by
  have hkept : (phase.look shutdown).worker.config = phase.worker.config ∧
      (phase.look shutdown).worker.isHeld = phase.worker.isHeld := by
    rcases phase.look_worker shutdown with hsame | hstopped
    · rw [hsame]
      exact ⟨rfl, rfl⟩
    · rw [hstopped]
      exact ⟨rfl, rfl⟩
  refine ⟨hkept.1.trans follows.config, follows.onTime.look hstage, fun hfree => ?_⟩
  rw [hkept.2]
  exact follows.free hfree

theorem wait (follows : Follows worker moment phase) (waits : phase.Waits shutdown) {next : Moment}
    (hcheck : ∀ checkAt, shutdown.nextMoment? = some checkAt → next ≤ checkAt) :
    Follows worker moment (phase.wait next) := by
  refine ⟨follows.config, follows.onTime.wait waits hcheck, fun hfree => ?_⟩
  obtain ⟨hheld, huntil⟩ := follows.free hfree
  exact ⟨hheld, by simp [WindDown.wait, hheld, huntil]⟩

theorem step {after : WindDown σ} (follows : Follows worker moment phase)
    (step : Step handler catalogue phase after) : Follows worker moment after := by
  cases step with
  | others stage state => exact follows.others stage state
  | act stage limit => exact follows.act stage handler catalogue limit
  | look stage => exact follows.look stage
  | wait waits parts check => exact follows.wait waits check

theorem reaches {after : WindDown σ} (follows : Follows worker moment phase)
    (reaches : Reaches handler catalogue phase after) : Follows worker moment after := by
  induction reaches with
  | refl => exact follows
  | tail _ next ih => exact ih.step next

theorem le_dueBy (follows : Follows worker moment phase) : phase.moment ≤
    ((phase.heldUntil.after worker.config.shutdownTimeout).after Shutdown.checkInterval).tick := by
  have hdue := follows.onTime.le_dueBy
  rwa [dueBy, follows.config] at hdue

end Follows

/-! ### Ends -/

end WindDown

end Chronicle
