import Chronicle.Proofs.Program.TimerOrigins
import Chronicle.Proofs.Worker.Ticking

/-!
# Courses of events

A course keeps what every actor has asked of the world, and what it was told.  From it one sees when
a timer was set, and for how long, and who was given it when it was due.  Where all programs keep to
the time, every live timer has such an origin, and so has everything that an actor has seen.
-/

namespace Chronicle

open Relation (ReflTransGen)

universe u

/-- An actor has asked something of a world and was told something. -/
structure Exchange where
  actor : Nat
  world : World
  request : Request
  answer : request.Answer

namespace Exchange

def entries (exchange : Exchange) : List LogEntry :=
  Scene.entries exchange.actor exchange.world exchange.request exchange.answer

def settles (exchange : Exchange) : List (RunRef × TimerPurpose) :=
  exchange.request.settles exchange.answer

/-- The actor reads the time off the clock. -/
structure Reads (exchange : Exchange) (actor : Nat) (now : Instant) : Prop where
  actor : exchange.actor = actor
  request : exchange.request = .now
  shows : exchange.world.now = some now

end Exchange

/-! ## Courses -/

namespace Scene

variable {ι : Type u} {ρ : Type} {begins : ι → Program ρ} {start scene : Scene ι ρ}

/-- The exchanges lead from one scene to the other, in their order.  In between actors enter and
fall, and the clock is set. -/
inductive Course (begins : ι → Program ρ) (start : Scene ι ρ) :
    List Exchange → Scene ι ρ → Prop where
  | opening : Course begins start [] start
  | enter {past : List Exchange} {scene : Scene ι ρ} (course : Course begins start past scene)
      (label : ι) :
      Course begins start past { scene with actors := scene.actors ++ [⟨label, begins label⟩] }
  | tick {past : List Exchange} {scene : Scene ι ρ} (course : Course begins start past scene)
      (now : Option Instant) :
      Course begins start past { scene with world := { scene.world with now := now } }
  | act {past : List Exchange} {scene : Scene ι ρ} (course : Course begins start past scene)
      (index : Nat) {label : ι} {request : Request} {next : request.Answer → Program ρ}
      {answer : request.Answer} {world : World}
      (turn : scene.actors[index]? = some ⟨label, .ask request next⟩)
      (answered : World.answer request scene.world = (.ok answer, world)) :
      Course begins start (past ++ [⟨index, scene.world, request, answer⟩])
        ⟨world, scene.actors.set index ⟨label, next answer⟩,
          scene.log ++ entries index scene.world request answer⟩
  | fall {past : List Exchange} {scene : Scene ι ρ} (course : Course begins start past scene)
      {index : Nat} {label : ι} {request : Request} {next : request.Answer → Program ρ}
      {cause : Crash} {world : World}
      (turn : scene.actors[index]? = some ⟨label, .ask request next⟩)
      (answered : World.answer request scene.world = (.error cause, world)) :
      Course begins start past ⟨world, scene.actors.set index ⟨label, .crash cause⟩, scene.log⟩

theorem Course.reaches {past : List Exchange} (course : Course begins start past scene) :
    Reaches begins start scene := by
  induction course with
  | opening => exact .refl
  | enter _ label ih => exact ih.tail (.enter label)
  | tick _ now ih => exact ih.tail (.tick now)
  | act _ index turn answered ih => exact ih.tail (.act turn answered)
  | fall _ turn answered ih => exact ih.tail (.fall turn answered)

theorem Reaches.course (reaches : Reaches begins start scene) :
    ∃ past, Course begins start past scene := by
  induction reaches with
  | refl => exact ⟨[], .opening⟩
  | tail _ step ih =>
      obtain ⟨past, course⟩ := ih
      cases step with
      | enter label => exact ⟨past, course.enter label⟩
      | tick now => exact ⟨past, course.tick now⟩
      | act turn answered => exact ⟨_, course.act _ turn answered⟩
      | fall turn answered => exact ⟨past, course.fall turn answered⟩

end Scene

/-! ## Timers that are due -/

/-- The commit of the actor sets the timer from the time on that the actor has read off the clock
after the history had come as far as it is expected to be, because of an event that asks for that. -/
structure Commit.Sets (commit : Commit) (past : List Exchange) (actor : Nat) (ref : RunRef)
    (expected : Nat) (timer : Timer) (deadline : Deadline) : Prop where
  mem : timer ∈ commit.timers
  own : timer.run = ref
  counts : timer.Counts deadline
  reading : ∃ reading ∈ past, reading.Reads actor deadline.since ∧ ∃ known,
    reading.world.store.runs.find? ref = some known ∧ known.events.length = expected ∧
      commit.Calls known.events timer.purpose deadline.span

/-- A commit set the timer and none has touched it since, or its run began with a time limit. -/
inductive Timer.Stems (timer : Timer) (past : List Exchange) (deadline : Deadline) : Prop where
  | set {early late : List Exchange} {actor : Nat} {world : World} {ref : RunRef} {expected : Nat}
      {commit : Commit} {version : Nat}
      (split : past = early ++ ⟨actor, world, .commit ref expected commit, .ok version⟩ :: late)
      (sets : commit.Sets early actor ref expected timer deadline)
      (untouched : ∀ later ∈ late, ∀ entry ∈ later.entries, entry.acceptance.ref = timer.run →
        ¬entry.acceptance.commit.Touches timer.purpose) : Stems timer past deadline
  | began {exchange : Exchange} {now : Instant} {new : NewRun} {span : Span} (mem : exchange ∈ past)
      (shows : exchange.world.now = some now)
      (begins : new ∈ exchange.request.begun exchange.answer)
      (limit : new.options.executionTimeout = some span)
      (same : timer = ⟨new.ref, (now.after new.firstTaskDelay).after span, .runTimeout⟩)
      (counts : deadline = .exact (now.after new.firstTaskDelay) span) : Stems timer past deadline

/-- The actor was given the timer as due at a time that it had read off the clock, and has recorded
nothing for it since, nor put it back. -/
structure Timer.TakenBy (timer : Timer) (actor : Nat) (now : Instant) (due : List Timer)
    (early late : List Exchange) : Prop where
  mem : timer ∈ due
  isDue : timer.fireAt ≤ now
  reading : ∃ reading ∈ early, reading.Reads actor now
  unsettled : ∀ later ∈ late, later.actor = actor → timer.key ∉ later.settles

/-- The actor was given a timer of the key when its deadline had passed: the timer was set for that
deadline, or it was put back by an actor that had been given it before. -/
inductive Ripe : List Exchange → Nat → RunRef × TimerPurpose → Deadline → Prop where
  | first {early late : List Exchange} {actor limit : Nat} {world : World} {now : Instant}
      {due : List Timer} {timer : Timer} {deadline : Deadline}
      (taken : timer.TakenBy actor now due early late) (stems : timer.Stems early deadline) :
      Ripe (early ++ ⟨actor, world, .popDueTimers now limit, .ok due⟩ :: late) actor timer.key
        deadline
  | again {before between late : List Exchange} {actor other limit : Nat} {world earlier : World}
      {now : Instant} {due : List Timer} {timer : Timer} {deadline : Deadline}
      (taken : timer.TakenBy actor now due
        (before ++ ⟨other, earlier, .scheduleTimer timer, .ok ()⟩ :: between) late)
      (ripe : Ripe before other timer.key deadline) :
      Ripe ((before ++ ⟨other, earlier, .scheduleTimer timer, .ok ()⟩ :: between) ++
        ⟨actor, world, .popDueTimers now limit, .ok due⟩ :: late) actor timer.key deadline

/-- Why a timer is live after the exchanges. -/
inductive Timer.Stands (timer : Timer) (past : List Exchange) (deadline : Deadline) : Prop where
  | stems (stems : timer.Stems past deadline) : Stands timer past deadline
  | returned {before between : List Exchange} {other : Nat} {world : World}
      (split : past = before ++ ⟨other, world, .scheduleTimer timer, .ok ()⟩ :: between)
      (ripe : Ripe before other timer.key deadline) : Stands timer past deadline

variable {past : List Exchange} {timer : Timer} {deadline : Deadline} {actor : Nat}
  {key : RunRef × TimerPurpose}

theorem Timer.Stems.counts (stems : timer.Stems past deadline) : timer.Counts deadline := by
  cases stems with
  | set split sets untouched => exact sets.counts
  | began mem shows begins limit same counts =>
      subst same counts
      exact ⟨Instant.min_century_le _, rfl⟩

theorem Timer.Stems.later (stems : timer.Stems past deadline) {exchange : Exchange}
    (spares : ∀ entry ∈ exchange.entries, entry.acceptance.ref = timer.run →
      ¬entry.acceptance.commit.Touches timer.purpose) :
    timer.Stems (past ++ [exchange]) deadline := by
  cases stems with
  | @set early late actor world ref expected commit version split sets untouched =>
      subst split
      refine .set (List.append_assoc _ _ _) sets fun later hmem => ?_
      rcases List.mem_append.1 hmem with hold | hnew
      · exact untouched later hold
      · rw [List.mem_singleton.1 hnew]
        exact spares
  | began mem shows begins limit same counts =>
      exact .began (List.mem_append_left _ mem) shows begins limit same counts

theorem Timer.TakenBy.later {now : Instant} {due : List Timer} {early late : List Exchange}
    (taken : timer.TakenBy actor now due early late) {exchange : Exchange}
    (hkept : exchange.actor = actor → timer.key ∉ exchange.settles) :
    timer.TakenBy actor now due early (late ++ [exchange]) where
  mem := taken.mem
  isDue := taken.isDue
  reading := taken.reading
  unsettled := by
    intro later hmem
    rcases List.mem_append.1 hmem with hold | hnew
    · exact taken.unsettled later hold
    · rw [List.mem_singleton.1 hnew]
      exact hkept

namespace Ripe

theorem later (ripe : Ripe past actor key deadline) {exchange : Exchange}
    (hkept : exchange.actor = actor → key ∉ exchange.settles) :
    Ripe (past ++ [exchange]) actor key deadline := by
  cases ripe with
  | first taken stems =>
      rw [List.append_assoc]
      exact .first (taken.later hkept) stems
  | again taken ripe =>
      rw [List.append_assoc]
      exact .again (taken.later hkept) ripe

/-- Unless the clock is set back, the deadline has passed now. -/
theorem isMet (ripe : Ripe past actor key deadline) {now : Instant}
    (steady : ∀ exchange ∈ past, ∀ shown ∈ exchange.world.now, shown ≤ now) :
    deadline.IsMet now := by
  induction ripe with
  | first taken stems =>
      obtain ⟨reading, hmem, reads⟩ := taken.reading
      have hshown := steady reading (List.mem_append_left _ hmem) _ reads.shows
      exact stems.counts.isMet (Instant.le_trans taken.isDue hshown)
  | again taken ripe ih =>
      refine ih fun exchange hmem => steady exchange ?_
      exact List.mem_append_left _ (List.mem_append_left _ hmem)

end Ripe

theorem Timer.Stands.later (stands : timer.Stands past deadline) {exchange : Exchange}
    (spares : ∀ entry ∈ exchange.entries, entry.acceptance.ref = timer.run →
      ¬entry.acceptance.commit.Touches timer.purpose) :
    timer.Stands (past ++ [exchange]) deadline := by
  cases stands with
  | stems stems => exact .stems (stems.later spares)
  | returned split ripe =>
      subst split
      exact .returned (List.append_assoc _ _ _) ripe

/-- A live timer that is given to an actor as due is ripe from then on. -/
theorem Timer.Stands.ripe (stands : timer.Stands past deadline) {now : Instant} {due : List Timer}
    (taken : timer.TakenBy actor now due past []) (world : World) (limit : Nat) :
    Ripe (past ++ [⟨actor, world, .popDueTimers now limit, .ok due⟩]) actor timer.key deadline := by
  cases stands with
  | stems stems => exact .first taken stems
  | returned split ripe =>
      subst split
      exact .again taken ripe

/-! ## What actors see -/

/-- The history is the beginning of that of the run in the store. -/
def Store.Records (store : Store) (ref : RunRef) (history : List HistoryEvent) : Prop :=
  ∃ record, store.runs.find? ref = some record ∧ history <+: record.events

/-- What an actor has seen in the course of events is so. -/
structure Sees (past : List Exchange) (store : Store) (actor : Nat) (sight : Sight) : Prop where
  works : ∀ work ∈ sight.charge.works, store.Provides work
  due : ∀ timer ∈ sight.charge.due, ∃ deadline, Ripe past actor timer.key deadline
  history : ∀ ref history, sight.history = some (ref, history) → store.Records ref history
  /-- What the clock has shown, it has shown after the history was read. -/
  clock : ∀ now, sight.clock = some now → ∃ reading ∈ past, reading.Reads actor now ∧
    ∀ ref history, sight.history = some (ref, history) → ∃ known,
      reading.world.store.runs.find? ref = some known ∧ history <+: known.events ∧
        store.Records ref known.events

namespace Sees

variable {store after : Store} {sight : Sight} {rules : Rules}

theorem nothing (past : List Exchange) (store : Store) (actor : Nat) :
    Sees past store actor .nothing where
  works := fun _ hnone => nomatch hnone
  due := fun _ hnone => nomatch hnone
  history := fun _ _ hnone => nomatch hnone
  clock := fun _ hnone => nomatch hnone

end Sees

theorem Leads.records {rules : Rules} {before after : Store} (leads : Leads rules before after)
    {ref : RunRef} {history : List HistoryEvent} (records : before.Records ref history) :
    after.Records ref history := by
  obtain ⟨record, hfind, hprefix⟩ := records
  obtain ⟨later, hlater, outlives⟩ := leads.outlives hfind
  exact ⟨later, hlater, hprefix.trans outlives.grows⟩

namespace Sees

variable {store after : Store} {sight : Sight} {rules : Rules}

/-- Other exchanges take nothing of it away. -/
theorem later (sees : Sees past store actor sight) (leads : Leads rules store after)
    {exchange : Exchange}
    (hkept : exchange.actor = actor → ∀ timer ∈ sight.charge.due, timer.key ∉ exchange.settles) :
    Sees (past ++ [exchange]) after actor sight where
  works := fun work hmem => leads.provides (sees.works work hmem)
  due := by
    intro timer hmem
    obtain ⟨deadline, ripe⟩ := sees.due timer hmem
    exact ⟨deadline, ripe.later fun hself => hkept hself timer hmem⟩
  history := fun ref history hread => leads.records (sees.history ref history hread)
  clock := by
    intro now hclock
    obtain ⟨reading, hmem, reads, hsince⟩ := sees.clock now hclock
    refine ⟨reading, List.mem_append_left _ hmem, reads, fun ref history hread => ?_⟩
    obtain ⟨known, hfind, hprefix, records⟩ := hsince ref history hread
    exact ⟨known, hfind, hprefix, leads.records records⟩

theorem settle (sees : Sees past store actor sight) (keys : List (RunRef × TimerPurpose)) :
    Sees past store actor { sight with charge := sight.charge.settle keys } where
  works := sees.works
  due := fun timer hmem => sees.due timer (Charge.mem_settle.1 hmem).1
  history := sees.history
  clock := sees.clock

end Sees

/-! ### Exchanges of an actor -/

section

variable {world after : World} {sight : Sight} {rules : Rules} {outlasts : Span → Prop}

theorem Sees.now {now : Instant} (sees : Sees past after.store actor sight)
    (hmem : ⟨actor, world, .now, now⟩ ∈ past) (hnow : world.now = some now)
    (hrecords : ∀ ref history, sight.history = some (ref, history) → world.store.Records ref history)
    (leads : Leads rules world.store after.store) :
    Sees past after.store actor (sight.learn .now now) where
  works := sees.works
  due := sees.due
  history := sees.history
  clock := by
    rintro _ ⟨⟩
    refine ⟨_, hmem, ⟨rfl, rfl, hnow⟩, fun ref history hread => ?_⟩
    obtain ⟨known, hfind, hprefix⟩ := hrecords ref history hread
    exact ⟨known, hfind, hprefix, leads.records ⟨known, hfind, List.prefix_rfl⟩⟩

theorem Sees.claim {poll : PollRequest} {claim : TaskQueue.Claim}
    (sees : Sees past after.store actor sight) (sane : Sane rules world.store)
    (answered : World.answer (.claimTask poll) world = (.ok claim, after)) :
    Sees past after.store actor (sight.learn (.claimTask poll) claim) := by
  cases claim with
  | nothing next => exact sees
  | claimed task =>
      obtain ⟨now, tasks, -, hclaim, rfl⟩ := World.answer_claimTask answered
      cases hwork : task.work with
      | workflow ref workflowType => simpa only [Sight.learn, hwork] using sees
      | activity work =>
          simp only [Sight.learn, hwork]
          refine ⟨?_, sees.due, sees.history, sees.clock⟩
          rw [List.forall_mem_cons]
          exact ⟨(Store.leased_of_claim sane hclaim).provided work hwork, sees.works⟩

theorem Sees.popDue {now : Instant} {limit : Nat} {due : List Timer}
    (sees : Sees (past ++ [⟨actor, world, .popDueTimers now limit, .ok due⟩]) after.store actor sight)
    (stands : ∀ timer ∈ world.store.timers.timers, ∃ deadline, timer.Stands past deadline)
    (sound : world.store.timers.Sound) (hreads : ∃ reading ∈ past, reading.Reads actor now)
    (hdue : due = (world.store.timers.popDue now limit).2) :
    Sees (past ++ [⟨actor, world, .popDueTimers now limit, .ok due⟩]) after.store actor
      (sight.learn (.popDueTimers now limit) (.ok due)) where
  works := sees.works
  history := sees.history
  clock := sees.clock
  due := by
    intro timer hmem
    rcases List.mem_append.1 hmem with hnew | hold
    · obtain ⟨taken, htaken, takes⟩ := sound.wellKept.popDue_spec sound.ordered now limit
      have hnow : timer ∈ taken.map Prod.snd := htaken ▸ hdue ▸ hnew
      obtain ⟨entry, hentry, rfl⟩ := List.mem_map.1 hnow
      obtain ⟨deadline, hstands⟩ := stands entry.2 (List.mem_map_of_mem (takes.mem entry hentry))
      refine ⟨deadline, hstands.ripe ⟨hnew, ?_, hreads, fun _ hnone => nomatch hnone⟩ world limit⟩
      exact Instant.le_of_not_lt (takes.due entry hentry)
    · exact sees.due timer hold

/-- After an exchange of its own, an actor sees what it has learnt. -/
theorem Sees.act {request : Request} {answer : request.Answer}
    (sees : Sees past world.store actor sight) (sane : Sane rules world.store)
    (leads : Leads rules world.store after.store)
    (stands : ∀ timer ∈ world.store.timers.timers, ∃ deadline, timer.Stands past deadline)
    (sound : world.store.timers.Sound) (permits : sight.Permits outlasts request)
    (answered : World.answer request world = (.ok answer, after)) :
    Sees (past ++ [⟨actor, world, request, answer⟩]) after.store actor
      (sight.learn request answer) := by
  have hlater : ∀ keys, (∀ key ∈ request.settles answer, key ∈ keys) →
      Sees (past ++ [⟨actor, world, request, answer⟩]) after.store actor
        { sight with charge := sight.charge.settle keys } := by
    intro keys hkeys
    refine (sees.settle keys).later leads fun _ timer hmem hsettled => ?_
    exact (Charge.mem_settle.1 hmem).2 (hkeys _ hsettled)
  have hidle : request.settles answer = [] →
      Sees (past ++ [⟨actor, world, request, answer⟩]) after.store actor sight := by
    intro hnone
    refine sees.later leads fun _ timer _ hsettled => ?_
    rw [Exchange.settles, hnone] at hsettled
    cases hsettled
  cases request with
  | now =>
      obtain ⟨now, hnow, hreply⟩ := World.timed_eq_ok answered
      obtain rfl : now = answer := (Prod.mk.inj hreply).1
      exact (hidle rfl).now (List.mem_append_right _ List.mem_cons_self) hnow sees.history leads
  | readEvents ref skipped =>
      cases skipped with
      | succ skipped => exact hidle rfl
      | zero =>
          cases answer with
          | error error => exact hidle rfl
          | ok history =>
              obtain ⟨rfl, record, hfind, rfl⟩ := World.answer_readEvents answered
              refine ⟨(hidle rfl).works, (hidle rfl).due, ?_, fun _ hnone => nomatch hnone⟩
              rintro _ _ ⟨⟩
              exact ⟨record, hfind, List.prefix_rfl⟩
  | claimTask poll => exact (hidle rfl).claim sane answered
  | popDueTimers now limit =>
      cases answer with
      | error error => exact hidle rfl
      | ok due =>
          simp only [World.answer, World.timeless_eq_ok, Prod.mk.injEq, Except.ok.injEq] at answered
          obtain ⟨reading, hmem, reads, -⟩ := sees.clock now permits
          exact (hidle rfl).popDue stands sound ⟨reading, hmem, reads⟩ answered.1.symm
  | commit ref expected commit =>
      cases answer with
      | error error => exact hidle rfl
      | ok version => exact hlater _ fun _ => id
  | scheduleTimer timer =>
      cases answer with
      | error error => exact hidle rfl
      | ok _ => exact hlater _ fun _ => id
  | _ => exact hidle rfl

end

/-! ## Commits -/

/-- A task has the limits of the event that has scheduled it. -/
theorem Provided.limit {history : List HistoryEvent} {work : ActivityTask} {purpose : TimerPurpose}
    {span : Span} (provided : Provided history work) (h : work.limit? purpose = some span) :
    purpose.activityId? ≠ none ∧
      ∃ event ∈ history.map HistoryEvent.event, event.limit? purpose = some span := by
  obtain ⟨taskQueue, hmem⟩ := provided.scheduled
  unfold ActivityTask.limit? at h
  split at h
  · rename_i hpurpose
    have hactivity : purpose.activityId? = some work.activityId := by
      rcases AttemptOutcome.mem_attemptTimers.1 hpurpose with rfl | rfl <;> rfl
    exact ⟨by simp [hactivity], _, hmem, by simp [Event.limit?, hactivity, h]⟩
  · cases h

section

variable {store : Store} {sight : Sight} {outlasts : Span → Prop} {ref : RunRef} {expected : Nat}
  {commit : Commit} {record : RunRecord} {purpose : TimerPurpose}

/-- The timers of a commit that is accepted are set for deadlines of the history it continues. -/
theorem Sees.sets (sees : Sees past store actor sight)
    (permits : sight.Permits outlasts (.commit ref expected commit))
    (hfind : store.runs.find? ref = some record) (hlength : record.events.length = expected)
    (hmem : timer ∈ commit.timers) :
    ∃ deadline, commit.Sets past actor ref expected timer deadline := by
  obtain ⟨history, hread, rfl, allows⟩ := permits
  obtain ⟨hrun, deadline, hclock, counts, hcalls⟩ := allows.timers timer hmem
  obtain ⟨reading, hreading, reads, hsince⟩ := sees.clock deadline.since hclock
  obtain ⟨known, hknown, hprefix, same, hsame, hcontinued⟩ := hsince ref history hread
  obtain rfl : record = same := Option.some.inj (hfind.symm.trans hsame)
  -- nothing was recorded between the reading of the history and the commit
  have hhistory : history = known.events :=
    hprefix.eq_of_length_le (hlength ▸ hcontinued.length_le)
  have hevents : known.events = record.events :=
    hcontinued.eq_of_length_le (by rw [hlength, hhistory])
  refine ⟨deadline, hmem, hrun, counts, reading, hreading, reads, known, hknown,
    by rw [hhistory], ?_⟩
  rcases hcalls with hevent | ⟨work, hwork, rfl, hlimit⟩
  · exact hhistory ▸ hevent
  · obtain ⟨hactivity, event, hevent, hspan⟩ :=
      ((sees.works work hwork).provided hfind).limit hlimit
    exact .before (hevents ▸ hevent) hspan hactivity

/-- The time that is up is that of a timer, or the actor has waited as long as the history says. -/
theorem Sees.alarm (sees : Sees past store actor sight)
    (permits : sight.Permits outlasts (.commit ref expected commit))
    (hfind : store.runs.find? ref = some record) (hmem : purpose ∈ commit.alarms) :
    (∃ deadline, Ripe past actor (ref, purpose) deadline) ∨
      ∃ span, outlasts span ∧ ∃ event ∈ record.events.map HistoryEvent.event,
        event.limit? purpose = some span := by
  obtain ⟨history, -, -, allows⟩ := permits
  rcases allows.alarms purpose hmem with hdue | ⟨work, hwork, rfl, span, hlimit, houtlasts⟩
  · obtain ⟨timer, htimer, hkey⟩ := List.mem_map.1 hdue
    obtain ⟨deadline, ripe⟩ := sees.due timer htimer
    exact .inl ⟨deadline, hkey ▸ ripe⟩
  · obtain ⟨-, hevent⟩ := ((sees.works work hwork).provided hfind).limit hlimit
    exact .inr ⟨span, houtlasts, hevent⟩

end

/-! ## Scenes -/

namespace Scene

variable {ι : Type u} {ρ : Type} {begins : ι → Program ρ} {outlasts : ι → Span → Prop}

/-- All actors go by what they see, and all live timers are accounted for. -/
structure Punctual (outlasts : ι → Span → Prop) (past : List Exchange) (scene : Scene ι ρ) :
    Prop where
  actors : ∀ index (actor : Actor ι ρ), scene.actors[index]? = some actor → ∃ sight,
    Sees past scene.world.store index sight ∧
      actor.rest.Timely (outlasts actor.label) (fun _ _ => True) sight
  timers : ∀ timer ∈ scene.world.store.timers.timers, ∃ deadline, timer.Stands past deadline

/-- What holds of a scene that has come of an empty store. -/
structure Sound (scene : Scene ι ρ) : Prop where
  follows : ∃ know, Follows.Permissive scene know
  plays : scene.Plays Rules.lax True
  timers : scene.world.store.timers.Sound

theorem Sound.of_empty {start : World} (hobeys : ∀ label, (begins label).Obeys .permissive)
    (hplays : ∀ label, (begins label).PlaysAnywhere Rules.lax True) (hempty : start.store = .empty)
    {scene : Scene ι ρ} (reaches : Reaches begins (.opening start) scene) : scene.Sound := by
  obtain ⟨follows, -, plays⟩ := plays_of_empty Rules.lax_lawful hobeys hplays hempty reaches
  exact ⟨follows, plays, reaches.timers_sound_of_empty hempty⟩

namespace Punctual

variable {scene : Scene ι ρ}

theorem act (hplays : ∀ label, (begins label).PlaysAnywhere Rules.lax True)
    (sound : scene.Sound) (punctual : scene.Punctual outlasts past)
    {index : Nat} {label : ι} {request : Request} {next : request.Answer → Program ρ}
    {answer : request.Answer} {world : World}
    (turn : scene.actors[index]? = some ⟨label, .ask request next⟩)
    (answered : World.answer request scene.world = (.ok answer, world)) :
    Punctual outlasts (past ++ [⟨index, scene.world, request, answer⟩])
      ⟨world, scene.actors.set index ⟨label, next answer⟩,
        scene.log ++ entries index scene.world request answer⟩ := by
  obtain ⟨know, follows⟩ := sound.follows
  obtain ⟨-, hpermits, -⟩ := follows.keeps index _ turn
  have fresh := (follows.knows index).beginsNew hpermits answered
  have leads : Leads Rules.lax scene.world.store world.store :=
    (sound.plays.step Rules.lax_lawful hplays follows (.act turn answered)).1
  obtain ⟨sight, sees, permits, hnext⟩ := punctual.actors index _ turn
  constructor
  case actors =>
    intro other actor hget
    rcases actor_of_moved hget with ⟨rfl, rfl⟩ | ⟨hne, hold⟩
    · refine ⟨_, sees.act sound.plays.sane leads punctual.timers sound.timers permits answered, ?_⟩
      exact hnext answer (World.truthful_of_answer sound.timers.wellKept answered)
    · obtain ⟨theirs, hsees, timely⟩ := punctual.actors other actor hold
      exact ⟨theirs, hsees.later leads fun hself => absurd hself.symm hne, timely⟩
  case timers =>
    intro timer hlive
    have hown : ∀ ref expected commit, request = .commit ref expected commit →
        ∀ other ∈ commit.timers, other.run = ref := by
      rintro ref expected commit rfl other hmem
      obtain ⟨history, -, -, allows⟩ := permits
      exact (allows.timers other hmem).1
    cases World.justifies_of_answer sound.timers.wellKept fresh hown answered hlive index with
    | spared live spares =>
        obtain ⟨deadline, stands⟩ := punctual.timers timer live
        exact ⟨deadline, stands.later spares⟩
    | @set entry accepted sets =>
        cases request with
        | commit ref expected commit =>
            cases answer with
            | error error => cases accepted
            | ok version =>
                obtain ⟨now, -, rfl⟩ := List.mem_map.1 accepted
                rcases World.answer_commit answered with ⟨error, herror, -⟩ | haccepted
                · cases herror
                · obtain ⟨-, -, record, -, -, hfind, -, hlength, -⟩ := haccepted
                  obtain ⟨deadline, hsets⟩ := sees.sets permits hfind hlength sets
                  exact ⟨deadline, .stems (.set rfl hsets fun _ hnone => nomatch hnone)⟩
        | _ => cases accepted
    | putBack same =>
        subst same
        obtain ⟨due, hdue, hkey⟩ := List.mem_map.1 permits
        obtain ⟨deadline, ripe⟩ := sees.due due hdue
        cases answer with
        | error error => simp [World.answer] at answered
        | ok _ => exact ⟨deadline, .returned rfl (hkey ▸ ripe)⟩
    | @began now new shows begun limits =>
        obtain ⟨span, hspan, rfl⟩ := Option.map_eq_some_iff.1 limits
        exact ⟨_, .stems (.began (List.mem_append_right _ List.mem_cons_self) shows begun hspan rfl
          rfl)⟩

end Punctual

/-- Whatever happens, actors that keep to the time go by what they see. -/
theorem Course.punctual {start : World} (hobeys : ∀ label, (begins label).Obeys .permissive)
    (hplays : ∀ label, (begins label).PlaysAnywhere Rules.lax True)
    (htimely : ∀ label, (begins label).Timely (outlasts label) (fun _ _ => True) .nothing)
    (hempty : start.store = .empty) {scene : Scene ι ρ}
    (course : Course begins (.opening start) past scene) : scene.Punctual outlasts past := by
  induction course with
  | opening =>
      refine ⟨fun index actor hnone => ?_, fun timer hnone => ?_⟩
      · simp [Scene.opening] at hnone
      · rw [Scene.opening, hempty] at hnone
        cases hnone
  | @enter past scene course label ih =>
      refine ⟨fun index actor hget => ?_, ih.timers⟩
      rcases actor_of_entered hget with hold | ⟨-, rfl⟩
      · exact ih.actors index actor hold
      · exact ⟨.nothing, .nothing past _ index, htimely label⟩
  | tick course now ih => exact ⟨ih.actors, ih.timers⟩
  | act course index turn answered ih =>
      exact ih.act hplays (.of_empty hobeys hplays hempty course.reaches) turn answered
  | @fall past scene course index label request next cause world turn answered ih =>
      have hworld := World.answer_eq_error answered
      subst hworld
      refine ⟨fun other actor hget => ?_, ih.timers⟩
      rcases actor_of_moved hget with ⟨rfl, rfl⟩ | ⟨-, hold⟩
      · exact ⟨.nothing, .nothing past _ other, trivial⟩
      · exact ih.actors other actor hold

end Scene

end Chronicle
