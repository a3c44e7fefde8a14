import Mathlib.Logic.Relation
import Chronicle.Proofs.Engine.Draining
import Chronicle.Proofs.Engine.Untangling

/-!
# Batches make no difference

A timer service that takes several timers at a time is ahead of one that takes one after the other:
some timers have been taken out already that the other one has yet to take, or has lost because an
earlier one has fired.  If timers are untangled, those have no effect, and both come to the same end.
-/

namespace Chronicle

open Relation (ReflTransGen)

/-! ## Queues that lack timers -/

namespace TimerQueue

/-- The first queue is the second one without the given entries.  Places do not matter. -/
structure Lacks (queue : TimerQueue) (gone : List (Nat × Timer)) (full : TimerQueue) : Prop where
  live : queue.live = full.live.filter fun entry => entry ∉ gone
  issued : queue.issued = full.issued

variable {queue full : TimerQueue} {gone : List (Nat × Timer)}

theorem Lacks.schedule (lacks : queue.Lacks gone full) (hgone : ∀ entry ∈ gone, entry.1 < full.issued)
    (timer : Timer) : (queue.schedule timer).Lacks gone (full.schedule timer) where
  live := by
    have hnew : (full.issued, timer) ∉ gone := fun hmem => Nat.lt_irrefl _ (hgone _ hmem)
    rw [live_schedule, live_schedule, lacks.live, lacks.issued, List.filter_append, List.filter_comm]
    simp [hnew]
  issued := congrArg Nat.succ lacks.issued

theorem Lacks.filter (lacks : queue.Lacks gone full) (keeps : Nat × Timer → Bool) :
    Lacks { queue with live := queue.live.filter keeps } gone
      { full with live := full.live.filter keeps } where
  live := by
    simp only
    rw [lacks.live, List.filter_comm]
  issued := lacks.issued

theorem Lacks.scheduleAll (lacks : queue.Lacks gone full)
    (hgone : ∀ entry ∈ gone, entry.1 < full.issued) (timers : List Timer) :
    (timers.foldl TimerQueue.schedule queue).Lacks gone (timers.foldl TimerQueue.schedule full) := by
  induction timers generalizing queue full with
  | nil => exact lacks
  | cons timer rest ih =>
      apply ih (lacks.schedule hgone timer)
      exact fun entry hmem => Nat.lt_succ_of_lt (hgone entry hmem)

theorem Lacks.cancelAll (lacks : queue.Lacks gone full) (run : RunRef)
    (purposes : List TimerPurpose) :
    (queue.cancelAll run purposes).Lacks gone (full.cancelAll run purposes) := by
  induction purposes generalizing queue full with
  | nil => exact lacks
  | cons purpose rest ih => exact ih (lacks.filter _)

theorem Lacks.ownTimers (lacks : queue.Lacks gone full) (hgone : ∀ entry ∈ gone, entry.1 < full.issued)
    (commit : Commit) (ref : RunRef) :
    (commit.ownTimers ref queue).Lacks gone (commit.ownTimers ref full) := by
  have hlacks := (lacks.scheduleAll hgone commit.timers).cancelAll ref commit.cancelledTimers
  unfold Commit.ownTimers
  simp only
  split
  · exact hlacks.filter _
  · exact hlacks

end TimerQueue

namespace Store

variable {store : Store} {now : Instant} {timer : Timer}

theorem notify_with_timers (store : Store) (queue : TimerQueue) (notification : Notification)
    (now : Instant) : ({ store with timers := queue } : Store).notify notification now =
      { store.notify notification now with timers := queue } := by
  unfold notify
  simp only
  split
  · rfl
  · split <;> rfl

/-- All that a commit does besides its own timers, it does for whatever timers there are. -/
theorem apply_with_timers {commit : Commit} (hplain : commit.newRuns = []) (store : Store)
    (queue : TimerQueue) (ref : RunRef) (now : Instant) :
    ({ store with timers := queue } : Store).apply ref commit now =
      { store.apply ref commit now with timers := commit.ownTimers ref queue } := by
  rw [apply_eq, apply_eq, hplain, List.foldl_nil, List.foldl_nil]
  have hrevised : ({ store with timers := queue } : Store).revise ref commit now =
      { store.revise ref commit now with timers := commit.ownTimers ref queue } := rfl
  rw [hrevised]
  generalize store.revise ref commit now = revised
  induction commit.notifications generalizing revised with
  | nil => rfl
  | cons notification rest ih =>
      rw [List.foldl_cons, List.foldl_cons, notify_with_timers]
      exact ih _

/-- The second store is the first one but for its timers. -/
def Matches (store other : Store) : Prop := other = { store with timers := other.timers }

theorem Matches.fire {other : Store} {gone : List (Nat × Timer)} (same : store.Matches other)
    (lacks : store.timers.Lacks gone other.timers)
    (hgone : ∀ entry ∈ gone, entry.1 < other.timers.issued) (now : Instant) (timer : Timer) :
    (store.fire now timer).Matches (other.fire now timer) ∧
      (store.fire now timer).timers.Lacks gone (other.fire now timer).timers := by
  have hruns : other.runs = store.runs := by rw [same]
  unfold Store.fire
  rw [hruns]
  cases heffect : timer.effect? store.runs now with
  | none => exact ⟨same, lacks⟩
  | some commit =>
      obtain ⟨record, -, -, hwrites⟩ := Timer.effect?_eq_some.1 heffect
      have hplain :=
        (TimerPurpose.update_of_writes (Revision.writes_of_commitAt? hwrites)).newRuns
      have happly := apply_with_timers hplain store other.timers timer.run now
      rw [← same] at happly
      have hstore := apply_timers hplain store timer.run now
      refine ⟨?_, ?_⟩
      · simp only [Matches, wake, happly]
      · simp only [wake, happly, hstore]
        exact lacks.ownTimers hgone commit timer.run

/-! ## One timer after the other -/

/-- The store without the timer of the number. -/
def without (store : Store) (number : Nat) : Store :=
  { store with timers :=
    { store.timers with live := store.timers.live.filter fun entry => entry.1 != number } }

theorem mem_timers_without {store : Store} {number : Nat} {timer : Timer}
    (h : timer ∈ (store.without number).timers.timers) : timer ∈ store.timers.timers :=
  (List.filter_sublist.map Prod.snd).subset h

/-- The store without the places of its timers. -/
def placeless (store : Store) : Store := { store with timers := { store.timers with slots := [] } }

theorem Matches.placeless {other : Store} (same : store.Matches other) :
    store.Matches other.placeless := by
  unfold Matches Store.placeless at *
  simp only
  rw [same]

/-- The first timer is due, and fires alone. -/
structure Fires (now : Instant) (entry : Nat × Timer) (before after : Store) : Prop where
  numbered : (before.timers.live.map Prod.fst).Nodup
  mem : entry ∈ before.timers.live
  due : ¬ now < entry.2.fireAt
  first : ∀ other ∈ before.timers.live,
    (TimerQueue.slotOf entry).notAfter (TimerQueue.slotOf other) = true
  fired : after = ((before.without entry.1).fire now entry.2).placeless

/-- One timer fires. -/
def FiresOne (now : Instant) (before after : Store) : Prop := ∃ entry, Fires now entry before after

/-- There is only one timer that can be the next. -/
theorem firesOne_unique (now : Instant) : Relator.RightUnique (FiresOne now) := by
  rintro before one other ⟨first, fires⟩ ⟨second, fires'⟩
  have hnumber := TimerSlot.number_eq_of_notAfter (fires.first second fires'.mem)
    (fires'.first first fires.mem)
  have hsame : first = second :=
    List.inj_on_of_nodup_map fires.numbered fires.mem fires'.mem hnumber
  rw [fires.fired, fires'.fired, hsame]

/-- Two series of single timers that both come to rest come to the same rest. -/
theorem eq_of_atRest {one other : Store} (series : ReflTransGen (FiresOne now) store one)
    (series' : ReflTransGen (FiresOne now) store other) (rest : one.AtRest now)
    (rest' : other.AtRest now) : one = other := by
  have hstays : ∀ {early late : Store}, early.AtRest now → ReflTransGen (FiresOne now) early late →
      early = late := by
    intro early late hrest hseries
    rcases hseries.cases_head with hsame | ⟨next, ⟨entry, fires⟩, -⟩
    · exact hsame
    · exact absurd (hrest entry fires.mem) fires.due
  rcases series.total_of_right_unique (firesOne_unique now) series' with hmore | hmore
  · exact hstays rest hmore
  · exact (hstays rest' hmore).symm

/-! ## Being ahead -/

/-- The second store has yet to fire, one after the other, the timers that the first one has taken
out. -/
structure Ahead (now : Instant) (outstanding : List (Nat × Timer)) (store single : Store) : Prop where
  same : store.Matches single
  placeless : single.timers.slots = []
  lacks : store.timers.Lacks outstanding single.timers
  wellKept : single.timers.WellKept
  untangled : single.Untangled now
  issued : ∀ entry ∈ outstanding, entry.1 < single.timers.issued
  distinct : (outstanding.map Prod.fst).Nodup
  sorted : outstanding.Pairwise fun first second =>
    (TimerQueue.slotOf first).notAfter (TimerQueue.slotOf second) = true
  due : ∀ entry ∈ outstanding, ¬ now < entry.2.fireAt
  first : ∀ entry ∈ outstanding, ∀ other ∈ store.timers.live,
    (TimerQueue.slotOf entry).notAfter (TimerQueue.slotOf other) = true
  pending : ∀ entry ∈ outstanding, entry ∈ single.timers.live ∨ entry.2.IsSpent single.runs

variable {outstanding : List (Nat × Timer)} {single : Store} {entry : Nat × Timer}

/-- What would do nothing does nothing, whether it is there or not. -/
theorem Ahead.skip (ahead : Ahead now (entry :: outstanding) store single)
    (hgone : entry ∉ single.timers.live) : Ahead now outstanding (store.fire now entry.2) single := by
  have spent := (ahead.pending entry List.mem_cons_self).resolve_left hgone
  have hruns : single.runs = store.runs := by rw [ahead.same]
  have hfire : store.fire now entry.2 = store := by
    unfold fire
    rw [← hruns, spent.effect?]
  have hlive : (single.timers.live.filter fun other => other ∉ entry :: outstanding) =
      single.timers.live.filter fun other => other ∉ outstanding := by
    apply List.filter_congr
    intro other hmem
    have hne : other ≠ entry := by
      rintro rfl
      exact hgone hmem
    simp [hne]
  rw [hfire]
  exact
    { same := ahead.same
      placeless := ahead.placeless
      lacks := ⟨ahead.lacks.live.trans hlive, ahead.lacks.issued⟩
      wellKept := ahead.wellKept
      untangled := ahead.untangled
      issued := fun other hmem => ahead.issued other (List.mem_cons_of_mem _ hmem)
      distinct := (List.nodup_cons.1 ahead.distinct).2
      sorted := (List.pairwise_cons.1 ahead.sorted).2
      due := fun other hmem => ahead.due other (List.mem_cons_of_mem _ hmem)
      first := fun other hmem => ahead.first other (List.mem_cons_of_mem _ hmem)
      pending := fun other hmem => ahead.pending other (List.mem_cons_of_mem _ hmem) }

/-- The first of the timers that were taken out is also the first that is due. -/
theorem Ahead.fires (ahead : Ahead now (entry :: outstanding) store single)
    (hmem : entry ∈ single.timers.live) :
    Fires now entry single ((single.without entry.1).fire now entry.2).placeless where
  numbered := ahead.wellKept.numbered
  mem := hmem
  due := ahead.due entry List.mem_cons_self
  first := by
    intro other hother
    by_cases hout : other ∈ entry :: outstanding
    · rcases List.mem_cons.1 hout with rfl | hlater
      · exact TimerSlot.notAfter_iff.2 (.inr ⟨rfl, Nat.le_refl _⟩)
      · exact (List.pairwise_cons.1 ahead.sorted).1 other hlater
    · apply ahead.first entry List.mem_cons_self
      rw [ahead.lacks.live, List.mem_filter]
      exact ⟨hother, by simpa using hout⟩
  fired := rfl

theorem Ahead.without (ahead : Ahead now (entry :: outstanding) store single)
    (hmem : entry ∈ single.timers.live) :
    store.Matches (single.without entry.1) ∧
      store.timers.Lacks outstanding (single.without entry.1).timers := by
  refine ⟨?_, ⟨?_, ahead.lacks.issued⟩⟩
  · have hsame := ahead.same
    unfold Matches at hsame ⊢
    unfold Store.without
    simp only
    rw [hsame]
  · rw [ahead.lacks.live]
    simp only [Store.without, List.filter_filter]
    apply List.filter_congr
    intro other hother
    have hnumber : other = entry ↔ other.1 = entry.1 :=
      ⟨congrArg Prod.fst, fun h =>
        List.inj_on_of_nodup_map ahead.wellKept.numbered hother hmem h⟩
    rw [Bool.eq_iff_iff]
    simp only [decide_eq_true_eq, List.mem_cons, not_or, Bool.and_eq_true, bne_iff_ne, hnumber]
    exact and_comm

theorem Ahead.unhindered (ahead : Ahead now (entry :: outstanding) store single)
    (hmem : entry ∈ single.timers.live) : (single.without entry.1).Unhindered now entry.2 := by
  intro record hfind hopen activityId attempt state hpurpose attempted hpickup
  have hdue : single.timers.IsDue now entry.2.run entry.2.purpose :=
    ⟨entry.2, List.mem_map_of_mem hmem, rfl, ahead.due entry List.mem_cons_self⟩
  have hlate := (ahead.untangled entry.2.run record hfind hopen activityId state attempted.known
    attempted.isOpen attempt entry.2.purpose hpurpose hdue).2
  have hless := hlate (hpickup.of_timers fun _ => mem_timers_without)
  rw [attempted.current] at hless
  exact Nat.lt_irrefl _ hless

/-- What a timer schedules comes after all that is due. -/
theorem Ahead.first_fire (ahead : Ahead now (entry :: outstanding) store single)
    {earlier other : Nat × Timer} (hearlier : earlier ∈ outstanding)
    (hother : other ∈ (store.fire now entry.2).timers.live) :
    (TimerQueue.slotOf earlier).notAfter (TimerQueue.slotOf other) = true := by
  have hmem : earlier ∈ entry :: outstanding := List.mem_cons_of_mem _ hearlier
  rcases store.fire_timers now entry.2 with ⟨hsame, -⟩ | ⟨commit, heffect, htimers⟩
  · rw [hsame] at hother
    exact ahead.first earlier hmem other hother
  · rw [htimers] at hother
    rcases Commit.live_ownTimers hother with hold | ⟨hissued, hnew⟩
    · exact ahead.first earlier hmem other hold
    · obtain ⟨record, -, -, hwrites⟩ := Timer.effect?_eq_some.1 heffect
      have hdue := Instant.le_of_not_lt (ahead.due earlier hmem)
      have hnumber := ahead.issued earlier hmem
      rw [← ahead.lacks.issued] at hnumber
      apply TimerSlot.notAfter_of_le
      · exact Instant.le_trans hdue (TimerPurpose.le_of_commitAt? hwrites other.2 hnew)
      · exact Nat.le_of_lt (Nat.lt_of_lt_of_le hnumber hissued)

/-- A timer that is due to both fires for both. -/
theorem Ahead.fire (ahead : Ahead now (entry :: outstanding) store single)
    (hmem : entry ∈ single.timers.live) : Ahead now outstanding (store.fire now entry.2)
      ((single.without entry.1).fire now entry.2).placeless := by
  obtain ⟨same, lacks⟩ := ahead.without hmem
  have hissued : ∀ other ∈ outstanding, other.1 < single.timers.issued :=
    fun other hother => ahead.issued other (List.mem_cons_of_mem _ hother)
  obtain ⟨matched, lacked⟩ := same.fire lacks hissued now entry.2
  have hgrows : (single.without entry.1).timers.issued ≤
      ((single.without entry.1).fire now entry.2).timers.issued :=
    TimerQueue.issued_le_of_steps ((single.without entry.1).fire_timerSteps now entry.2)
  constructor
  case same => exact matched.placeless
  case placeless => rfl
  case lacks => exact ⟨lacked.live, lacked.issued⟩
  case wellKept =>
    have kept : (single.without entry.1).timers.WellKept :=
      ahead.wellKept.of_sublist List.filter_sublist rfl
    exact (wellKept_fire kept now entry.2).of_sublist (.refl _) rfl
  case untangled =>
    have untangled : (single.without entry.1).Untangled now :=
      ahead.untangled.of_timers rfl fun _ => mem_timers_without
    exact (untangled.fire entry.2).of_timers rfl fun _ hother => hother
  case issued => exact fun other hother => Nat.lt_of_lt_of_le (hissued other hother) hgrows
  case distinct => exact (List.nodup_cons.1 ahead.distinct).2
  case sorted => exact (List.pairwise_cons.1 ahead.sorted).2
  case due => exact fun other hother => ahead.due other (List.mem_cons_of_mem _ hother)
  case first => exact fun earlier hearlier other hother => ahead.first_fire hearlier hother
  case pending =>
    intro other hother
    rcases ahead.pending other (List.mem_cons_of_mem _ hother) with hlive | spent
    · have hnumber : other.1 ≠ entry.1 := fun hsame =>
        (List.nodup_cons.1 ahead.distinct).1 (hsame ▸ List.mem_map_of_mem hother)
      have hstill : other ∈ (single.without entry.1).timers.live :=
        List.mem_filter.2 ⟨hlive, bne_iff_ne.2 hnumber⟩
      exact (ahead.unhindered hmem).fire hstill (ahead.due other (List.mem_cons_of_mem _ hother))
    · have spent : other.2.IsSpent (single.without entry.1).runs := spent
      exact .inr spent.fire

/-- In the end both have fired the same timers. -/
theorem Ahead.fireAll (ahead : Ahead now outstanding store single) :
    ∃ later, ReflTransGen (FiresOne now) single later ∧
      Ahead now [] (store.fireAll now (outstanding.map Prod.snd)) later := by
  induction outstanding generalizing store single with
  | nil => exact ⟨single, .refl, ahead⟩
  | cons entry rest ih =>
      by_cases hmem : entry ∈ single.timers.live
      · obtain ⟨later, series, caught⟩ := ih (ahead.fire hmem)
        exact ⟨later, .head ⟨entry, ahead.fires hmem⟩ series, caught⟩
      · exact ih (ahead.skip hmem)

/-- Whoever takes out a batch is ahead by it. -/
theorem Ahead.popDue (ahead : Ahead now [] store single) (sound : store.timers.Sound) (size : Nat) :
    ∃ taken, (store.popDueTimers now size).2 = taken.map Prod.snd ∧
      Ahead now taken (store.popDueTimers now size).1 single := by
  obtain ⟨taken, hdue, takes⟩ := sound.wellKept.popDue_spec sound.ordered now size
  have hlive : single.timers.live = store.timers.live := by
    rw [ahead.lacks.live]
    simp
  have hmem : ∀ entry ∈ taken, entry ∈ single.timers.live := fun entry hentry =>
    hlive ▸ takes.mem entry hentry
  refine ⟨taken, hdue, ?_⟩
  constructor
  case same => exact ahead.same
  case placeless => exact ahead.placeless
  case lacks =>
    refine ⟨?_, ahead.lacks.issued⟩
    have hrest : (store.popDueTimers now size).1.timers.live =
        store.timers.live.filter fun entry => entry.1 ∉ taken.map Prod.fst := takes.rest
    rw [hrest, hlive]
    apply List.filter_congr
    intro entry hentry
    have hnumber : entry.1 ∈ taken.map Prod.fst ↔ entry ∈ taken := by
      constructor
      · intro hnumber
        obtain ⟨other, hother, hsame⟩ := List.mem_map.1 hnumber
        have heq := List.inj_on_of_nodup_map sound.wellKept.numbered (takes.mem other hother) hentry
          hsame
        exact heq ▸ hother
      · exact List.mem_map_of_mem
    rw [decide_eq_decide, hnumber]
  case wellKept => exact ahead.wellKept
  case untangled => exact ahead.untangled
  case issued => exact fun entry hentry => ahead.wellKept.issued entry (hmem entry hentry)
  case distinct => exact takes.distinct
  case sorted => exact takes.sorted
  case due => exact takes.due
  case first => exact takes.first
  case pending => exact fun entry hentry => .inl (hmem entry hentry)

theorem Ahead.batch (ahead : Ahead now [] store single) (sound : store.timers.Sound) (size : Nat) :
    ∃ later, ReflTransGen (FiresOne now) single later ∧ Ahead now [] (store.batch now size) later := by
  obtain ⟨taken, hdue, taking⟩ := ahead.popDue sound size
  unfold Store.batch
  rw [hdue]
  exact taking.fireAll

theorem Ahead.batches {after : Store} {size : Nat} (ahead : Ahead now [] store single)
    (sound : store.timers.Sound) (batches : Batches now size store after) :
    ∃ later, ReflTransGen (FiresOne now) single later ∧ Ahead now [] after later := by
  induction batches with
  | refl => exact ⟨single, .refl, ahead⟩
  | @tail middle after early batch ih =>
      obtain ⟨later, series, caught⟩ := ih
      obtain ⟨last, more, final⟩ := caught.batch (sound.steps (Batches.timerSteps early)) size
      exact ⟨last, series.trans more, batch ▸ final⟩

theorem Ahead.start (sound : store.timers.Sound) (untangled : store.Untangled now) :
    Ahead now [] store store.placeless where
  same := rfl
  placeless := rfl
  lacks := ⟨by simp [Store.placeless], rfl⟩
  wellKept := sound.wellKept.of_sublist (.refl _) rfl
  untangled := untangled.of_timers rfl fun _ hmem => hmem
  issued := by simp
  distinct := List.nodup_nil
  sorted := .nil
  due := by simp
  first := by simp
  pending := by simp

/-- What is left of two stores that agree but for the places of timers. -/
theorem Ahead.placeless_eq (ahead : Ahead now [] store single) : store.placeless = single := by
  have htimers : single.timers = { store.timers with slots := [] } := by
    obtain ⟨hlive, hissued⟩ := ahead.lacks
    rw [List.filter_eq_self.2 (by simp)] at hlive
    simp only [hlive, hissued, ← ahead.placeless]
  rw [ahead.same, Store.placeless, htimers]

/-- Batches of any sizes come to the same rest. -/
theorem Untangled.rest_unique {one other : Store} {size size' : Nat} (untangled : store.Untangled now)
    (sound : store.timers.Sound) (batches : Batches now size store one)
    (batches' : Batches now size' store other) (rest : one.AtRest now) (rest' : other.AtRest now) :
    one.placeless = other.placeless := by
  obtain ⟨later, series, caught⟩ := (Ahead.start sound untangled).batches sound batches
  obtain ⟨later', series', caught'⟩ := (Ahead.start sound untangled).batches sound batches'
  rw [caught.placeless_eq, caught'.placeless_eq]
  rw [← caught.placeless_eq] at series ⊢
  rw [← caught'.placeless_eq] at series' ⊢
  exact eq_of_atRest series series' rest rest'

end Store

/-! ## Sweeping -/

namespace TimerService

/-- Fires what is due until nothing is.  The numbers bound the batches in a row, and the rows. -/
def sweep (service : TimerService) (limit : Nat) : Nat → Program (Except StoreError Unit)
  | 0 => .crash .endless
  | rounds + 1 => do
      match ← service.drain limit 0 with
      | .error error => return .error error
      | .ok count => if count = 0 then return .ok () else sweep service limit rounds

theorem sweep_run {service : TimerService} {world : World} {now : Instant} {limit : Nat}
    (hnow : world.now = some now) (hbatch : service.config.batchSize ≠ 0)
    (sound : world.store.timers.Sound) (hlimit : world.store.timers.weight < limit) (rounds : Nat)
    (hrounds : world.store.timers.weight < rounds) :
    ∃ after, (service.sweep limit rounds).run World.answer world =
        (.ok (.ok ()), { world with store := after }) ∧
      Store.Batches now service.config.batchSize world.store after ∧ after.AtRest now := by
  induction rounds generalizing world with
  | zero => exact absurd hrounds (Nat.not_lt_zero _)
  | succ rounds ih =>
      obtain ⟨count, middle, hrun, batches, hweight, hrest, -⟩ :=
        drain_run_batches hnow hbatch sound limit 0 hlimit
      rw [Nat.zero_add] at hrun
      rw [sweep, Program.run_bind hrun]
      simp only
      split
      case isTrue hcount => exact ⟨middle, rfl, batches, hrest hcount⟩
      case isFalse hcount =>
        obtain ⟨after, hmore, others, rest⟩ := @ih { world with store := middle } hnow
          (sound.steps batches.timerSteps) (by simp only; omega) (by simp only; omega)
        exact ⟨after, hmore, batches.trans others, rest⟩

/-- What two services leave, which fire what is due until nothing is, is the same. -/
def SweepsAlike (first second : TimerService) (world : World) (limit : Nat) : Prop :=
  ∃ one other : Store,
    (first.sweep limit limit).run World.answer world = (.ok (.ok ()), { world with store := one }) ∧
    (second.sweep limit limit).run World.answer world =
      (.ok (.ok ()), { world with store := other }) ∧
    one.runs = other.runs ∧ one.tasks = other.tasks ∧ one.timers.live = other.timers.live

theorem sweepsAlike {first second : TimerService} {world : World} {now : Instant} {limit : Nat}
    (hnow : world.now = some now) (hfirst : first.config.batchSize ≠ 0)
    (hsecond : second.config.batchSize ≠ 0) (sound : world.store.timers.Sound)
    (untangled : world.store.Untangled now) (hlimit : world.store.timers.weight < limit) :
    SweepsAlike first second world limit := by
  obtain ⟨one, hrun, batches, rest⟩ := sweep_run hnow hfirst sound hlimit limit hlimit
  obtain ⟨other, hrun', batches', rest'⟩ := sweep_run hnow hsecond sound hlimit limit hlimit
  have hsame := untangled.rest_unique sound batches batches' rest rest'
  simp only [Store.placeless, Store.mk.injEq, TimerQueue.mk.injEq] at hsame
  obtain ⟨hruns, htasks, ⟨-, hlive, -⟩, -⟩ := hsame
  exact ⟨one, other, hrun, hrun', hruns, htasks, hlive⟩

end TimerService

end Chronicle
