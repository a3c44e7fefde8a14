import Mathlib.Data.List.Nodup
import Mathlib.Data.List.Perm.Basic
import Chronicle.Proofs.Store.Applying

/-!
# Live timers

What operations do to the timers of a queue, apart from their order.  A run has at most one timer
for each purpose, and taking the due timers loses none.
-/

namespace Chronicle

/-- What the timer is for. -/
def Timer.key (timer : Timer) : RunRef × TimerPurpose := (timer.run, timer.purpose)

namespace TimerQueue

/-- The live timers, in the order in which they were scheduled. -/
def timers (queue : TimerQueue) : List Timer := queue.live.map Prod.snd

def keys (queue : TimerQueue) : List (RunRef × TimerPurpose) := queue.timers.map Timer.key

def timersOf (queue : TimerQueue) (run : RunRef) : List Timer :=
  queue.timers.filter fun timer => timer.run = run

structure WellKept (queue : TimerQueue) : Prop where
  issued : ∀ entry ∈ queue.live, entry.1 < queue.issued
  numbered : (queue.live.map Prod.fst).Nodup
  single : queue.keys.Nodup

variable {queue : TimerQueue} {run : RunRef} {purpose : TimerPurpose} {timer other : Timer}
  {key : RunRef × TimerPurpose}

theorem WellKept.empty : WellKept .empty :=
  ⟨by simp [TimerQueue.empty], List.nodup_nil, List.nodup_nil⟩

theorem WellKept.of_sublist {after : TimerQueue} (wellKept : queue.WellKept)
    (hlive : after.live.Sublist queue.live) (hissued : after.issued = queue.issued) :
    after.WellKept where
  issued := fun entry hmem => hissued ▸ wellKept.issued entry (hlive.subset hmem)
  numbered := wellKept.numbered.sublist (hlive.map _)
  single := wellKept.single.sublist ((hlive.map _).map _)

theorem mem_purposes :
    purpose ∈ (queue.timersOf run).map Timer.purpose ↔ (run, purpose) ∈ queue.keys := by
  simp only [timersOf, keys, List.mem_map, List.mem_filter, decide_eq_true_eq]
  constructor
  · rintro ⟨timer, ⟨hmem, rfl⟩, rfl⟩
    exact ⟨timer, hmem, rfl⟩
  · rintro ⟨timer, hmem, hkey⟩
    exact ⟨timer, ⟨hmem, congrArg Prod.fst hkey⟩, congrArg Prod.snd hkey⟩

theorem WellKept.purposes_nodup (wellKept : queue.WellKept) (run : RunRef) :
    ((queue.timersOf run).map Timer.purpose).Nodup := by
  have hkeys : ((queue.timersOf run).map Timer.key).Nodup :=
    wellKept.single.sublist (List.filter_sublist.map _)
  rw [List.nodup_map_iff_inj_on (List.Nodup.of_map _ hkeys)]
  intro first hfirst second hsecond hpurpose
  have hruns : first.run = second.run := by
    have hone := (List.mem_filter.1 hfirst).2
    have htwo := (List.mem_filter.1 hsecond).2
    simp only [decide_eq_true_eq] at hone htwo
    exact hone.trans htwo.symm
  exact List.inj_on_of_nodup_map hkeys hfirst hsecond (by rw [Timer.key, Timer.key, hruns, hpurpose])

/-! ## Scheduling and cancelling -/

theorem timers_cancel (queue : TimerQueue) (run : RunRef) (purpose : TimerPurpose) :
    (queue.cancel run purpose).timers =
      queue.timers.filter fun timer => timer.key != (run, purpose) := by
  unfold timers cancel
  rw [List.filter_map]
  rfl

theorem timers_schedule (queue : TimerQueue) (timer : Timer) :
    (queue.schedule timer).timers =
      (queue.timers.filter fun other => other.key != timer.key) ++ [timer] := by
  have hcancel := timers_cancel queue timer.run timer.purpose
  unfold timers at hcancel ⊢
  simp only [schedule, List.map_append, List.map_cons, List.map_nil, hcancel]
  rfl

theorem timers_purge (queue : TimerQueue) (run : RunRef) :
    (queue.purge run).timers = queue.timers.filter fun timer => timer.run != run := by
  unfold timers purge
  rw [List.filter_map]
  rfl

theorem mem_keys_filter {timers : List Timer} {keeps : RunRef × TimerPurpose → Bool} :
    key ∈ (timers.filter fun timer => keeps timer.key).map Timer.key ↔
      key ∈ timers.map Timer.key ∧ keeps key = true := by
  simp only [List.mem_map, List.mem_filter]
  constructor
  · rintro ⟨timer, ⟨hmem, hkept⟩, rfl⟩
    exact ⟨⟨timer, hmem, rfl⟩, hkept⟩
  · rintro ⟨⟨timer, hmem, rfl⟩, hkept⟩
    exact ⟨timer, ⟨hmem, hkept⟩, rfl⟩

theorem mem_keys_cancel :
    key ∈ (queue.cancel run purpose).keys ↔ key ∈ queue.keys ∧ key ≠ (run, purpose) := by
  have hfilter := @mem_keys_filter key queue.timers fun key => key != (run, purpose)
  rw [bne_iff_ne] at hfilter
  unfold keys
  rw [timers_cancel]
  exact hfilter

theorem mem_keys_purge : key ∈ (queue.purge run).keys ↔ key ∈ queue.keys ∧ key.1 ≠ run := by
  have hfilter := @mem_keys_filter key queue.timers fun key => key.1 != run
  rw [bne_iff_ne] at hfilter
  unfold keys
  rw [timers_purge]
  exact hfilter

theorem keys_schedule (queue : TimerQueue) (timer : Timer) :
    (queue.schedule timer).keys =
      (queue.cancel timer.run timer.purpose).keys ++ [timer.key] := by
  unfold keys
  rw [timers_schedule, timers_cancel, List.map_append]
  rfl

theorem mem_keys_schedule :
    key ∈ (queue.schedule timer).keys ↔ key ∈ queue.keys ∨ key = timer.key := by
  rw [keys_schedule, List.mem_append, List.mem_singleton, mem_keys_cancel]
  by_cases htimer : key = timer.key
  · simp [htimer]
  · have hne : key ≠ (timer.run, timer.purpose) := htimer
    simp [htimer, hne]

theorem mem_timers_cancel (h : timer ∈ (queue.cancel run purpose).timers) :
    timer ∈ queue.timers := by
  rw [timers_cancel] at h
  exact List.mem_of_mem_filter h

theorem mem_timers_schedule (h : other ∈ (queue.schedule timer).timers) :
    other ∈ queue.timers ∨ other = timer := by
  rw [timers_schedule, List.mem_append, List.mem_singleton] at h
  exact h.imp_left List.mem_of_mem_filter

theorem WellKept.cancel (wellKept : queue.WellKept) (run : RunRef) (purpose : TimerPurpose) :
    (queue.cancel run purpose).WellKept :=
  wellKept.of_sublist List.filter_sublist rfl

theorem WellKept.schedule (wellKept : queue.WellKept) (timer : Timer) :
    (queue.schedule timer).WellKept := by
  have cancelled := wellKept.cancel timer.run timer.purpose
  constructor
  · intro entry hmem
    rcases List.mem_append.1 hmem with hold | hnew
    · exact Nat.lt_succ_of_lt (cancelled.issued entry hold)
    · rw [List.mem_singleton.1 hnew]
      exact Nat.lt_succ_self _
  · have hnumbers : (queue.schedule timer).live.map Prod.fst =
        (queue.cancel timer.run timer.purpose).live.map Prod.fst ++ [queue.issued] := by
      simp [TimerQueue.schedule, TimerQueue.cancel]
    rw [hnumbers]
    refine cancelled.numbered.append (List.nodup_singleton _) ?_
    simp only [List.disjoint_singleton]
    intro hmem
    obtain ⟨entry, hentry, hnumber⟩ := List.mem_map.1 hmem
    have hlt := cancelled.issued entry hentry
    exact Nat.lt_irrefl _ (hnumber ▸ hlt)
  · rw [keys_schedule]
    refine cancelled.single.append (List.nodup_singleton _) ?_
    simp only [List.disjoint_singleton]
    exact fun hmem => (mem_keys_cancel.1 hmem).2 rfl

/-! ## Due timers -/

theorem perm_of_lookup {number : Nat} {live : List (Nat × Timer)}
    (hnumbered : (live.map Prod.fst).Nodup) (h : live.lookup number = some timer) :
    (live.map Prod.snd).Perm
      (timer :: (live.filter fun entry => entry.1 != number).map Prod.snd) := by
  induction live with
  | nil => cases h
  | cons entry rest ih =>
      obtain ⟨found, other⟩ := entry
      rw [List.map_cons, List.nodup_cons] at hnumbered
      rw [List.lookup_cons] at h
      by_cases hnumber : number = found
      · subst hnumber
        simp only [beq_self_eq_true, Option.some.injEq] at h
        have hrest : rest.filter (fun entry => entry.1 != number) = rest := by
          rw [List.filter_eq_self]
          intro entry hmem
          rw [bne_iff_ne]
          intro hsame
          exact hnumbered.1 (List.mem_map.2 ⟨entry, hmem, hsame⟩)
        simp [h, hrest]
      · have hmiss : (number == found) = false := by simpa using hnumber
        rw [hmiss] at h
        rw [List.filter_cons_of_pos (by simpa using Ne.symm hnumber)]
        exact ((ih hnumbered.2 h).cons other).trans (.swap _ _ _)

theorem take_perm (now : Instant) (limit : Nat) (slots : List TimerSlot)
    (live : List (Nat × Timer)) (hnumbered : (live.map Prod.fst).Nodup) :
    (take now limit slots live).2.2.Sublist live ∧
      (live.map Prod.snd).Perm
        ((take now limit slots live).1 ++ (take now limit slots live).2.2.map Prod.snd) := by
  induction slots generalizing limit live with
  | nil => cases limit <;> exact ⟨.refl _, .refl _⟩
  | cons slot rest ih =>
      cases limit with
      | zero => exact ⟨.refl _, .refl _⟩
      | succ limit =>
          unfold take
          cases hlookup : live.lookup slot.number with
          | none => exact ih (limit + 1) live hnumbered
          | some timer =>
              simp only
              split
              · exact ⟨.refl _, .refl _⟩
              · obtain ⟨hsublist, hperm⟩ := ih limit (live.filter fun entry => entry.1 != slot.number)
                  (hnumbered.sublist (List.filter_sublist.map _))
                exact ⟨hsublist.trans List.filter_sublist,
                  (perm_of_lookup hnumbered hlookup).trans (hperm.cons timer)⟩

theorem WellKept.popDue (wellKept : queue.WellKept) (now : Instant) (limit : Nat) :
    (queue.popDue now limit).1.WellKept :=
  wellKept.of_sublist (take_perm now limit queue.slots queue.live wellKept.numbered).1 rfl

/-- Every timer that was live is handed out or stays. -/
theorem WellKept.popDue_perm (wellKept : queue.WellKept) (now : Instant) (limit : Nat) :
    queue.timers.Perm ((queue.popDue now limit).2 ++ (queue.popDue now limit).1.timers) :=
  (take_perm now limit queue.slots queue.live wellKept.numbered).2

theorem WellKept.mem_keys_popDue (wellKept : queue.WellKept) (now : Instant) (limit : Nat) :
    key ∈ (queue.popDue now limit).1.keys ↔
      key ∈ queue.keys ∧ key ∉ (queue.popDue now limit).2.map Timer.key := by
  have hperm := (wellKept.popDue_perm now limit).map Timer.key
  rw [List.map_append] at hperm
  have hapart := (List.nodup_append'.1 (hperm.nodup_iff.1 wellKept.single)).2.2
  have hmem := hperm.mem_iff (a := key)
  rw [List.mem_append] at hmem
  constructor
  · intro hleft
    exact ⟨hmem.2 (.inr hleft), fun hdue => hapart hdue hleft⟩
  · rintro ⟨hthere, hnot⟩
    exact (hmem.1 hthere).resolve_left hnot

/-! ## Commits -/

theorem WellKept.scheduleAll (wellKept : queue.WellKept) (timers : List Timer) :
    (timers.foldl TimerQueue.schedule queue).WellKept := by
  induction timers generalizing queue with
  | nil => exact wellKept
  | cons timer rest ih => exact ih (wellKept.schedule timer)

theorem mem_keys_scheduleAll {timers : List Timer} :
    key ∈ (timers.foldl schedule queue).keys ↔ key ∈ queue.keys ∨ key ∈ timers.map Timer.key := by
  induction timers generalizing queue with
  | nil => simp
  | cons timer rest ih =>
      rw [List.foldl_cons, ih, mem_keys_schedule, List.map_cons, List.mem_cons, or_assoc]

theorem mem_timers_scheduleAll {timers : List Timer}
    (h : timer ∈ (timers.foldl schedule queue).timers) : timer ∈ queue.timers ∨ timer ∈ timers := by
  induction timers generalizing queue with
  | nil => exact .inl h
  | cons first rest ih =>
      rcases ih h with hearlier | hrest
      · exact (mem_timers_schedule hearlier).imp id fun hsame => by simp [hsame]
      · exact .inr (List.mem_cons_of_mem _ hrest)

/-- The queue without the run's timers for these purposes. -/
def cancelAll (run : RunRef) (purposes : List TimerPurpose) (queue : TimerQueue) : TimerQueue :=
  purposes.foldl (fun queue purpose => queue.cancel run purpose) queue

theorem WellKept.cancelAll (wellKept : queue.WellKept) (run : RunRef)
    (purposes : List TimerPurpose) : (queue.cancelAll run purposes).WellKept := by
  induction purposes generalizing queue with
  | nil => exact wellKept
  | cons purpose rest ih => exact ih (wellKept.cancel run purpose)

theorem mem_keys_cancelAll {purposes : List TimerPurpose} :
    key ∈ (queue.cancelAll run purposes).keys ↔
      key ∈ queue.keys ∧ ¬ (key.1 = run ∧ key.2 ∈ purposes) := by
  induction purposes generalizing queue with
  | nil => simp [cancelAll]
  | cons purpose rest ih =>
      have hrest := @ih (queue.cancel run purpose)
      rw [mem_keys_cancel] at hrest
      refine hrest.trans ?_
      simp only [ne_eq, Prod.ext_iff, List.mem_cons]
      tauto

theorem mem_timers_cancelAll {purposes : List TimerPurpose}
    (h : timer ∈ (queue.cancelAll run purposes).timers) : timer ∈ queue.timers := by
  induction purposes generalizing queue with
  | nil => exact h
  | cons purpose rest ih => exact mem_timers_cancel (@ih (queue.cancel run purpose) h)

end TimerQueue

namespace Commit

/-- What the commit does to timers on behalf of its own run. -/
def ownTimers (commit : Commit) (ref : RunRef) (queue : TimerQueue) : TimerQueue :=
  let queue := (commit.timers.foldl TimerQueue.schedule queue).cancelAll ref commit.cancelledTimers
  if commit.closing.isSome then queue.purge ref else queue

variable {commit : Commit} {ref : RunRef} {queue : TimerQueue} {key : RunRef × TimerPurpose}
  {timer : Timer}

theorem wellKept_ownTimers (wellKept : queue.WellKept) (commit : Commit) (ref : RunRef) :
    (commit.ownTimers ref queue).WellKept := by
  have kept := (wellKept.scheduleAll commit.timers).cancelAll ref commit.cancelledTimers
  unfold ownTimers
  simp only
  split
  · exact kept.of_sublist List.filter_sublist rfl
  · exact kept

theorem mem_keys_ownTimers : key ∈ (commit.ownTimers ref queue).keys ↔
    (key ∈ queue.keys ∨ key ∈ commit.timers.map Timer.key) ∧
      ¬ (key.1 = ref ∧ (key.2 ∈ commit.cancelledTimers ∨ commit.closing ≠ none)) := by
  unfold ownTimers
  simp only
  split
  · rename_i hclosing
    rw [TimerQueue.mem_keys_purge, TimerQueue.mem_keys_cancelAll, TimerQueue.mem_keys_scheduleAll]
    have hsome : commit.closing ≠ none := Option.isSome_iff_ne_none.1 hclosing
    tauto
  · rename_i hclosing
    rw [TimerQueue.mem_keys_cancelAll, TimerQueue.mem_keys_scheduleAll]
    have hnone : commit.closing = none := by simpa using hclosing
    tauto

/-- For a run that stays open, all that the commit schedules is among its timers. -/
theorem mem_keys_ownTimers_of_open {purpose : TimerPurpose}
    (hown : ∀ timer ∈ commit.timers, timer.run = ref) (hopen : commit.closing = none) :
    (ref, purpose) ∈ (commit.ownTimers ref queue).keys ↔
      ((ref, purpose) ∈ queue.keys ∨ purpose ∈ commit.timers.map Timer.purpose) ∧
        purpose ∉ commit.cancelledTimers := by
  have harmed : (ref, purpose) ∈ commit.timers.map Timer.key ↔
      purpose ∈ commit.timers.map Timer.purpose := by
    simp only [List.mem_map]
    constructor
    · rintro ⟨timer, hmem, hkey⟩
      exact ⟨timer, hmem, congrArg Prod.snd hkey⟩
    · rintro ⟨timer, hmem, rfl⟩
      exact ⟨timer, hmem, by rw [Timer.key, hown timer hmem]⟩
  rw [mem_keys_ownTimers, harmed]
  simp [hopen]

theorem mem_timers_ownTimers (h : timer ∈ (commit.ownTimers ref queue).timers) :
    timer ∈ queue.timers ∨ timer ∈ commit.timers := by
  unfold ownTimers at h
  simp only at h
  split at h
  · rw [TimerQueue.timers_purge] at h
    exact TimerQueue.mem_timers_scheduleAll (TimerQueue.mem_timers_cancelAll (List.mem_of_mem_filter h))
  · exact TimerQueue.mem_timers_scheduleAll (TimerQueue.mem_timers_cancelAll h)

end Commit

theorem Store.revise_timers (store : Store) (ref : RunRef) (commit : Commit) (now : Instant) :
    (store.revise ref commit now).timers = commit.ownTimers ref store.timers := rfl

/-! ## Runs that begin -/

/-- The timer of a new run whose time is limited. -/
def NewRun.timeLimit? (new : NewRun) (now : Instant) : Option Timer :=
  new.options.executionTimeout.map fun span =>
    ⟨new.ref, (now.after new.firstTaskDelay).after span, .runTimeout⟩

theorem NewRun.key_of_timeLimit? {new : NewRun} {now : Instant} {timer : Timer}
    (h : new.timeLimit? now = some timer) : timer.key = (new.ref, .runTimeout) := by
  obtain ⟨span, -, rfl⟩ := Option.map_eq_some_iff.1 h
  rfl

namespace Store

variable {store : Store} {new : NewRun} {now : Instant} {timer : Timer}
  {key : RunRef × TimerPurpose}

theorem startRun_timers_of_unlimited (h : new.timeLimit? now = none) :
    (store.startRun new now).timers = store.timers := by
  have hnone : new.options.executionTimeout = none := Option.map_eq_none_iff.1 h
  rw [startRun_timers, hnone]

theorem startRun_timers_of_limited (h : new.timeLimit? now = some timer) :
    (store.startRun new now).timers = store.timers.schedule timer := by
  obtain ⟨span, hlimit, rfl⟩ := Option.map_eq_some_iff.1 h
  rw [startRun_timers, hlimit]

theorem mem_timers_startRun (h : timer ∈ (store.startRun new now).timers.timers) :
    timer ∈ store.timers.timers ∨ new.timeLimit? now = some timer := by
  cases hlimit : new.timeLimit? now with
  | none => exact .inl (startRun_timers_of_unlimited hlimit ▸ h)
  | some limit =>
      rw [startRun_timers_of_limited hlimit] at h
      exact (TimerQueue.mem_timers_schedule h).imp_right fun hsame => by rw [hsame]

/-- A run that begins has a timer only for its end. -/
theorem mem_keys_startRun : key ∈ (store.startRun new now).timers.keys ↔
    key ∈ store.timers.keys ∨ (key = (new.ref, .runTimeout) ∧ (new.timeLimit? now).isSome = true) := by
  cases hlimit : new.timeLimit? now with
  | none => simp [startRun_timers_of_unlimited hlimit]
  | some limit =>
      rw [startRun_timers_of_limited hlimit, TimerQueue.mem_keys_schedule,
        NewRun.key_of_timeLimit? hlimit]
      simp

theorem wellKept_startRun (wellKept : store.timers.WellKept) (new : NewRun) (now : Instant) :
    (store.startRun new now).timers.WellKept := by
  cases hlimit : new.timeLimit? now with
  | none => exact (startRun_timers_of_unlimited hlimit).symm ▸ wellKept
  | some limit => exact (startRun_timers_of_limited hlimit).symm ▸ wellKept.schedule limit

end Store

end Chronicle
