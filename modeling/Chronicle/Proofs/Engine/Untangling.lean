import Chronicle.Proofs.Engine.FiredTimers

/-!
# Timers that get into each other's way

The deadline of an attempt can begin another wait for a worker, and the timer for that wait replaces
one that is still there.  Timers are untangled if no deadline that is due does so to a timer that is
due as well.  Then a timer that is gone because another one has fired is spent: it would do nothing
any more.
-/

namespace Chronicle

open AttemptOutcome (attemptTimers mem_attemptTimers)

/-- The run has a timer for the purpose, and it is due. -/
def TimerQueue.IsDue (queue : TimerQueue) (now : Instant) (run : RunRef) (purpose : TimerPurpose) :
    Prop :=
  ∃ timer ∈ queue.timers, timer.key = (run, purpose) ∧ ¬ now < timer.fireAt

/-- The deadlines that are due for an open activity are not those of attempts to come.  While a
worker is awaited that is late, they are those of earlier attempts. -/
def Store.Untangled (store : Store) (now : Instant) : Prop :=
  ∀ ref record, store.runs.find? ref = some record → record.isClosed = false →
    ∀ activityId state, (Ledger.ofHistory record.events).activity? activityId = some state →
      state.closed = false →
      ∀ attempt, ∀ purpose ∈ attemptTimers activityId attempt, store.timers.IsDue now ref purpose →
        attempt ≤ state.attempt ∧
          (store.timers.IsDue now ref (.activityPickup activityId) → attempt < state.attempt)

/-- The timer would do nothing any more: its run is closed, or its attempt is over. -/
def Timer.IsSpent (timer : Timer) (runs : RunTable) : Prop :=
  ∃ record, runs.find? timer.run = some record ∧ (record.isClosed = true ∨
    ∃ activityId attempt state, timer.purpose ∈ attemptTimers activityId attempt ∧
      (Ledger.ofHistory record.events).activity? activityId = some state ∧
      (state.closed = true ∨ attempt < state.attempt))

variable {store : Store} {timer : Timer} {now : Instant} {runs : RunTable} {commit : Commit}

theorem Timer.IsSpent.effect? (spent : timer.IsSpent runs) : timer.effect? runs now = none := by
  obtain ⟨record, hfind, hclosed | ⟨activityId, attempt, state, hpurpose, hstate, hover⟩⟩ := spent
  · simp [Timer.effect?, hfind, hclosed]
  · have hover : (Ledger.ofHistory record.events).isAttemptOpen activityId attempt = false := by
      rw [← Bool.not_eq_true, Ledger.isAttemptOpen_iff]
      rintro ⟨known, hknown, hopen, hattempt⟩
      rw [hstate, Option.some.injEq] at hknown
      subst hknown
      rcases hover with hclosed | hlater
      · rw [hopen] at hclosed
        cases hclosed
      · omega
    have hkeep : timer.purpose.reviser record.run (.ofHistory record.events) = .keep () := by
      rcases mem_attemptTimers.1 hpurpose with hsame | hsame <;>
        simp [hsame, TimerPurpose.reviser, AttemptOutcome.reviser, hstate, hover]
    unfold Timer.effect?
    rw [hfind]
    simp [hkeep, Revision.commitAt?]

/-! ## Runs when a timer fires -/

theorem Timer.effect?_affects (heffect : timer.effect? store.runs now = some commit)
    (target : RunRef) :
    Option.Rel (RunRecord.Affected timer.run commit target) (store.runs.find? target)
      ((store.fire now timer).runs.find? target) := by
  obtain ⟨record, hfind, hopen, hwrites⟩ := Timer.effect?_eq_some.1 heffect
  have update := TimerPurpose.update_of_writes (Revision.writes_of_commitAt? hwrites)
  unfold Store.fire
  rw [heffect]
  exact Store.apply_affects hfind hopen update now target

theorem Timer.effect?_schedules_nothing (heffect : timer.effect? store.runs now = some commit)
    (activityId : String) : ∀ event ∈ commit.events, event.schedules activityId = false := by
  obtain ⟨record, -, -, hwrites⟩ := Timer.effect?_eq_some.1 heffect
  exact (TimerPurpose.update_of_writes (Revision.writes_of_commitAt? hwrites)).schedules_nothing
    activityId

/-- An activity that is known was known before, and it has only advanced. -/
theorem RunRecord.Affected.advances {ref target : RunRef} {earlier later : RunRecord}
    (affected : Affected ref commit target earlier later)
    (hquiet : ∀ activityId, ∀ event ∈ commit.events, event.schedules activityId = false)
    {activityId : String} {after : ActivityState}
    (hafter : (Ledger.ofHistory later.events).activity? activityId = some after) :
    ∃ before, (Ledger.ofHistory earlier.events).activity? activityId = some before ∧
      before.Advances after := by
  have hevents : ∀ event ∈ if target = ref then commit.events else [],
      event.schedules activityId = false := by
    split
    · exact hquiet activityId
    · exact fun event hmem => nomatch hmem
  rw [affected.activity] at hafter
  cases hbefore : (Ledger.ofHistory earlier.events).activity? activityId with
  | none =>
      rw [hbefore, Ledger.activity?_foldl_none hevents] at hafter
      cases hafter
  | some before =>
      obtain ⟨known, hknown, advances⟩ := @Ledger.activity?_foldl_advances activityId _ before hevents
      rw [hbefore, hknown, Option.some.injEq] at hafter
      exact ⟨before, rfl, hafter ▸ advances⟩

theorem RunRecord.Affected.known {ref target : RunRef} {earlier later : RunRecord}
    (affected : Affected ref commit target earlier later)
    (hquiet : ∀ activityId, ∀ event ∈ commit.events, event.schedules activityId = false)
    {activityId : String} {before : ActivityState}
    (hbefore : (Ledger.ofHistory earlier.events).activity? activityId = some before) :
    ∃ after, (Ledger.ofHistory later.events).activity? activityId = some after ∧
      before.Advances after := by
  rw [affected.activity, hbefore]
  apply Ledger.activity?_foldl_advances
  split
  · exact hquiet activityId
  · exact fun event hmem => nomatch hmem

/-- What is spent stays spent. -/
theorem Timer.IsSpent.fire {other : Timer} (spent : timer.IsSpent store.runs) :
    timer.IsSpent (store.fire now other).runs := by
  cases heffect : other.effect? store.runs now with
  | none =>
      unfold Store.fire
      rw [heffect]
      exact spent
  | some commit =>
      obtain ⟨record, hfind, hspent⟩ := spent
      have hrel := Timer.effect?_affects heffect timer.run
      rw [hfind] at hrel
      generalize hlater : (store.fire now other).runs.find? timer.run = found at hrel
      cases hrel with
      | @some _ later affected =>
          refine ⟨later, hlater, ?_⟩
          rcases hspent with hclosed | ⟨activityId, attempt, state, hpurpose, hstate, hover⟩
          · exact .inl (affected.closed hclosed)
          · obtain ⟨after, hafter, advances⟩ :=
              affected.known (Timer.effect?_schedules_nothing heffect) hstate
            refine .inr ⟨activityId, attempt, after, hpurpose, hafter, ?_⟩
            exact hover.imp advances.closed fun hlt => Nat.lt_of_lt_of_le hlt advances.attempt

/-! ## Timers when a timer fires -/

theorem TimerQueue.IsDue.of_timers {queue full : TimerQueue} {run : RunRef} {purpose : TimerPurpose}
    (due : queue.IsDue now run purpose) (h : ∀ timer ∈ queue.timers, timer ∈ full.timers) :
    full.IsDue now run purpose := by
  obtain ⟨timer, hmem, hkey, hdue⟩ := due
  exact ⟨timer, h timer hmem, hkey, hdue⟩

theorem Store.Untangled.of_timers {after : Store} (untangled : store.Untangled now)
    (hruns : after.runs = store.runs) (h : ∀ timer ∈ after.timers.timers, timer ∈ store.timers.timers) :
    after.Untangled now := by
  intro ref record hfind hopen activityId state hstate hactive attempt purpose hpurpose hdue
  obtain ⟨hle, hlt⟩ := untangled ref record (hruns ▸ hfind) hopen activityId state hstate hactive
    attempt purpose hpurpose (hdue.of_timers h)
  exact ⟨hle, fun hpickup => hlt (hpickup.of_timers h)⟩

/-- What is due was due before, or the timer that fires has scheduled it. -/
theorem TimerQueue.IsDue.of_fire (heffect : timer.effect? store.runs now = some commit)
    {run : RunRef} {purpose : TimerPurpose}
    (due : (store.fire now timer).timers.IsDue now run purpose) :
    store.timers.IsDue now run purpose ∨ ∃ other ∈ commit.timers, other.key = (run, purpose) := by
  obtain ⟨other, hmem, hkey, hdue⟩ := due
  rcases store.fire_timers now timer with ⟨-, hnone⟩ | ⟨written, hwritten, htimers⟩
  · rw [hnone] at heffect
    cases heffect
  · rw [heffect, Option.some.injEq] at hwritten
    rw [htimers, ← hwritten] at hmem
    exact (Commit.mem_timers_ownTimers hmem).imp (⟨other, ·, hkey, hdue⟩) (⟨other, ·, hkey⟩)

/-- A timer that schedules another one is the deadline of an attempt, and what it schedules is the
deadline for picking up the next. -/
theorem Timer.meetsDeadline_of_effect? (heffect : timer.effect? store.runs now = some commit)
    {other : Timer} (hmem : other ∈ commit.timers) :
    ∃ record activityId attempt, store.runs.find? timer.run = some record ∧
      timer.purpose ∈ attemptTimers activityId attempt ∧
      commit.MeetsDeadline timer.run record.events activityId attempt ∧
      other.key = (timer.run, .activityPickup activityId) := by
  obtain ⟨record, hfind, -, hwrites⟩ := Timer.effect?_eq_some.1 heffect
  rcases TimerPurpose.timers_of_writes (Revision.writes_of_commitAt? hwrites) with
    ⟨hnone, -⟩ | ⟨activityId, attempt, hpurpose, meets⟩
  · rw [hnone] at hmem
    cases hmem
  · rw [RunTable.ref_of_find? hfind] at meets
    exact ⟨record, activityId, attempt, hfind, hpurpose, meets, meets.schedules other hmem⟩

/-- Timers that fire leave timers untangled. -/
theorem Store.Untangled.fire (untangled : store.Untangled now) (timer : Timer) :
    (store.fire now timer).Untangled now := by
  cases heffect : timer.effect? store.runs now with
  | none =>
      unfold Store.fire
      rw [heffect]
      exact untangled
  | some commit =>
      intro ref later hlater hopen activityId after hafter hactive attempt purpose hpurpose hdeadline
      have hrel := Timer.effect?_affects heffect ref
      rw [hlater] at hrel
      generalize hearlier : store.runs.find? ref = found at hrel
      cases hrel with
      | @some earlier _ affected =>
          have hstill : earlier.isClosed = false :=
            Bool.eq_false_iff.2 fun hclosed => Bool.eq_false_iff.1 hopen (affected.closed hclosed)
          obtain ⟨before, hbefore, advances⟩ :=
            affected.advances (Timer.effect?_schedules_nothing heffect) hafter
          have hwaiting : before.closed = false :=
            Bool.eq_false_iff.2 fun hclosed => Bool.eq_false_iff.1 hactive (advances.closed hclosed)
          -- a deadline is not what a firing timer schedules
          have hold : store.timers.IsDue now ref purpose := by
            refine (hdeadline.of_fire heffect).resolve_right ?_
            rintro ⟨other, hmem, hkey⟩
            obtain ⟨-, scheduled, -, -, -, -, hpickup⟩ := Timer.meetsDeadline_of_effect? heffect hmem
            rw [hkey] at hpickup
            have hpickup := congrArg Prod.snd hpickup
            rcases mem_attemptTimers.1 hpurpose with rfl | rfl <;> cases hpickup
          obtain ⟨hle, hlt⟩ := untangled ref earlier hearlier hstill activityId before hbefore
            hwaiting attempt purpose hpurpose hold
          refine ⟨Nat.le_trans hle advances.attempt, fun hpickup => ?_⟩
          rcases hpickup.of_fire heffect with hthere | ⟨other, hmem, hkey⟩
          · exact Nat.lt_of_lt_of_le (hlt hthere) advances.attempt
          · -- another attempt begins, and the deadline is none of its own
            obtain ⟨own, scheduled, began, hown, -, meets, hnew⟩ :=
              Timer.meetsDeadline_of_effect? heffect hmem
            rw [hkey] at hnew
            obtain ⟨rfl, hsame⟩ := Prod.mk.inj hnew
            cases hsame
            rw [hown, Option.some.injEq] at hearlier
            subst hearlier
            obtain ⟨state, next, attempted, hnext, -, hlonger⟩ := meets.ends
            have hcurrent := attempted.current
            have hstate := attempted.eq_of_known hbefore
            rw [affected.activity, hbefore, if_pos rfl, ← hstate, hnext, Option.some.injEq] at hafter
            have hless := hlonger fun hnone => by rw [hnone] at hmem; cases hmem
            rw [hafter] at hless
            rw [← hstate] at hle
            omega

/-- The deadline of an attempt does not meet another timer that it would replace. -/
def Store.Unhindered (store : Store) (now : Instant) (timer : Timer) : Prop :=
  ∀ record, store.runs.find? timer.run = some record → record.isClosed = false →
    ∀ activityId attempt state, timer.purpose ∈ attemptTimers activityId attempt →
      AtAttempt record.events activityId attempt state →
      ¬ store.timers.IsDue now timer.run (.activityPickup activityId)

/-- A timer that was due is there still, or it is spent. -/
theorem Store.Unhindered.fire (unhindered : store.Unhindered now timer) {entry : Nat × Timer}
    (hmem : entry ∈ store.timers.live) (hdue : ¬ now < entry.2.fireAt) :
    entry ∈ (store.fire now timer).timers.live ∨ entry.2.IsSpent (store.fire now timer).runs := by
  rcases store.fire_timers now timer with ⟨hsame, -⟩ | ⟨commit, heffect, htimers⟩
  · rw [hsame]
    exact .inl hmem
  · obtain ⟨own, hown, hopen, hwrites⟩ := Timer.effect?_eq_some.1 heffect
    rw [htimers]
    refine (Commit.mem_live_ownTimers hmem).imp_right fun hgone => ?_
    have hrel := Timer.effect?_affects heffect timer.run
    rw [hown] at hrel
    generalize hlater : (store.fire now timer).runs.find? timer.run = found at hrel
    cases hrel with
    | @some _ later affected =>
        rcases hgone with hreplaced | ⟨hrun, hcancelled | hclosing⟩
        · obtain ⟨other, hother, hkey⟩ := List.mem_map.1 hreplaced
          obtain ⟨record, activityId, attempt, hfind, hpurpose, meets, hnew⟩ :=
            Timer.meetsDeadline_of_effect? heffect hother
          rw [hown, Option.some.injEq] at hfind
          obtain ⟨state, -, attempted, -⟩ := meets.ends
          exact absurd ⟨entry.2, List.mem_map_of_mem hmem, hkey.symm.trans hnew, hdue⟩
            (unhindered own hown hopen activityId attempt state hpurpose (hfind ▸ attempted))
        · rcases TimerPurpose.timers_of_writes (Revision.writes_of_commitAt? hwrites) with
            ⟨-, hnone⟩ | ⟨activityId, attempt, -, meets⟩
          · rw [hnone] at hcancelled
            cases hcancelled
          · rw [meets.cancels] at hcancelled
            obtain ⟨state, next, attempted, hnext, hover, -⟩ := meets.ends
            refine ⟨later, hrun ▸ hlater, .inr ⟨activityId, attempt, next, hcancelled, ?_, hover⟩⟩
            rw [affected.activity, if_pos rfl, attempted.known, hnext]
        · exact ⟨later, hrun ▸ hlater, .inl (affected.closes rfl hclosing)⟩

end Chronicle
