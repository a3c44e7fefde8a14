import Chronicle.Proofs.Program.Avoiding
import Chronicle.Proofs.Program.Timeliness
import Chronicle.Proofs.Store.DueTimers

/-!
# Where timers come from

After a request was answered, a timer is live because it was before and the request has spared it, or
because of a commit, because it was put back, or because its run has begun with a time limit.
-/

namespace Chronicle

/-- The commit sets a timer for the purpose, cancels it, or closes the run. -/
def Commit.Touches (commit : Commit) (purpose : TimerPurpose) : Prop :=
  purpose ∈ commit.timers.map Timer.purpose ∨ purpose ∈ commit.cancelledTimers ∨
    commit.closing ≠ none

namespace TimerQueue

variable {queue : TimerQueue} {timers : List Timer} {timer : Timer}

/-- A timer that is not among those that were scheduled has not been replaced either. -/
theorem kept_of_mem_scheduleAll (h : timer ∈ (timers.foldl schedule queue).timers) :
    timer ∈ timers ∨ timer ∈ queue.timers ∧ timer.key ∉ timers.map Timer.key := by
  induction timers generalizing queue with
  | nil => exact .inr ⟨h, List.not_mem_nil⟩
  | cons first rest ih =>
      rcases ih h with hrest | ⟨hearlier, hkept⟩
      · exact .inl (List.mem_cons_of_mem _ hrest)
      · rw [timers_schedule, List.mem_append, List.mem_filter, List.mem_singleton] at hearlier
        rcases hearlier with ⟨hold, hother⟩ | rfl
        · refine .inr ⟨hold, ?_⟩
          rw [List.map_cons, List.mem_cons, not_or]
          exact ⟨bne_iff_ne.1 hother, hkept⟩
        · exact .inl List.mem_cons_self

end TimerQueue

namespace Commit

variable {commit : Commit} {ref : RunRef} {queue : TimerQueue} {timer : Timer}

theorem spared_of_mem_ownTimers (hown : ∀ other ∈ commit.timers, other.run = ref)
    (h : timer ∈ (commit.ownTimers ref queue).timers) :
    timer ∈ commit.timers ∨
      timer ∈ queue.timers ∧ (timer.run = ref → ¬commit.Touches timer.purpose) := by
  have hkey : timer.key ∈ (commit.ownTimers ref queue).keys := List.mem_map_of_mem h
  obtain ⟨-, hleft⟩ := mem_keys_ownTimers.1 hkey
  have hscheduled : timer ∈ (commit.timers.foldl TimerQueue.schedule queue).timers := by
    unfold ownTimers at h
    simp only at h
    split at h
    · rw [TimerQueue.timers_purge] at h
      exact TimerQueue.mem_timers_cancelAll (List.mem_of_mem_filter h)
    · exact TimerQueue.mem_timers_cancelAll h
  refine (TimerQueue.kept_of_mem_scheduleAll hscheduled).imp_right ?_
  rintro ⟨hold, hkept⟩
  refine ⟨hold, fun hrun => ?_⟩
  rintro (hset | hgone)
  · obtain ⟨other, hmem, hpurpose⟩ := List.mem_map.1 hset
    refine hkept (List.mem_map.2 ⟨other, hmem, ?_⟩)
    rw [Timer.key, Timer.key, hown other hmem, hpurpose, hrun]
  · exact hleft ⟨hrun, hgone⟩

end Commit

namespace Store

variable {store : Store} {now : Instant} {timer : Timer}

/-- After a commit, the timers are its own and those of the runs that it begins. -/
theorem mem_timers_apply {ref : RunRef} {commit : Commit}
    (hfresh : ∀ new ∈ commit.newRuns, store.runs.find? new.ref = none)
    (hdistinct : (commit.newRuns.map NewRun.ref).Nodup)
    (h : timer ∈ (store.apply ref commit now).timers.timers) :
    timer ∈ (commit.ownTimers ref store.timers).timers ∨
      ∃ new ∈ commit.newRuns, new.timeLimit? now = some timer := by
  let sourced (after : Store) : Prop := timer ∈ after.timers.timers →
    timer ∈ (commit.ownTimers ref store.timers).timers ∨
      ∃ new ∈ commit.newRuns, new.timeLimit? now = some timer
  suffices hsourced : sourced (store.apply ref commit now) from hsourced h
  apply @apply_induction sourced store ref commit now hfresh hdistinct
  · exact fun hown => .inl hown
  · intro middle new hnew _ holds hlive
    rcases mem_timers_startRun hlive with hold | hlimit
    · exact holds hold
    · exact .inr ⟨new, hnew, hlimit⟩
  · intro middle notification _ holds hlive
    exact holds (notify_timers middle notification now ▸ hlive)

end Store

namespace World

variable {world after : World} {request : Request} {answer : request.Answer} {timer : Timer}

/-- Why a timer is live after a request of the actor was answered. -/
inductive Justifies (world : World) (actor : Nat) (request : Request) (answer : request.Answer)
    (timer : Timer) : Prop where
  | spared (live : timer ∈ world.store.timers.timers)
      (spares : ∀ entry ∈ Scene.entries actor world request answer,
        entry.acceptance.ref = timer.run → ¬entry.acceptance.commit.Touches timer.purpose) :
      Justifies world actor request answer timer
  | set {entry : LogEntry} (accepted : entry ∈ Scene.entries actor world request answer)
      (sets : timer ∈ entry.acceptance.commit.timers) : Justifies world actor request answer timer
  | putBack (same : request = .scheduleTimer timer) : Justifies world actor request answer timer
  | began {now : Instant} {new : NewRun} (shows : world.now = some now)
      (begins : new ∈ request.begun answer) (limits : new.timeLimit? now = some timer) :
      Justifies world actor request answer timer

/-- A timer that was live, where no commit was accepted. -/
theorem Justifies.still {actor : Nat} (live : timer ∈ world.store.timers.timers)
    (quiet : Scene.entries actor world request answer = []) :
    world.Justifies actor request answer timer :=
  .spared live fun _ hmem => absurd (quiet ▸ hmem) List.not_mem_nil

theorem justifies_of_answer (wellKept : world.store.timers.WellKept)
    (fresh : request.BeginsNew world.store answer)
    (hown : ∀ ref expected commit, request = .commit ref expected commit →
      ∀ other ∈ commit.timers, other.run = ref)
    (answered : World.answer request world = (.ok answer, after))
    (h : timer ∈ after.store.timers.timers) (actor : Nat) :
    world.Justifies actor request answer timer := by
  cases request with
  | createRun new =>
      rcases answer_createRun answered with ⟨error, -, hafter⟩ | ⟨hresult, now, hnow, hafter⟩
      · subst hafter
        exact .still h rfl
      · subst hresult hafter
        rcases Store.mem_timers_startRun h with hold | hlimit
        · exact .still hold rfl
        · exact .began hnow List.mem_cons_self hlimit
  | commit ref expected commit =>
      rcases answer_commit answered with
        ⟨error, hresult, hafter⟩ | ⟨version, now, record, hresult, hnow, -, -, -, hafter, -⟩
      · subst hresult hafter
        exact .still h rfl
      · subst hresult hafter
        have hentries := Scene.entries_commit hnow actor ref expected version commit
        rcases Store.mem_timers_apply fresh.1 fresh.2 h with howned | ⟨new, hnew, hlimit⟩
        · rcases Commit.spared_of_mem_ownTimers (hown _ _ _ rfl) howned with hset | ⟨hold, hspared⟩
          · exact .set (hentries ▸ List.mem_cons_self) hset
          · refine .spared hold fun entry hmem => ?_
            rw [hentries, List.mem_singleton] at hmem
            subst hmem
            exact fun href => hspared href.symm
        · exact .began hnow hnew hlimit
  | popDueTimers now limit =>
      simp only [World.answer, timeless_eq_ok, Prod.mk.injEq] at answered
      refine .still ?_ rfl
      rw [← answered.2] at h
      have hleft : timer ∈ (world.store.timers.popDue now limit).1.timers := h
      exact (wellKept.popDue_perm now limit).mem_iff.2 (List.mem_append_right _ hleft)
  | scheduleTimer other =>
      simp only [World.answer, timeless_eq_ok, Prod.mk.injEq] at answered
      rw [← answered.2] at h
      rcases TimerQueue.mem_timers_schedule h with hold | rfl
      · exact .still hold rfl
      · exact .putBack rfl
  | _ =>
      have hlive := (leavesRuns_of_answer rfl answered).live rfl
      rw [TimerQueue.timers, hlive] at h
      exact .still h rfl

end World

end Chronicle
