import Chronicle.Proofs.Engine.Balancing
import Chronicle.Proofs.Program.Company

/-!
# Timers mirror histories

An open run whose history is orderly has just the timers that its history calls for, and a run that
is closed has none.  While timers fire that were taken out together, those still to fire are missing
among the timers, and may have become needless.
-/

namespace Chronicle

open Relation (ReflTransGen)

/-- What a timer that was taken out says of the run: that an attempt has begun, or that nobody has
picked up an open activity. -/
def Overdue (history : List HistoryEvent) : TimerPurpose → Prop
  | .activityPickup activityId => ∀ state,
      (Ledger.ofHistory history).activity? activityId = some state → state.closed = false →
      state.started = false
  | .activityAttempt activityId attempt => PickedUp activityId attempt history
  | .activityHeartbeat activityId attempt => PickedUp activityId attempt history
  | _ => True

/-- A timer that its run still calls for is overdue when it is taken out. -/
theorem Overdue.of_awaits {history : List HistoryEvent} {options : WorkflowOptions}
    {purpose : TimerPurpose} (h : (Ledger.ofHistory history).Awaits options purpose) :
    Overdue history purpose := by
  cases purpose with
  | activityPickup activityId =>
      obtain ⟨state, hstate, -, hwaits, -⟩ := h
      intro known hknown _
      rw [hstate, Option.some.injEq] at hknown
      exact hknown ▸ hwaits
  | activityAttempt activityId attempt =>
      obtain ⟨state, hstate, -, hstarted, rfl⟩ := h
      exact pickedUp_of_started hstate hstarted
  | activityHeartbeat activityId attempt =>
      obtain ⟨state, hstate, -, hstarted, rfl, -⟩ := h
      exact pickedUp_of_started hstate hstarted
  | workflowTimer timerId => trivial
  | runTimeout => trivial

/-- What was overdue stays so unless an attempt starts. -/
theorem Overdue.concat {history : List HistoryEvent} {purpose : TimerPurpose} {event : Event}
    (overdue : Overdue history purpose) (now : Instant) (eventId : Nat)
    (hschedules : ∀ activityId, event.schedules activityId = false)
    (hstarts : ∀ activityId attempt workerId, event ≠ .activityStarted activityId attempt workerId) :
    Overdue (history ++ RunRecord.number now eventId [event]) purpose := by
  have hearly : history <+: history ++ RunRecord.number now eventId [event] :=
    List.prefix_append _ _
  cases purpose with
  | activityPickup activityId =>
      intro later hlater hopen
      rw [Ledger.activity?_number, List.foldl_cons, List.foldl_nil] at hlater
      by_contra hstarted
      rcases ActivityState.started_of_follow hlater (by simpa using hstarted) with
        ⟨workerId, hevent⟩ | ⟨state, hstate, hrunning, -⟩
      · exact hstarts _ _ _ hevent
      · obtain ⟨next, hnext, advances⟩ :=
          @ActivityState.follow_advances activityId state event (hschedules activityId)
        rw [hstate, hnext, Option.some.injEq] at hlater
        subst hlater
        have hwaited : state.closed = false := by
          by_contra hclosed
          rw [advances.closed (by simpa using hclosed)] at hopen
          cases hopen
        rw [overdue state hstate hwaited] at hrunning
        cases hrunning
  | activityAttempt activityId attempt => exact PickedUp.of_prefix overdue hearly
  | activityHeartbeat activityId attempt => exact PickedUp.of_prefix overdue hearly
  | workflowTimer timerId => trivial
  | runTimeout => trivial

/-- The live timers of the run are those that its history calls for, apart from the given ones,
which were taken out to fire. -/
structure Store.Mirrors (store : Store) (ref : RunRef) (due : List Timer) : Prop where
  idle : (∀ record, store.runs.find? ref = some record → record.isClosed = true) →
    ∀ purpose, (ref, purpose) ∉ store.timers.keys
  live : ∀ record, store.runs.find? ref = some record → record.isClosed = false →
    ∀ purpose, OrderlyFor purpose record.events → (ref, purpose) ∉ due.map Timer.key →
      ((ref, purpose) ∈ store.timers.keys ↔
        (Ledger.ofHistory record.events).Awaits record.run.options purpose)
  overdue : ∀ record, store.runs.find? ref = some record → record.isClosed = false →
    ∀ purpose, OrderlyFor purpose record.events → (ref, purpose) ∈ due.map Timer.key →
      (ref, purpose) ∉ store.timers.keys ∧ Overdue record.events purpose
  called : ∀ record, store.runs.find? ref = some record → ∀ timer ∈ store.timers.timers,
    timer.run = ref → timer.IsCalledFor ref (record.events.map HistoryEvent.event)

theorem Timer.IsCalledFor.of_prefix {timer : Timer} {ref : RunRef} {first second : List HistoryEvent}
    (called : timer.IsCalledFor ref (first.map HistoryEvent.event)) (h : first <+: second) :
    timer.IsCalledFor ref (second.map HistoryEvent.event) where
  own := called.own
  recorded := by
    intro timerId hpurpose
    obtain ⟨duration, hmem⟩ := called.recorded timerId hpurpose
    exact ⟨duration, (h.map HistoryEvent.event).subset hmem⟩

theorem TimerQueue.mem_keys_of_mem {queue : TimerQueue} {timer : Timer} {ref : RunRef}
    (h : timer ∈ queue.timers) (hrun : timer.run = ref) : (ref, timer.purpose) ∈ queue.keys :=
  List.mem_map.2 ⟨timer, h, by rw [Timer.key, hrun]⟩

theorem RunRecord.options_revise (record : RunRecord) (commit : Commit) (now : Instant) :
    (record.revise commit now).run.options = record.run.options := by
  have hoptions := congrArg Run.options (revise_origin record commit now)
  exact hoptions

theorem Event.quiet_of_isAnnouncement {event : Event} (h : event.isAnnouncement = true) :
    event.activityId? = none ∧ ∀ timerId, event.timerNews? timerId = none := by
  cases event <;> first | exact ⟨rfl, fun _ => rfl⟩ | cases h

theorem Event.begins_nothing_of_isAnnouncement {event : Event} (h : event.isAnnouncement = true) :
    (∀ activityId, event.schedules activityId = false) ∧
      ∀ activityId attempt workerId, event ≠ .activityStarted activityId attempt workerId := by
  cases event <;> first | cases h; done | exact ⟨fun _ => rfl, by simp⟩

namespace Store.Mirrors

variable {rules : Rules} {store : Store} {ref : RunRef} {due : List Timer}

theorem awaits (mirrors : store.Mirrors ref due) (record : RunRecord)
    (hfind : store.runs.find? ref = some record) (hopen : record.isClosed = false)
    (orderly : Orderly record.events) (purpose : TimerPurpose)
    (hpurpose : (ref, purpose) ∉ due.map Timer.key) :
    (ref, purpose) ∈ store.timers.keys ↔
      (Ledger.ofHistory record.events).Awaits record.run.options purpose :=
  mirrors.live record hfind hopen purpose (orderly.orderlyFor purpose) hpurpose

theorem empty (ref : RunRef) : Store.empty.Mirrors ref [] where
  idle := fun _ _ hmem => nomatch hmem
  live := fun _ hnone => nomatch hnone
  overdue := fun _ hnone => nomatch hnone
  called := fun _ hnone => nomatch hnone

theorem congr {after : Store} (mirrors : store.Mirrors ref due) (hruns : after.runs = store.runs)
    (htimers : after.timers.live = store.timers.live) : after.Mirrors ref due := by
  have hall : after.timers.timers = store.timers.timers := by
    rw [TimerQueue.timers, htimers, TimerQueue.timers]
  have hkeys : after.timers.keys = store.timers.keys := by
    rw [TimerQueue.keys, hall, TimerQueue.keys]
  constructor
  case idle =>
    rw [hruns, hkeys]
    exact mirrors.idle
  case live =>
    rw [hruns, hkeys]
    exact mirrors.live
  case overdue =>
    rw [hruns, hkeys]
    exact mirrors.overdue
  case called =>
    rw [hruns, hall]
    exact mirrors.called

theorem of_other {after : Store} (mirrors : store.Mirrors ref due)
    (hsome : (after.runs.find? ref).isSome = (store.runs.find? ref).isSome)
    (hfind : ∀ record, after.runs.find? ref = some record → ∃ earlier,
      store.runs.find? ref = some earlier ∧ record.events = earlier.events ∧
        record.isClosed = earlier.isClosed ∧ record.run.options = earlier.run.options)
    (hkeys : ∀ purpose, (ref, purpose) ∈ after.timers.keys ↔ (ref, purpose) ∈ store.timers.keys)
    (htimers : ∀ timer ∈ after.timers.timers, timer.run = ref → timer ∈ store.timers.timers) :
    after.Mirrors ref due where
  idle := by
    intro hall purpose
    rw [hkeys]
    apply mirrors.idle
    intro earlier hearlier
    rw [hearlier, Option.isSome_some, Option.isSome_iff_exists] at hsome
    obtain ⟨record, hrecord⟩ := hsome
    obtain ⟨known, hknown, -, hsame, -⟩ := hfind record hrecord
    rw [hearlier, Option.some.injEq] at hknown
    subst hknown
    rw [← hsame]
    exact hall record hrecord
  live := by
    intro record hrecord hopen purpose orderly hpurpose
    obtain ⟨earlier, hearlier, hevents, hsame, hoptions⟩ := hfind record hrecord
    rw [hkeys, hevents, hoptions]
    exact mirrors.live earlier hearlier (hsame ▸ hopen) purpose (hevents ▸ orderly) hpurpose
  overdue := by
    intro record hrecord hopen purpose orderly hpurpose
    obtain ⟨earlier, hearlier, hevents, hsame, -⟩ := hfind record hrecord
    rw [hkeys, hevents]
    exact mirrors.overdue earlier hearlier (hsame ▸ hopen) purpose (hevents ▸ orderly) hpurpose
  called := by
    intro record hrecord timer hmem hrun
    obtain ⟨earlier, hearlier, hevents, -⟩ := hfind record hrecord
    rw [hevents]
    exact mirrors.called earlier hearlier timer (htimers timer hmem hrun) hrun

theorem of_same {after : Store} (mirrors : store.Mirrors ref due)
    (hsame : after.runs.find? ref = store.runs.find? ref)
    (hkeys : ∀ purpose, (ref, purpose) ∈ after.timers.keys ↔ (ref, purpose) ∈ store.timers.keys)
    (htimers : ∀ timer ∈ after.timers.timers, timer.run = ref → timer ∈ store.timers.timers) :
    after.Mirrors ref due :=
  mirrors.of_other (by rw [hsame])
    (fun record hrecord => ⟨record, hsame.symm.trans hrecord, rfl, rfl, rfl⟩) hkeys htimers

/-- Once the record of the run is found, all is about that record. -/
theorem of_found {record : RunRecord} (hfind : store.runs.find? ref = some record)
    (idle : record.isClosed = true → ∀ purpose, (ref, purpose) ∉ store.timers.keys)
    (live : record.isClosed = false → ∀ purpose, OrderlyFor purpose record.events →
      (ref, purpose) ∉ due.map Timer.key →
        ((ref, purpose) ∈ store.timers.keys ↔
          (Ledger.ofHistory record.events).Awaits record.run.options purpose))
    (overdue : record.isClosed = false → ∀ purpose, OrderlyFor purpose record.events →
      (ref, purpose) ∈ due.map Timer.key →
        (ref, purpose) ∉ store.timers.keys ∧ Overdue record.events purpose)
    (called : ∀ timer ∈ store.timers.timers, timer.run = ref →
      timer.IsCalledFor ref (record.events.map HistoryEvent.event)) : store.Mirrors ref due := by
  have hunique : ∀ other, store.runs.find? ref = some other → other = record := by
    intro other hother
    rw [hfind, Option.some.injEq] at hother
    exact hother.symm
  constructor
  case idle => exact fun hall => idle (hall record hfind)
  case live =>
    intro other hother
    rw [hunique other hother]
    exact live
  case overdue =>
    intro other hother
    rw [hunique other hother]
    exact overdue
  case called =>
    intro other hother
    rw [hunique other hother]
    exact called

/-! ## Commits to other runs -/

theorem revise_other (mirrors : store.Mirrors ref due) {target : RunRef} (hother : ref ≠ target)
    {commit : Commit} (hown : ∀ timer ∈ commit.timers, timer.run = target) (now : Instant) :
    (store.revise target commit now).Mirrors ref due := by
  have hnew : ∀ timer ∈ commit.timers, timer.run ≠ ref :=
    fun timer hmem hrun => hother (hrun.symm.trans (hown timer hmem))
  have hsame : (store.revise target commit now).runs.find? ref = store.runs.find? ref := by
    rw [Store.find?_revise, if_neg hother]
  apply mirrors.of_same hsame
  · intro purpose
    rw [Store.revise_timers, Commit.mem_keys_ownTimers]
    have hmiss : (ref, purpose) ∉ commit.timers.map Timer.key := by
      intro hmem
      obtain ⟨timer, htimer, hkey⟩ := List.mem_map.1 hmem
      exact hnew timer htimer (congrArg Prod.fst hkey)
    simp [hmiss, hother]
  · intro timer hmem hrun
    rw [Store.revise_timers] at hmem
    exact (Commit.mem_timers_ownTimers hmem).resolve_right fun hthere => hnew timer hthere hrun

/-- A run that is told something hears of nothing that concerns timers. -/
theorem of_told {after : Store} (mirrors : store.Mirrors ref due) {told : RunRecord} {event : Event}
    {now : Instant} (htold : store.runs.find? ref = some told) (hopen : told.isClosed = false)
    (hfind : after.runs.find? ref = some (told.append [event] now))
    (htimers : after.timers = store.timers) (hannouncement : event.isAnnouncement = true) :
    after.Mirrors ref due := by
  have hearly : told.events <+: (told.append [event] now).events := List.prefix_append _ _
  apply of_found hfind
  case idle => exact fun hclosed => absurd (hopen.symm.trans hclosed) (by simp)
  case live =>
    intro _ purpose orderly hpurpose
    obtain ⟨hactivity, htimer⟩ := Event.quiet_of_isAnnouncement hannouncement
    have hquiet := @Ledger.balances_of_quiet (Ledger.ofHistory told.events) told.run.options purpose
      event hactivity htimer
    have hawaits := mirrors.live told htold hopen purpose (orderly.of_prefix hearly) hpurpose
    rw [htimers, RunRecord.append_events, Ledger.ofHistory_number]
    refine hawaits.trans (Iff.symm (hquiet.trans ?_))
    simp
  case overdue =>
    intro _ purpose orderly hpurpose
    obtain ⟨hmiss, overdue⟩ :=
      mirrors.overdue told htold hopen purpose (orderly.of_prefix hearly) hpurpose
    obtain ⟨hschedules, hstarts⟩ := Event.begins_nothing_of_isAnnouncement hannouncement
    rw [htimers]
    exact ⟨hmiss, overdue.concat now _ hschedules hstarts⟩
  case called =>
    intro timer hmem hrun
    rw [htimers] at hmem
    exact Timer.IsCalledFor.of_prefix (mirrors.called told htold timer hmem hrun) hearly

theorem notify (mirrors : store.Mirrors ref due) {notification : Notification}
    (hannouncement : notification.event.isAnnouncement = true) (now : Instant) :
    (store.notify notification now).Mirrors ref due := by
  rcases store.notify_cases notification now with hsame | ⟨told, htold, hopen, -, htimers, hfinds⟩
  · rw [hsame]
    exact mirrors
  by_cases htarget : ref = notification.target
  · subst htarget
    exact mirrors.of_told htold hopen ((hfinds _).trans (if_pos rfl)) htimers hannouncement
  · apply mirrors.of_same ((hfinds ref).trans (if_neg htarget))
    · rw [htimers]
      exact fun _ => .rfl
    · rw [htimers]
      exact fun _ hmem _ => hmem

/-! ## New runs -/

theorem startRun_own {new : NewRun} (mirrors : store.Mirrors new.ref [])
    (fresh : store.runs.find? new.ref = none) (now : Instant) :
    (store.startRun new now).Mirrors new.ref [] := by
  have hfind : (store.startRun new now).runs.find? new.ref = some (.start new now) := by
    rw [Store.startRun_runs, RunTable.find?_create fresh, if_pos rfl]
  have hnone : ∀ purpose, (new.ref, purpose) ∉ store.timers.keys :=
    mirrors.idle fun record hrecord => by simp [fresh] at hrecord
  apply of_found hfind
  case idle =>
    intro hclosed
    cases hclosed
  case live =>
    intro _ purpose _ _
    rw [Store.mem_keys_startRun]
    cases purpose <;>
      simp [hnone, Ledger.Awaits, RunRecord.start, NewRun.toRun, NewRun.startEvent,
        NewRun.timeLimit?, HistoryEvent.ofEvent, Ledger.ofHistory, Ledger.apply, Event.isClose,
        Ledger.empty, Ledger.isTimerPending, Ledger.activity?]
  case overdue =>
    intro _ purpose _ hpurpose
    cases hpurpose
  case called =>
    intro timer hmem hrun
    rcases Store.mem_timers_startRun hmem with hold | hlimit
    · exact absurd (TimerQueue.mem_keys_of_mem hold hrun) (hnone _)
    · have hpurpose : timer.purpose = .runTimeout :=
        congrArg Prod.snd (NewRun.key_of_timeLimit? hlimit)
      exact ⟨hrun, by simp [hpurpose]⟩

theorem startRun (mirrors : store.Mirrors ref []) {new : NewRun}
    (fresh : store.runs.find? new.ref = none) (now : Instant) :
    (store.startRun new now).Mirrors ref [] := by
  by_cases hself : ref = new.ref
  · subst hself
    exact mirrors.startRun_own fresh now
  apply mirrors.of_other
  · rw [Store.startRun_runs, RunTable.find?_create fresh, if_neg hself,
      RunTable.find?_linked_isSome]
  · intro record hrecord
    rcases Store.find?_startRun fresh hrecord with ⟨hsame, -⟩ | ⟨-, earlier, hearlier, hevents,
      hstatus, horigin⟩
    · exact absurd hsame hself
    · have hoptions := congrArg Run.options horigin
      exact ⟨earlier, hearlier, hevents, by rw [RunRecord.isClosed, hstatus, RunRecord.isClosed],
        hoptions⟩
  · intro purpose
    rw [Store.mem_keys_startRun]
    simp [hself]
  · intro timer hmem hrun
    refine (Store.mem_timers_startRun hmem).resolve_right fun hlimit => hself ?_
    exact hrun.symm.trans (congrArg Prod.fst (NewRun.key_of_timeLimit? hlimit))

/-! ## Commits to the run itself -/

/-- A commit keeps the timers in balance, apart from those that were taken out.  Those are not
scheduled by the commit, and each is still to fire or called for no longer. -/
theorem revise_own {left : List Timer} (mirrors : store.Mirrors ref due) {record : RunRecord}
    {commit : Commit} (now : Instant) (hfind : store.runs.find? ref = some record)
    (hopen : record.isClosed = false) (tidy : commit.Tidy)
    (hcalled : ∀ timer ∈ commit.timers, timer.IsCalledFor ref commit.events)
    (balances : commit.closing = none → ∀ purpose,
      OrderlyFor purpose (record.revise commit now).events → (ref, purpose) ∉ due.map Timer.key →
        (Ledger.ofHistory record.events).Balances record.run.options commit.events commit.timers
          commit.cancelledTimers purpose)
    (spent : commit.closing = none → ∀ purpose,
      OrderlyFor purpose (record.revise commit now).events → (ref, purpose) ∈ due.map Timer.key →
      Overdue record.events purpose →
        purpose ∉ commit.timers.map Timer.purpose ∧
        ((ref, purpose) ∈ left.map Timer.key → Overdue (record.revise commit now).events purpose) ∧
        ((ref, purpose) ∉ left.map Timer.key →
          ¬ (commit.events.foldl Ledger.apply (Ledger.ofHistory record.events)).Awaits
            record.run.options purpose))
    (hleft : ∀ purpose, (ref, purpose) ∈ left.map Timer.key → (ref, purpose) ∈ due.map Timer.key) :
    (store.revise ref commit now).Mirrors ref left := by
  have hlater : (store.revise ref commit now).runs.find? ref = some (record.revise commit now) := by
    rw [Store.find?_revise, if_pos rfl, hfind, Option.map_some]
  have hearly : record.events <+: (record.revise commit now).events := by
    rw [RunRecord.revise_events]
    exact List.prefix_append _ _
  have hclosing : (record.revise commit now).isClosed = false → commit.closing = none := by
    intro hstill
    by_contra hcloses
    rw [RunRecord.isClosed_revise tidy hcloses now] at hstill
    cases hstill
  have hown : ∀ timer ∈ commit.timers, timer.run = ref := fun timer hmem => (hcalled timer hmem).own
  apply of_found hlater
  case idle =>
    intro hclosed purpose hmem
    have hcloses : commit.closing ≠ none := by
      intro hnone
      rw [RunRecord.revise, hnone] at hclosed
      exact absurd (hclosed.symm.trans hopen) (by simp)
    rw [Store.revise_timers, Commit.mem_keys_ownTimers] at hmem
    exact hmem.2 ⟨rfl, .inr hcloses⟩
  case live =>
    intro hstill purpose orderly hpurpose
    have hnone := hclosing hstill
    rw [Store.revise_timers, Commit.mem_keys_ownTimers_of_open hown hnone, RunRecord.revise_events,
      Ledger.ofHistory_number, RunRecord.options_revise]
    by_cases hdue : (ref, purpose) ∈ due.map Timer.key
    · -- it was taken out, and is not among those that are still to fire
      obtain ⟨hmiss, overdue⟩ :=
        mirrors.overdue record hfind hopen purpose (orderly.of_prefix hearly) hdue
      obtain ⟨hunscheduled, -, hnot⟩ := spent hnone purpose orderly hdue overdue
      simp only [hmiss, hunscheduled, or_self, false_and, false_iff]
      exact hnot hpurpose
    · rw [mirrors.live record hfind hopen purpose (orderly.of_prefix hearly) hdue]
      exact (balances hnone purpose orderly hdue).symm
  case overdue =>
    intro hstill purpose orderly hpurpose
    have hnone := hclosing hstill
    have hdue := hleft purpose hpurpose
    obtain ⟨hmiss, overdue⟩ :=
      mirrors.overdue record hfind hopen purpose (orderly.of_prefix hearly) hdue
    obtain ⟨hunscheduled, hstays, -⟩ := spent hnone purpose orderly hdue overdue
    rw [Store.revise_timers, Commit.mem_keys_ownTimers_of_open hown hnone]
    refine ⟨?_, hstays hpurpose⟩
    rintro ⟨hthere | hnew, -⟩
    · exact hmiss hthere
    · exact hunscheduled hnew
  case called =>
    intro timer hmem hrun
    rw [Store.revise_timers] at hmem
    rcases Commit.mem_timers_ownTimers hmem with hold | hnew
    · exact Timer.IsCalledFor.of_prefix (mirrors.called record hfind timer hold hrun) hearly
    · refine ⟨hrun, fun timerId hpurpose => ?_⟩
      obtain ⟨duration, hrecorded⟩ := (hcalled timer hnew).recorded timerId hpurpose
      rw [RunRecord.revise_events, List.map_append, RunRecord.map_event_number]
      exact ⟨duration, List.mem_append_right _ hrecorded⟩

/-! ## Timers that are taken out -/

theorem popDue (mirrors : store.Mirrors ref []) (wellKept : store.timers.WellKept) (now : Instant)
    (limit : Nat) :
    (store.popDueTimers now limit).1.Mirrors ref (store.popDueTimers now limit).2 := by
  have hkeys : ∀ purpose, (ref, purpose) ∈ (store.popDueTimers now limit).1.timers.keys ↔
      (ref, purpose) ∈ store.timers.keys ∧
        (ref, purpose) ∉ (store.popDueTimers now limit).2.map Timer.key :=
    fun _ => wellKept.mem_keys_popDue now limit
  have hperm := wellKept.popDue_perm now limit
  constructor
  case idle =>
    intro hall purpose hmem
    exact mirrors.idle hall purpose ((hkeys purpose).1 hmem).1
  case live =>
    intro record hrecord hopen purpose orderly hpurpose
    rw [hkeys, and_iff_left hpurpose]
    exact mirrors.live record hrecord hopen purpose orderly (List.not_mem_nil)
  case overdue =>
    intro record hrecord hopen purpose orderly hpurpose
    refine ⟨fun hmem => ((hkeys purpose).1 hmem).2 hpurpose, ?_⟩
    have hlive : (ref, purpose) ∈ store.timers.keys :=
      (hperm.map Timer.key).mem_iff.2 (List.map_append ▸ List.mem_append_left _ hpurpose)
    exact .of_awaits ((mirrors.live record hrecord hopen purpose orderly List.not_mem_nil).1 hlive)
  case called =>
    intro record hrecord timer hmem hrun
    exact mirrors.called record hrecord timer (hperm.mem_iff.2 (List.mem_append_right _ hmem)) hrun

theorem drop {timer : Timer} {rest : List Timer} (mirrors : store.Mirrors ref (timer :: rest))
    (hgone : timer.run = ref → ∀ record, store.runs.find? ref = some record →
      record.isClosed = false →
        ¬ (Ledger.ofHistory record.events).Awaits record.run.options timer.purpose) :
    store.Mirrors ref rest where
  idle := mirrors.idle
  live := by
    intro record hrecord hopen purpose orderly hpurpose
    by_cases hself : (ref, purpose) = timer.key
    · have hdue : (ref, purpose) ∈ (timer :: rest).map Timer.key := by simp [hself]
      obtain ⟨hmiss, -⟩ := mirrors.overdue record hrecord hopen purpose orderly hdue
      have hrun : timer.run = ref := (congrArg Prod.fst hself).symm
      have hsame : purpose = timer.purpose := congrArg Prod.snd hself
      rw [hsame] at hmiss ⊢
      exact iff_of_false hmiss (hgone hrun record hrecord hopen)
    · exact mirrors.live record hrecord hopen purpose orderly (by simp [hself, hpurpose])
  overdue := by
    intro record hrecord hopen purpose orderly hpurpose
    exact mirrors.overdue record hrecord hopen purpose orderly (List.mem_cons_of_mem _ hpurpose)
  called := mirrors.called

end Store.Mirrors

/-! ## Moves -/

/-- Anybody may decide, and histories recount what happened. -/
def Rules.recounting : Rules where
  decides _ := True
  settled _ _ := True
  keeps record := Recounts record.events

theorem Rules.recounting_lawful : Rules.recounting.Lawful where
  starts := fun _ _ => Recounts.nil.concat (.of_none fun _ => rfl)
  steps := fun _ _ step recounts => step.recounts recounts
  idle := fun _ _ _ _ _ _ _ => trivial
  decided := fun _ _ _ _ _ _ _ _ _ _ => trivial
  progress := fun _ _ _ _ _ => trivial

theorem Move.timers_wellKept {rules : Rules} {fires : Prop} {before after : Store}
    (move : Move rules fires before after) (wellKept : before.timers.WellKept) :
    after.timers.WellKept := by
  cases move with
  | still runs tasks timers issued => exact wellKept.of_sublist (timers ▸ .refl _) issued
  | created now fresh => exact Store.wellKept_startRun wellKept _ now
  | committed now found isOpen origin writes begins =>
      refine @Store.apply_induction (·.timers.WellKept) _ _ _ _ begins.1 begins.2 ?_ ?_ ?_
      · exact Commit.wellKept_ownTimers wellKept _ _
      · exact fun middle new _ _ kept => Store.wellKept_startRun kept new now
      · intro middle notification _ kept
        rcases middle.notify_cases notification now with hsame | ⟨told, -, -, -, htimers, -⟩
        · rw [hsame]
          exact kept
        · rw [htimers]
          exact kept
  | claimed h => exact wellKept
  | extended h => exact wellKept
  | failed h => exact wellKept
  | completed h done => exact wellKept
  | popped now limit allowed => exact wellKept.popDue now limit
  | rescheduled timer allowed => exact wellKept.schedule timer

theorem Leads.timers_wellKept {rules : Rules} {before after : Store} (leads : Leads rules before after)
    (wellKept : before.timers.WellKept) : after.timers.WellKept := by
  induction leads with
  | refl => exact wellKept
  | tail _ move ih => exact move.timers_wellKept ih

theorem Store.Mirrors.move {before after : Store} {ref : RunRef} (mirrors : before.Mirrors ref [])
    (sane : Sane .recounting before) (move : Move .recounting False before after) :
    after.Mirrors ref [] := by
  cases move with
  | still runs tasks timers issued => exact mirrors.congr runs timers
  | created now fresh => exact mirrors.startRun fresh now
  | @committed target record run commit now found isOpen origin writes begins =>
      have href : run.ref = target :=
        (Run.ref_eq_of_origin origin).trans (RunTable.ref_of_find? found)
      refine @Store.apply_induction (·.Mirrors ref []) _ _ _ _ begins.1 begins.2 ?_ ?_ ?_
      · by_cases htarget : ref = target
        · subst htarget
          refine mirrors.revise_own now found isOpen writes.tidy ?_ ?_ ?_ fun _ hnone => nomatch hnone
          · exact fun timer hmem => href ▸ writes.isCalledFor hmem
          · intro hclosing purpose orderly _
            rw [RunRecord.revise_events] at orderly
            exact writes.balances hclosing (sane.keeps ref record found) orderly _
          · exact fun _ _ _ hnone => nomatch hnone
        · exact mirrors.revise_other htarget
            (fun timer hmem => (writes.isCalledFor hmem).own.trans href) now
      · exact fun middle new _ fresh held => held.startRun fresh now
      · intro middle notification hmem held
        exact held.notify (writes.tidy.announced notification hmem) now
  | claimed h => exact mirrors.congr rfl rfl
  | extended h => exact mirrors.congr rfl rfl
  | failed h => exact mirrors.congr rfl rfl
  | completed h done => exact mirrors.congr rfl rfl
  | popped now limit allowed => exact allowed.elim
  | rescheduled timer allowed => exact allowed.elim

/-- All runs have the timers that they should have, but for those that were taken out. -/
structure Store.KeepsTime (store : Store) (due : List Timer) : Prop where
  sane : Sane .recounting store
  timers : store.timers.WellKept
  mirrors : ∀ ref, store.Mirrors ref due

namespace Store.KeepsTime

theorem empty : Store.empty.KeepsTime [] := ⟨.empty _, .empty, .empty⟩

theorem move {before after : Store} (keeps : before.KeepsTime [])
    (move : Move .recounting False before after) : after.KeepsTime [] where
  sane := keeps.sane.move Rules.recounting_lawful move
  timers := move.timers_wellKept keeps.timers
  mirrors := fun ref => (keeps.mirrors ref).move keeps.sane move

theorem moves {before after : Store} (keeps : before.KeepsTime [])
    (moves : ReflTransGen (Move .recounting False) before after) : after.KeepsTime [] := by
  induction moves with
  | refl => exact keeps
  | tail _ move ih => exact ih.move move

theorem popDue {store : Store} (keeps : store.KeepsTime []) (now : Instant) (limit : Nat) :
    (store.popDueTimers now limit).1.KeepsTime (store.popDueTimers now limit).2 where
  sane := by
    have popped : Move .recounting True store (store.popDueTimers now limit).1 :=
      .popped now limit trivial
    exact keeps.sane.move Rules.recounting_lawful popped
  timers := keeps.timers.popDue now limit
  mirrors := fun ref => (keeps.mirrors ref).popDue keeps.timers now limit

end Store.KeepsTime

end Chronicle
