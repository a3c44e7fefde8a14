import Chronicle.Engine.Program
import Chronicle.Proofs.Store.Timers
import Chronicle.Proofs.Time.Instants

/-!
# The order of due timers

Every live timer has its place in the order, next to places of timers that are gone.  What is taken
out are the first timers of the order that are due; after them nothing is due that comes before.
-/

namespace Chronicle

open Relation (ReflTransGen)

/-! ## Places -/

namespace TimerSlot

variable {first second third : TimerSlot}

theorem notAfter_iff : first.notAfter second = true ↔
    first.fireAt < second.fireAt ∨ first.fireAt = second.fireAt ∧ first.number ≤ second.number := by
  simp [notAfter]

theorem le_of_notAfter (h : first.notAfter second = true) : first.fireAt ≤ second.fireAt := by
  rcases notAfter_iff.1 h with hlt | ⟨heq, -⟩
  · exact Instant.le_of_lt hlt
  · exact heq ▸ Instant.le_refl _

theorem notAfter_trans (h : first.notAfter second = true) (h' : second.notAfter third = true) :
    first.notAfter third = true := by
  rw [notAfter_iff] at h h' ⊢
  rcases h with hlt | ⟨heq, hle⟩
  · refine .inl (Instant.lt_of_lt_of_le hlt ?_)
    rcases h' with hlt' | ⟨heq', -⟩
    · exact Instant.le_of_lt hlt'
    · exact heq' ▸ Instant.le_refl _
  · rcases h' with hlt' | ⟨heq', hle'⟩
    · exact .inl (heq ▸ hlt')
    · exact .inr ⟨heq.trans heq', Nat.le_trans hle hle'⟩

theorem notAfter_total (first second : TimerSlot) :
    first.notAfter second = true ∨ second.notAfter first = true := by
  simp only [notAfter_iff]
  by_cases hlt : first.fireAt < second.fireAt
  · exact .inl (.inl hlt)
  · by_cases hgt : second.fireAt < first.fireAt
    · exact .inr (.inl hgt)
    · have heq := Instant.le_antisymm (Instant.le_of_not_lt hgt) (Instant.le_of_not_lt hlt)
      exact (Nat.le_total first.number second.number).imp (fun h => .inr ⟨heq, h⟩)
        fun h => .inr ⟨heq.symm, h⟩

theorem notAfter_of_le (hfire : first.fireAt ≤ second.fireAt) (hnumber : first.number ≤ second.number) :
    first.notAfter second = true := by
  rw [notAfter_iff]
  by_cases hlt : first.fireAt < second.fireAt
  · exact .inl hlt
  · exact .inr ⟨Instant.le_antisymm hfire (Instant.le_of_not_lt hlt), hnumber⟩

theorem number_eq_of_notAfter (h : first.notAfter second = true)
    (h' : second.notAfter first = true) : first.number = second.number := by
  rw [notAfter_iff] at h h'
  rcases h with hlt | ⟨heq, hle⟩
  · rcases h' with hlt' | ⟨heq', -⟩
    · exact absurd (Instant.le_of_lt hlt') (fun hle => Instant.not_lt_of_le hle hlt)
    · exact absurd hlt (Instant.not_lt_of_le (heq' ▸ Instant.le_refl _))
  · rcases h' with hlt' | ⟨-, hle'⟩
    · exact absurd hlt' (Instant.not_lt_of_le (heq ▸ Instant.le_refl _))
    · exact Nat.le_antisymm hle hle'

end TimerSlot

namespace TimerQueue

/-- The place of a live timer. -/
def slotOf (entry : Nat × Timer) : TimerSlot := ⟨entry.2.fireAt, entry.1⟩

/-- The places are in order, each once, and every live timer has its own. -/
structure Ordered (queue : TimerQueue) : Prop where
  sorted : queue.slots.Pairwise fun first second => first.notAfter second = true
  distinct : (queue.slots.map TimerSlot.number).Nodup
  issued : ∀ slot ∈ queue.slots, slot.number < queue.issued
  placed : ∀ entry ∈ queue.live, slotOf entry ∈ queue.slots

variable {queue : TimerQueue} {now : Instant} {limit : Nat} {slots : List TimerSlot}
  {live : List (Nat × Timer)} {slot : TimerSlot}

theorem Ordered.empty : Ordered .empty :=
  ⟨.nil, List.nodup_nil, by simp [TimerQueue.empty], by simp [TimerQueue.empty]⟩

theorem insertSlot_perm (slot : TimerSlot) (slots : List TimerSlot) :
    (insertSlot slot slots).Perm (slot :: slots) := by
  induction slots with
  | nil => exact .refl _
  | cons other rest ih =>
      unfold insertSlot
      split
      · exact .refl _
      · exact (ih.cons other).trans (.swap slot other rest)

theorem insertSlot_sorted (slot : TimerSlot)
    (hsorted : slots.Pairwise fun first second => first.notAfter second = true) :
    (insertSlot slot slots).Pairwise fun first second => first.notAfter second = true := by
  induction slots with
  | nil => exact List.pairwise_singleton _ _
  | cons other rest ih =>
      rw [List.pairwise_cons] at hsorted
      unfold insertSlot
      split
      case isTrue hbefore =>
        refine .cons ?_ (.cons hsorted.1 hsorted.2)
        rw [List.forall_mem_cons]
        exact ⟨hbefore, fun later hmem => TimerSlot.notAfter_trans hbefore (hsorted.1 later hmem)⟩
      case isFalse hafter =>
        refine .cons (fun later hmem => ?_) (ih hsorted.2)
        rcases List.mem_cons.1 ((insertSlot_perm slot rest).mem_iff.1 hmem) with rfl | hrest
        · exact (TimerSlot.notAfter_total other later).resolve_right hafter
        · exact hsorted.1 later hrest

/-- Timers may go, and places too that no live timer needs. -/
theorem Ordered.of_sublist {after : TimerQueue} (ordered : queue.Ordered)
    (hslots : after.slots.Sublist queue.slots) (hissued : after.issued = queue.issued)
    (hplaced : ∀ entry ∈ after.live, slotOf entry ∈ after.slots) : after.Ordered where
  sorted := ordered.sorted.sublist hslots
  distinct := ordered.distinct.sublist (hslots.map _)
  issued := fun slot hmem => hissued ▸ ordered.issued slot (hslots.subset hmem)
  placed := hplaced

theorem Ordered.cancel (ordered : queue.Ordered) (run : RunRef) (purpose : TimerPurpose) :
    (queue.cancel run purpose).Ordered :=
  ordered.of_sublist (.refl _) rfl fun entry hmem =>
    ordered.placed entry (List.mem_of_mem_filter hmem)

theorem Ordered.purge (ordered : queue.Ordered) (run : RunRef) : (queue.purge run).Ordered :=
  ordered.of_sublist (.refl _) rfl fun entry hmem =>
    ordered.placed entry (List.mem_of_mem_filter hmem)

theorem Ordered.schedule (ordered : queue.Ordered) (timer : Timer) :
    (queue.schedule timer).Ordered := by
  have cancelled := ordered.cancel timer.run timer.purpose
  have hperm : (queue.schedule timer).slots.Perm (⟨timer.fireAt, queue.issued⟩ :: queue.slots) :=
    insertSlot_perm _ _
  constructor
  · exact insertSlot_sorted _ ordered.sorted
  · refine (hperm.map TimerSlot.number).nodup_iff.2 (List.nodup_cons.2 ⟨?_, ordered.distinct⟩)
    intro hmem
    obtain ⟨slot, hslot, hnumber⟩ := List.mem_map.1 hmem
    have hlt := ordered.issued slot hslot
    exact Nat.lt_irrefl _ (hnumber ▸ hlt)
  · intro slot hmem
    rcases List.mem_cons.1 (hperm.mem_iff.1 hmem) with rfl | hold
    · exact Nat.lt_succ_self _
    · exact Nat.lt_succ_of_lt (ordered.issued slot hold)
  · intro entry hmem
    rw [hperm.mem_iff]
    rcases List.mem_append.1 hmem with hold | hnew
    · exact List.mem_cons_of_mem _ (cancelled.placed entry hold)
    · rw [List.mem_singleton.1 hnew]
      exact List.mem_cons_self

/-! ## Taking the due timers -/

theorem lookup_eq_some {number : Nat} {timer : Timer} (hnumbered : (live.map Prod.fst).Nodup) :
    live.lookup number = some timer ↔ (number, timer) ∈ live := by
  induction live with
  | nil => simp
  | cons entry rest ih =>
      obtain ⟨found, other⟩ := entry
      rw [List.map_cons, List.nodup_cons] at hnumbered
      rw [List.lookup_cons, List.mem_cons, Prod.mk.injEq]
      by_cases hnumber : number = found
      · subst hnumber
        have hgone : (number, timer) ∉ rest := fun hmem =>
          hnumbered.1 (List.mem_map.2 ⟨_, hmem, rfl⟩)
        simp [hgone, eq_comm]
      · rw [beq_eq_false_iff_ne.2 hnumber, ih hnumbered.2]
        simp [hnumber]

/-- The entries are the first of the live ones that are due, in their order; the others stay. -/
structure TakesFirst (now : Instant) (limit : Nat) (live taken after : List (Nat × Timer)) :
    Prop where
  mem : ∀ entry ∈ taken, entry ∈ live
  distinct : (taken.map Prod.fst).Nodup
  sorted : taken.Pairwise fun first second => (slotOf first).notAfter (slotOf second) = true
  due : ∀ entry ∈ taken, ¬ now < entry.2.fireAt
  first : ∀ entry ∈ taken, ∀ other ∈ after, (slotOf entry).notAfter (slotOf other) = true
  rest : after = live.filter fun entry => entry.1 ∉ taken.map Prod.fst
  bound : taken.length ≤ limit
  exhausted : taken.length < limit → ∀ entry ∈ after, now < entry.2.fireAt

theorem TakesFirst.nil (h : 0 < limit → ∀ entry ∈ live, now < entry.2.fireAt) :
    TakesFirst now limit live [] live :=
  ⟨by simp, List.nodup_nil, .nil, by simp, by simp, by simp, Nat.zero_le _, h⟩

theorem TakesFirst.cons {entry : Nat × Timer} {taken after : List (Nat × Timer)}
    (takes : TakesFirst now limit (live.filter fun other => other.1 != entry.1) taken after)
    (hmem : entry ∈ live) (hdue : ¬ now < entry.2.fireAt)
    (hfirst : ∀ other ∈ live.filter fun other => other.1 != entry.1,
      (slotOf entry).notAfter (slotOf other) = true) :
    TakesFirst now (limit + 1) live (entry :: taken) after := by
  have hother : ∀ other ∈ taken, other.1 ≠ entry.1 := fun other hother =>
    bne_iff_ne.1 (List.mem_filter.1 (takes.mem other hother)).2
  constructor
  case mem =>
    rw [List.forall_mem_cons]
    exact ⟨hmem, fun other hother => List.mem_of_mem_filter (takes.mem other hother)⟩
  case distinct =>
    refine List.nodup_cons.2 ⟨fun hagain => ?_, takes.distinct⟩
    obtain ⟨other, hmem, hnumber⟩ := List.mem_map.1 hagain
    exact hother other hmem hnumber
  case sorted => exact .cons (fun other hother => hfirst other (takes.mem other hother)) takes.sorted
  case due =>
    rw [List.forall_mem_cons]
    exact ⟨hdue, takes.due⟩
  case first =>
    rw [List.forall_mem_cons]
    refine ⟨fun other hother => hfirst other ?_, takes.first⟩
    rw [takes.rest] at hother
    exact List.mem_of_mem_filter hother
  case rest =>
    rw [takes.rest, List.filter_filter]
    apply List.filter_congr
    intro other _
    rw [Bool.eq_iff_iff]
    simp only [Bool.and_eq_true, bne_iff_ne, decide_eq_true_eq, List.map_cons, List.mem_cons, not_or]
    exact and_comm
  case bound => exact Nat.succ_le_succ takes.bound
  case exhausted =>
    intro hlength
    exact takes.exhausted (Nat.lt_of_succ_lt_succ hlength)

/-- A timer of another number has its place behind the first one. -/
theorem placed_behind {rest : List TimerSlot} {entry : Nat × Timer}
    (hplaced : slotOf entry ∈ slot :: rest) (hne : entry.1 ≠ slot.number) : slotOf entry ∈ rest :=
  (List.mem_cons.1 hplaced).resolve_left fun hslot => hne (congrArg TimerSlot.number hslot)

theorem placed_behind_gone {rest : List TimerSlot} (hgone : live.lookup slot.number = none)
    (hplaced : ∀ entry ∈ live, slotOf entry ∈ slot :: rest) : ∀ entry ∈ live, slotOf entry ∈ rest := by
  intro entry hmem
  refine placed_behind (hplaced entry hmem) fun hnumber => ?_
  have hother := List.lookup_eq_none_iff.1 hgone entry hmem
  rw [hnumber, bne_self_eq_false] at hother
  cases hother

/-- Places that no timer needs come off with the due timers, those of the others stay. -/
theorem take_spec (now : Instant) (limit : Nat)
    (hsorted : slots.Pairwise fun first second => first.notAfter second = true)
    (hdistinct : (slots.map TimerSlot.number).Nodup) (hnumbered : (live.map Prod.fst).Nodup)
    (hplaced : ∀ entry ∈ live, slotOf entry ∈ slots) :
    ∃ taken, (take now limit slots live).1 = taken.map Prod.snd ∧
      TakesFirst now limit live taken (take now limit slots live).2.2 ∧
      (take now limit slots live).2.1.Sublist slots ∧
      ∀ entry ∈ (take now limit slots live).2.2, slotOf entry ∈ (take now limit slots live).2.1 := by
  induction slots generalizing limit live with
  | nil =>
      have hnone : ∀ entry ∈ live, now < entry.2.fireAt := fun entry hmem =>
        absurd (hplaced entry hmem) List.not_mem_nil
      cases limit <;> exact ⟨[], rfl, .nil fun _ => hnone, .refl _, hplaced⟩
  | cons slot rest ih =>
      rw [List.pairwise_cons] at hsorted
      rw [List.map_cons, List.nodup_cons] at hdistinct
      cases limit with
      | zero => exact ⟨[], rfl, .nil fun hpos => absurd hpos (Nat.lt_irrefl 0), .refl _, hplaced⟩
      | succ limit =>
          unfold take
          cases hlookup : live.lookup slot.number with
          | none =>
              -- the timer of this place is gone, so the limit is not touched
              obtain ⟨taken, hdue, takes, hslots, hleft⟩ := ih (limit + 1) hsorted.2 hdistinct.2
                hnumbered (placed_behind_gone hlookup hplaced)
              exact ⟨taken, hdue, takes, hslots.cons _, hleft⟩
          | some timer =>
              have hmem := (lookup_eq_some hnumbered).1 hlookup
              have hslot : slotOf (slot.number, timer) = slot := by
                refine (List.mem_cons.1 (hplaced _ hmem)).resolve_right fun hrest => ?_
                exact hdistinct.1 (List.mem_map.2 ⟨_, hrest, rfl⟩)
              have hbehind : ∀ entry ∈ live.filter fun other => other.1 != slot.number,
                  slotOf entry ∈ rest := by
                intro entry hentry
                obtain ⟨hentry, hne⟩ := List.mem_filter.1 hentry
                exact placed_behind (hplaced entry hentry) (bne_iff_ne.1 hne)
              simp only
              split
              case isTrue hlater =>
                -- all others come after the first one, which is not due yet
                refine ⟨[], rfl, .nil fun _ entry hentry => ?_, .refl _, hplaced⟩
                refine Instant.lt_of_lt_of_le hlater ?_
                rcases List.mem_cons.1 (hplaced entry hentry) with hsame | hrest
                · rw [← hsame]
                  exact Instant.le_refl _
                · exact TimerSlot.le_of_notAfter (hsorted.1 _ hrest)
              case isFalse hdue =>
                obtain ⟨taken, hnext, takes, hslots, hleft⟩ := ih limit hsorted.2 hdistinct.2
                  (hnumbered.sublist (List.filter_sublist.map _)) hbehind
                refine ⟨(slot.number, timer) :: taken, by rw [hnext]; rfl, ?_, hslots.cons _, hleft⟩
                refine takes.cons hmem (hslot ▸ hdue) fun other hother => ?_
                rw [hslot]
                exact hsorted.1 _ (hbehind other hother)

theorem WellKept.popDue_spec (wellKept : queue.WellKept) (ordered : queue.Ordered) (now : Instant)
    (limit : Nat) :
    ∃ taken, (queue.popDue now limit).2 = taken.map Prod.snd ∧
      TakesFirst now limit queue.live taken (queue.popDue now limit).1.live := by
  obtain ⟨taken, hdue, takes, -, -⟩ := take_spec now limit ordered.sorted ordered.distinct
    wellKept.numbered ordered.placed
  exact ⟨taken, hdue, takes⟩

theorem Ordered.popDue (ordered : queue.Ordered) (wellKept : queue.WellKept) (now : Instant)
    (limit : Nat) : (queue.popDue now limit).1.Ordered := by
  obtain ⟨-, -, -, hslots, hplaced⟩ := take_spec now limit ordered.sorted ordered.distinct
    wellKept.numbered ordered.placed
  exact ordered.of_sublist hslots rfl hplaced

/-! ## Looking at the next timer -/

theorem skipGone_spec (hplaced : ∀ entry ∈ live, slotOf entry ∈ slots) :
    (skipGone live slots).Sublist slots ∧ ∀ entry ∈ live, slotOf entry ∈ skipGone live slots := by
  induction slots with
  | nil => exact ⟨.refl _, hplaced⟩
  | cons slot rest ih =>
      unfold skipGone
      split
      case isTrue => exact ⟨.refl _, hplaced⟩
      case isFalse hgone =>
        have hrest := placed_behind_gone (Option.not_isSome_iff_eq_none.1 hgone) hplaced
        exact ⟨(ih hrest).1.cons _, (ih hrest).2⟩

theorem Ordered.nextAt (ordered : queue.Ordered) : queue.nextAt.1.Ordered := by
  obtain ⟨hslots, hplaced⟩ := skipGone_spec ordered.placed
  exact ordered.of_sublist hslots rfl hplaced

/-! ## Steps -/

/-- One thing that a store does to its timers. -/
inductive Step (queue : TimerQueue) : TimerQueue → Prop where
  | scheduled (timer : Timer) : Step queue (queue.schedule timer)
  | cancelled (run : RunRef) (purpose : TimerPurpose) : Step queue (queue.cancel run purpose)
  | purged (run : RunRef) : Step queue (queue.purge run)
  | popped (now : Instant) (limit : Nat) : Step queue (queue.popDue now limit).1
  | peeked : Step queue queue.nextAt.1

/-- What holds of the timers of a store at all times. -/
structure Sound (queue : TimerQueue) : Prop where
  wellKept : queue.WellKept
  ordered : queue.Ordered

theorem Sound.empty : Sound .empty := ⟨.empty, .empty⟩

theorem Sound.step {after : TimerQueue} (sound : queue.Sound) (step : Step queue after) :
    after.Sound := by
  have ⟨wellKept, ordered⟩ := sound
  cases step with
  | scheduled timer => exact ⟨wellKept.schedule timer, ordered.schedule timer⟩
  | cancelled run purpose => exact ⟨wellKept.cancel run purpose, ordered.cancel run purpose⟩
  | purged run => exact ⟨wellKept.of_sublist List.filter_sublist rfl, ordered.purge run⟩
  | popped now limit => exact ⟨wellKept.popDue now limit, ordered.popDue wellKept now limit⟩
  | peeked => exact ⟨wellKept.of_sublist (.refl _) rfl, ordered.nextAt⟩

theorem Sound.steps {after : TimerQueue} (sound : queue.Sound) (steps : ReflTransGen Step queue after) :
    after.Sound := by
  induction steps with
  | refl => exact sound
  | tail _ step ih => exact ih.step step

theorem Step.issued_le {after : TimerQueue} (step : Step queue after) :
    queue.issued ≤ after.issued := by
  cases step with
  | scheduled timer => exact Nat.le_succ _
  | _ => exact Nat.le_refl _

theorem issued_le_of_steps {after : TimerQueue} (steps : ReflTransGen Step queue after) :
    queue.issued ≤ after.issued := by
  induction steps with
  | refl => exact Nat.le_refl _
  | tail _ step ih => exact Nat.le_trans ih step.issued_le

/-- Timers stay what they are, and new ones get numbers of their own. -/
structure Extends (queue after : TimerQueue) : Prop where
  issued : queue.issued ≤ after.issued
  live : ∀ entry ∈ after.live, entry ∈ queue.live ∨ queue.issued ≤ entry.1

theorem Extends.refl (queue : TimerQueue) : Extends queue queue :=
  ⟨Nat.le_refl _, fun _ hmem => .inl hmem⟩

theorem Extends.trans {middle after : TimerQueue} (early : Extends queue middle)
    (late : Extends middle after) : Extends queue after where
  issued := Nat.le_trans early.issued late.issued
  live := by
    intro entry hmem
    rcases late.live entry hmem with hold | hnew
    · exact early.live entry hold
    · exact .inr (Nat.le_trans early.issued hnew)

theorem Sound.extends_step {after : TimerQueue} (sound : queue.Sound) (step : Step queue after) :
    Extends queue after := by
  refine ⟨step.issued_le, fun entry hmem => ?_⟩
  cases step with
  | scheduled timer =>
      rcases List.mem_append.1 hmem with hold | hnew
      · exact .inl (List.mem_of_mem_filter hold)
      · rw [List.mem_singleton.1 hnew]
        exact .inr (Nat.le_refl _)
  | cancelled run purpose => exact .inl (List.mem_of_mem_filter hmem)
  | purged run => exact .inl (List.mem_of_mem_filter hmem)
  | popped now limit =>
      have hkept := (take_perm now limit queue.slots queue.live sound.wellKept.numbered).1
      exact .inl (hkept.subset hmem)
  | peeked => exact .inl hmem

theorem Sound.extends_steps {after : TimerQueue} (sound : queue.Sound)
    (steps : ReflTransGen Step queue after) : Extends queue after := by
  induction steps with
  | refl => exact .refl queue
  | tail steps step ih => exact ih.trans ((sound.steps steps).extends_step step)

/-- A timer that was there once is not there again later if it was gone in between. -/
theorem Sound.mem_of_extends {middle after : TimerQueue} (sound : queue.Sound)
    (early : Extends queue middle) (late : Extends middle after) {entry : Nat × Timer}
    (hold : entry ∈ queue.live) (hlater : entry ∈ after.live) : entry ∈ middle.live := by
  refine (late.live entry hlater).resolve_right fun hnew => ?_
  have hissued := sound.wellKept.issued entry hold
  exact Nat.not_lt.2 (Nat.le_trans early.issued hnew) hissued

/-! ## Entries -/

theorem live_schedule (queue : TimerQueue) (timer : Timer) : (queue.schedule timer).live =
    (queue.live.filter fun entry => entry.2.key != timer.key) ++ [(queue.issued, timer)] := rfl

theorem live_cancel (queue : TimerQueue) (run : RunRef) (purpose : TimerPurpose) :
    (queue.cancel run purpose).live =
      queue.live.filter fun entry => entry.2.key != (run, purpose) := rfl

theorem mem_live_scheduleAll {timers : List Timer} {entry : Nat × Timer} (h : entry ∈ queue.live) :
    entry ∈ (timers.foldl TimerQueue.schedule queue).live ∨
      entry.2.key ∈ timers.map Timer.key := by
  induction timers generalizing queue with
  | nil => exact .inl h
  | cons timer rest ih =>
      rw [List.map_cons, List.mem_cons]
      by_cases hkey : entry.2.key = timer.key
      · exact .inr (.inl hkey)
      · have hkept : entry ∈ (queue.schedule timer).live := by
          rw [live_schedule, List.mem_append, List.mem_filter]
          exact .inl ⟨h, bne_iff_ne.2 hkey⟩
        exact (ih hkept).imp_right .inr

theorem mem_live_cancelAll {run : RunRef} {purposes : List TimerPurpose} {entry : Nat × Timer}
    (h : entry ∈ queue.live) : entry ∈ (queue.cancelAll run purposes).live ∨
      entry.2.run = run ∧ entry.2.purpose ∈ purposes := by
  induction purposes generalizing queue with
  | nil => exact .inl h
  | cons purpose rest ih =>
      rw [List.mem_cons]
      by_cases hkey : entry.2.key = (run, purpose)
      · obtain ⟨hrun, hpurpose⟩ := Prod.mk.inj hkey
        exact .inr ⟨hrun, .inl hpurpose⟩
      · have hkept : entry ∈ (queue.cancel run purpose).live := by
          rw [live_cancel, List.mem_filter]
          exact ⟨h, bne_iff_ne.2 hkey⟩
        exact (@ih (queue.cancel run purpose) hkept).imp_right fun ⟨hrun, hmem⟩ => ⟨hrun, .inr hmem⟩

/-- What is scheduled gets a number that no other timer has had. -/
theorem live_scheduleAll {timers : List Timer} {entry : Nat × Timer}
    (h : entry ∈ (timers.foldl TimerQueue.schedule queue).live) :
    entry ∈ queue.live ∨ queue.issued ≤ entry.1 ∧ entry.2 ∈ timers := by
  induction timers generalizing queue with
  | nil => exact .inl h
  | cons timer rest ih =>
      rcases ih h with hearlier | ⟨hissued, hmem⟩
      · rw [live_schedule, List.mem_append, List.mem_singleton] at hearlier
        rcases hearlier with hold | rfl
        · exact .inl (List.mem_of_mem_filter hold)
        · exact .inr ⟨Nat.le_refl _, List.mem_cons_self⟩
      · exact .inr ⟨Nat.le_trans (Nat.le_succ _) hissued, List.mem_cons_of_mem _ hmem⟩

theorem live_cancelAll {run : RunRef} {purposes : List TimerPurpose} {entry : Nat × Timer}
    (h : entry ∈ (queue.cancelAll run purposes).live) : entry ∈ queue.live := by
  induction purposes generalizing queue with
  | nil => exact h
  | cons purpose rest ih => exact List.mem_of_mem_filter (@ih (queue.cancel run purpose) h)

theorem scheduleAll_steps (timers : List Timer) (queue : TimerQueue) :
    ReflTransGen Step queue (timers.foldl schedule queue) := by
  induction timers generalizing queue with
  | nil => exact .refl
  | cons timer rest ih => exact (ReflTransGen.single (.scheduled timer)).trans (ih _)

theorem cancelAll_steps (run : RunRef) (purposes : List TimerPurpose) (queue : TimerQueue) :
    ReflTransGen Step queue (queue.cancelAll run purposes) := by
  induction purposes generalizing queue with
  | nil => exact .refl
  | cons purpose rest ih => exact (ReflTransGen.single (.cancelled run purpose)).trans (ih _)

end TimerQueue

theorem Commit.ownTimers_steps (commit : Commit) (ref : RunRef) (queue : TimerQueue) :
    ReflTransGen TimerQueue.Step queue (commit.ownTimers ref queue) := by
  have hsteps := (TimerQueue.scheduleAll_steps commit.timers queue).trans
    (TimerQueue.cancelAll_steps ref commit.cancelledTimers _)
  unfold ownTimers
  simp only
  split
  · exact hsteps.tail (.purged _)
  · exact hsteps

namespace Commit

variable {commit : Commit} {ref : RunRef} {queue : TimerQueue} {entry : Nat × Timer}

theorem mem_live_ownTimers (h : entry ∈ queue.live) : entry ∈ (commit.ownTimers ref queue).live ∨
    entry.2.key ∈ commit.timers.map Timer.key ∨
    entry.2.run = ref ∧ (entry.2.purpose ∈ commit.cancelledTimers ∨ commit.closing ≠ none) := by
  rcases @TimerQueue.mem_live_scheduleAll queue commit.timers entry h with hscheduled | hreplaced
  · rcases @TimerQueue.mem_live_cancelAll _ ref commit.cancelledTimers entry hscheduled with
      hkept | ⟨hrun, hcancelled⟩
    · unfold ownTimers
      simp only
      split
      · rename_i hcloses
        by_cases hrun : entry.2.run = ref
        · exact .inr (.inr ⟨hrun, .inr (Option.isSome_iff_ne_none.1 hcloses)⟩)
        · exact .inl (List.mem_filter.2 ⟨hkept, bne_iff_ne.2 hrun⟩)
      · exact .inl hkept
    · exact .inr (.inr ⟨hrun, .inl hcancelled⟩)
  · exact .inr (.inl hreplaced)

theorem live_ownTimers (h : entry ∈ (commit.ownTimers ref queue).live) :
    entry ∈ queue.live ∨ queue.issued ≤ entry.1 ∧ entry.2 ∈ commit.timers := by
  unfold ownTimers at h
  simp only at h
  split at h
  · exact TimerQueue.live_scheduleAll (TimerQueue.live_cancelAll (List.mem_of_mem_filter h))
  · exact TimerQueue.live_scheduleAll (TimerQueue.live_cancelAll h)

end Commit

namespace Store

theorem startRun_timerSteps (store : Store) (new : NewRun) (now : Instant) :
    ReflTransGen TimerQueue.Step store.timers (store.startRun new now).timers := by
  cases hlimit : new.timeLimit? now with
  | none => exact startRun_timers_of_unlimited hlimit ▸ .refl
  | some limit => exact startRun_timers_of_limited hlimit ▸ .single (.scheduled limit)

theorem notify_timers (store : Store) (notification : Notification) (now : Instant) :
    (store.notify notification now).timers = store.timers := by
  rcases store.notify_cases notification now with hsame | ⟨-, -, -, -, htimers, -⟩
  · rw [hsame]
  · exact htimers

/-- A commit without new runs only changes timers of its own. -/
theorem apply_timers {commit : Commit} (hplain : commit.newRuns = []) (store : Store) (ref : RunRef)
    (now : Instant) : (store.apply ref commit now).timers = commit.ownTimers ref store.timers := by
  rw [apply_eq, hplain, List.foldl_nil]
  refine @holds_foldl_notify (·.timers = commit.ownTimers ref store.timers) _ _ _ ?_ rfl
  intro middle notification _ htimers
  rw [notify_timers, htimers]

theorem foldl_timerSteps {α : Type} {act : Store → α → Store}
    (hact : ∀ store item, ReflTransGen TimerQueue.Step store.timers (act store item).timers)
    (items : List α) (store : Store) :
    ReflTransGen TimerQueue.Step store.timers (items.foldl act store).timers := by
  induction items generalizing store with
  | nil => exact .refl
  | cons item rest ih => exact (hact store item).trans (ih _)

theorem apply_timerSteps (store : Store) (ref : RunRef) (commit : Commit) (now : Instant) :
    ReflTransGen TimerQueue.Step store.timers (store.apply ref commit now).timers := by
  rw [apply_eq]
  refine ((commit.ownTimers_steps ref store.timers).trans
    (foldl_timerSteps (fun store new => startRun_timerSteps store new now) commit.newRuns
      (store.revise ref commit now))).trans (foldl_timerSteps (fun store notification => ?_) _ _)
  rw [notify_timers]

end Store

end Chronicle
