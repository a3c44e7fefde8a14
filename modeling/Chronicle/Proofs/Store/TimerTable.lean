import Mathlib.Data.List.Sort
import Chronicle.Proofs.Store.DueTimers

/-!
# The timer queue as a sorted table

A plain table of timers has one row for each live timer and no places of timers that are gone.  It
is sorted whenever something is read from it.  The queue gives the answers of this table, whatever
is called in which order.
-/

namespace Chronicle

namespace TimerQueue

inductive Call where
  | schedule (timer : Timer)
  | cancel (run : RunRef) (purpose : TimerPurpose)
  | purge (run : RunRef)
  | popDue (now : Instant) (limit : Nat)
  | nextAt

/-- What a caller is told, with the timers in some form. -/
inductive Reply (τ : Type) where
  | done
  | due (timers : List τ)
  | next (fireAt? : Option Instant)
  deriving DecidableEq

namespace Reply

def map {τ υ : Type} (form : τ → υ) : Reply τ → Reply υ
  | .done => .done
  | .due timers => .due (timers.map form)
  | .next fireAt? => .next fireAt?

/-- The timers that the caller is given to fire. -/
def given {τ : Type} : Reply τ → List τ
  | .due timers => timers
  | _ => []

end Reply

def perform (queue : TimerQueue) : Call → TimerQueue × Reply Timer
  | .schedule timer => (queue.schedule timer, .done)
  | .cancel run purpose => (queue.cancel run purpose, .done)
  | .purge run => (queue.purge run, .done)
  | .popDue now limit => ((queue.popDue now limit).1, .due (queue.popDue now limit).2)
  | .nextAt => (queue.nextAt.1, .next queue.nextAt.2)

def performAll (queue : TimerQueue) : List Call → TimerQueue × List (Reply Timer)
  | [] => (queue, [])
  | call :: rest =>
      let (after, reply) := queue.perform call
      let (last, replies) := after.performAll rest
      (last, reply :: replies)

/-- The timers of the calls that schedule one, in the order of the calls. -/
def scheduled (calls : List Call) : List Timer :=
  calls.filterMap fun call =>
    match call with
    | .schedule timer => some timer
    | _ => none

end TimerQueue

/-- Live timers, each with the number of the call that scheduled it, in the order of these calls. -/
structure TimerTable where
  rows : List (Nat × Timer)
  added : Nat

namespace TimerTable

open TimerQueue (Call Reply slotOf)

def empty : TimerTable := ⟨[], 0⟩

/-- The rows by fire time, those of one instant in the order in which they were scheduled. -/
def inOrder (table : TimerTable) : List (Nat × Timer) :=
  table.rows.mergeSort fun first second => (slotOf first).notAfter (slotOf second)

/-- The first rows of the order that are due. -/
def firstDue (table : TimerTable) (now : Instant) (limit : Nat) : List (Nat × Timer) :=
  (table.inOrder.filter fun row => row.2.fireAt ≤ now).take limit

def perform (table : TimerTable) : Call → TimerTable × Reply (Nat × Timer)
  | .schedule timer =>
      let others := table.rows.filter fun row => row.2.key != timer.key
      (⟨others ++ [(table.added, timer)], table.added + 1⟩, .done)
  | .cancel run purpose =>
      ({ table with rows := table.rows.filter fun row => row.2.key != (run, purpose) }, .done)
  | .purge run => ({ table with rows := table.rows.filter fun row => row.2.run != run }, .done)
  | .popDue now limit =>
      let due := table.firstDue now limit
      ({ table with rows := table.rows.filter fun row => row ∉ due }, .due due)
  | .nextAt => (table, .next (table.inOrder.head?.map fun row => row.2.fireAt))

def performAll (table : TimerTable) : List Call → TimerTable × List (Reply (Nat × Timer))
  | [] => (table, [])
  | call :: rest =>
      let (after, reply) := table.perform call
      let (last, replies) := after.performAll rest
      (last, reply :: replies)

/-- The timers that the calls give out, in the order in which they do. -/
def given (table : TimerTable) (calls : List Call) : List (Nat × Timer) :=
  (table.performAll calls).2.flatMap Reply.given

variable {table : TimerTable} {call : Call} {calls early late : List Call} {row : Nat × Timer}
  {now : Instant} {limit number : Nat}

/-! ## The order of the table -/

theorem inOrder_perm (table : TimerTable) : table.inOrder.Perm table.rows :=
  List.mergeSort_perm _ _

theorem inOrder_sorted (table : TimerTable) : table.inOrder.Pairwise fun first second =>
    (slotOf first).notAfter (slotOf second) = true := by
  apply List.pairwise_mergeSort
  · intro first second third
    exact TimerSlot.notAfter_trans
  · intro first second
    exact Bool.or_eq_true_iff.2 (TimerSlot.notAfter_total (slotOf first) (slotOf second))

/-- Where each number stands once, there is one list of some rows in their order. -/
theorem eq_of_sorted {first second : List (Nat × Timer)} (hperm : first.Perm second)
    (hnumbered : (first.map Prod.fst).Nodup)
    (hfirst : first.Pairwise fun row other => (slotOf row).notAfter (slotOf other) = true)
    (hsecond : second.Pairwise fun row other => (slotOf row).notAfter (slotOf other) = true) :
    first = second := by
  refine hperm.eq_of_pairwise (fun row other hrow hother hbefore hafter => ?_) hfirst hsecond
  have hnumber : row.1 = other.1 := TimerSlot.number_eq_of_notAfter hbefore hafter
  exact List.inj_on_of_nodup_map hnumbered hrow (hperm.mem_iff.2 hother) hnumber

/-- A row that comes before all others is the first one of the order. -/
theorem head_inOrder (hmem : row ∈ table.rows) (hnumbered : (table.rows.map Prod.fst).Nodup)
    (hfirst : ∀ other ∈ table.rows, (slotOf row).notAfter (slotOf other) = true) :
    table.inOrder.head? = some row := by
  have hthere := table.inOrder_perm.mem_iff.2 hmem
  cases horder : table.inOrder with
  | nil =>
      rw [horder] at hthere
      cases hthere
  | cons head rest =>
      have hhead : head ∈ table.rows := table.inOrder_perm.mem_iff.1 (by simp [horder])
      have hsame : head = row := by
        rw [horder, List.mem_cons] at hthere
        rcases hthere with rfl | hrest
        · rfl
        · have hsorted := table.inOrder_sorted
          rw [horder, List.pairwise_cons] at hsorted
          exact List.inj_on_of_nodup_map hnumbered hhead hmem
            (TimerSlot.number_eq_of_notAfter (hsorted.1 row hrest) (hfirst head hhead))
      rw [hsame, List.head?_cons]

end TimerTable

/-! ## The queue against the table -/

namespace TimerQueue

open TimerTable (eq_of_sorted)

variable {queue : TimerQueue} {table : TimerTable} {now : Instant} {limit : Nat}

/-- The queue holds the timers of the table. -/
structure Represents (queue : TimerQueue) (table : TimerTable) : Prop where
  sound : queue.Sound
  live : queue.live = table.rows
  issued : queue.issued = table.added

namespace TakesFirst

variable {taken after : List (Nat × Timer)}

theorem after_eq {live : List (Nat × Timer)} (takes : TakesFirst now limit live taken after)
    (hnumbered : (live.map Prod.fst).Nodup) : after = live.filter fun row => row ∉ taken := by
  rw [takes.rest]
  refine List.filter_congr fun row hrow => ?_
  rw [decide_eq_decide, not_iff_not]
  constructor
  · intro hnumber
    obtain ⟨other, hother, hsame⟩ := List.mem_map.1 hnumber
    exact List.inj_on_of_nodup_map hnumbered (takes.mem other hother) hrow hsame ▸ hother
  · exact fun hmem => List.mem_map_of_mem hmem

theorem perm {live : List (Nat × Timer)} (takes : TakesFirst now limit live taken after)
    (hnumbered : (live.map Prod.fst).Nodup) : (taken ++ after).Perm live := by
  have htaken : taken.Perm (live.filter fun row => row ∈ taken) := by
    refine (List.perm_ext_iff_of_nodup takes.distinct.of_map (hnumbered.of_map.filter _)).2 ?_
    intro row
    rw [List.mem_filter, decide_eq_true_eq]
    exact ⟨fun hmem => ⟨takes.mem row hmem, hmem⟩, And.right⟩
  have hafter : after = live.filter fun row => !decide (row ∈ taken) := by
    rw [takes.after_eq hnumbered]
    exact List.filter_congr fun row _ => decide_not
  rw [hafter]
  exact (htaken.append_right _).trans (List.filter_append_perm _ _)

/-- Of what is due, the first ones are taken, as far as the limit goes. -/
theorem eq_firstDue (takes : TakesFirst now limit table.rows taken after)
    (hnumbered : (table.rows.map Prod.fst).Nodup) : taken = table.firstDue now limit := by
  let isDue : Nat × Timer → Bool := fun row => row.2.fireAt ≤ now
  have hdue : ∀ row ∈ taken, isDue row = true := fun row hmem =>
    decide_eq_true (Instant.le_of_not_lt (takes.due row hmem))
  -- what is left of the due rows, in order
  let left := (⟨after, 0⟩ : TimerTable).inOrder.filter isDue
  have hleft : ∀ row ∈ left, row ∈ after := fun row hmem =>
    (TimerTable.inOrder_perm ⟨after, 0⟩).mem_iff.1 (List.mem_of_mem_filter hmem)
  have hperm : (taken ++ left).Perm (table.inOrder.filter isDue) := by
    have hwhole := (takes.perm hnumbered).filter isDue
    rw [List.filter_append, List.filter_eq_self.2 hdue] at hwhole
    have hsame : left.Perm (after.filter isDue) :=
      (TimerTable.inOrder_perm ⟨after, 0⟩).filter isDue
    exact ((hsame.append_left taken).trans hwhole).trans (table.inOrder_perm.filter isDue).symm
  have hsorted : (taken ++ left).Pairwise fun row other =>
      (slotOf row).notAfter (slotOf other) = true := by
    refine List.pairwise_append.2 ⟨takes.sorted, ?_, ?_⟩
    · exact (TimerTable.inOrder_sorted ⟨after, 0⟩).filter isDue
    · exact fun row hrow other hother => takes.first row hrow other (hleft other hother)
  have hnumbers : ((taken ++ left).map Prod.fst).Nodup := by
    have hrows := (table.inOrder_perm.map Prod.fst).nodup_iff.2 hnumbered
    exact (hperm.map Prod.fst).nodup_iff.2 (hrows.sublist (List.filter_sublist.map _))
  have hall : taken ++ left = table.inOrder.filter isDue :=
    eq_of_sorted hperm hnumbers hsorted (table.inOrder_sorted.filter isDue)
  change taken = (table.inOrder.filter isDue).take limit
  rw [← hall, List.take_append, List.take_of_length_le takes.bound]
  rcases Nat.lt_or_ge taken.length limit with hshort | hfull
  · -- the limit was not reached, so nothing that is due was left
    have hnone : left = [] := by
      refine List.eq_nil_iff_forall_not_mem.2 fun row hmem => ?_
      have hlater := takes.exhausted hshort row (hleft row hmem)
      have hnow := of_decide_eq_true (List.mem_filter.1 hmem).2
      exact Instant.not_lt_of_le hnow hlater
    rw [hnone, List.take_nil, List.append_nil]
  · rw [Nat.sub_eq_zero_of_le hfull, List.take_zero, List.append_nil]

end TakesFirst

theorem isSome_of_skipGone {live : List (Nat × Timer)} {slots rest : List TimerSlot}
    {slot : TimerSlot} (h : skipGone live slots = slot :: rest) :
    (live.lookup slot.number).isSome = true := by
  induction slots with
  | nil => cases h
  | cons first others ih =>
      unfold skipGone at h
      split at h
      case isTrue hthere =>
        cases h
        exact hthere
      case isFalse => exact ih h

namespace Represents

theorem empty : Represents .empty .empty := ⟨.empty, rfl, rfl⟩

variable (represents : queue.Represents table)

include represents

theorem numbered : (table.rows.map Prod.fst).Nodup :=
  represents.live ▸ represents.sound.wellKept.numbered

theorem nextAt : queue.nextAt.2 = table.inOrder.head?.map fun row => row.2.fireAt := by
  have ordered := represents.sound.ordered
  have wellKept := represents.sound.wellKept
  obtain ⟨hslots, hplaced⟩ := skipGone_spec ordered.placed
  rw [represents.live] at hslots hplaced
  have hfront : queue.nextAt.2 =
      (skipGone table.rows queue.slots).head?.map TimerSlot.fireAt := by
    rw [← represents.live]
    rfl
  rw [hfront]
  cases hskip : skipGone table.rows queue.slots with
  | nil =>
      rw [hskip] at hplaced
      have hnone : table.rows = [] := List.eq_nil_iff_forall_not_mem.2 fun row hrow =>
        absurd (hplaced row hrow) List.not_mem_nil
      have hempty : table.inOrder = [] := List.perm_nil.1 (hnone ▸ table.inOrder_perm)
      rw [hempty]
      rfl
  | cons slot rest =>
      obtain ⟨timer, htimer⟩ := Option.isSome_iff_exists.1 (isSome_of_skipGone hskip)
      have hrow : (slot.number, timer) ∈ table.rows :=
        (lookup_eq_some represents.numbered).1 htimer
      rw [hskip] at hslots hplaced
      have hslot : slotOf (slot.number, timer) = slot := by
        have hdistinct := ordered.distinct.sublist (hslots.map TimerSlot.number)
        exact List.inj_on_of_nodup_map hdistinct (hplaced _ hrow) List.mem_cons_self rfl
      have hfirst : ∀ other ∈ table.rows,
          (slotOf (slot.number, timer)).notAfter (slotOf other) = true := by
        intro other hother
        rw [hslot]
        rcases List.mem_cons.1 (hplaced other hother) with hsame | hrest
        · rw [hsame]
          exact TimerSlot.notAfter_of_le (Instant.le_refl _) (Nat.le_refl _)
        · exact (List.pairwise_cons.1 (ordered.sorted.sublist hslots)).1 _ hrest
      rw [TimerTable.head_inOrder hrow represents.numbered hfirst]
      exact congrArg some (congrArg TimerSlot.fireAt hslot).symm

/-- A call leaves the queue as it leaves the table, and says the same. -/
theorem perform (call : Call) : (queue.perform call).1.Represents (table.perform call).1 ∧
    (queue.perform call).2 = (table.perform call).2.map Prod.snd := by
  have ⟨sound, hlive, hissued⟩ := represents
  cases call with
  | schedule timer =>
      refine ⟨⟨sound.step (.scheduled timer), ?_, congrArg (· + 1) hissued⟩, rfl⟩
      change (queue.schedule timer).live = _
      rw [live_schedule, hlive, hissued]
      rfl
  | cancel run purpose =>
      refine ⟨⟨sound.step (.cancelled run purpose), ?_, hissued⟩, rfl⟩
      change (queue.cancel run purpose).live = _
      rw [live_cancel, hlive]
      rfl
  | purge run =>
      refine ⟨⟨sound.step (.purged run), ?_, hissued⟩, rfl⟩
      exact congrArg (List.filter fun row => row.2.run != run) hlive
  | popDue now limit =>
      obtain ⟨taken, hdue, takes⟩ := sound.wellKept.popDue_spec sound.ordered now limit
      rw [hlive] at takes
      have htaken := takes.eq_firstDue represents.numbered
      have hafter := takes.after_eq represents.numbered
      rw [htaken] at hafter hdue
      exact ⟨⟨sound.step (.popped now limit), hafter, hissued⟩, congrArg Reply.due hdue⟩
  | nextAt =>
      exact ⟨⟨sound.step .peeked, hlive, hissued⟩, congrArg Reply.next represents.nextAt⟩

theorem performAll (calls : List Call) :
    (queue.performAll calls).1.Represents (table.performAll calls).1 ∧
      (queue.performAll calls).2 = (table.performAll calls).2.map (Reply.map Prod.snd) := by
  induction calls generalizing queue table with
  | nil => exact ⟨represents, rfl⟩
  | cons call rest ih =>
      obtain ⟨hafter, hreply⟩ := represents.perform call
      obtain ⟨hlast, hreplies⟩ := ih hafter
      exact ⟨hlast, congrArg₂ List.cons hreply hreplies⟩

end Represents

end TimerQueue

/-! ## What the table gives out -/

namespace TimerTable

open TimerQueue (Call Reply scheduled)

variable {table : TimerTable} {call : Call} {calls early late : List Call} {row : Nat × Timer}
  {number : Nat}

/-- Rows are kept or dropped, and a new one has the next number. -/
theorem mem_perform (h : row ∈ (table.perform call).1.rows) :
    row ∈ table.rows ∨ row.1 = table.added ∧ call = .schedule row.2 := by
  cases call with
  | schedule timer =>
      rcases List.mem_append.1 h with hold | hnew
      · exact .inl (List.mem_of_mem_filter hold)
      · rw [List.mem_singleton] at hnew
        exact .inr ⟨by rw [hnew], by rw [hnew]⟩
  | nextAt => exact .inl h
  | _ => exact .inl (List.mem_of_mem_filter h)

theorem added_le (table : TimerTable) (call : Call) : table.added ≤ (table.perform call).1.added := by
  cases call with
  | schedule timer => exact Nat.le_succ _
  | _ => exact Nat.le_refl _

/-- The rows have numbers of their own, all of them used before. -/
structure Numbered (table : TimerTable) : Prop where
  distinct : (table.rows.map Prod.fst).Nodup
  issued : ∀ row ∈ table.rows, row.1 < table.added

theorem Numbered.empty : Numbered .empty :=
  ⟨List.nodup_nil, fun _ hrow => absurd hrow List.not_mem_nil⟩

theorem Numbered.perform (numbered : table.Numbered) (call : Call) :
    (table.perform call).1.Numbered where
  distinct := by
    cases call with
    | schedule timer =>
        change ((_ ++ [(table.added, timer)]).map Prod.fst).Nodup
        rw [List.map_append, List.map_singleton]
        refine (numbered.distinct.sublist (List.filter_sublist.map _)).append
          (List.nodup_singleton _) (List.disjoint_singleton.2 fun hmem => ?_)
        obtain ⟨row, hrow, hnumber⟩ := List.mem_map.1 hmem
        have hlt := numbered.issued row (List.mem_of_mem_filter hrow)
        exact Nat.lt_irrefl _ (hnumber ▸ hlt)
    | nextAt => exact numbered.distinct
    | _ => exact numbered.distinct.sublist (List.filter_sublist.map _)
  issued := by
    intro row hrow
    rcases mem_perform hrow with hold | ⟨hnew, rfl⟩
    · exact Nat.lt_of_lt_of_le (numbered.issued row hold) (table.added_le call)
    · exact hnew ▸ Nat.lt_succ_self _

theorem Numbered.performAll (numbered : table.Numbered) (calls : List Call) :
    (table.performAll calls).1.Numbered := by
  induction calls generalizing table with
  | nil => exact numbered
  | cons call rest ih => exact ih (numbered.perform call)

/-- Every row stands for the call of its number. -/
def Names (timers : List Timer) (rows : List (Nat × Timer)) : Prop :=
  ∀ row ∈ rows, timers[row.1]? = some row.2

end TimerTable

/-! ## All together -/

namespace TimerQueue

/-- The call takes the timer away: it puts another one in its place, or cancels or purges it. -/
def Call.Drops (timer : Timer) : Call → Prop
  | .schedule other => other.key = timer.key
  | .cancel run purpose => timer.key = (run, purpose)
  | .purge run => timer.run = run
  | _ => False

theorem Call.Drops.gone {table : TimerTable} {call : Call} {row : Nat × Timer}
    (numbered : table.Numbered) (hrow : row ∈ table.rows) (drops : call.Drops row.2) :
    row ∉ (table.perform call).1.rows := by
  intro hstays
  cases call with
  | schedule other =>
      rcases List.mem_append.1 hstays with hkept | hnew
      · exact bne_iff_ne.1 (List.mem_filter.1 hkept).2 drops.symm
      · have hlt := numbered.issued row hrow
        rw [List.mem_singleton.1 hnew] at hlt
        exact Nat.lt_irrefl _ hlt
  | cancel run purpose => exact bne_iff_ne.1 (List.mem_filter.1 hstays).2 drops
  | purge run => exact bne_iff_ne.1 (List.mem_filter.1 hstays).2 drops
  | popDue now limit => exact drops
  | nextAt => exact drops

/-- The first timer of the order is one that fires first. -/
theorem Represents.next {queue : TimerQueue} {table : TimerTable}
    (represents : queue.Represents table) (next? : Option Instant) (h : queue.nextAt.2 = next?) :
    (next? = none → queue.timers = []) ∧ ∀ next, next? = some next →
      (∃ timer ∈ queue.timers, timer.fireAt = next) ∧ ∀ timer ∈ queue.timers, next ≤ timer.fireAt := by
  subst h
  rw [represents.nextAt]
  unfold timers
  rw [represents.live]
  cases horder : table.inOrder with
  | nil =>
      have hnone : table.rows = [] := List.nil_perm.1 (horder ▸ table.inOrder_perm)
      rw [hnone]
      exact ⟨fun _ => rfl, fun next hnext => absurd hnext (Option.some_ne_none next).symm⟩
  | cons head rest =>
      have hhead : head ∈ table.rows := table.inOrder_perm.mem_iff.1 (by simp [horder])
      refine ⟨fun hnone => absurd hnone (Option.some_ne_none _), fun next hnext => ?_⟩
      obtain rfl : head.2.fireAt = next := Option.some.inj hnext
      refine ⟨⟨head.2, List.mem_map_of_mem hhead, rfl⟩, fun timer htimer => ?_⟩
      obtain ⟨row, hrow, rfl⟩ := List.mem_map.1 htimer
      have hsorted := table.inOrder_sorted
      have hplace := table.inOrder_perm.mem_iff.2 hrow
      rw [horder, List.pairwise_cons] at hsorted
      rw [horder, List.mem_cons] at hplace
      rcases hplace with rfl | hrest
      · exact Instant.le_refl _
      · exact TimerSlot.le_of_notAfter (hsorted.1 row hrest)

/-- A timer that was cancelled leaves no trace in what fires next and what is due. -/
example : (empty.performAll [.schedule ⟨⟨"orders", .nil⟩, ⟨3, 0⟩, .workflowTimer "c"⟩,
    .schedule ⟨⟨"orders", .nil⟩, ⟨1, 0⟩, .workflowTimer "a"⟩,
    .schedule ⟨⟨"orders", .nil⟩, ⟨2, 0⟩, .workflowTimer "b"⟩,
    .cancel ⟨"orders", .nil⟩ (.workflowTimer "b"), .nextAt, .popDue ⟨10, 0⟩ 10, .nextAt]).2 =
      [.done, .done, .done, .done, .next (some ⟨1, 0⟩),
        .due [⟨⟨"orders", .nil⟩, ⟨1, 0⟩, .workflowTimer "a"⟩,
          ⟨⟨"orders", .nil⟩, ⟨3, 0⟩, .workflowTimer "c"⟩], .next none] := by
  decide

end TimerQueue

end Chronicle
