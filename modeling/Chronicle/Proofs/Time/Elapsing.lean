import Chronicle.Proofs.Time.Calendar
import Chronicle.Proofs.Time.Instants

/-!
# Delays that have elapsed

The instant after a delay is no earlier than the delay says, or a century if the delay is longer.
The one exception are delays that lead past the end of time.
-/

namespace Chronicle.Instant

variable {instant first second : Instant} {short long : Nat}

/-! ## Moves forwards -/

/-- Nanoseconds since the last ordinary second. -/
def sinceSecond (instant : Instant) : Nat :=
  if nanosPerSecond ≤ instant.nano then instant.nano - nanosPerSecond else instant.nano

theorem sinceSecond_cases (instant : Instant) :
    (nanosPerSecond ≤ instant.nano ∧ instant.nano = instant.sinceSecond + nanosPerSecond) ∨
      (instant.nano < nanosPerSecond ∧ instant.nano = instant.sinceSecond) := by
  unfold sinceSecond
  split <;> omega

/-- A move forwards stays within a leap second, or counts from the last ordinary second. -/
theorem shift?_ofNat (instant : Instant) (nanos : Nat) : instant.shift? nanos =
    if nanosPerSecond ≤ instant.nano ∧ instant.nano + nanos < 2 * nanosPerSecond then
      some ⟨instant.second, instant.nano + nanos⟩
    else
      ofSecond? (instant.second + ((instant.sinceSecond + nanos) / nanosPerSecond : Nat))
        ((instant.sinceSecond + nanos) % nanosPerSecond) := by
  have hforwards : ¬ ((nanos : Int) < 0) := by omega
  have hinside : (-(nanosPerSecond : Int) < nanos ∧
      (instant.nano : Int) + nanos < 2 * nanosPerSecond) ↔
        instant.nano + nanos < 2 * nanosPerSecond := by
    simp only [nanosPerSecond]
    omega
  unfold shift?
  by_cases hleap : nanosPerSecond ≤ instant.nano
  · simp only [sinceSecond, hleap, hforwards, decide_true, decide_false, Bool.true_and,
      Bool.and_false, Bool.and_eq_true, Bool.false_eq_true, if_false, if_true, decide_eq_true_eq,
      true_and, hinside]
    have hcast : (instant.nano : Int) - nanosPerSecond + nanos =
        ((instant.nano - nanosPerSecond + nanos : Nat) : Int) := by omega
    rw [hcast, ← Int.natCast_ediv, ← Int.natCast_emod, Int.toNat_natCast, ← Int.natCast_add,
      Int.toNat_natCast]
  · simp only [sinceSecond, hleap, decide_false, Bool.false_and, Bool.false_eq_true, if_false,
      false_and]
    rw [← Int.natCast_add, ← Int.natCast_ediv, ← Int.natCast_emod, Int.toNat_natCast]

theorem shift?_mono (h : short ≤ long) (hfirst : instant.shift? short = some first)
    (hsecond : instant.shift? long = some second) : first ≤ second := by
  have hsince := instant.sinceSecond_cases
  rw [shift?_ofNat] at hfirst hsecond
  rw [le_def]
  split at hfirst <;> split at hsecond
  · cases hfirst
    cases hsecond
    exact .inr ⟨rfl, by simp only; omega⟩
  · cases hfirst
    obtain ⟨rfl, -⟩ := ofSecond?_eq_some.1 hsecond
    simp only [nanosPerSecond] at *
    omega
  · omega
  · obtain ⟨rfl, -⟩ := ofSecond?_eq_some.1 hfirst
    obtain ⟨rfl, -⟩ := ofSecond?_eq_some.1 hsecond
    simp only [nanosPerSecond]
    omega

theorem lt_of_shift? (h : 0 < long) (hsecond : instant.shift? long = some second) :
    instant < second := by
  have hsince := instant.sinceSecond_cases
  rw [shift?_ofNat] at hsecond
  rw [lt_def]
  split at hsecond
  · cases hsecond
    exact .inr ⟨rfl, by simp only; omega⟩
  · obtain ⟨rfl, -⟩ := ofSecond?_eq_some.1 hsecond
    simp only [nanosPerSecond] at *
    omega

theorem shift?_isSome_of_le (inRange : instant.InRange) (h : short ≤ long)
    (hlong : (instant.shift? long).isSome = true) : (instant.shift? short).isSome = true := by
  rw [shift?_ofNat] at hlong ⊢
  split
  · rfl
  · have houtside : ¬(nanosPerSecond ≤ instant.nano ∧ instant.nano + long < 2 * nanosPerSecond) := by
      omega
    rw [if_neg houtside] at hlong
    obtain ⟨later, hlater⟩ := Option.isSome_iff_exists.1 hlong
    obtain ⟨rfl, hrange⟩ := ofSecond?_eq_some.1 hlater
    refine Option.isSome_iff_exists.2 ⟨_, ofSecond?_eq_some.2 ⟨rfl, ?_⟩⟩
    have hdiv : (instant.sinceSecond + short) / nanosPerSecond ≤
        (instant.sinceSecond + long) / nanosPerSecond := Nat.div_le_div_right (by omega)
    unfold InRange at inRange hrange ⊢
    simp only at hrange ⊢
    generalize (instant.sinceSecond + short) / nanosPerSecond = less at hdiv ⊢
    generalize (instant.sinceSecond + long) / nanosPerSecond = more at hdiv hrange
    omega

/-! ## Deadlines -/

/-- The span by which an instant is moved for a delay. -/
def reach (delay : Span) : Span := if longestShift.nanos < delay.nanos then century else delay

theorem after_eq (instant : Instant) (delay : Span) :
    instant.after delay = (instant.shift? (reach delay).nanos).getD instant := rfl

/-- The delay leads past the end of time. -/
def Overruns (instant : Instant) (delay : Span) : Prop := instant.shift? (reach delay).nanos = none

/-- The span has passed since the instant, or a century if the span is longer. -/
def Elapsed (instant : Instant) (span : Span) (now : Instant) : Prop :=
  ∀ floor, instant.shift? (span.min century).nanos = some floor → floor ≤ now

theorem Elapsed.later {span : Span} (elapsed : instant.Elapsed span first) (h : first ≤ second) :
    instant.Elapsed span second :=
  fun floor hfloor => le_trans (elapsed floor hfloor) h

theorem overruns_iff {delay : Span} (hcentury : (instant.shift? century.nanos).isSome = true) :
    instant.Overruns delay ↔
      delay.nanos ≤ longestShift.nanos ∧ instant.shift? delay.nanos = none := by
  unfold Overruns reach
  split
  · rename_i hlong
    rw [Option.isSome_iff_ne_none] at hcentury
    exact iff_of_false hcentury fun h => Nat.not_lt.2 h.1 hlong
  · rename_i hshort
    exact (and_iff_right (Nat.not_lt.1 hshort)).symm

theorem min_century_le (span : Span) : (span.min century).nanos ≤ span.nanos := by
  unfold Span.min
  split <;> omega

theorem min_century_le_reach {span delay : Span} (h : (span.min century).nanos ≤ delay.nanos) :
    (span.min century).nanos ≤ (reach delay).nanos := by
  unfold reach
  split
  · unfold Span.min
    split <;> omega
  · exact h

/-- Deadlines that do not lead past the end of time do not come early. -/
theorem elapsed_after {span delay : Span} (h : (span.min century).nanos ≤ delay.nanos)
    (hreach : ¬instant.Overruns delay) : instant.Elapsed span (instant.after delay) := by
  intro floor hfloor
  obtain ⟨later, hlater⟩ := Option.ne_none_iff_exists'.1 hreach
  rw [after_eq, hlater, Option.getD_some]
  exact shift?_mono (min_century_le_reach h) hfloor hlater

theorem reach_of_min_eq_zero {delay : Span} (h : (delay.min century).nanos = 0) :
    (delay.min century).nanos = (reach delay).nanos := by
  have hcentury : century.nanos ≠ 0 := by decide
  unfold Span.min at h ⊢
  split at h
  · exact absurd h hcentury
  · rename_i hshort
    rw [if_neg hshort, reach, if_neg (by omega)]

/-- A deadline comes early just if it would lie past the end of time. -/
theorem le_after_iff {delay : Span} {floor : Instant}
    (hfloor : instant.shift? (delay.min century).nanos = some floor) :
    floor ≤ instant.after delay ↔ ¬instant.Overruns delay := by
  refine ⟨fun hle hnone => ?_, fun hreach => elapsed_after (min_century_le delay) hreach floor hfloor⟩
  rw [after_eq, hnone, Option.getD_none] at hle
  have hpos : 0 < (delay.min century).nanos := by
    by_contra hzero
    rw [reach_of_min_eq_zero (by omega), hnone] at hfloor
    cases hfloor
  exact not_lt_of_le hle (lt_of_shift? hpos hfloor)

theorem elapsed_exists (inRange : instant.InRange)
    (hcentury : (instant.shift? century.nanos).isSome = true) (span : Span) :
    ∃ floor, instant.shift? (span.min century).nanos = some floor := by
  apply Option.isSome_iff_exists.1
  apply shift?_isSome_of_le inRange _ hcentury
  unfold Span.min
  split <;> omega

end Chronicle.Instant
