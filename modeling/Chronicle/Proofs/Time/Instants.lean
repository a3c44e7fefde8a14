import Chronicle.Time.Instant

/-!
# The order of instants

Instants are ordered by their seconds, and within a second by their nanoseconds.  No delay leads to
an earlier instant.
-/

namespace Chronicle.Instant

variable {first second third : Instant}

theorem le_def : first ≤ second ↔
    first.second < second.second ∨ (first.second = second.second ∧ first.nano ≤ second.nano) :=
  Iff.rfl

theorem lt_def : first < second ↔
    first.second < second.second ∨ (first.second = second.second ∧ first.nano < second.nano) :=
  Iff.rfl

theorem le_refl (instant : Instant) : instant ≤ instant := .inr ⟨rfl, Nat.le_refl _⟩

theorem le_trans (h : first ≤ second) (h' : second ≤ third) : first ≤ third := by
  rw [le_def] at *
  omega

theorem le_of_lt (h : first < second) : first ≤ second := by
  rw [lt_def] at h
  rw [le_def]
  omega

theorem le_of_not_lt (h : ¬first < second) : second ≤ first := by
  rw [lt_def] at h
  rw [le_def]
  omega

theorem not_lt_of_le (h : first ≤ second) : ¬second < first := by
  rw [le_def] at h
  rw [lt_def]
  omega

theorem le_antisymm (h : first ≤ second) (h' : second ≤ first) : first = second := by
  rw [le_def] at *
  cases first
  cases second
  simp only [mk.injEq] at *
  omega

theorem lt_of_lt_of_le (h : first < second) (h' : second ≤ third) : first < third := by
  rw [lt_def] at *
  rw [le_def] at h'
  omega

theorem le_shift {instant later : Instant} {nanos : Nat} (h : instant.shift? nanos = some later) :
    instant ≤ later := by
  unfold shift? at h
  simp only at h
  split at h
  case isTrue =>
    cases h
    exact .inr ⟨rfl, by simp only; omega⟩
  case isFalse hordinary =>
    unfold ofSecond? at h
    simp only [Option.ite_none_right_eq_some, Option.some.injEq] at h
    obtain ⟨-, rfl⟩ := h
    have hforwards : ¬ ((nanos : Int) < 0) := by omega
    rw [le_def]
    by_cases hleap : nanosPerSecond ≤ instant.nano
    · -- out of a leap second, at least to the end of it
      simp only [hleap, decide_true, Bool.true_and, Bool.and_eq_true, decide_eq_true_eq, if_true,
        hforwards, Bool.and_false, decide_false, Bool.false_eq_true, if_false] at hordinary ⊢
      simp only [nanosPerSecond] at *
      omega
    · simp only [hleap, if_false, decide_false, Bool.false_and, Bool.false_eq_true]
      simp only [nanosPerSecond] at *
      omega

theorem le_after (instant : Instant) (delay : Span) : instant ≤ instant.after delay := by
  unfold after
  simp only
  cases hshift : instant.shift? _ with
  | none => exact le_refl instant
  | some later => exact le_shift hshift

end Chronicle.Instant
