import Chronicle.Time.Instant
import Mathlib.Algebra.Order.Group.Int

/-!
# Days and dates

Numbers of days and valid dates are in bijection: every number has a valid date, whose number it
is, and every valid date is found again from its number.  An instant lies in the range of years that
can be represented.
-/

namespace Chronicle.Date

/-! ## Years -/

def yearLength (year : Int) : Nat := if isLeap year then 366 else 365

theorem isLeap_iff (year : Int) :
    isLeap year = true ↔ year % 4 = 0 ∧ (year % 100 ≠ 0 ∨ year % 400 = 0) := by
  simp [isLeap]

theorem daysBeforeYear_succ (year : Int) :
    daysBeforeYear (year + 1) = daysBeforeYear year + yearLength year := by
  have hleap := isLeap_iff year
  simp only [daysBeforeYear, yearLength]
  by_cases h : isLeap year = true
  · have := hleap.mp h
    rw [if_pos h]
    omega
  · have := mt hleap.mpr h
    rw [if_neg h]
    omega

theorem daysBeforeYear_mono {first second : Int} (h : first ≤ second) :
    daysBeforeYear first ≤ daysBeforeYear second := by
  simp only [daysBeforeYear]
  omega

/-- The year found for a day is the one that contains it. -/
theorem yearOf_bounds (number : Int) :
    daysBeforeYear (yearOf number) ≤ number ∧ number < daysBeforeYear (yearOf number + 1) := by
  simp only [yearOf]
  split
  · simp only [daysBeforeYear] at *
    omega
  · split
    · simp only [daysBeforeYear] at *
      omega
    · omega

theorem yearOf_unique {number year : Int} (hfrom : daysBeforeYear year ≤ number)
    (hto : number < daysBeforeYear (year + 1)) : yearOf number = year := by
  obtain ⟨hlow, hhigh⟩ := yearOf_bounds number
  rcases Int.lt_trichotomy (yearOf number) year with hless | hequal | hmore
  · have hbefore := daysBeforeYear_mono (show yearOf number + 1 ≤ year by omega)
    omega
  · exact hequal
  · have hafter := daysBeforeYear_mono (show year + 1 ≤ yearOf number by omega)
    omega

/-! ## Months -/

theorem daysBeforeMonth_succ (year : Int) {month : Nat} (h : 1 ≤ month) :
    daysBeforeMonth year (month + 1) = daysBeforeMonth year month + monthLength year month := by
  obtain ⟨previous, rfl⟩ := Nat.exists_eq_add_of_le' h
  rfl

theorem monthLength_bounds (year : Int) (month : Nat) :
    28 ≤ monthLength year month ∧ monthLength year month ≤ 31 := by
  unfold monthLength
  split <;> split <;> omega

theorem daysBeforeMonth_thirteen (year : Int) : daysBeforeMonth year 13 = yearLength year := by
  simp only [daysBeforeMonth, monthLength, yearLength]
  cases isLeap year <;> rfl

theorem daysBeforeMonth_mono (year : Int) : Monotone (daysBeforeMonth year) := by
  refine monotone_nat_of_le_succ fun month => ?_
  cases month with
  | zero => exact Nat.le_refl 0
  | succ month => exact Nat.le_add_right ..

/-- The month found for an offset, with the days left over in it. -/
theorem monthOf_spec (year : Int) {fuel month offset : Nat} (hmonth : 1 ≤ month)
    (hfuel : month + fuel = 12)
    (hoffset : daysBeforeMonth year month + offset < yearLength year) :
    let (found, day) := monthOf year fuel month offset
    (1 ≤ found ∧ found ≤ 12) ∧ (1 ≤ day ∧ day ≤ monthLength year found) ∧
      daysBeforeMonth year found + day = daysBeforeMonth year month + offset + 1 := by
  induction fuel generalizing month offset with
  | zero =>
      obtain rfl : month = 12 := hfuel
      have hend := daysBeforeMonth_succ year hmonth
      rw [daysBeforeMonth_thirteen] at hend
      simp only [monthOf]
      omega
  | succ fuel ih =>
      have hnext := daysBeforeMonth_succ year hmonth
      simp only [monthOf]
      split
      · simp only
        omega
      · have hrest := @ih (month + 1) (offset - monthLength year month)
          (Nat.le_add_left 1 month) (by omega) (by omega)
        revert hrest
        simp only
        generalize monthOf year fuel (month + 1) (offset - monthLength year month) = found
        intro hrest
        omega

/-! ## Dates -/

theorem isValid_iff (date : Date) :
    date.isValid = true ↔ (1 ≤ date.month ∧ date.month ≤ 12) ∧
      (1 ≤ date.day ∧ date.day ≤ monthLength date.year date.month) := by
  simp [isValid, and_assoc]

/-- Every day has a valid date. -/
theorem ofNumber_spec (number : Int) :
    (ofNumber number).isValid = true ∧ (ofNumber number).number = number := by
  obtain ⟨hlow, hhigh⟩ := yearOf_bounds number
  rw [daysBeforeYear_succ] at hhigh
  have hfirst : daysBeforeMonth (yearOf number) 1 = 0 := rfl
  have hspec := @monthOf_spec (yearOf number) 11 1
    (number - daysBeforeYear (yearOf number)).toNat (Nat.le_refl 1) rfl (by omega)
  simp only at hspec
  obtain ⟨hmonth, hday, hoffset⟩ := hspec
  refine ⟨(isValid_iff _).mpr ⟨hmonth, hday⟩, ?_⟩
  change daysBeforeYear (yearOf number) + _ - 1 = number
  simp only [ofNumber]
  omega

/-- The day of the year fits into the year. -/
theorem dayOfYear_le {date : Date} (hvalid : date.isValid = true) :
    daysBeforeMonth date.year date.month + date.day ≤ yearLength date.year := by
  obtain ⟨⟨hfirst, hlast⟩, -, hday⟩ := (isValid_iff date).mp hvalid
  have hnext := daysBeforeMonth_succ date.year hfirst
  have hmono := daysBeforeMonth_mono date.year (show date.month + 1 ≤ 13 by omega)
  rw [daysBeforeMonth_thirteen] at hmono
  omega

theorem yearOf_number {date : Date} (hvalid : date.isValid = true) :
    yearOf date.number = date.year := by
  have hfits := dayOfYear_le hvalid
  have hday := ((isValid_iff date).mp hvalid).2.1
  refine yearOf_unique ?_ ?_
  · simp only [number]
    omega
  · rw [daysBeforeYear_succ]
    simp only [number]
    omega

/-- Months do not overlap: an offset in the year lies in one month only. -/
theorem month_le_of_offset {year : Int} {month day other otherDay : Nat} (hmonth : 1 ≤ other)
    (hday : 1 ≤ day) (hother : otherDay ≤ monthLength year other)
    (hoffset : daysBeforeMonth year month + day = daysBeforeMonth year other + otherDay) :
    month ≤ other := by
  by_contra hlater
  have hmono := daysBeforeMonth_mono year (show other + 1 ≤ month by omega)
  rw [daysBeforeMonth_succ year hmonth] at hmono
  omega

theorem number_injective {left right : Date} (hleft : left.isValid = true)
    (hright : right.isValid = true) (hnumber : left.number = right.number) : left = right := by
  have hyear : left.year = right.year := by
    rw [← yearOf_number hleft, hnumber, yearOf_number hright]
  obtain ⟨year, month, day⟩ := left
  obtain ⟨_, otherMonth, otherDay⟩ := right
  obtain rfl : year = _ := hyear
  obtain ⟨⟨hfirst, -⟩, hday, hlast⟩ := (isValid_iff _).mp hleft
  obtain ⟨⟨hotherFirst, -⟩, hotherDay, hotherLast⟩ := (isValid_iff _).mp hright
  simp only [number] at *
  have hoffset : daysBeforeMonth year month + day = daysBeforeMonth year otherMonth + otherDay := by
    omega
  obtain rfl : month = otherMonth := Nat.le_antisymm
    (month_le_of_offset hotherFirst hday hotherLast hoffset)
    (month_le_of_offset hfirst hotherDay hlast hoffset.symm)
  obtain rfl : day = otherDay := by omega
  rfl

theorem ofNumber_number {date : Date} (hvalid : date.isValid = true) :
    ofNumber date.number = date :=
  number_injective (ofNumber_spec _).1 hvalid (ofNumber_spec _).2

/-- Days of the same month are counted on from each other. -/
theorem ofNumber_inMonth {date : Date} {day : Nat} (hvalid : date.isValid = true)
    (hfirst : 1 ≤ day) (hlast : day ≤ monthLength date.year date.month) :
    ofNumber (date.number + day - date.day) = ⟨date.year, date.month, day⟩ := by
  have hmoved : (⟨date.year, date.month, day⟩ : Date).isValid = true :=
    (isValid_iff _).mpr ⟨((isValid_iff date).mp hvalid).1, hfirst, hlast⟩
  rw [← ofNumber_number hmoved]
  congr 1
  simp only [number]
  omega

/-- The first day of the month after a date. -/
def monthAfter (date : Date) : Date :=
  if date.month = 12 then ⟨date.year + 1, 1, 1⟩ else ⟨date.year, date.month + 1, 1⟩

theorem monthAfter_number {date : Date} (hvalid : date.isValid = true) :
    date.monthAfter.number = date.number + (monthLength date.year date.month + 1 : Nat) - date.day := by
  obtain ⟨⟨hfirst, hlast⟩, -⟩ := (isValid_iff date).mp hvalid
  have hnext := daysBeforeMonth_succ date.year hfirst
  unfold monthAfter
  split
  case isTrue hdecember =>
    rw [hdecember, daysBeforeMonth_thirteen] at hnext
    have hyear := daysBeforeYear_succ date.year
    have hjanuary : daysBeforeMonth (date.year + 1) 1 = 0 := rfl
    simp only [number, hdecember]
    omega
  case isFalse =>
    simp only [number]
    omega

/-- Up to the first day of the next month all days are of the same month. -/
theorem ofNumber_month {date : Date} (hvalid : date.isValid = true) {day : Int}
    (hfrom : date.number ≤ day) (hto : day < date.monthAfter.number) :
    (ofNumber day).month = date.month := by
  rw [monthAfter_number hvalid] at hto
  have hdate := ((isValid_iff date).mp hvalid).2
  have hcount : day = date.number + ((day - date.number + date.day).toNat : Nat) - date.day := by
    omega
  rw [hcount, ofNumber_inMonth hvalid (by omega) (by omega)]

end Chronicle.Date

/-! ## Instants -/

namespace Chronicle.Instant

/-- The instant lies in a year that can be represented. -/
def InRange (instant : Instant) : Prop :=
  firstSecond ≤ instant.second ∧ instant.second < endSecond

theorem ofSecond?_eq_some {second : Int} {nano : Nat} {instant : Instant} :
    ofSecond? second nano = some instant ↔ instant = ⟨second, nano⟩ ∧ instant.InRange := by
  unfold ofSecond?
  split
  case isTrue h =>
    simp only [Bool.and_eq_true, decide_eq_true_eq] at h
    constructor
    · rintro ⟨⟩
      exact ⟨rfl, h⟩
    · rintro ⟨rfl, -⟩
      rfl
  case isFalse h =>
    simp only [Bool.and_eq_true, decide_eq_true_eq] at h
    constructor
    · rintro ⟨⟩
    · rintro ⟨rfl, hrange⟩
      exact absurd hrange h

theorem endSecond_whole : endSecond % 86400 = 0 := by decide +kernel

/-- The day of a second that is counted from the midnight of a numbered day. -/
theorem dayNumber_of_midnight {day : Int} {instant : Instant}
    (h : instant.second / 86400 = day - Date.epoch) : instant.dayNumber = day := by
  simp only [dayNumber, secondsPerDay, h]
  omega

theorem lt_iff_of_whole {left right : Instant} (hwhole : right.nano = 0) :
    left < right ↔ left.second < right.second := by
  change left.second < right.second ∨ _ ∧ left.nano < right.nano ↔ _
  omega

theorem le_iff_of_whole {left right : Instant} (hleft : left.nano = 0) (hright : right.nano = 0) :
    left ≤ right ↔ left.second ≤ right.second := by
  change left.second < right.second ∨ _ ∧ left.nano ≤ right.nano ↔ _
  omega

end Chronicle.Instant
