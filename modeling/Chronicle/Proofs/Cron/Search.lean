import Chronicle.Cron.Schedule
import Chronicle.Proofs.Time.Calendar
import Mathlib.Data.Int.LeastGreatest
import Mathlib.Data.List.Range
import Mathlib.Order.Bounds.Defs

/-!
# The search for the next fire time

Every skip of the search passes over minutes only that some field rules out, and a minute that
all fields allow is reached within the limit: an allowed day has another one at most nine years
before it, days are skipped as a whole, and hours are skipped on the first and the last day only.
-/

namespace Chronicle

namespace CronFields

variable {fields : CronFields} {instant found : Instant} {day : Int}

/-! ## Allowed days and minutes -/

/-- A day of an allowed month that satisfies the rule for days. -/
def AllowsDate (fields : CronFields) (day : Int) : Prop :=
  fields.months.testBit (Date.ofNumber day).month = true ∧
    fields.allowsDay day (Date.ofNumber day).day = true

/-- A whole minute that all fields allow. -/
structure Allows (fields : CronFields) (instant : Instant) : Prop where
  whole : instant.nano = 0 ∧ instant.second % 60 = 0
  date : fields.AllowsDate instant.dayNumber
  hour : fields.hours.testBit instant.hour = true
  minute : fields.minutes.testBit instant.minute = true

/-- No allowed minute lies between one second and another. -/
def Bars (fields : CronFields) (first last : Int) : Prop :=
  ∀ minute, fields.Allows minute → first ≤ minute.second → last ≤ minute.second

theorem Bars.trans {first middle last : Int} (hleft : fields.Bars first middle)
    (hright : fields.Bars middle last) : fields.Bars first last :=
  fun minute hallows hfirst => hright minute hallows (hleft minute hallows hfirst)

/-- The same minute of another allowed day is allowed as well. -/
theorem Allows.onDay (h : fields.Allows found) (hdate : fields.AllowsDate day) :
    fields.Allows ⟨(day - Date.epoch) * 86400 + found.second % 86400, 0⟩ := by
  have hwhole := h.whole.2
  have hday : Instant.dayNumber ⟨(day - Date.epoch) * 86400 + found.second % 86400, 0⟩ = day :=
    Instant.dayNumber_of_midnight (by simp only; omega)
  have hsecond : Instant.secondOfDay ⟨(day - Date.epoch) * 86400 + found.second % 86400, 0⟩ =
      found.secondOfDay := by
    simp only [Instant.secondOfDay, Instant.secondsPerDay]
    omega
  refine ⟨⟨rfl, ?_⟩, ?_, ?_, ?_⟩
  · simp only
    omega
  · rw [hday]
    exact hdate
  · simp only [Instant.hour, hsecond]
    exact h.hour
  · simp only [Instant.minute, hsecond]
    exact h.minute

theorem Allows.eq_of_second {other : Instant} (h : fields.Allows found)
    (hother : fields.Allows other) (hsecond : found.second = other.second) : found = other := by
  obtain ⟨second, nano⟩ := found
  obtain ⟨otherSecond, otherNano⟩ := other
  obtain rfl : nano = 0 := h.whole.1
  obtain rfl : otherNano = 0 := hother.whole.1
  obtain rfl : second = otherSecond := hsecond
  rfl

/-! ## An earlier allowed day -/

/-- A day that is allowed is so for its place in the month, or for its place in the week. -/
theorem allowsDay_cases {dayOfMonth : Nat} (h : fields.allowsDay day dayOfMonth = true) :
    (∀ other, fields.allowsDay other dayOfMonth = true) ∨
      ∀ other otherOfMonth, Date.weekday other = Date.weekday day →
        fields.allowsDay other otherOfMonth = true := by
  unfold allowsDay at h ⊢
  generalize fields.dayOfMonthRestricted = monthly at h ⊢
  generalize fields.dayOfWeekRestricted = weekly at h ⊢
  cases monthly <;> cases weekly
  case false.false => exact .inl fun _ => rfl
  case true.false => exact .inl fun _ => h
  case false.true =>
    refine .inr fun other _ hweekday => ?_
    simp only [hweekday]
    exact h
  case true.true =>
    rcases Bool.or_eq_true_iff.mp h with hmonth | hweek
    · exact .inl fun _ => Bool.or_eq_true_iff.mpr (.inl hmonth)
    · refine .inr fun other _ hweekday => Bool.or_eq_true_iff.mpr (.inr ?_)
      rw [hweekday]
      exact hweek

/-- A date has its like at most eight years before, 29 February included. -/
theorem exists_date_before {date : Date} (hvalid : date.isValid = true) :
    ∃ years : Int, (1 ≤ years ∧ years ≤ 8) ∧
      Date.isValid ⟨date.year - years, date.month, date.day⟩ = true := by
  obtain ⟨year, month, day⟩ := date
  obtain ⟨hmonth, hday, hlast⟩ := (Date.isValid_iff _).mp hvalid
  simp only at hmonth hday hlast
  simp only [Date.isValid_iff]
  by_cases hleapDay : month = 2 ∧ day = 29
  · obtain ⟨rfl, rfl⟩ := hleapDay
    have hleap : Date.isLeap year = true := by
      by_contra hcommon
      simp [Date.monthLength, hcommon] at hlast
    have hyear := (Date.isLeap_iff year).mp hleap
    have hlength (years : Int) (h : Date.isLeap (year - years) = true) :
        29 ≤ Date.monthLength (year - years) 2 := by
      simp [Date.monthLength, h]
    by_cases hfour : Date.isLeap (year - 4) = true
    · exact ⟨4, by omega, hmonth, hday, hlength 4 hfour⟩
    · have height : Date.isLeap (year - 8) = true := by
        rw [Date.isLeap_iff] at hfour ⊢
        omega
      exact ⟨8, by omega, hmonth, hday, hlength 8 height⟩
  · refine ⟨1, by omega, hmonth, hday, ?_⟩
    simp only [Date.monthLength] at hlast ⊢
    split at hlast <;> split <;> first | omega | (split at hlast <;> split <;> omega)

/-- A valid date of an earlier year lies before, by as many days as the years have at most. -/
theorem number_bounds {earlier date : Date} (hearlier : earlier.isValid = true)
    (hdate : date.isValid = true) (hyear : earlier.year < date.year)
    (hyears : date.year ≤ earlier.year + 8) :
    earlier.number < date.number ∧ date.number ≤ earlier.number + 3294 := by
  have hfrom := Date.yearOf_bounds earlier.number
  have hto := Date.yearOf_bounds date.number
  rw [Date.yearOf_number hearlier] at hfrom
  rw [Date.yearOf_number hdate] at hto
  have horder := Date.daysBeforeYear_mono (show earlier.year + 1 ≤ date.year by omega)
  have hlater := Date.daysBeforeYear_mono (show date.year + 1 ≤ earlier.year + 9 by omega)
  have hnine : Date.daysBeforeYear (earlier.year + 9) ≤ Date.daysBeforeYear earlier.year + 3294 := by
    simp only [Date.daysBeforeYear]
    omega
  omega

/-- Before every allowed day there is another one, not too far away. -/
theorem exists_day_before (h : fields.AllowsDate day) :
    ∃ earlier, (earlier < day ∧ day ≤ earlier + 3294) ∧ fields.AllowsDate earlier := by
  obtain ⟨hmonth, hday⟩ := h
  obtain ⟨hvalid, hnumber⟩ := Date.ofNumber_spec day
  rcases allowsDay_cases hday with hinMonth | hinWeek
  · obtain ⟨years, hyears, hbefore⟩ := exists_date_before hvalid
    have hbounds := number_bounds hbefore hvalid (by simp only; omega) (by simp only; omega)
    rw [hnumber] at hbounds
    refine ⟨_, hbounds, ?_⟩
    simp only [AllowsDate, Date.ofNumber_number hbefore]
    exact ⟨hmonth, hinMonth _⟩
  · -- The first seven days of the same month of the year before have every weekday.
    have hmonthRange := ((Date.isValid_iff _).mp hvalid).1
    generalize hdate : Date.ofNumber day = date at *
    have hlength := Date.monthLength_bounds (date.year - 1) date.month
    let first : Date := ⟨date.year - 1, date.month, 1⟩
    have hfirst : first.isValid = true :=
      (Date.isValid_iff _).mpr ⟨hmonthRange, Nat.le_refl 1, by simp only [first]; omega⟩
    let shift : Nat := ((day - first.number) % 7).toNat
    have hplace : Date.ofNumber (first.number + (shift + 1 : Nat) - first.day) =
        ⟨date.year - 1, date.month, shift + 1⟩ :=
      Date.ofNumber_inMonth hfirst (Nat.le_add_left 1 _) (by simp only [first, shift]; omega)
    have hcount : first.number + (shift + 1 : Nat) - first.day = first.number + shift := by
      simp only [first]
      omega
    rw [hcount] at hplace
    have hspec := Date.ofNumber_spec (first.number + shift)
    rw [hplace] at hspec
    have hbounds := number_bounds hspec.1 hvalid (by simp only; omega) (by simp only; omega)
    rw [hspec.2, hnumber] at hbounds
    refine ⟨_, hbounds, ?_⟩
    simp only [AllowsDate, hplace]
    refine ⟨hmonth, hinWeek _ _ ?_⟩
    simp only [Date.weekday, shift]
    omega

/-! ## One step of the search -/

/-- The minute that the search finds without leaving the hour. -/
def inHour? (fields : CronFields) (instant : Instant) : Option Instant :=
  if fields.months.testBit instant.date.month &&
      fields.allowsDay instant.dayNumber instant.date.day && fields.hours.testBit instant.hour then
    fields.minuteOfHour? instant
  else none

/-- Where the search goes on otherwise. -/
def skipTo (fields : CronFields) (instant : Instant) : Int :=
  if !fields.months.testBit instant.date.month then
    (instant.date.monthAfter.number - Date.epoch) * 86400
  else if !fields.allowsDay instant.dayNumber instant.date.day then
    (instant.dayNumber + 1 - Date.epoch) * 86400
  else instant.second - instant.second % 3600 + 3600

theorem search_succ (fuel : Nat) :
    fields.search (fuel + 1) instant =
      match fields.inHour? instant with
      | some found => some found
      | none => (Instant.ofSecond? (fields.skipTo instant) 0).bind (fields.search fuel) := by
  simp only [search, inHour?, skipTo]
  cases fields.months.testBit instant.date.month
  · rfl
  cases fields.allowsDay instant.dayNumber instant.date.day
  · rfl
  cases fields.hours.testBit instant.hour
  · rfl
  · simp only [Bool.not_true, Bool.and_self, if_true, Bool.false_eq_true, if_false]
    cases fields.minuteOfHour? instant <;> rfl

/-- Of the hour's minutes the first allowed one is taken. -/
theorem minuteOfHour?_cases (fields : CronFields) (instant : Instant) :
    (∃ minute, (instant.minute ≤ minute ∧ minute < 60) ∧ fields.minutes.testBit minute = true ∧
      (∀ other, instant.minute ≤ other → other < minute → fields.minutes.testBit other = false) ∧
      fields.minuteOfHour? instant =
        some ⟨instant.second - instant.second % 3600 + (minute * 60 : Nat), 0⟩) ∨
    (∀ other, instant.minute ≤ other → other < 60 → fields.minutes.testBit other = false) ∧
      fields.minuteOfHour? instant = none := by
  have hminute : instant.minute < 60 := Nat.mod_lt _ (by decide)
  have hcandidates : (List.range 60).drop instant.minute =
      List.range' instant.minute (60 - instant.minute) := by
    rw [List.range_eq_range', List.drop_range']
    simp
  simp only [minuteOfHour?, hcandidates]
  cases hfind : (List.range' instant.minute (60 - instant.minute)).find? fields.minutes.testBit with
  | some minute =>
      obtain ⟨hallowed, hmem, hfirst⟩ := List.find?_range'_eq_some.mp hfind
      have hrange := List.mem_range'_1.mp hmem
      refine .inl ⟨minute, ⟨hrange.1, by omega⟩, hallowed, fun other hfrom hto => ?_, rfl⟩
      simpa using hfirst other hfrom hto
  | none =>
      refine .inr ⟨fun other hfrom hto => ?_, rfl⟩
      simpa using List.find?_range'_eq_none.mp hfind other hfrom (by omega)

/-- Allowed minutes of the same hour have an allowed minute of the hour. -/
theorem sameHour (hwhole : instant.second % 60 = 0) {minute : Instant}
    (hhour : minute.second / 3600 = instant.second / 3600) :
    minute.dayNumber = instant.dayNumber ∧ minute.hour = instant.hour ∧
      (instant.second ≤ minute.second → instant.minute ≤ minute.minute) := by
  simp only [Instant.dayNumber, Instant.hour, Instant.minute, Instant.secondOfDay,
    Instant.secondsPerDay]
  omega

theorem inHour?_eq_some (hwhole : instant.second % 60 = 0)
    (h : fields.inHour? instant = some found) :
    fields.Allows found ∧ (instant.second ≤ found.second ∧
      found.second / 3600 = instant.second / 3600) ∧ fields.Bars instant.second found.second := by
  unfold inHour? at h
  split at h
  case isFalse => cases h
  case isTrue hhere =>
    simp only [Bool.and_eq_true] at hhere
    obtain ⟨⟨hmonth, hday⟩, hhour⟩ := hhere
    rcases minuteOfHour?_cases fields instant with
      ⟨minute, hrange, hallowed, hfirst, hfound⟩ | ⟨-, hnone⟩
    · obtain rfl := Option.some.inj (hfound.symm.trans h)
      have hsame := @sameHour instant hwhole
        ⟨instant.second - instant.second % 3600 + (minute * 60 : Nat), 0⟩ (by simp only; omega)
      have hminute : Instant.minute ⟨instant.second - instant.second % 3600 + (minute * 60 : Nat), 0⟩ =
          minute := by
        simp only [Instant.minute, Instant.secondOfDay, Instant.secondsPerDay]
        omega
      have hfrom : instant.second ≤ instant.second - instant.second % 3600 + (minute * 60 : Nat) := by
        have := hrange.1
        simp only [Instant.minute, Instant.secondOfDay, Instant.secondsPerDay] at this
        omega
      refine ⟨⟨⟨rfl, by simp only; omega⟩, ?_, ?_, ?_⟩, ⟨hfrom, by simp only; omega⟩, ?_⟩
      · rw [hsame.1]
        exact ⟨hmonth, hday⟩
      · rw [hsame.2.1]
        exact hhour
      · rw [hminute]
        exact hallowed
      · intro other hother hafter
        by_contra hearlier
        simp only [not_le] at hearlier
        have hwithin := @sameHour instant hwhole other (by omega)
        have hbefore : other.minute < minute := by
          have := hother.whole.2
          simp only [Instant.minute, Instant.secondOfDay, Instant.secondsPerDay]
          omega
        have hruled := hfirst other.minute (hwithin.2.2 hafter) hbefore
        rw [hother.minute] at hruled
        cases hruled
    · rw [hnone] at h
      cases h

/-- The search leaves an hour, a day or a month. -/
inductive Skip (fields : CronFields) (instant : Instant) : Int → Prop
  | month (hmonth : fields.months.testBit instant.date.month = false) :
      Skip fields instant ((instant.date.monthAfter.number - Date.epoch) * 86400)
  | day (hday : fields.allowsDay instant.dayNumber instant.date.day = false) :
      Skip fields instant ((instant.dayNumber + 1 - Date.epoch) * 86400)
  | hour (hdate : fields.AllowsDate instant.dayNumber)
      (hnone : ∀ minute, fields.Allows minute → instant.second ≤ minute.second →
        minute.second / 3600 ≠ instant.second / 3600) :
      Skip fields instant (instant.second - instant.second % 3600 + 3600)

theorem skip_of_inHour? (hwhole : instant.second % 60 = 0)
    (h : fields.inHour? instant = none) : Skip fields instant (fields.skipTo instant) := by
  unfold skipTo
  unfold inHour? at h
  cases hmonth : fields.months.testBit instant.date.month with
  | false => exact .month hmonth
  | true =>
  cases hday : fields.allowsDay instant.dayNumber instant.date.day with
  | false => exact .day hday
  | true =>
  refine .hour ⟨hmonth, hday⟩ fun minute hallows hafter hhour => ?_
  have hsame := sameHour hwhole hhour
  cases hallowed : fields.hours.testBit instant.hour with
  | false =>
      have := hallows.hour
      rw [hsame.2.1, hallowed] at this
      cases this
  | true =>
      simp only [hmonth, hday, hallowed, Bool.and_self, if_true] at h
      rcases minuteOfHour?_cases fields instant with ⟨_, _, _, _, hfound⟩ | ⟨hnone, -⟩
      · rw [hfound] at h
        cases h
      · have hruled := hnone minute.minute (hsame.2.2 hafter) (Nat.mod_lt _ (by decide))
        rw [hallows.minute] at hruled
        cases hruled

variable {next : Int}

/-- A skip leads forwards to a whole minute and passes no allowed one. -/
theorem Skip.spec (hwhole : instant.second % 60 = 0) (h : Skip fields instant next) :
    instant.second < next ∧ next % 60 = 0 ∧ fields.Bars instant.second next := by
  have hday : instant.dayNumber = instant.second / 86400 + Date.epoch := rfl
  cases h with
  | month hmonth =>
      obtain ⟨hvalid, hnumber⟩ := Date.ofNumber_spec instant.dayNumber
      have hlater := Date.monthAfter_number hvalid
      have hlast := ((Date.isValid_iff _).mp hvalid).2.2
      change instant.date.monthAfter.number = instant.date.number +
        (Date.monthLength instant.date.year instant.date.month + 1 : Nat) - instant.date.day at hlater
      change instant.date.day ≤ Date.monthLength instant.date.year instant.date.month at hlast
      change instant.date.number = _ at hnumber
      refine ⟨by omega, by omega, fun minute hallows hafter => ?_⟩
      by_contra hearlier
      have hday : minute.dayNumber = minute.second / 86400 + Date.epoch := rfl
      have hsame : (Date.ofNumber minute.dayNumber).month = instant.date.month :=
        Date.ofNumber_month hvalid (by rw [Date.ofNumber_spec instant.dayNumber |>.2]; omega)
          (by change _ < instant.date.monthAfter.number; omega)
      have hallowed := hallows.date.1
      rw [hsame] at hallowed
      exact absurd (hallowed.symm.trans hmonth) (by decide)
  | day hruled =>
      refine ⟨by omega, by omega, fun minute hallows hafter => ?_⟩
      by_contra hearlier
      have hsame : minute.dayNumber = instant.dayNumber :=
        Instant.dayNumber_of_midnight (by omega)
      have hallowed := hallows.date.2
      rw [hsame] at hallowed
      exact absurd (hallowed.symm.trans hruled) (by decide)
  | hour hdate hnone =>
      refine ⟨by omega, by omega, fun minute hallows hafter => ?_⟩
      by_contra hearlier
      exact hnone minute hallows hafter (by omega)

/-! ## The whole search -/

/-- What is found is the first allowed minute. -/
theorem search_sound {fuel : Nat} (hwhole : instant.second % 60 = 0) (hrange : instant.InRange)
    (h : fields.search fuel instant = some found) :
    fields.Allows found ∧ found.InRange ∧ instant.second ≤ found.second ∧
      fields.Bars instant.second found.second := by
  induction fuel generalizing instant with
  | zero => cases h
  | succ fuel ih =>
      rw [search_succ] at h
      cases hhere : fields.inHour? instant with
      | some minute =>
          rw [hhere] at h
          obtain rfl := Option.some.inj h
          obtain ⟨hallows, hhour, hbars⟩ := inHour?_eq_some hwhole hhere
          have hend := Instant.endSecond_whole
          exact ⟨hallows, ⟨by have := hrange.1; omega, by have := hrange.2; omega⟩, hhour.1, hbars⟩
      | none =>
          rw [hhere] at h
          obtain ⟨next, hnext, hrest⟩ := Option.bind_eq_some_iff.mp h
          obtain ⟨rfl, hnextRange⟩ := Instant.ofSecond?_eq_some.mp hnext
          obtain ⟨hforward, hnextWhole, hbars⟩ := (skip_of_inHour? hwhole hhere).spec hwhole
          obtain ⟨hallows, hfoundRange, hfrom, hrestBars⟩ := ih hnextWhole hnextRange hrest
          exact ⟨hallows, hfoundRange, hforward.le.trans hfrom, hbars.trans hrestBars⟩

/--
Skips that are left on the way from one second to another: the days between them, and the hours
of the first and of the last day.
-/
def effort (first last : Int) : Int :=
  if first / 86400 = last / 86400 then last / 3600 - first / 3600
  else last / 86400 - first / 86400 + 24 +
    if first % 86400 = 0 then 0 else 24 - first % 86400 / 3600

/-- An hour of an allowed day is skipped only on the way, after its midnight, or on the last day. -/
theorem Skip.effort_lt (hwhole : instant.second % 60 = 0) (h : Skip fields instant next)
    (hallows : fields.Allows found) (hfrom : instant.second ≤ found.second)
    (hbars : fields.Bars instant.second found.second) :
    effort next found.second < effort instant.second found.second := by
  obtain ⟨hforward, -, hpassed⟩ := h.spec hwhole
  have hnext := hpassed found hallows hfrom
  have hday : instant.dayNumber = instant.second / 86400 + Date.epoch := rfl
  cases h with
  | month | day =>
      unfold effort
      omega
  | hour hdate =>
      -- From the midnight of an allowed day the search reaches a minute of that day.
      have hmidnight : instant.second / 86400 < found.second / 86400 →
          instant.second % 86400 ≠ 0 := by
        intro hlater hzero
        have hsooner := hbars _ (hallows.onDay hdate) (by simp only; omega)
        simp only at hsooner
        omega
      unfold effort
      omega

/-- An allowed minute is found with as many skips as are left on the way to it. -/
theorem search_complete {fuel : Nat} (hwhole : instant.second % 60 = 0)
    (hrange : instant.InRange) (hallows : fields.Allows found) (hfound : found.InRange)
    (hfrom : instant.second ≤ found.second) (hbars : fields.Bars instant.second found.second)
    (hfuel : effort instant.second found.second < fuel) :
    fields.search fuel instant = some found := by
  induction fuel generalizing instant with
  | zero =>
      unfold effort at hfuel
      omega
  | succ fuel ih =>
      rw [search_succ]
      cases hhere : fields.inHour? instant with
      | some minute =>
          obtain ⟨hminute, hhour, hfirst⟩ := inHour?_eq_some hwhole hhere
          have hle := hbars minute hminute hhour.1
          have hge := hfirst found hallows hfrom
          rw [hminute.eq_of_second hallows (Int.le_antisymm hge hle)]
      | none =>
          have hskip := skip_of_inHour? hwhole hhere
          obtain ⟨hforward, hnextWhole, hpassed⟩ := hskip.spec hwhole
          have hnext := hpassed found hallows hfrom
          have hless := hskip.effort_lt hwhole hallows hfrom hbars
          have hnextRange : Instant.InRange ⟨fields.skipTo instant, 0⟩ :=
            ⟨by have := hrange.1; simp only; omega, by have := hfound.2; simp only; omega⟩
          simp only [Instant.ofSecond?_eq_some.mpr ⟨rfl, hnextRange⟩, Option.bind_some]
          exact ih hnextWhole hnextRange hnext
            (fun minute hminute hafter => hbars minute hminute (by simp only at hafter; omega))
            (by simp only; omega)

/-- With an allowed minute ahead, the search ends within its limit. -/
theorem search_exists (hwhole : instant.second % 60 = 0) (hrange : instant.InRange)
    (hallows : fields.Allows found) (hfound : found.InRange)
    (hfrom : instant.second ≤ found.second) :
    ∃ first, fields.search searchLimit instant = some first := by
  obtain ⟨second, ⟨hfirst, hafter⟩, hleast⟩ := Int.exists_least_of_bdd
    (P := fun second => fields.Allows ⟨second, 0⟩ ∧ instant.second ≤ second)
    ⟨instant.second, fun _ h => h.2⟩
    ⟨found.second, by rw [← hallows.whole.1]; exact hallows, hfrom⟩
  have hbars : fields.Bars instant.second second := by
    intro minute hminute hfrom
    refine hleast minute.second ⟨?_, hfrom⟩
    rw [← hminute.whole.1]
    exact hminute
  have hbefore := hbars found hallows hfrom
  have hsecondRange : Instant.InRange ⟨second, 0⟩ :=
    ⟨le_trans hrange.1 hafter, lt_of_le_of_lt hbefore hfound.2⟩
  refine ⟨⟨second, 0⟩, search_complete hwhole hrange hfirst hsecondRange hafter hbars ?_⟩
  -- The same minute of the allowed day before lies before the start of the search.
  obtain ⟨earlier, hnear, hearlier⟩ := exists_day_before hfirst.date
  have hpast := mt (hbars _ (hfirst.onDay hearlier))
  have hday : Instant.dayNumber ⟨second, 0⟩ = second / 86400 + Date.epoch := rfl
  rw [hday] at hnear
  simp only [not_le] at hpast
  have hgap := hpast (by omega)
  unfold effort searchLimit
  simp only
  omega

/-! ## The next fire time -/

/-- The allowed minutes after an instant that can be represented. -/
def after (fields : CronFields) (instant : Instant) : Set Instant :=
  {minute | fields.Allows minute ∧ minute.InRange ∧ instant < minute}

/-- The search starts at the next whole minute, which no allowed minute precedes. -/
theorem mem_after_iff {minute : Instant} :
    minute ∈ fields.after instant ↔ fields.Allows minute ∧ minute.InRange ∧
      instant.second - instant.second % 60 + 60 ≤ minute.second := by
  refine and_congr_right fun hallows => and_congr_right fun _ => ?_
  rw [Instant.lt_iff_of_whole hallows.whole.1]
  have := hallows.whole.2
  omega

/-- What is found is the first allowed minute after the instant. -/
theorem isLeast_of_nextAfter? (h : fields.nextAfter? instant = some found) :
    IsLeast (fields.after instant) found := by
  obtain ⟨start, hstart, hsearch⟩ := Option.bind_eq_some_iff.mp h
  obtain ⟨rfl, hstartRange⟩ := Instant.ofSecond?_eq_some.mp hstart
  obtain ⟨hallows, hfound, hfrom, hbars⟩ :=
    search_sound (by simp only; omega) hstartRange hsearch
  refine ⟨mem_after_iff.mpr ⟨hallows, hfound, hfrom⟩, fun minute hminute => ?_⟩
  obtain ⟨hminuteAllows, -, hminuteFrom⟩ := mem_after_iff.mp hminute
  rw [Instant.le_iff_of_whole hallows.whole.1 hminuteAllows.whole.1]
  exact hbars minute hminuteAllows hminuteFrom

/-- With an allowed minute ahead, one is found. -/
theorem exists_nextAfter? (hrange : instant.InRange) {minute : Instant}
    (hminute : minute ∈ fields.after instant) :
    ∃ found, fields.nextAfter? instant = some found := by
  obtain ⟨hallows, hminuteRange, hfrom⟩ := mem_after_iff.mp hminute
  have hstart : Instant.InRange ⟨instant.second - instant.second % 60 + 60, 0⟩ :=
    ⟨by have := hrange.1; simp only; omega, lt_of_le_of_lt hfrom hminuteRange.2⟩
  simp only [nextAfter?, Instant.ofSecond?_eq_some.mpr ⟨rfl, hstart⟩, Option.bind_some]
  exact search_exists (by simp only; omega) hstart hallows hminuteRange hfrom

theorem isLeast_unique {other : Instant} (h : IsLeast (fields.after instant) found)
    (hother : IsLeast (fields.after instant) other) : found = other := by
  have hle := h.2 hother.1
  have hge := hother.2 h.1
  rw [Instant.le_iff_of_whole h.1.1.whole.1 hother.1.1.whole.1] at hle
  rw [Instant.le_iff_of_whole hother.1.1.whole.1 h.1.1.whole.1] at hge
  exact h.1.1.eq_of_second hother.1.1 (Int.le_antisymm hle hge)

theorem nextAfter?_eq_some_iff (hrange : instant.InRange) :
    fields.nextAfter? instant = some found ↔ IsLeast (fields.after instant) found := by
  refine ⟨isLeast_of_nextAfter?, fun hleast => ?_⟩
  obtain ⟨other, hother⟩ := exists_nextAfter? hrange hleast.1
  rw [hother, isLeast_unique hleast (isLeast_of_nextAfter? hother)]

theorem nextAfter?_eq_none_iff (hrange : instant.InRange) :
    fields.nextAfter? instant = none ↔ ¬ ∃ minute, minute ∈ fields.after instant := by
  constructor
  · rintro hnone ⟨minute, hminute⟩
    obtain ⟨found, hfound⟩ := exists_nextAfter? hrange hminute
    rw [hnone] at hfound
    cases hfound
  · intro hempty
    cases hnext : fields.nextAfter? instant with
    | none => rfl
    | some found => exact absurd ⟨found, (isLeast_of_nextAfter? hnext).1⟩ hempty

theorem mem_after_trans {middle : Instant} (hmiddle : middle ∈ fields.after instant)
    (hfound : found ∈ fields.after middle) : found ∈ fields.after instant := by
  refine ⟨hfound.1, hfound.2.1, ?_⟩
  have hfirst := hmiddle.2.2
  have hsecond := hfound.2.2
  rw [Instant.lt_iff_of_whole hmiddle.1.whole.1] at hfirst
  rw [Instant.lt_iff_of_whole hfound.1.whole.1] at hsecond ⊢
  exact hfirst.trans hsecond

end CronFields

/-! ## Firing again and again -/

namespace CronSchedule

/-- The fire times after an instant, one after the other. -/
def firing (schedule : CronSchedule) (instant : Instant) : Nat → Option Instant
  | 0 => some instant
  | count + 1 => (firing schedule instant count).bind schedule.nextAfter?

theorem firing_succ' (schedule : CronSchedule) (instant : Instant) (count : Nat) :
    schedule.firing instant (count + 1) =
      (schedule.nextAfter? instant).bind fun next => schedule.firing next count := by
  induction count with
  | zero => simp [firing]
  | succ count ih =>
      rw [firing, ih]
      cases schedule.nextAfter? instant <;> rfl

variable {fields : CronFields} {instant found : Instant}

/-- Every fire time lies after the one before. -/
theorem firing_lt {count : Nat} {next : Instant}
    (h : (calendar fields).firing instant count = some found)
    (hnext : (calendar fields).firing instant (count + 1) = some next) : found < next := by
  rw [firing, h] at hnext
  exact (CronFields.isLeast_of_nextAfter? hnext).1.2.2

/-- Fire times are allowed minutes after the instant. -/
theorem mem_after_of_firing {count : Nat}
    (h : (calendar fields).firing instant (count + 1) = some found) :
    found ∈ fields.after instant := by
  induction count generalizing found with
  | zero => exact (CronFields.isLeast_of_nextAfter? h).1
  | succ count ih =>
      obtain ⟨middle, hmiddle, hfound⟩ := Option.bind_eq_some_iff.mp h
      exact CronFields.mem_after_trans (ih hmiddle) (CronFields.isLeast_of_nextAfter? hfound).1

/-- No allowed minute is skipped: each comes up as a fire time. -/
theorem exists_firing (hrange : instant.InRange) (hfound : found ∈ fields.after instant) :
    ∃ count, (calendar fields).firing instant (count + 1) = some found := by
  -- The minutes left until it become fewer with every fire time before it.
  induction hleft : (found.second - instant.second).toNat using Nat.strongRecOn
    generalizing instant with
  | ind left ih =>
      obtain ⟨next, hnext⟩ := CronFields.exists_nextAfter? hrange hfound
      have hleast := CronFields.isLeast_of_nextAfter? hnext
      by_cases hhere : next = found
      · refine ⟨0, ?_⟩
        rw [← hhere]
        exact hnext
      · have hle := hleast.2 hfound
        have hafter := hleast.1.2.2
        rw [Instant.le_iff_of_whole hleast.1.1.whole.1 hfound.1.whole.1] at hle
        rw [Instant.lt_iff_of_whole hleast.1.1.whole.1] at hafter
        have hless : next.second < found.second :=
          lt_of_le_of_ne hle fun hequal => hhere (hleast.1.1.eq_of_second hfound.1 hequal)
        have hrest : found ∈ fields.after next :=
          ⟨hfound.1, hfound.2.1, (Instant.lt_iff_of_whole hfound.1.whole.1).mpr hless⟩
        obtain ⟨count, hcount⟩ := ih _ (by omega) hleast.1.2.1 hrest rfl
        refine ⟨count + 1, ?_⟩
        rw [firing_succ']
        exact Option.bind_eq_some_iff.mpr ⟨next, hnext, hcount⟩

end CronSchedule

end Chronicle
