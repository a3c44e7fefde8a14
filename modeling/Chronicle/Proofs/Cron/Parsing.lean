import Chronicle.Cron.Parser
import Chronicle.Proofs.Cron.Search
import Mathlib.Data.Nat.Bitwise

/-!
# Calendar expressions

The masks of a parsed expression hold the values that its five fields name.  Its fire times are
the whole minutes that the masks allow, on days that satisfy the rule for days: a day field
counts unless its text is a lone star, and of two that count one is enough.
-/

namespace Chronicle

theorem CronField.greatest_lt (field : CronField) : field.greatest < Nat.pow 2 32 := by
  cases field <;> decide

namespace CronParser

/-! ## Masks -/

theorem maskOf_testBit (values : List Nat) (value : Nat) :
    (maskOf values).testBit value = true ↔ value ∈ values := by
  suffices h : ∀ mask : Nat, (values.foldl (fun mask value => mask ||| 1 <<< value) mask).testBit
      value = true ↔ mask.testBit value = true ∨ value ∈ values by
    simpa [maskOf] using h 0
  induction values with
  | nil => simp
  | cons first rest ih =>
      intro mask
      rw [List.foldl_cons, ih, Nat.testBit_or, Bool.or_eq_true, Nat.one_shiftLeft,
        Nat.testBit_two_pow, decide_eq_true_eq, List.mem_cons, or_assoc, eq_comm (a := first)]

/-- Stepping ends at the last value, and not before it for want of bits. -/
theorem Part.mem_valuesFrom {part : Part} {value : Nat} (hstep : part.step ≠ 0)
    (hlast : part.last < Nat.pow 2 32) {fuel start : Nat} (hfuel : part.last + 1 - start ≤ fuel) :
    value ∈ part.valuesFrom fuel start ↔
      (start ≤ value ∧ value ≤ part.last) ∧ part.step ∣ value - start := by
  induction fuel generalizing start with
  | zero =>
      simp only [valuesFrom, List.not_mem_nil, false_iff]
      omega
  | succ fuel ih =>
      -- a multiple of the step that is not zero is the step at least
      have hmultiple : start ≤ value → part.step ∣ value - start →
          value = start ∨ start + part.step ≤ value := by
        intro hstart hdvd
        by_cases hsame : value = start
        · exact .inl hsame
        · have hle := Nat.le_of_dvd (by omega) hdvd
          exact .inr (by omega)
      unfold valuesFrom next?
      split
      case isTrue hover =>
        simp only [List.not_mem_nil, false_iff]
        omega
      case isFalse hwithin =>
        split
        case h_1 next hnext =>
          obtain rfl := Option.some.inj (Option.ite_none_right_eq_some.1 hnext).2
          rw [List.mem_cons, ih (by omega)]
          constructor
          · rintro (rfl | ⟨⟨hstart, hend⟩, hdvd⟩)
            · exact ⟨by omega, by simp⟩
            · refine ⟨by omega, ?_⟩
              rw [show value - start = value - (start + part.step) + part.step from by omega]
              exact Nat.dvd_add hdvd (Nat.dvd_refl _)
          · rintro ⟨⟨hstart, hend⟩, hdvd⟩
            refine (hmultiple hstart hdvd).imp id fun hfurther => ⟨by omega, ?_⟩
            rw [Nat.sub_add_eq]
            exact Nat.dvd_sub hdvd (Nat.dvd_refl _)
        case h_2 hnext =>
          have hbeyond : Nat.pow 2 32 ≤ start + part.step := by simpa using hnext
          rw [List.mem_singleton]
          constructor
          · rintro rfl
            exact ⟨by omega, by simp⟩
          · rintro ⟨⟨hstart, hend⟩, hdvd⟩
            exact (hmultiple hstart hdvd).resolve_right (by omega)

theorem Part.mem_values {part : Part} {value : Nat} (hstep : part.step ≠ 0)
    (hlast : part.last < Nat.pow 2 32) : value ∈ part.values ↔
      (part.first ≤ value ∧ value ≤ part.last) ∧ part.step ∣ value - part.first :=
  mem_valuesFrom hstep hlast (Nat.le_refl _)

theorem part?_fits {field : CronField} {text : List Char} {part : Part}
    (h : part? field text = some part) : part.step ≠ 0 ∧ part.last ≤ field.greatest := by
  unfold part? at h
  split at h
  all_goals
    simp only [Option.bind_eq_bind, Option.bind_eq_some_iff] at h
    obtain ⟨⟨range, step, stepped⟩, -, ⟨first, last⟩, -, hpart⟩ := h
    simp only at hpart
    split at hpart
    case isTrue => cases hpart
    case isFalse hvalid =>
      obtain rfl := Option.some.inj hpart
      simp only [Bool.or_eq_true, decide_eq_true_eq, not_or, not_lt] at hvalid
      exact ⟨hvalid.1.1.1, hvalid.1.2⟩

/-- The values that the text of a field names, part by part. -/
def Names (field : CronField) (text : List Char) (value : Nat) : Prop :=
  ∃ partText ∈ Text.splitAt ',' text, ∃ part, part? field partText = some part ∧
    (part.first ≤ value ∧ value ≤ part.last) ∧ part.step ∣ value - part.first

theorem mem_of_mapM {α β : Type} {read : α → Option β} {texts : List α} {values : List β}
    (h : texts.mapM read = some values) (value : β) :
    value ∈ values ↔ ∃ text ∈ texts, read text = some value := by
  induction texts generalizing values with
  | nil =>
      obtain rfl : [] = values := by simpa using h
      simp
  | cons text texts ih =>
      simp only [List.mapM_cons, Option.bind_eq_bind, Option.bind_eq_some_iff] at h
      obtain ⟨first, hfirst, rest, hrest, hvalues⟩ := h
      obtain rfl := Option.some.inj hvalues
      simp only [List.mem_cons, ih hrest, exists_eq_or_imp, hfirst, Option.some.injEq,
        eq_comm (a := value)]

theorem field?_testBit {field : CronField} {text : List Char} {mask : Nat}
    (h : field? field text = .ok mask) (value : Nat) :
    mask.testBit value = true ↔ Names field text value := by
  unfold field? at h
  split at h
  case h_2 => cases h
  case h_1 parts hparts =>
    obtain rfl := Except.ok.inj h
    rw [maskOf_testBit, List.mem_flatMap]
    have hvalues : ∀ partText part, part? field partText = some part → (value ∈ part.values ↔
        (part.first ≤ value ∧ value ≤ part.last) ∧ part.step ∣ value - part.first) := by
      intro partText part hpart
      obtain ⟨hstep, hlast⟩ := part?_fits hpart
      exact Part.mem_values hstep (Nat.lt_of_le_of_lt hlast field.greatest_lt)
    constructor
    · rintro ⟨part, hmem, hvalue⟩
      obtain ⟨partText, htext, hpart⟩ := (mem_of_mapM hparts part).mp hmem
      exact ⟨partText, htext, part, hpart, (hvalues partText part hpart).mp hvalue⟩
    · rintro ⟨partText, htext, part, hpart, hvalue⟩
      exact ⟨part, (mem_of_mapM hparts part).mpr ⟨partText, htext, hpart⟩,
        (hvalues partText part hpart).mpr hvalue⟩

/-- In the mask of weekdays Sunday has the value 0, whichever way it is written. -/
theorem foldSunday_testBit (mask : Nat) {value : Nat} (hvalue : value < 7) :
    (foldSunday mask).testBit value = true ↔
      mask.testBit value = true ∨ value = 0 ∧ mask.testBit 7 = true := by
  unfold foldSunday
  split
  case isTrue hseven =>
    rw [show (128 : Nat) = 2 ^ 7 from rfl, Nat.testBit_mod_two_pow, Nat.testBit_or]
    simp only [hvalue, hseven, decide_true, Bool.true_and, Bool.or_eq_true,
      Nat.testBit_one_eq_true_iff_self_eq_zero, and_true]
  case isFalse hseven => simp [hseven]

end CronParser

/-! ## Expressions -/

/-- The texts of the five fields. -/
structure CronWords where
  minute : List Char
  hour : List Char
  dayOfMonth : List Char
  month : List Char
  dayOfWeek : List Char

namespace CronWords

def toList (words : CronWords) : List (List Char) :=
  [words.minute, words.hour, words.dayOfMonth, words.month, words.dayOfWeek]

/-- The masks hold what the texts name. -/
structure Describe (words : CronWords) (fields : CronFields) : Prop where
  minutes (value : Nat) :
    fields.minutes.testBit value = true ↔ CronParser.Names .minute words.minute value
  hours (value : Nat) :
    fields.hours.testBit value = true ↔ CronParser.Names .hour words.hour value
  daysOfMonth (value : Nat) :
    fields.daysOfMonth.testBit value = true ↔ CronParser.Names .dayOfMonth words.dayOfMonth value
  months (value : Nat) :
    fields.months.testBit value = true ↔ CronParser.Names .month words.month value
  daysOfWeek (value : Nat) (hvalue : value < 7) :
    fields.daysOfWeek.testBit value = true ↔ CronParser.Names .dayOfWeek words.dayOfWeek value ∨
      value = 0 ∧ CronParser.Names .dayOfWeek words.dayOfWeek 7

/-- The rule for days. -/
def DayRule (words : CronWords) (inMonth inWeek : Prop) : Prop :=
  if words.dayOfMonth ≠ ['*'] ∧ words.dayOfWeek ≠ ['*'] then inMonth ∨ inWeek
  else if words.dayOfMonth ≠ ['*'] then inMonth
  else if words.dayOfWeek ≠ ['*'] then inWeek
  else True

/-- A whole minute, one that can be represented, on which the schedule fires. -/
structure Due (words : CronWords) (fields : CronFields) (minute : Instant) : Prop where
  range : minute.InRange
  whole : minute.nano = 0 ∧ minute.second % 60 = 0
  month : fields.months.testBit minute.date.month = true
  day : words.DayRule (fields.daysOfMonth.testBit minute.date.day = true)
    (fields.daysOfWeek.testBit (Date.weekday minute.dayNumber) = true)
  hour : fields.hours.testBit minute.hour = true
  minute : fields.minutes.testBit minute.minute = true

variable {words : CronWords} {fields : CronFields}

theorem dayRule_iff (hmonthly : fields.dayOfMonthRestricted = (words.dayOfMonth != ['*']))
    (hweekly : fields.dayOfWeekRestricted = (words.dayOfWeek != ['*'])) (day : Int)
    (dayOfMonth : Nat) :
    words.DayRule (fields.daysOfMonth.testBit dayOfMonth = true)
        (fields.daysOfWeek.testBit (Date.weekday day) = true) ↔
      fields.allowsDay day dayOfMonth = true := by
  unfold DayRule CronFields.allowsDay
  rw [hmonthly, hweekly]
  cases hmonth : words.dayOfMonth != ['*'] <;> cases hweek : words.dayOfWeek != ['*'] <;>
    simp only [bne_iff_ne, bne_eq_false_iff_eq] at hmonth hweek <;> simp [hmonth, hweek]

theorem due_and_lt_iff (hmonthly : fields.dayOfMonthRestricted = (words.dayOfMonth != ['*']))
    (hweekly : fields.dayOfWeekRestricted = (words.dayOfWeek != ['*'])) (instant minute : Instant) :
    words.Due fields minute ∧ instant < minute ↔ minute ∈ fields.after instant := by
  have hrule := dayRule_iff hmonthly hweekly minute.dayNumber minute.date.day
  constructor
  · rintro ⟨hdue, hafter⟩
    exact ⟨⟨hdue.whole, ⟨hdue.month, hrule.mp hdue.day⟩, hdue.hour, hdue.minute⟩, hdue.range, hafter⟩
  · rintro ⟨hallows, hrange, hafter⟩
    exact ⟨⟨hrange, hallows.whole, hallows.date.1, hrule.mpr hallows.date.2, hallows.hour,
      hallows.minute⟩, hafter⟩

end CronWords

/-! ## Parsing -/

theorem exists_of_bind_ok {α β : Type} {first : Except CronError α}
    {rest : α → Except CronError β} {result : β} (h : first >>= rest = .ok result) :
    ∃ value, first = .ok value ∧ rest value = .ok result := by
  cases first with
  | error => cases h
  | ok value => exact ⟨value, rfl, h⟩

/-- Five texts are read, which say what the masks hold and which day fields count. -/
theorem CronParser.fields?_spec {texts : List (List Char)} {fields : CronFields}
    (h : CronParser.fields? texts = .ok fields) :
    ∃ words : CronWords, texts = words.toList ∧ words.Describe fields ∧
      fields.dayOfMonthRestricted = (words.dayOfMonth != ['*']) ∧
      fields.dayOfWeekRestricted = (words.dayOfWeek != ['*']) := by
  unfold fields? at h
  split at h
  case h_2 => cases h
  case h_1 minute hour dayOfMonth month dayOfWeek =>
    obtain ⟨daysOfWeek, hdaysOfWeek, h⟩ := exists_of_bind_ok h
    obtain ⟨minutes, hminutes, h⟩ := exists_of_bind_ok h
    obtain ⟨hours, hhours, h⟩ := exists_of_bind_ok h
    obtain ⟨daysOfMonth, hdaysOfMonth, h⟩ := exists_of_bind_ok h
    obtain ⟨months, hmonths, h⟩ := exists_of_bind_ok h
    obtain rfl := Except.ok.inj h
    refine ⟨⟨minute, hour, dayOfMonth, month, dayOfWeek⟩, rfl, ?_, rfl, rfl⟩
    refine ⟨field?_testBit hminutes, field?_testBit hhours, field?_testBit hdaysOfMonth,
      field?_testBit hmonths, fun value hvalue => ?_⟩
    rw [foldSunday_testBit daysOfWeek hvalue, field?_testBit hdaysOfWeek,
      field?_testBit hdaysOfWeek]

/--
The next fire time is the first due minute after an instant, and there is none only when no due
minute is left.  The fire times one after the other grow, and are just the due minutes.
-/
theorem CronSchedule.nextAfter?_exact {expression : String} {fields : CronFields}
    (hparse : CronSchedule.parse expression = .ok (.calendar fields)) :
    ∃ words : CronWords,
      Text.words (CronParser.expandName (Text.trim expression.toList)) = words.toList ∧
      words.Describe fields ∧
      ∀ instant : Instant, instant.InRange →
        (∀ found, (CronSchedule.calendar fields).nextAfter? instant = some found ↔
          IsLeast {minute | words.Due fields minute ∧ instant < minute} found) ∧
        ((CronSchedule.calendar fields).nextAfter? instant = none ↔
          ¬ ∃ minute, words.Due fields minute ∧ instant < minute) ∧
        (∀ count found next, (CronSchedule.calendar fields).firing instant count = some found →
          (CronSchedule.calendar fields).firing instant (count + 1) = some next → found < next) ∧
        ∀ minute, (∃ count,
            (CronSchedule.calendar fields).firing instant (count + 1) = some minute) ↔
          words.Due fields minute ∧ instant < minute := by
  unfold CronSchedule.parse at hparse
  simp only at hparse
  split at hparse
  case h_1 =>
    cases hinterval : CronParser.interval? (Text.trim _) <;> rw [hinterval] at hparse <;> cases hparse
  case h_2 =>
    cases hfields : CronParser.fields? (Text.words (CronParser.expandName (Text.trim
      expression.toList))) with
    | error => rw [hfields] at hparse; cases hparse
    | ok read =>
        rw [hfields] at hparse
        obtain rfl : read = fields := by cases hparse; rfl
        obtain ⟨words, htexts, hdescribe, hmonthly, hweekly⟩ := CronParser.fields?_spec hfields
        refine ⟨words, htexts, hdescribe, fun instant hrange => ?_⟩
        have hdue := CronWords.due_and_lt_iff hmonthly hweekly instant
        simp only [hdue, Set.ofPred_mem_eq]
        exact ⟨fun found => CronFields.nextAfter?_eq_some_iff hrange,
          CronFields.nextAfter?_eq_none_iff hrange,
          fun count found next => CronSchedule.firing_lt,
          fun minute => ⟨fun ⟨_, hcount⟩ => CronSchedule.mem_after_of_firing hcount,
            CronSchedule.exists_firing hrange⟩⟩

/-- Midnight on every 29 February. -/
def leapDays : CronFields := ⟨1, 1, 2 ^ 29, 4, 127, true, false⟩

/-- Around the year 2100, which has no leap day, eight years pass. -/
theorem leapDays_nextAfter? :
    CronSchedule.parse "0 0 29 2 *" = .ok (.calendar leapDays) ∧
      Instant.InRange ⟨3981339000, 0⟩ ∧
      (CronSchedule.calendar leapDays).nextAfter? ⟨3981339000, 0⟩ = some ⟨4233686400, 0⟩ ∧
      ∃ words : CronWords, words.Describe leapDays ∧
        IsLeast {minute | words.Due leapDays minute ∧ ⟨3981339000, 0⟩ < minute} ⟨4233686400, 0⟩ := by
  have hparse : CronSchedule.parse "0 0 29 2 *" = .ok (.calendar leapDays) := by decide +kernel
  have hrange : Instant.InRange ⟨3981339000, 0⟩ := by
    unfold Instant.InRange
    decide +kernel
  have hnext : (CronSchedule.calendar leapDays).nextAfter? ⟨3981339000, 0⟩ =
      some ⟨4233686400, 0⟩ := by decide +kernel
  obtain ⟨words, -, hdescribe, hexact⟩ := CronSchedule.nextAfter?_exact hparse
  exact ⟨hparse, hrange, hnext, words, hdescribe, ((hexact _ hrange).1 _).mp hnext⟩

end Chronicle
