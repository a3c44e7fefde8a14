import Chronicle.Proofs.Cron.Parsing
import Chronicle.Proofs.Text.Words
import Mathlib.Data.List.Forall2

/-!
# The grammar of schedules

Which expressions are schedules, and what they mean.  A calendar expression has five fields, a field
is a list of parts, and a part is a range of values with an optional step.  Its masks hold just the
values that its parts generate.  An interval is a number with a unit.
-/

namespace Chronicle

/-! ## Parts -/

namespace CronParser

/-- The text of a range, with its first and last value.  A lone number goes on to the greatest value
of the field if a step follows. -/
inductive IsRange (field : CronField) : Bool → List Char → Nat → Nat → Prop where
  | all {stepped : Bool} : IsRange field stepped ['*'] field.least field.greatest
  | between {stepped : Bool} {first last : List Char} {low high : Nat}
      (hfirst : Text.IsNumber 32 first low) (hlast : Text.IsNumber 32 last high) :
      IsRange field stepped (first ++ '-' :: last) low high
  | alone {text : List Char} {value : Nat} (hvalue : Text.IsNumber 32 text value) :
      IsRange field false text value value
  | onward {text : List Char} {value : Nat} (hvalue : Text.IsNumber 32 text value) :
      IsRange field true text value field.greatest

/-- The text of a part, whose values are all values of the field. -/
inductive IsPart (field : CronField) : List Char → Part → Prop where
  | plain {text : List Char} {first last : Nat} (range : IsRange field false text first last)
      (hfirst : field.least ≤ first) (horder : first ≤ last) (hlast : last ≤ field.greatest) :
      IsPart field text ⟨first, last, 1⟩
  | stepped {text digits : List Char} {first last step : Nat}
      (range : IsRange field true text first last) (hstep : Text.IsNumber 32 digits step)
      (hpositive : 1 ≤ step) (hfirst : field.least ≤ first) (horder : first ≤ last)
      (hlast : last ≤ field.greatest) : IsPart field (text ++ '/' :: digits) ⟨first, last, step⟩

/-- The text of a field: parts with commas between them. -/
def IsField (field : CronField) (text : List Char) (parts : List Part) : Prop :=
  ∃ texts, texts ≠ [] ∧ [','].intercalate texts = text ∧ List.Forall₂ (IsPart field) texts parts

/-- A part generates its first value, and further ones in steps up to the last. -/
def Part.Generates (part : Part) (value : Nat) : Prop :=
  ∃ count, value = part.first + count * part.step ∧ value ≤ part.last

variable {field : CronField} {stepped : Bool} {text : List Char} {part : Part} {first last : Nat}

theorem bounds?_of_isRange (range : IsRange field stepped text first last) :
    bounds? field stepped text = some (first, last) := by
  have hminus : ∀ text value, Text.IsNumber 32 text value → '-' ∉ text :=
    fun _ _ h => h.notMem (by decide) (by decide)
  have hstar : ∀ text value, Text.IsNumber 32 text value → text ≠ ['*'] := by
    rintro text value h rfl
    exact h.notMem (c := '*') (by decide) (by decide) List.mem_cons_self
  unfold bounds?
  cases range with
  | all => simp
  | @between _ text rest low high hfirst hlast =>
      have hne : text ++ '-' :: rest ≠ ['*'] := by
        intro heq
        have hmem : '-' ∈ text ++ '-' :: rest := by simp
        rw [heq] at hmem
        exact absurd hmem (by decide)
      rw [if_neg hne, Text.splitOnce?_eq_some.2 ⟨rfl, hminus _ _ hfirst⟩]
      simp [Text.word?_eq_some.2 hfirst, Text.word?_eq_some.2 hlast]
  | alone hvalue =>
      rw [if_neg (hstar _ _ hvalue), Text.splitOnce?_eq_none.2 (hminus _ _ hvalue)]
      simp [Text.word?_eq_some.2 hvalue]
  | onward hvalue =>
      rw [if_neg (hstar _ _ hvalue), Text.splitOnce?_eq_none.2 (hminus _ _ hvalue)]
      simp [Text.word?_eq_some.2 hvalue]

theorem isRange_of_bounds? (h : bounds? field stepped text = some (first, last)) :
    IsRange field stepped text first last := by
  unfold bounds? at h
  split at h
  case isTrue hstar =>
    cases h
    exact hstar ▸ .all
  case isFalse =>
    split at h
    case h_1 before after hsplit =>
      obtain ⟨rfl, -⟩ := Text.splitOnce?_eq_some.1 hsplit
      simp only [Option.bind_eq_bind, Option.bind_eq_some_iff, Option.some.injEq, Prod.mk.injEq,
        Text.word?_eq_some] at h
      obtain ⟨low, hlow, high, hhigh, rfl, rfl⟩ := h
      exact .between hlow hhigh
    case h_2 =>
      simp only [Option.bind_eq_bind, Option.bind_eq_some_iff, Option.some.injEq, Prod.mk.injEq,
        Text.word?_eq_some] at h
      obtain ⟨value, hvalue, rfl, rfl⟩ := h
      cases stepped with
      | false => exact .alone hvalue
      | true => exact .onward hvalue

theorem IsRange.notMem {c : Char} (range : IsRange field stepped text first last)
    (hdigit : c.isDigit = false) (hplus : c ≠ '+') (hminus : c ≠ '-') (hstar : c ≠ '*') :
    c ∉ text := by
  cases range with
  | all => simpa using hstar
  | between hfirst hlast =>
      simp [hfirst.notMem hdigit hplus, hlast.notMem hdigit hplus, hminus]
  | alone hvalue => exact hvalue.notMem hdigit hplus
  | onward hvalue => exact hvalue.notMem hdigit hplus

theorem part?_eq_some : part? field text = some part ↔ IsPart field text part := by
  unfold part?
  constructor
  · intro h
    split at h
    all_goals
      simp only [Option.bind_eq_bind, Option.bind_eq_some_iff] at h
      obtain ⟨⟨range, step, stepped⟩, hread, ⟨first, last⟩, hbounds, hpart⟩ := h
      simp only at hbounds hpart
      rw [Option.ite_none_left_eq_some] at hpart
      obtain ⟨hvalid, hpart⟩ := hpart
      cases hpart
      simp only [Bool.or_eq_true, decide_eq_true_eq, not_or, not_lt] at hvalid
      obtain ⟨⟨⟨hstep, hfirst⟩, hlast⟩, horder⟩ := hvalid
    case h_1 before after hsplit =>
      obtain ⟨rfl, -⟩ := Text.splitOnce?_eq_some.1 hsplit
      obtain ⟨number, hnumber, heq⟩ := Option.map_eq_some_iff.1 hread
      cases heq
      exact .stepped (isRange_of_bounds? hbounds) (Text.word?_eq_some.1 hnumber)
        (Nat.pos_of_ne_zero hstep) hfirst horder hlast
    case h_2 =>
      cases hread
      exact .plain (isRange_of_bounds? hbounds) hfirst horder hlast
  · intro isPart
    cases isPart with
    | plain range hfirst horder hlast =>
        have hslash := range.notMem (c := '/') (by decide) (by decide) (by decide) (by decide)
        rw [Text.splitOnce?_eq_none.2 hslash]
        simp [bounds?_of_isRange range, hfirst, horder, hlast]
    | stepped range hstep hpositive hfirst horder hlast =>
        have hslash := range.notMem (c := '/') (by decide) (by decide) (by decide) (by decide)
        rw [Text.splitOnce?_eq_some.2 ⟨rfl, hslash⟩]
        simp [bounds?_of_isRange range, Text.word?_eq_some.2 hstep, hfirst, horder, hlast]
        omega

theorem IsPart.notMem (isPart : IsPart field text part) : ',' ∉ text := by
  cases isPart with
  | plain range => exact range.notMem (by decide) (by decide) (by decide) (by decide)
  | stepped range hstep =>
      rw [List.mem_append, List.mem_cons, not_or, not_or]
      exact ⟨range.notMem (by decide) (by decide) (by decide) (by decide), by decide,
        hstep.notMem (by decide) (by decide)⟩

theorem IsPart.step_ne_zero (isPart : IsPart field text part) : part.step ≠ 0 := by
  cases isPart with
  | plain => exact Nat.one_ne_zero
  | stepped _ _ hpositive => exact Nat.one_le_iff_ne_zero.1 hpositive

theorem IsPart.within (isPart : IsPart field text part) :
    field.least ≤ part.first ∧ part.first ≤ part.last ∧ part.last ≤ field.greatest := by
  cases isPart with
  | plain _ hfirst horder hlast => exact ⟨hfirst, horder, hlast⟩
  | stepped _ _ _ hfirst horder hlast => exact ⟨hfirst, horder, hlast⟩

theorem Part.generates_iff {value : Nat} : part.Generates value ↔
    (part.first ≤ value ∧ value ≤ part.last) ∧ part.step ∣ value - part.first := by
  constructor
  · rintro ⟨count, rfl, hlast⟩
    refine ⟨⟨by omega, hlast⟩, ?_⟩
    rw [Nat.add_sub_cancel_left]
    exact Nat.dvd_mul_left ..
  · rintro ⟨⟨hfirst, hlast⟩, count, hcount⟩
    refine ⟨count, ?_, hlast⟩
    rw [Nat.mul_comm]
    omega

/-- Stepping through a part meets all the values that it generates. -/
theorem IsPart.mem_values (isPart : IsPart field text part) (value : Nat) :
    value ∈ part.values ↔ part.Generates value := by
  rw [Part.generates_iff]
  exact Part.mem_values isPart.step_ne_zero
    (Nat.lt_of_le_of_lt isPart.within.2.2 field.greatest_lt)

/-! ## Fields -/

theorem mapM_eq_some {α β : Type} {read : α → Option β} {texts : List α} {values : List β} :
    texts.mapM read = some values ↔
      List.Forall₂ (fun text value => read text = some value) texts values := by
  induction texts generalizing values with
  | nil => simp [eq_comm]
  | cons text texts ih =>
      simp only [List.mapM_cons, Option.bind_eq_bind, Option.bind_eq_some_iff, Option.pure_def,
        Option.some.injEq, ih, List.forall₂_cons_left_iff]
      constructor
      · rintro ⟨value, hvalue, rest, hrest, rfl⟩
        exact ⟨value, rest, hvalue, hrest, rfl⟩
      · rintro ⟨value, rest, hvalue, hrest, rfl⟩
        exact ⟨value, hvalue, rest, hrest, rfl⟩

theorem isField_iff {parts : List Part} :
    IsField field text parts ↔ (Text.splitAt ',' text).mapM (part? field) = some parts := by
  rw [mapM_eq_some]
  simp only [part?_eq_some]
  constructor
  · rintro ⟨texts, hne, htext, hparts⟩
    have hnot : ∀ part ∈ texts, ',' ∉ part := by
      intro part hmem
      obtain ⟨index, hindex, rfl⟩ := List.getElem_of_mem hmem
      exact ((List.forall₂_iff_get.1 hparts).2 index hindex
        (hparts.length_eq ▸ hindex)).notMem
    rwa [Text.splitAt_eq_iff.2 ⟨hne, hnot, htext⟩]
  · intro hparts
    obtain ⟨hne, -, htext⟩ := Text.splitAt_eq_iff.1 (rfl : Text.splitAt ',' text = _)
    exact ⟨_, hne, htext, hparts⟩

theorem field?_eq_ok {mask : Nat} : field? field text = .ok mask ↔
    ∃ parts, IsField field text parts ∧ maskOf (parts.flatMap Part.values) = mask := by
  unfold field?
  simp only [isField_iff]
  cases (Text.splitAt ',' text).mapM (part? field) <;> simp

theorem IsField.exists_part {parts : List Part} (isField : IsField field text parts)
    (hmem : part ∈ parts) : ∃ partText, IsPart field partText part := by
  obtain ⟨partTexts, -, -, hparts⟩ := isField
  obtain ⟨index, hindex, rfl⟩ := List.getElem_of_mem hmem
  exact ⟨_, (List.forall₂_iff_get.1 hparts).2 index (hparts.length_eq ▸ hindex) hindex⟩

theorem IsField.ne_nil {parts : List Part} (isField : IsField field text parts) : parts ≠ [] := by
  obtain ⟨texts, hne, -, hparts⟩ := isField
  rintro rfl
  exact hne (List.forall₂_nil_right_iff.1 hparts)

/-- The mask of a field has the bits of the values that its parts generate. -/
theorem IsField.maskOf_testBit {parts : List Part} (isField : IsField field text parts)
    (value : Nat) : (maskOf (parts.flatMap Part.values)).testBit value = true ↔
      ∃ part ∈ parts, part.Generates value := by
  rw [CronParser.maskOf_testBit, List.mem_flatMap]
  refine exists_congr fun part => and_congr_right fun hmem => ?_
  obtain ⟨_, isPart⟩ := isField.exists_part hmem
  exact isPart.mem_values value

theorem IsField.within {parts : List Part} (isField : IsField field text parts)
    (hmem : part ∈ parts) {value : Nat} (hgenerates : part.Generates value) :
    field.least ≤ value ∧ value ≤ field.greatest := by
  obtain ⟨_, isPart⟩ := isField.exists_part hmem
  obtain ⟨count, rfl, hlast⟩ := hgenerates
  have hwithin := isPart.within
  omega

theorem IsField.exists_generates {parts : List Part} (isField : IsField field text parts) :
    ∃ part ∈ parts, part.Generates part.first := by
  obtain ⟨part, hmem⟩ := List.exists_mem_of_ne_nil parts isField.ne_nil
  obtain ⟨_, isPart⟩ := isField.exists_part hmem
  exact ⟨part, hmem, 0, by simp, isPart.within.2.1⟩

/-! ## Intervals -/

/-- The text of an interval, a number of 64 bits with a unit.  The number is not zero, and the
seconds that it makes fill 64 bits at most. -/
inductive IsInterval : List Char → Span → Prop where
  | millis {digits : List Char} {count : Nat} (hcount : Text.IsDigits 64 digits count)
      (hpositive : 0 < count) : IsInterval (digits ++ ['m', 's']) (.ofMillis count)
  | seconds {digits : List Char} {count : Nat} {unit : Char} {length : Nat}
      (hcount : Text.IsDigits 64 digits count) (hpositive : 0 < count)
      (hunit : (unit, length) ∈ [('s', 1), ('m', 60), ('h', 3600)])
      (hbound : count * length < 2 ^ 64) : IsInterval (digits ++ [unit]) (.ofSeconds (count * length))

/-- Digits are read up to the unit. -/
theorem takeWhile_digits {digits unit : List Char} (hdigits : ∀ c ∈ digits, c.isDigit = true)
    (hunit : ∀ c ∈ unit.head?, c.isDigit = false) :
    (digits ++ unit).takeWhile Char.isDigit = digits ∧
      (digits ++ unit).dropWhile Char.isDigit = unit := by
  rw [List.takeWhile_append_of_pos hdigits, List.dropWhile_append_of_pos hdigits]
  cases unit with
  | nil => simp
  | cons c rest => simp [hunit c rfl]

theorem isDigits_takeWhile {count : Nat} (h : Text.word? 64 (text.takeWhile Char.isDigit) = some count) :
    Text.IsDigits 64 (text.takeWhile Char.isDigit) count := by
  obtain hdigits | ⟨digits, htext, -⟩ := Text.word?_eq_some.1 h
  · exact hdigits
  · have hplus : '+' ∈ text.takeWhile Char.isDigit := by simp [htext]
    exact absurd (List.mem_takeWhile_imp hplus) (by decide)

theorem isInterval_of_interval? {span : Span} (h : interval? text = .ok span) :
    IsInterval text span := by
  have hunit : ∀ {unit : String}, String.ofList (text.dropWhile Char.isDigit) = unit →
      text = text.takeWhile Char.isDigit ++ unit.toList := by
    rintro _ rfl
    rw [String.toList_ofList, List.takeWhile_append_dropWhile]
  unfold interval? at h
  dsimp only at h
  split at h
  case h_1 hms =>
    split at h
    case h_2 => cases h
    case h_1 count hcount =>
      split at h
      case isTrue => cases h
      case isFalse hzero =>
        cases h
        rw [hunit hms]
        exact .millis (isDigits_takeWhile hcount) (Nat.pos_of_ne_zero hzero)
  case h_5 => cases h
  all_goals
    rename_i hletter
    split at h
    case h_2 => cases h
    case h_1 count hcount =>
      split at h
      case isTrue => cases h
      case isFalse hbounds =>
        cases h
        simp only [Bool.or_eq_true, decide_eq_true_eq, not_or, not_le] at hbounds
        rw [hunit hletter]
        exact .seconds (isDigits_takeWhile hcount) (Nat.pos_of_ne_zero hbounds.1) (by decide)
          hbounds.2

theorem interval?_of_isInterval {span : Span} (isInterval : IsInterval text span) :
    interval? text = .ok span := by
  cases isInterval with
  | @millis digits count hcount hpositive =>
      have hletter : ∀ c ∈ ['m', 's'].head?, c.isDigit = false := by simp
      obtain ⟨hdigits, hunit⟩ := takeWhile_digits hcount.digits hletter
      have hms : String.ofList ['m', 's'] = "ms" := by decide
      unfold interval?
      dsimp only
      rw [hdigits, hunit, Text.word?_eq_some.2 (.inl hcount), hms]
      exact if_neg (Nat.ne_of_gt hpositive)
  | @seconds digits count unit length hcount hpositive hunit hbound =>
      have hletter : ∀ c ∈ [unit].head?, c.isDigit = false := by
        simp only [List.head?_cons, Option.mem_def, Option.some.injEq, forall_eq']
        simp only [List.mem_cons, Prod.mk.injEq, List.not_mem_nil, or_false] at hunit
        obtain ⟨rfl, -⟩ | ⟨rfl, -⟩ | ⟨rfl, -⟩ := hunit <;> decide
      obtain ⟨hdigits, hrest⟩ := takeWhile_digits hcount.digits hletter
      have hwithin : ¬ (decide (count = 0) || decide (Nat.pow 2 64 ≤ count * length)) = true := by
        simpa using ⟨Nat.ne_of_gt hpositive, hbound⟩
      unfold interval?
      dsimp only
      rw [hdigits, hrest, Text.word?_eq_some.2 (.inl hcount)]
      simp only [List.mem_cons, Prod.mk.injEq, List.not_mem_nil, or_false] at hunit
      obtain ⟨rfl, rfl⟩ | ⟨rfl, rfl⟩ | ⟨rfl, rfl⟩ := hunit
      · exact if_neg hwithin
      · exact if_neg hwithin
      · exact if_neg hwithin

theorem interval?_eq_ok {span : Span} : interval? text = .ok span ↔ IsInterval text span :=
  ⟨isInterval_of_interval?, interval?_of_isInterval⟩

/-! ## Names -/

/-- The names of calendar expressions. -/
def names : List String :=
  ["@yearly", "@annually", "@monthly", "@weekly", "@daily", "@midnight", "@hourly"]

theorem expandName_of_notMem (h : text ∉ names.map String.toList) : expandName text = text := by
  have hne : ∀ name ∈ names, String.ofList text ≠ name := by
    rintro name hmem rfl
    exact h (List.mem_map.2 ⟨_, hmem, String.toList_ofList⟩)
  simp only [names, List.forall_mem_cons] at hne
  obtain ⟨hyearly, hannually, hmonthly, hweekly, hdaily, hmidnight, hhourly, -⟩ := hne
  unfold expandName
  split <;> first | contradiction | rfl

end CronParser

/-! ## Calendar expressions -/

namespace CronField

/-- The greatest value that a mask of the field holds. -/
def last : CronField → Nat
  | .dayOfWeek => 6
  | field => field.greatest

/-- The value that a mask holds for a value of the field: Sunday is 0. -/
def fold : CronField → Nat → Nat
  | .dayOfWeek, 7 => 0
  | _, value => value

end CronField

def CronWords.text (words : CronWords) : CronField → List Char
  | .minute => words.minute
  | .hour => words.hour
  | .dayOfMonth => words.dayOfMonth
  | .month => words.month
  | .dayOfWeek => words.dayOfWeek

def CronFields.mask (fields : CronFields) : CronField → Nat
  | .minute => fields.minutes
  | .hour => fields.hours
  | .dayOfMonth => fields.daysOfMonth
  | .month => fields.months
  | .dayOfWeek => fields.daysOfWeek

/-- The words are the texts of fields with the given parts. -/
def CronWords.Consist (words : CronWords) (parts : CronField → List CronParser.Part) : Prop :=
  ∀ field, CronParser.IsField field (words.text field) (parts field)

/-- The masks hold the values that the parts generate and no others. -/
structure CronFields.Hold (fields : CronFields) (parts : CronField → List CronParser.Part) :
    Prop where
  testBit (field : CronField) (value : Nat) : (fields.mask field).testBit value = true ↔
    ∃ part ∈ parts field, ∃ written, part.Generates written ∧ field.fold written = value
  nonempty (field : CronField) : fields.mask field ≠ 0
  range (field : CronField) (value : Nat) (h : (fields.mask field).testBit value = true) :
    field.least ≤ value ∧ value ≤ field.last

namespace CronParser

/-- The mask of a field, with its Sundays folded. -/
def fieldMask : CronField → List Part → Nat
  | .dayOfWeek, parts => foldSunday (maskOf (parts.flatMap Part.values))
  | _, parts => maskOf (parts.flatMap Part.values)

variable {field : CronField} {text : List Char} {parts : List Part} {value : Nat}

theorem fold_of_ne {written : Nat} (h : field ≠ .dayOfWeek ∨ written ≠ 7) :
    field.fold written = written := by
  unfold CronField.fold
  split
  case h_1 => exact absurd h (by simp)
  case h_2 => rfl

theorem fold_within {written : Nat} (hleast : field.least ≤ written)
    (hgreatest : written ≤ field.greatest) :
    field.least ≤ field.fold written ∧ field.fold written ≤ field.last := by
  by_cases hfolds : field = .dayOfWeek ∧ written = 7
  · obtain ⟨rfl, rfl⟩ := hfolds
    decide
  · rw [fold_of_ne (not_and_or.1 hfolds)]
    refine ⟨hleast, ?_⟩
    cases field <;> simp only [CronField.last, CronField.greatest, true_and] at hgreatest hfolds ⊢ <;>
      omega

theorem foldSunday_lt {mask : Nat} (hmask : ∀ value, mask.testBit value = true → value ≤ 7)
    (h : (foldSunday mask).testBit value = true) : value < 7 := by
  unfold foldSunday at h
  split at h
  case isTrue =>
    rw [show (128 : Nat) = 2 ^ 7 from rfl, Nat.testBit_mod_two_pow] at h
    simp only [Bool.and_eq_true, decide_eq_true_eq] at h
    exact h.1
  case isFalse hseven =>
    have hne : value ≠ 7 := by
      rintro rfl
      exact hseven h
    have hle := hmask value h
    omega

theorem foldSunday_testBit_iff {mask : Nat}
    (hmask : ∀ value, mask.testBit value = true → value ≤ 7) :
    (foldSunday mask).testBit value = true ↔
      ∃ written, mask.testBit written = true ∧ CronField.fold .dayOfWeek written = value := by
  constructor
  · intro h
    have hvalue := foldSunday_lt hmask h
    obtain hbit | ⟨rfl, hseven⟩ := (foldSunday_testBit mask hvalue).1 h
    · exact ⟨value, hbit, fold_of_ne (.inr (Nat.ne_of_lt hvalue))⟩
    · exact ⟨7, hseven, rfl⟩
  · rintro ⟨written, hbit, rfl⟩
    by_cases hseven : written = 7
    · subst hseven
      exact (foldSunday_testBit mask (by decide)).2 (.inr ⟨rfl, hbit⟩)
    · rw [fold_of_ne (.inr hseven)]
      have hle := hmask written hbit
      exact (foldSunday_testBit mask (by omega)).2 (.inl hbit)

theorem IsField.fieldMask_testBit (isField : IsField field text parts) :
    (fieldMask field parts).testBit value = true ↔
      ∃ part ∈ parts, ∃ written, part.Generates written ∧ field.fold written = value := by
  have hfold : (∃ written, (maskOf (parts.flatMap Part.values)).testBit written = true ∧
      field.fold written = value) ↔
        ∃ part ∈ parts, ∃ written, part.Generates written ∧ field.fold written = value := by
    simp only [isField.maskOf_testBit]
    constructor
    · rintro ⟨written, ⟨part, hmem, hgenerates⟩, hvalue⟩
      exact ⟨part, hmem, written, hgenerates, hvalue⟩
    · rintro ⟨part, hmem, written, hgenerates, hvalue⟩
      exact ⟨written, ⟨part, hmem, hgenerates⟩, hvalue⟩
  rw [← hfold]
  by_cases hweek : field = .dayOfWeek
  · subst hweek
    refine foldSunday_testBit_iff fun value hbit => ?_
    obtain ⟨part, hmem, hgenerates⟩ := (isField.maskOf_testBit value).1 hbit
    exact (isField.within hmem hgenerates).2
  · simp only [fold_of_ne (.inl hweek), exists_eq_right]
    cases field <;> first | rfl | exact absurd rfl hweek

end CronParser

open CronParser

variable {words : CronWords} {parts : CronField → List Part} {fields : CronFields}

/-- Words that are fields give the masks of their parts. -/
theorem CronWords.Consist.hold (consist : words.Consist parts)
    (hmask : ∀ field, fields.mask field = fieldMask field (parts field)) : fields.Hold parts := by
  have testBit : ∀ field value, (fields.mask field).testBit value = true ↔
      ∃ part ∈ parts field, ∃ written, part.Generates written ∧ field.fold written = value := by
    intro field value
    rw [hmask]
    exact (consist field).fieldMask_testBit
  refine ⟨testBit, fun field hzero => ?_, fun field value hbit => ?_⟩
  · obtain ⟨part, hmem, hgenerates⟩ := (consist field).exists_generates
    have hbit := (testBit field _).2 ⟨part, hmem, _, hgenerates, rfl⟩
    rw [hzero, Nat.zero_testBit] at hbit
    cases hbit
  · obtain ⟨part, hmem, written, hgenerates, rfl⟩ := (testBit field value).1 hbit
    obtain ⟨hleast, hgreatest⟩ := (consist field).within hmem hgenerates
    exact fold_within hleast hgreatest

theorem CronParser.fields?_of_consist (consist : words.Consist parts) :
    ∃ fields, fields? words.toList = .ok fields ∧ fields.Hold parts := by
  have hfield : ∀ field, field? field (words.text field) =
      .ok (maskOf ((parts field).flatMap Part.values)) :=
    fun field => field?_eq_ok.2 ⟨parts field, consist field, rfl⟩
  refine ⟨⟨fieldMask .minute (parts .minute), fieldMask .hour (parts .hour),
    fieldMask .dayOfMonth (parts .dayOfMonth), fieldMask .month (parts .month),
    fieldMask .dayOfWeek (parts .dayOfWeek), words.dayOfMonth != ['*'], words.dayOfWeek != ['*']⟩,
    ?_, consist.hold fun field => by cases field <;> rfl⟩
  have hminute := hfield .minute
  have hhour := hfield .hour
  have hdayOfMonth := hfield .dayOfMonth
  have hmonth := hfield .month
  have hdayOfWeek := hfield .dayOfWeek
  simp only [CronWords.text] at hminute hhour hdayOfMonth hmonth hdayOfWeek
  simp only [CronWords.toList, fields?, hminute, hhour, hdayOfMonth, hmonth, hdayOfWeek]
  rfl

theorem CronParser.consist_of_fields? {texts : List (List Char)}
    (h : fields? texts = .ok fields) :
    ∃ words parts, CronWords.toList words = texts ∧ words.Consist parts := by
  unfold fields? at h
  split at h
  case h_2 => cases h
  case h_1 minute hour dayOfMonth month dayOfWeek =>
    obtain ⟨_, hdayOfWeek, h⟩ := exists_of_bind_ok h
    obtain ⟨_, hminute, h⟩ := exists_of_bind_ok h
    obtain ⟨_, hhour, h⟩ := exists_of_bind_ok h
    obtain ⟨_, hdayOfMonth, h⟩ := exists_of_bind_ok h
    obtain ⟨_, hmonth, -⟩ := exists_of_bind_ok h
    obtain ⟨minutes, hminute, -⟩ := field?_eq_ok.1 hminute
    obtain ⟨hours, hhour, -⟩ := field?_eq_ok.1 hhour
    obtain ⟨daysOfMonth, hdayOfMonth, -⟩ := field?_eq_ok.1 hdayOfMonth
    obtain ⟨months, hmonth, -⟩ := field?_eq_ok.1 hmonth
    obtain ⟨daysOfWeek, hdayOfWeek, -⟩ := field?_eq_ok.1 hdayOfWeek
    refine ⟨⟨minute, hour, dayOfMonth, month, dayOfWeek⟩, fun
      | .minute => minutes
      | .hour => hours
      | .dayOfMonth => daysOfMonth
      | .month => months
      | .dayOfWeek => daysOfWeek, rfl, fun field => ?_⟩
    cases field with
    | minute => exact hminute
    | hour => exact hhour
    | dayOfMonth => exact hdayOfMonth
    | month => exact hmonth
    | dayOfWeek => exact hdayOfWeek

/-! ## Schedules -/

/--
An expression that is no name and no interval is read just if it is five fields, and then its masks
hold the values that their parts generate.  An expression of `@every` is read just if an interval
follows, and then stands for it.
-/
theorem CronSchedule.parse_exact (expression : String) :
    (Text.trim expression.toList ∉ names.map String.toList →
      ¬ "@every".toList <+: Text.trim expression.toList →
      ((∃ schedule, CronSchedule.parse expression = .ok schedule) ↔
        ∃ words parts, Text.Spaced expression.toList (CronWords.toList words) ∧
          words.Consist parts) ∧
      ∀ words parts, Text.Spaced expression.toList (CronWords.toList words) →
        words.Consist parts →
        ∃ fields, CronSchedule.parse expression = .ok (.calendar fields) ∧ fields.Hold parts ∧
          ∀ field, ∀ part ∈ parts field, ∀ value, value ∈ part.values ↔ part.Generates value) ∧
    ∀ rest, Text.trim expression.toList = "@every".toList ++ rest →
      ∀ schedule, CronSchedule.parse expression = .ok schedule ↔
        ∃ span, IsInterval (Text.trim rest) span ∧ schedule = .every span := by
  constructor
  · intro hname hevery
    have hparse : CronSchedule.parse expression =
        (fields? (Text.words expression.toList)).map .calendar := by
      have hstrip : Text.strip? "@every".toList (Text.trim expression.toList) = none := by
        refine Option.eq_none_iff_forall_not_mem.2 fun rest hrest => hevery ?_
        exact ⟨rest, (Text.strip?_eq_some.1 hrest).symm⟩
      unfold CronSchedule.parse
      dsimp only
      rw [hstrip, expandName_of_notMem hname, Text.words_trim]
    have hread : ∀ words parts, Text.Spaced expression.toList (CronWords.toList words) →
        words.Consist parts →
        ∃ fields, CronSchedule.parse expression = .ok (.calendar fields) ∧ fields.Hold parts := by
      intro words parts spaced consist
      obtain ⟨fields, hfields, hold⟩ := fields?_of_consist consist
      exact ⟨fields, by rw [hparse, spaced.words_eq, hfields]; rfl, hold⟩
    refine ⟨⟨?_, ?_⟩, ?_⟩
    · rintro ⟨schedule, hschedule⟩
      rw [hparse] at hschedule
      cases hfields : fields? (Text.words expression.toList) with
      | error => rw [hfields] at hschedule; cases hschedule
      | ok fields =>
          obtain ⟨words, parts, hwords, consist⟩ := consist_of_fields? hfields
          exact ⟨words, parts, Text.words_eq_iff.1 hwords.symm, consist⟩
    · rintro ⟨words, parts, spaced, consist⟩
      obtain ⟨fields, hfields, -⟩ := hread words parts spaced consist
      exact ⟨_, hfields⟩
    · intro words parts spaced consist
      obtain ⟨fields, hfields, hold⟩ := hread words parts spaced consist
      refine ⟨fields, hfields, hold, fun field part hmem value => ?_⟩
      obtain ⟨_, isPart⟩ := (consist field).exists_part hmem
      exact isPart.mem_values value
  · intro rest hrest schedule
    unfold CronSchedule.parse
    dsimp only
    rw [Text.strip?_eq_some.2 hrest]
    simp only [← interval?_eq_ok]
    cases interval? (Text.trim rest) with
    | error => simp [Except.map]
    | ok span => simp [Except.map, eq_comm]

/-- The words of `0,30 9-17/4 +1 * 7`. -/
def chimes : CronWords :=
  ⟨"0,30".toList, "9-17/4".toList, "+1".toList, "*".toList, "7".toList⟩

def chimesParts : CronField → List Part
  | .minute => [⟨0, 0, 1⟩, ⟨30, 30, 1⟩]
  | .hour => [⟨9, 17, 4⟩]
  | .dayOfMonth => [⟨1, 1, 1⟩]
  | .month => [⟨1, 12, 1⟩]
  | .dayOfWeek => [⟨7, 7, 1⟩]

/-- The Sundays of the chimes have the value 0, and 90 minutes are 5400 seconds. -/
theorem chimes_parse :
    (∃ fields, CronSchedule.parse " 0,30 9-17/4  +1 * 7" = .ok (.calendar fields) ∧
      fields.Hold chimesParts ∧ (fields.mask .dayOfWeek).testBit 0 = true ∧
      (fields.mask .hour).testBit 13 = true) ∧
    IsInterval "90m".toList (.ofSeconds (90 * 60)) ∧
    CronSchedule.parse "@every 90m" = .ok (.every (.ofSeconds (90 * 60))) := by
  have spaced : Text.Spaced " 0,30 9-17/4  +1 * 7".toList chimes.toList :=
    Text.words_eq_iff.1 (by decide)
  have consist : chimes.Consist chimesParts := by
    intro field
    cases field <;> exact isField_iff.2 (by decide)
  have interval : IsInterval "90m".toList (.ofSeconds (90 * 60)) := interval?_eq_ok.1 (by rfl)
  obtain ⟨fields, hparse, hold, -⟩ :=
    ((CronSchedule.parse_exact " 0,30 9-17/4  +1 * 7").1 (by decide) (by decide)).2
      chimes chimesParts spaced consist
  refine ⟨⟨fields, hparse, hold, (hold.testBit _ _).2 ?_, (hold.testBit _ _).2 ?_⟩, interval, ?_⟩
  · exact ⟨⟨7, 7, 1⟩, by decide, 7, ⟨0, by decide, by decide⟩, rfl⟩
  · exact ⟨⟨9, 17, 4⟩, by decide, 13, ⟨1, by decide, by decide⟩, rfl⟩
  · have htrim : Text.trim " 90m".toList = "90m".toList := by decide
    exact ((CronSchedule.parse_exact "@every 90m").2 " 90m".toList (by decide) _).2
      ⟨_, htrim ▸ interval, rfl⟩

end Chronicle
