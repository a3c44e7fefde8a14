import Chronicle.Time.Timestamp
import Chronicle.Proofs.Json.Records
import Chronicle.Proofs.Text.Words
import Chronicle.Proofs.Time.Calendar

/-!
# Timestamps are read back

The text of an instant is read back as that instant, field by field; and whatever text is read gives
an instant that has such a text.
-/

namespace Chronicle

/-- The instants there are: in range, and past a full second only within a leap second. -/
structure Instant.IsProper (instant : Instant) : Prop where
  range : instant.InRange
  nano : instant.nano < Instant.nanosPerSecond ∨
    (instant.nano < 2 * Instant.nanosPerSecond ∧ instant.second % 60 = 59)

/-! ## Characters -/

namespace Text

theorem isBlank_of_isDigit {c : Char} (h : c.isDigit = true) : isBlank c = false := by
  have hrange := Char.isDigit_iff_toNat.1 h
  simp only [Char.reduceToNat] at hrange
  rw [isBlank, ← Bool.not_eq_true, List.contains_iff_mem]
  simp only [blankPoints, List.mem_cons, List.not_mem_nil, or_false]
  omega

theorem trimLeft_of_digits {digits rest : List Char} (h : ∀ c ∈ digits, c.isDigit = true)
    (hne : digits ≠ []) : trimLeft (digits ++ rest) = digits ++ rest := by
  cases digits with
  | nil => exact absurd rfl hne
  | cons c more =>
      rw [trimLeft, List.cons_append, List.dropWhile_cons_of_neg]
      simp [isBlank_of_isDigit (h c List.mem_cons_self)]

end Text

namespace Timestamp

/-- No digit follows. -/
def Ends (rest : List Char) : Prop := ∀ c ∈ rest.head?, c.isDigit = false

theorem takeWhile_isDigit {digits rest : List Char} (h : ∀ c ∈ digits, c.isDigit = true)
    (hends : Ends rest) : (digits ++ rest).takeWhile Char.isDigit = digits := by
  rw [List.takeWhile_append_of_pos h]
  cases rest with
  | nil => simp
  | cons c more => simp [hends c rfl]

theorem number?_append {limit : Nat} {digits rest : List Char}
    (h : ∀ c ∈ digits, c.isDigit = true) (hne : digits ≠ []) (hlimit : digits.length ≤ limit)
    (hends : Ends rest) : number? limit (digits ++ rest) = some (Text.digitsToNat digits, rest) := by
  simp only [number?, takeWhile_isDigit h hends, List.take_of_length_le hlimit]
  rw [if_neg (by simpa using hne), List.drop_left]

theorem number?_padded {limit width value : Nat} {rest : List Char} (hwidth : 0 < width)
    (hvalue : value < 10 ^ width) (hlimit : width ≤ limit) (hends : Ends rest) :
    number? limit ((Text.padded width value).toList ++ rest) = some (value, rest) := by
  have hlength := Text.length_padded hwidth hvalue
  rw [number?_append (fun _ => Text.isDigit_of_mem_padded) Text.padded_ne_nil (by omega) hends,
    Text.digitsToNat_padded]

theorem field?_padded {low high value : Nat} {rest : List Char} (hvalue : value < 100)
    (hrange : low ≤ value ∧ value ≤ high) (hends : Ends rest) :
    field? low high ((Text.padded 2 value).toList ++ rest) = some (value, rest) := by
  rw [field?, Text.trimLeft_of_digits (fun _ => Text.isDigit_of_mem_padded) Text.padded_ne_nil,
    number?_padded (by decide) hvalue (Nat.le_refl 2) hends]
  simp [hrange]

theorem separator?_cons {separator : Char} (rest : List Char)
    (h : Text.isBlank separator = false) :
    separator? separator (separator :: rest) = some rest := by
  simp [separator?, Text.trimLeft, h]

theorem isDigit_of_append_eq_cons {digits rest more : List Char} {c : Char}
    (h : ∀ c ∈ digits, c.isDigit = true) (hne : digits ≠ []) (heq : digits ++ rest = c :: more) :
    c.isDigit = true := by
  cases digits with
  | nil => exact absurd rfl hne
  | cons first digits =>
      obtain rfl := (List.cons.inj heq).1
      exact h first List.mem_cons_self

theorem year?_minus (rest : List Char) :
    year? ('-' :: rest) =
      (number? rest.length rest).map fun (value, rest) => (-(value : Int), rest) := rfl

theorem year?_plus (rest : List Char) :
    year? ('+' :: rest) =
      (number? rest.length rest).map fun (value, rest) => ((value : Int), rest) := rfl

theorem year?_text (year : Int) {rest : List Char} (hends : Ends rest) :
    year? ((yearText year).toList ++ rest) = some (year, rest) := by
  have hdigits : ∀ {width value c}, c ∈ (Text.padded width value).toList → c.isDigit = true :=
    Text.isDigit_of_mem_padded
  unfold yearText
  split
  case isTrue h =>
    simp only [Bool.and_eq_true, decide_eq_true_eq] at h
    have hread := @number?_padded 4 4 year.toNat rest (by decide) (by omega) (Nat.le_refl 4) hends
    rw [year?, Text.trimLeft_of_digits (fun _ => hdigits) Text.padded_ne_nil]
    split
    · rename_i heq
      cases isDigit_of_append_eq_cons (fun _ => hdigits) Text.padded_ne_nil heq
    · rename_i heq
      cases isDigit_of_append_eq_cons (fun _ => hdigits) Text.padded_ne_nil heq
    · simp [hread, h.1]
  case isFalse h =>
    -- after a sign the number may have all the digits that follow
    have hread := @number?_append ((Text.padded 4 year.natAbs).toList ++ rest).length
      (Text.padded 4 year.natAbs).toList rest (fun _ => hdigits) Text.padded_ne_nil (by simp) hends
    rw [Text.digitsToNat_padded] at hread
    split
    · rename_i hnegative
      rw [String.toList_append, show ("-" : String).toList = ['-'] from rfl, List.cons_append,
        List.nil_append, List.cons_append, year?_minus, hread]
      simp only [Option.map_some, Option.some.injEq, Prod.mk.injEq, and_true]
      omega
    · rename_i hpositive
      rw [String.toList_append, show ("+" : String).toList = ['+'] from rfl, List.cons_append,
        List.nil_append, List.cons_append, year?_plus, hread]
      simp only [Option.map_some, Option.some.injEq, Prod.mk.injEq, and_true]
      omega

/-! ## The rest of the text -/

theorem ends_cons {c : Char} (h : c.isDigit = false) (rest : List Char) : Ends (c :: rest) := by
  rintro _ ⟨⟩
  exact h

theorem fraction?_text {nano : Nat} {c : Char} (h : nano < Instant.nanosPerSecond)
    (hdigit : c.isDigit = false) (hpoint : c ≠ '.') (rest : List Char) :
    fraction? ((fractionText nano).toList ++ c :: rest) = some (nano, c :: rest) := by
  have hpart : ∀ {width value : Nat}, 0 < width → width ≤ 9 → value < 10 ^ width →
      value * 10 ^ (9 - width) = nano →
      fraction? (("." ++ Text.padded width value).toList ++ c :: rest) = some (nano, c :: rest) := by
    intro width value hwidth hlimit hvalue hscaled
    have hlength := Text.length_padded hwidth hvalue
    rw [String.toList_append, show (".": String).toList = ['.'] from rfl, List.cons_append,
      List.nil_append, List.cons_append, fraction?,
      number?_padded hwidth hvalue hlimit (ends_cons hdigit rest)]
    simp only [List.length_append, hlength, Nat.add_sub_cancel, Nat.pow_eq, hscaled]
    rw [List.dropWhile_cons_of_neg (by simp [hdigit])]
  have hbound : nano < 1000000000 := h
  unfold fractionText
  split
  · rename_i hzero
    subst hzero
    unfold fraction?
    split
    · rename_i heq
      exact absurd (List.cons.inj heq).1 hpoint
    · rfl
  · split
    · exact hpart (by decide) (by decide) (by omega) (by omega)
    · split
      · exact hpart (by decide) (by decide) (by omega) (by omega)
      · exact hpart (by decide) (by decide) h (by omega)

theorem ends_fraction (nano : Nat) {c : Char} (hdigit : c.isDigit = false) (rest : List Char) :
    Ends ((fractionText nano).toList ++ c :: rest) := by
  unfold fractionText
  split
  · exact ends_cons hdigit rest
  · repeat' split
    all_goals
      rw [String.toList_append]
      exact ends_cons rfl _

/-! ## Spellings -/

/-- The text with another mark between date and time, and another name of UTC. -/
def spelled (mark zone : String) (instant : Instant) : String :=
  let leap := if Instant.nanosPerSecond ≤ instant.nano then 1 else 0
  yearText instant.date.year ++ "-" ++ Text.padded 2 instant.date.month ++ "-" ++
    Text.padded 2 instant.date.day ++ mark ++ Text.padded 2 instant.hour ++ ":" ++
    Text.padded 2 instant.minute ++ ":" ++ Text.padded 2 (instant.secondOfDay % 60 + leap) ++
    fractionText (instant.nano % Instant.nanosPerSecond) ++ zone

theorem text_eq_spelled (instant : Instant) : text instant = spelled "T" "Z" instant := rfl

def marks : List String := ["T", "t", " "]

def zones : List String := ["Z", "z", "+00:00", "-00:00", "UTC"]

theorem mark_read {mark : String} (h : mark ∈ marks) :
    ∃ c, mark.toList = [c] ∧ c.isDigit = false ∧ ∀ rest, timeMark? (c :: rest) = some rest := by
  simp only [marks, List.mem_cons, List.not_mem_nil, or_false] at h
  rcases h with rfl | rfl | rfl <;> exact ⟨_, rfl, rfl, fun _ => rfl⟩

/-- A name of UTC does not go on with the digits before it, and stands for no offset. -/
theorem zone_read {zone : String} (h : zone ∈ zones) :
    (∃ c rest, zone.toList = c :: rest ∧ c.isDigit = false ∧ c ≠ '.') ∧
      offset? (Text.trimLeft zone.toList) = some (0, []) := by
  simp only [zones, List.mem_cons, List.not_mem_nil, or_false] at h
  rcases h with rfl | rfl | rfl | rfl | rfl <;>
    exact ⟨⟨_, _, rfl, rfl, by decide⟩, by decide +kernel⟩

theorem toList_spelled (mark zone : String) (instant : Instant) :
    (spelled mark zone instant).toList =
      (yearText instant.date.year).toList ++ '-' ::
        ((Text.padded 2 instant.date.month).toList ++ '-' ::
          ((Text.padded 2 instant.date.day).toList ++ (mark.toList ++
            ((Text.padded 2 instant.hour).toList ++ ':' ::
              ((Text.padded 2 instant.minute).toList ++ ':' ::
                ((Text.padded 2 (instant.secondOfDay % 60 +
                    if Instant.nanosPerSecond ≤ instant.nano then 1 else 0)).toList ++
                  ((fractionText (instant.nano % Instant.nanosPerSecond)).toList ++
                    zone.toList))))))) := by
  simp [spelled]

/-- The fields of a day as the reader finds them. -/
theorem fields_bounds (instant : Instant) :
    (1 ≤ instant.date.month ∧ instant.date.month ≤ 12) ∧
      (1 ≤ instant.date.day ∧ instant.date.day ≤ 31) ∧ instant.hour ≤ 23 ∧ instant.minute ≤ 59 := by
  obtain ⟨hmonth, hday⟩ := (Date.isValid_iff _).1 (Date.ofNumber_spec instant.dayNumber).1
  have hlength := (Date.monthLength_bounds instant.date.year instant.date.month).2
  refine ⟨hmonth, ⟨hday.1, Nat.le_trans hday.2 hlength⟩, ?_, ?_⟩
  · simp only [Instant.hour, Instant.secondOfDay, Instant.secondsPerDay]
    omega
  · simp only [Instant.minute]
    omega

/-- The seconds of an instant, counted again from its day and its time of day. -/
theorem second_eq (instant : Instant) {second : Nat}
    (hlast : (if second = 60 then 59 else second) = instant.secondOfDay % 60) :
    (instant.dayNumber - Date.epoch) * Instant.secondsPerDay +
        ((instant.hour * 3600 + instant.minute * 60 + (if second = 60 then 59 else second) : Nat) :
          Int) = instant.second := by
  rw [hlast]
  simp only [Instant.dayNumber, Instant.hour, Instant.minute, Instant.secondOfDay,
    Instant.secondsPerDay]
  omega

/-- What is written of a leap second tells the reader which second and fraction it was. -/
theorem leap_read {instant : Instant} (proper : instant.IsProper) {second : Nat}
    (h : second = instant.secondOfDay % 60 +
      if Instant.nanosPerSecond ≤ instant.nano then 1 else 0) :
    (if second = 60 then 59 else second) = instant.secondOfDay % 60 ∧
      (if second = 60 then instant.nano % Instant.nanosPerSecond + Instant.nanosPerSecond
        else instant.nano % Instant.nanosPerSecond) = instant.nano := by
  have hminute := proper.nano
  by_cases hfull : Instant.nanosPerSecond ≤ instant.nano
  · rw [if_pos hfull] at h
    simp only [Instant.nanosPerSecond, Instant.secondOfDay, Instant.secondsPerDay] at *
    have hleap : second = 60 := by omega
    simp only [hleap, if_true]
    omega
  · rw [if_neg hfull] at h
    simp only [Instant.nanosPerSecond, Instant.secondOfDay, Instant.secondsPerDay] at *
    have hplain : second ≠ 60 := by omega
    simp only [hplain, if_false]
    omega

/-- An instant is read back however it is spelled in UTC. -/
theorem parse?_spelled {mark zone : String} {instant : Instant} (hmark : mark ∈ marks)
    (hzone : zone ∈ zones) (proper : instant.IsProper) :
    parse? (spelled mark zone instant) = some instant := by
  obtain ⟨between, hbetween, hend, hmark⟩ := mark_read hmark
  obtain ⟨⟨c, rest, hrest, hdigit, hpoint⟩, hzone⟩ := zone_read hzone
  rw [hrest] at hzone
  obtain ⟨hmonth, hday, hhour, hminute⟩ := fields_bounds instant
  obtain ⟨hvalid, hnumber⟩ := Date.ofNumber_spec instant.dayNumber
  generalize hsecond : (instant.secondOfDay % 60 +
    if Instant.nanosPerSecond ≤ instant.nano then 1 else 0) = second
  have hlast : second ≤ 60 := by
    rw [← hsecond]
    split <;> omega
  obtain ⟨hordinary, hnano⟩ := leap_read proper hsecond.symm
  have htext := toList_spelled mark zone instant
  rw [hsecond, hbetween, hrest] at htext
  simp only [List.cons_append, List.nil_append] at htext
  have hyear : ∀ rest, year? ((yearText instant.date.year).toList ++ '-' :: rest) =
      some (instant.date.year, '-' :: rest) := fun rest => year?_text _ (ends_cons rfl rest)
  have hmonth : ∀ rest, field? 1 12 ((Text.padded 2 instant.date.month).toList ++ '-' :: rest) =
      some (instant.date.month, '-' :: rest) :=
    fun rest => field?_padded (by omega) hmonth (ends_cons rfl rest)
  have hday : ∀ rest, field? 1 31 ((Text.padded 2 instant.date.day).toList ++ between :: rest) =
      some (instant.date.day, between :: rest) :=
    fun rest => field?_padded (by omega) hday (ends_cons hend rest)
  have hhour : ∀ rest, field? 0 23 ((Text.padded 2 instant.hour).toList ++ ':' :: rest) =
      some (instant.hour, ':' :: rest) :=
    fun rest => field?_padded (by omega) ⟨Nat.zero_le _, hhour⟩ (ends_cons rfl rest)
  have hminute : ∀ rest, field? 0 59 ((Text.padded 2 instant.minute).toList ++ ':' :: rest) =
      some (instant.minute, ':' :: rest) :=
    fun rest => field?_padded (by omega) ⟨Nat.zero_le _, hminute⟩ (ends_cons rfl rest)
  have hlast := field?_padded (by omega : second < 100) ⟨Nat.zero_le _, hlast⟩
    (ends_fraction (instant.nano % Instant.nanosPerSecond) hdigit rest)
  have hfraction := fraction?_text
    (Nat.mod_lt instant.nano (by decide : 0 < Instant.nanosPerSecond)) hdigit hpoint rest
  have hdate : (⟨instant.date.year, instant.date.month, instant.date.day⟩ : Date) =
      Date.ofNumber instant.dayNumber := rfl
  have hseconds := second_eq instant hordinary
  have hwall : Instant.ofSecond? instant.second 0 = some ⟨instant.second, 0⟩ :=
    Instant.ofSecond?_eq_some.2 ⟨rfl, proper.range⟩
  have hdash := fun rest => separator?_cons rest (show Text.isBlank '-' = false from rfl)
  have hcolon := fun rest => separator?_cons rest (show Text.isBlank ':' = false from rfl)
  -- the reader's steps in their order, from the year to the zone
  unfold parse?
  simp only [↓Json.bind_eq_some, Prod.exists]
  rw [htext]
  refine ⟨_, _, hyear _, _, hdash _, _, _, hmonth _, _, hdash _, _, _, hday _, _, hmark _, _, _,
    hhour _, _, hcolon _, _, _, hminute _, _, hcolon _, _, _, hlast, _, _, hfraction, _, _, hzone, ?_⟩
  simp only [hdate, hvalid, hnumber]
  rw [if_neg (by decide), hseconds, hwall, hnano, Int.sub_zero]
  exact Instant.ofSecond?_eq_some.2 ⟨rfl, proper.range⟩

theorem parse?_text {instant : Instant} (proper : instant.IsProper) :
    parse? (text instant) = some instant := by
  rw [text_eq_spelled]
  exact parse?_spelled (by decide) (by decide) proper

/-! ## What is read -/

theorem number?_eq_some {limit value : Nat} {input rest : List Char}
    (h : number? limit input = some (value, rest)) :
    ∃ digits, input = digits ++ rest ∧ digits.length ≤ limit ∧ value < 10 ^ digits.length := by
  simp only [number?, Option.ite_none_left_eq_some, Option.some.injEq, Prod.mk.injEq] at h
  obtain ⟨-, rfl, rfl⟩ := h
  have hstart : (input.takeWhile Char.isDigit).take limit <+: input :=
    (List.take_prefix limit _).trans (List.takeWhile_prefix Char.isDigit)
  refine ⟨_, (List.prefix_iff_eq_append.1 hstart).symm, List.length_take_le _ _,
    Text.digitsToNat_lt fun c hmem => ?_⟩
  exact List.all_eq_true.1 List.all_takeWhile c (List.mem_of_mem_take hmem)

theorem fraction?_lt {input rest : List Char} {nano : Nat}
    (h : fraction? input = some (nano, rest)) : nano < Instant.nanosPerSecond := by
  unfold fraction? at h
  split at h
  · split at h
    · rename_i value after hread
      obtain ⟨digits, rfl, hlimit, hvalue⟩ := number?_eq_some hread
      simp only [List.length_append, Nat.add_sub_cancel, Nat.pow_eq, Option.some.injEq,
        Prod.mk.injEq] at h
      obtain ⟨rfl, -⟩ := h
      calc value * 10 ^ (9 - digits.length)
          < 10 ^ digits.length * 10 ^ (9 - digits.length) :=
            Nat.mul_lt_mul_of_pos_right hvalue (Nat.pow_pos (by decide))
        _ = Instant.nanosPerSecond := by
            rw [← Nat.pow_add, Nat.add_sub_of_le hlimit]
            rfl
    · cases h
  · obtain ⟨rfl, -⟩ := Prod.mk.inj (Option.some.inj h)
    decide

theorem offsetMagnitude?_whole {input rest : List Char} {offset : Int}
    (h : offsetMagnitude? input = some (offset, rest)) : offset % 60 = 0 := by
  simp only [offsetMagnitude?, Option.bind_eq_bind, Option.bind_eq_some_iff,
    Option.ite_none_right_eq_some, Option.some.injEq, Prod.mk.injEq, Prod.exists] at h
  obtain ⟨hours, _, -, minutes, _, -, -, rfl, -⟩ := h
  omega

/-- Offsets are whole minutes. -/
theorem offset?_whole {input rest : List Char} {offset : Int}
    (h : offset? input = some (offset, rest)) : offset % 60 = 0 := by
  have hzero : ∀ {rest'}, some ((0 : Int), rest') = some (offset, rest) → offset % 60 = 0 := by
    rintro _ ⟨⟩
    rfl
  have hminus : ∀ {magnitude : Int}, magnitude % 60 = 0 → -magnitude = offset → offset % 60 = 0 := by
    rintro _ hwhole rfl
    omega
  unfold offset? at h
  dsimp only at h
  split at h
  · exact hzero h
  · split at h
    · exact hzero h
    · exact hzero h
    · exact offsetMagnitude?_whole h
    · obtain ⟨_, hread, hoffset⟩ := Option.map_eq_some_iff.1 h
      exact hminus (offsetMagnitude?_whole hread) (Prod.mk.inj hoffset).1
    · obtain ⟨_, hread, hoffset⟩ := Option.map_eq_some_iff.1 h
      exact hminus (offsetMagnitude?_whole hread) (Prod.mk.inj hoffset).1
    · cases h

/-- A text that is read tells a proper instant, whatever its spelling. -/
theorem isProper_of_parse? {text : String} {instant : Instant} (h : parse? text = some instant) :
    instant.IsProper := by
  unfold parse? at h
  simp only [↓Json.bind_eq_some, Prod.exists, Option.ite_none_left_eq_some] at h
  obtain ⟨year, _, -, _, -, month, _, -, _, -, day, _, -, _, -, hour, _, -, _, -, minute, _, -, _, -,
    second, _, -, nano, _, hnano, offset, _, hoffset, -, _, -, hread⟩ := h
  obtain ⟨rfl, hrange⟩ := Instant.ofSecond?_eq_some.1 hread
  have hwhole := offset?_whole hoffset
  have hpart := fraction?_lt hnano
  refine ⟨hrange, ?_⟩
  simp only [Instant.nanosPerSecond, Instant.secondsPerDay] at hpart ⊢
  split
  · omega
  · omega

end Timestamp

namespace Instant

theorem ofJson?_toJson {instant : Instant} (proper : instant.IsProper) :
    ofJson? instant.toJson = some instant := Timestamp.parse?_text proper

theorem isProper_of_ofJson? {value : Json} {instant : Instant} (h : ofJson? value = some instant) :
    instant.IsProper := by
  cases value with
  | text written => exact Timestamp.isProper_of_parse? h
  | _ => cases h

end Instant

end Chronicle
