import Chronicle.Json.Record
import Mathlib.Algebra.Group.Nat.Defs
import Mathlib.Data.List.Basic

/-!
# Records are read back

What the reader of a field finds in a written record, and what it means that a type's written form
is read back.
-/

namespace Chronicle.Json

/-! ## Fields -/

@[simp] theorem lookup_cons_eq_ite (key other : String) (value : Json) (fields : List (String × Json)) :
    ((other, value) :: fields).lookup key =
      if key = other then some value else fields.lookup key := by
  by_cases h : key = other
  · simp [h]
  · rw [List.lookup_cons, beq_false_of_ne h, if_neg h]

theorem lookup_insertField (key other : String) (value : Json) (fields : List (String × Json)) :
    (insertField key value fields).lookup other =
      if other = key then some value else fields.lookup other := by
  induction fields with
  | nil => rw [insertField, lookup_cons_eq_ite]
  | cons field rest ih =>
      obtain ⟨name, existing⟩ := field
      unfold insertField
      split
      · rw [lookup_cons_eq_ite]
      · split
        · rename_i hkey
          subst hkey
          simp only [lookup_cons_eq_ite]
          split <;> rfl
        · rename_i hkey
          simp only [lookup_cons_eq_ite, ih]
          by_cases hname : other = name
          · subst hname
            simp [Ne.symm hkey]
          · simp only [hname, if_false]

theorem lookup_foldl (key : String) (fields sorted : List (String × Json)) :
    (fields.foldl (fun sorted field => insertField field.1 field.2 sorted) sorted).lookup key =
      (fields.reverse.lookup key).or (sorted.lookup key) := by
  induction fields generalizing sorted with
  | nil => simp
  | cons field rest ih =>
      rw [List.foldl_cons, ih, lookup_insertField, List.reverse_cons, List.lookup_append,
        lookup_cons_eq_ite, List.lookup_nil]
      by_cases h : key = field.1
      · simp [h]
      · simp [h]

/-- Of fields with the same key a record keeps the last. -/
theorem field?_record (key : String) (fields : List (String × Json)) :
    (record fields).field? key = fields.reverse.lookup key := by
  rw [record, field?, lookup_foldl, List.lookup_nil, Option.or_none]

/-! ## Reading the fields of a written record -/

/-- A reader's first step comes before what it reads after that. -/
theorem bind_eq_some {first : Option α} {next : α → Option β} {value : β} :
    (first >>= next) = some value ↔ ∃ read, first = some read ∧ next read = some value :=
  Option.bind_eq_some_iff

/-- What a field tells that may be missing. -/
def foundOr (absent : β) (read : Json → β) : Option Json → β
  | none => absent
  | some present => read present

-- proved by rewriting, so that no check of a later proof runs a reader
@[simp] theorem foundOr_some (absent : β) (read : Json → β) (present : Json) :
    foundOr absent read (some present) = read present := by rw [foundOr]

@[simp] theorem foundOr_none (absent : β) (read : Json → β) :
    foundOr absent read none = absent := by rw [foundOr]

/-- What an optional field that is there tells. -/
def nullable (read : Json → Option α) : Json → Option (Option α)
  | .null => some none
  | present => (read present).map some

theorem nullable_of_ne_null {value : Json} (h : value ≠ .null) (read : Json → Option α) :
    nullable read value = (read value).map some := by
  cases value with
  | null => exact absurd rfl h
  | _ => rfl

variable (key : String) (fields : List (String × Json))

@[simp] theorem required_record (read : Json → Option α) :
    (record fields).required key read = foundOr none read (fields.reverse.lookup key) := by
  rw [required, field?_record]
  cases fields.reverse.lookup key <;> rfl

@[simp] theorem optional_record (read : Json → Option α) :
    (record fields).optional key read =
      foundOr (some none) (nullable read) (fields.reverse.lookup key) := by
  unfold optional
  rw [field?_record]
  cases fields.reverse.lookup key with
  | none => rfl
  | some present => cases present <;> rfl

@[simp] theorem defaulted_record (default : α) (read : Json → Option α) :
    (record fields).defaulted key default read =
      foundOr (some default) read (fields.reverse.lookup key) := by
  rw [defaulted, field?_record]
  cases fields.reverse.lookup key <;> rfl

@[simp] theorem nullable_text (value : Option String) :
    nullable text? (ofOption .text value) = some value := by
  cases value <;> rfl

@[simp] theorem nullable_orNull {value : Option Json} (h : value ≠ some .null) :
    nullable any? (orNull value) = some value := by
  cases value with
  | none => rfl
  | some present =>
      rw [orNull, Option.getD_some, nullable_of_ne_null fun hnull => h (congrArg some hnull)]
      rfl

/-! ## Reading back -/

/--
The written form of a type is read back: what can be stored is read as it was, and only what can
be stored is ever read.
-/
structure RoundTrips (write : α → Json) (read : Json → Option α) (storable : α → Prop) : Prop where
  written : ∀ value, storable value → read (write value) = some value
  accepted : ∀ json value, read json = some value → storable value

namespace RoundTrips

variable {write : α → Json} {read : Json → Option α} {storable : α → Prop} {json : Json}
  {key : String} {value : α}

/-- Whatever spelling was read, it is written in a form that is read as the same value. -/
theorem again (trips : RoundTrips write read storable) (h : read json = some value) :
    read (write value) = some value :=
  trips.written value (trips.accepted json value h)

/-- Since `null` is not read, an optional value is told from its absence. -/
theorem nullable (trips : RoundTrips write read storable) (hnull : read .null = none)
    {value : Option α} (h : ∀ present ∈ value, storable present) :
    nullable read (ofOption write value) = some value := by
  cases value with
  | none => rfl
  | some present =>
      have hread := trips.written present (h present rfl)
      rw [ofOption, nullable_of_ne_null, hread, Option.map_some]
      intro hwritten
      rw [hwritten, hnull] at hread
      cases hread

theorem required (trips : RoundTrips write read storable)
    (h : json.required key read = some value) : storable value := by
  obtain ⟨present, -, hread⟩ := Option.bind_eq_some_iff.1 h
  exact trips.accepted present value hread

theorem defaulted (trips : RoundTrips write read storable) {default : α} (hdefault : storable default)
    (h : json.defaulted key default read = some value) : storable value := by
  unfold Json.defaulted at h
  split at h
  · exact Option.some.inj h ▸ hdefault
  · exact trips.accepted _ value h

theorem optional (trips : RoundTrips write read storable) {value : Option α}
    (h : json.optional key read = some value) : ∀ present ∈ value, storable present := by
  rintro present rfl
  unfold Json.optional at h
  split at h
  · cases h
  · cases h
  · obtain ⟨_, hread, hvalue⟩ := Option.map_eq_some_iff.1 h
    exact trips.accepted _ present (Option.some.inj hvalue ▸ hread)

end RoundTrips

/-- A payload that may be absent is never read as `null`. -/
theorem ne_null_of_optional {json : Json} {key : String} {value : Option Json}
    (h : json.optional key any? = some value) : value ≠ some .null := by
  rintro rfl
  unfold optional at h
  split at h
  · cases h
  · cases h
  · rename_i hnull _
    exact hnull (by simpa [any?] using h)

/-! ## Plain values -/

@[simp] theorem any?_eq (value : Json) : any? value = some value := rfl

@[simp] theorem text?_text (value : String) : text? (.text value) = some value := rfl

@[simp] theorem bool?_bool (value : Bool) : bool? (.bool value) = some value := rfl

theorem word_roundTrips (bits : Nat) : RoundTrips ofNat (word? bits) (· < 2 ^ bits) where
  written value h := by
    have hbound : (value : Int) < (2 ^ bits : Nat) := Int.ofNat_lt.2 h
    rw [ofNat, word?, if_pos (by simpa using hbound), Int.toNat_natCast]
  accepted json value h := by
    cases json with
    | int written =>
        simp only [word?, Option.ite_none_right_eq_some, Bool.and_eq_true, decide_eq_true_eq] at h
        obtain ⟨⟨hpositive, hbound⟩, hvalue⟩ := h
        obtain rfl := Option.some.inj hvalue
        have hbound : written < ((2 ^ bits : Nat) : Int) := hbound
        omega
    | _ => cases h

theorem number_roundTrips : RoundTrips ofFloat number? (·.isFinite = true) where
  written value h := by simp [ofFloat, number?, finite?, h]
  accepted json value h := by
    have hfinite : ∀ {number : Binary64}, finite? number = some value → value.isFinite = true := by
      intro number hread
      rw [finite?, Option.ite_none_right_eq_some] at hread
      exact Option.some.inj hread.2 ▸ hread.1
    cases json with
    | int written => exact hfinite h
    | float written => exact hfinite h
    | _ => cases h

@[simp] theorem listOf?_texts (values : List String) : listOf? text? (texts values) = some values := by
  rw [texts, listOf?]
  induction values with
  | nil => rfl
  | cons value rest ih => rw [List.map_cons, readItems, ih, text?_text]

end Chronicle.Json
