import Chronicle.Proofs.Json.Records

/-!
# Formats of records

What it takes for records to be stored for good: they are read back, and so are those of a program
that writes more fields, or fewer.
-/

namespace Chronicle.Json

/-! ## Records with fewer fields -/

/-- The record without the fields of some keys. -/
def without (keys : List String) : Json → Json
  | .object fields => .object (fields.filter fun field => field.1 ∉ keys)
  | value => value

theorem without_nil (value : Json) : value.without [] = value := by
  cases value with
  | object fields => simp [without]
  | _ => rfl

theorem isObject_without (keys : List String) (value : Json) :
    (value.without keys).isObject = value.isObject := by
  cases value <;> rfl

theorem field?_without (keys : List String) (key : String) (value : Json) :
    (value.without keys).field? key = if key ∈ keys then none else value.field? key := by
  cases value with
  | object fields =>
      simp only [without, field?]
      induction fields with
      | nil => simp
      | cons field rest ih =>
          obtain ⟨name, existing⟩ := field
          rw [List.filter_cons, lookup_cons_eq_ite]
          by_cases hname : key = name
          · subst hname
            by_cases hkey : key ∈ keys
            · rw [if_neg (by simpa using hkey), ih, if_pos hkey, if_pos hkey]
            · rw [if_pos (by simpa using hkey), lookup_cons_eq_ite, if_pos rfl, if_pos rfl, if_neg hkey]
          · split
            · rw [lookup_cons_eq_ite, if_neg hname, ih]
            · exact ih
  | _ => simp [without, field?]

section Without

variable {keys : List String} {key : String}

@[simp] theorem required_without (h : key ∉ keys) (read : Json → Option α) (value : Json) :
    (value.without keys).required key read = value.required key read := by
  rw [required, field?_without, if_neg h, required]

@[simp] theorem optional_without (h : key ∉ keys) (read : Json → Option α) (value : Json) :
    (value.without keys).optional key read = value.optional key read := by
  unfold optional
  rw [field?_without, if_neg h]

@[simp] theorem defaulted_without (h : key ∉ keys) (default : α) (read : Json → Option α)
    (value : Json) :
    (value.without keys).defaulted key default read = value.defaulted key default read := by
  rw [defaulted, field?_without, if_neg h, defaulted]

@[simp] theorem optional_without_of_mem (h : key ∈ keys) (read : Json → Option α) (value : Json) :
    (value.without keys).optional key read = some none := by
  unfold optional
  rw [field?_without, if_pos h]

@[simp] theorem defaulted_without_of_mem (h : key ∈ keys) (default : α) (read : Json → Option α)
    (value : Json) : (value.without keys).defaulted key default read = some default := by
  rw [defaulted, field?_without, if_pos h]

end Without

/-! ## Formats -/

/-- How the records of a type are written and read. -/
structure Format (α : Type) where
  write : α → Json
  read : Json → Option α
  /-- The values that have a written form of their own. -/
  storable : α → Prop
  /-- The keys that the reader looks for. -/
  keys : List String
  /-- The keys of a value's record that may be missing. -/
  defaulted : α → List String := fun _ => []
  /-- The value with the defaults of these. -/
  brief : α → α := id

/-- Records of the format are stored for good. -/
structure Format.Persists (format : Format α) : Prop where
  /-- What can be stored is read back. -/
  written : ∀ value, format.storable value → format.read (format.write value) = some value
  /-- What is read, in whatever form, can be stored. -/
  accepted : ∀ json value, format.read json = some value → format.storable value
  /-- What was read is read back from the form it is written in. -/
  again : ∀ json value, format.read json = some value →
    format.read (format.write value) = some value
  /-- Fields with other keys make no difference. -/
  unknown : ∀ json keys, (∀ key ∈ format.keys, key ∉ keys) →
    format.read (json.without keys) = format.read json
  /-- A record is accepted without the fields that have defaults, which stand in for them. -/
  missing : ∀ json value, format.read json = some value →
    format.read (json.without (format.defaulted value)) = some (format.brief value)

theorem Format.persists {format : Format α}
    (trips : RoundTrips format.write format.read format.storable)
    (unknown : ∀ json keys, (∀ key ∈ format.keys, key ∉ keys) →
      format.read (json.without keys) = format.read json)
    (missing : ∀ json value, format.read json = some value →
      format.read (json.without (format.defaulted value)) = some (format.brief value)) :
    format.Persists where
  written := trips.written
  accepted := trips.accepted
  again _ _ := trips.again
  unknown := unknown
  missing := missing

/-- A format whose records have all their fields. -/
theorem Format.persists_of_full {format : Format α}
    (trips : RoundTrips format.write format.read format.storable)
    (full : ∀ value, format.defaulted value = [] ∧ format.brief value = value)
    (unknown : ∀ json keys, (∀ key ∈ format.keys, key ∉ keys) →
      format.read (json.without keys) = format.read json) : format.Persists := by
  refine Format.persists trips unknown fun json value h => ?_
  rw [(full value).1, (full value).2, without_nil, h]

end Chronicle.Json
