import Chronicle.Uuid
import Mathlib.Algebra.Group.Nat.Defs
import Mathlib.Data.List.Basic

/-!
# Identifiers are read back

The text of an identifier of 128 bits is read back as that identifier, and every text that is read
gives an identifier of 128 bits.
-/

namespace Chronicle

/-! ## Splitting at a separator -/

namespace Text

theorem splitAt_of_notMem {separator : Char} {part : List Char} (h : separator ∉ part) :
    splitAt separator part = [part] := by
  induction part with
  | nil => rfl
  | cons c rest ih =>
      rw [List.mem_cons, not_or] at h
      simp [splitAt, Ne.symm h.1, ih h.2]

theorem splitAt_append {separator : Char} {part : List Char} (h : separator ∉ part)
    (rest : List Char) :
    splitAt separator (part ++ separator :: rest) = part :: splitAt separator rest := by
  induction part with
  | nil => simp [splitAt]
  | cons c more ih =>
      rw [List.mem_cons, not_or] at h
      simp [splitAt, Ne.symm h.1, ih h.2]

end Text

namespace Uuid

/-- Identifiers have 128 bits. -/
def IsProper (uuid : Uuid) : Prop := uuid.value < 2 ^ 128

/-! ## Hexadecimal digits -/

theorem hexDigit?_hexDigit {digit : Nat} (h : digit < 16) :
    Json.Reader.hexDigit? (Json.hexDigit digit) = some digit := by
  have hall : ∀ digit : Fin 16, Json.Reader.hexDigit? (Json.hexDigit digit) = some digit.val := by
    decide
  exact hall ⟨digit, h⟩

theorem hexDigit?_lt {c : Char} {digit : Nat} (h : Json.Reader.hexDigit? c = some digit) :
    digit < 16 := by
  have hdigit : ∀ (first last : Char) (shift : Nat), last.toNat - first.toNat + shift < 16 →
      first ≤ c ∧ c ≤ last → c.toNat - first.toNat + shift < 16 := by
    intro first last shift hbound hrange
    have hlast : c.toNat ≤ last.toNat := UInt32.le_iff_toNat_le.1 hrange.2
    omega
  simp only [Json.Reader.hexDigit?, Bool.and_eq_true, decide_eq_true_eq] at h
  split at h
  · cases h
    exact hdigit '0' '9' 0 (by decide) ‹_›
  · split at h
    · cases h
      exact hdigit 'a' 'f' 10 (by decide) ‹_›
    · split at h
      · cases h
        exact hdigit 'A' 'F' 10 (by decide) ‹_›
      · cases h

theorem mapM_hexDigit {values : List Nat} (h : ∀ digit ∈ values, digit < 16) :
    (values.map Json.hexDigit).mapM Json.Reader.hexDigit? = some values := by
  induction values with
  | nil => rfl
  | cons digit rest ih =>
      rw [List.forall_mem_cons] at h
      simp [hexDigit?_hexDigit h.1, ih h.2]

/-- Digits stand for a number with at most as many digits. -/
theorem foldl_lt {digits : List Char} {values : List Nat}
    (h : digits.mapM Json.Reader.hexDigit? = some values) (high : Nat) :
    values.foldl (fun value digit => value * 16 + digit) high < (high + 1) * 16 ^ digits.length := by
  induction digits generalizing values high with
  | nil =>
      obtain rfl : [] = values := by simpa using h
      simp
  | cons c rest ih =>
      simp only [List.mapM_cons, Option.bind_eq_bind, Option.bind_eq_some_iff] at h
      obtain ⟨digit, hdigit, more, hmore, hvalues⟩ := h
      obtain rfl := Option.some.inj hvalues
      have hfirst := hexDigit?_lt hdigit
      calc more.foldl (fun value digit => value * 16 + digit) (high * 16 + digit)
          < (high * 16 + digit + 1) * 16 ^ rest.length := ih hmore _
        _ ≤ ((high + 1) * 16) * 16 ^ rest.length := Nat.mul_le_mul_right _ (by omega)
        _ = (high + 1) * 16 ^ (c :: rest).length := by
            rw [List.length_cons, Nat.pow_succ, Nat.mul_assoc, Nat.mul_comm 16]

/-- The last digits of a number stand for it. -/
theorem foldl_digits (count value : Nat) :
    ((List.range count).map fun place => value / 16 ^ (count - 1 - place) % 16).foldl
      (fun value digit => value * 16 + digit) 0 = value % 16 ^ count := by
  induction count generalizing value with
  | zero => simp [Nat.mod_one]
  | succ count ih =>
      have hshift : ∀ place ∈ List.range count,
          value / 16 ^ (count + 1 - 1 - place) % 16 =
            value / 16 / 16 ^ (count - 1 - place) % 16 := by
        intro place hmem
        have hplace := List.mem_range.1 hmem
        rw [Nat.div_div_eq_div_mul, ← Nat.pow_succ',
          show count + 1 - 1 - place = (count - 1 - place).succ from by omega]
      rw [List.range_succ, List.map_append, List.foldl_append, List.map_congr_left hshift, ih]
      simp only [List.map_cons, List.map_nil, List.foldl_cons, List.foldl_nil, Nat.add_sub_cancel,
        Nat.sub_self, Nat.pow_zero, Nat.div_one]
      rw [Nat.pow_succ', Nat.mod_mul]
      omega

theorem hexDigits_eq (value : Nat) :
    hexDigits value =
      ((List.range 32).map fun place => value / 16 ^ (31 - place) % 16).map Json.hexDigit := by
  simp [hexDigits]

theorem length_hexDigits (value : Nat) : (hexDigits value).length = 32 := by
  simp [hexDigits]

theorem mapM_hexDigits (value : Nat) :
    (hexDigits value).mapM Json.Reader.hexDigit? =
      some ((List.range 32).map fun place => value / 16 ^ (31 - place) % 16) := by
  rw [hexDigits_eq, mapM_hexDigit]
  rw [List.forall_mem_map]
  exact fun _ _ => Nat.mod_lt _ (by decide)

theorem ofDigits?_hexDigits {uuid : Uuid} (proper : uuid.IsProper) :
    ofDigits? (hexDigits uuid.value) = some uuid := by
  have hdigits := foldl_digits 32 uuid.value
  rw [Nat.mod_eq_of_lt (show uuid.value < 16 ^ 32 from proper)] at hdigits
  rw [ofDigits?, if_pos (length_hexDigits _), mapM_hexDigits, Option.map_some, hdigits]

theorem isProper_of_ofDigits? {digits : List Char} {uuid : Uuid}
    (h : ofDigits? digits = some uuid) : uuid.IsProper := by
  simp only [ofDigits?, Option.ite_none_right_eq_some, Option.map_eq_some_iff] at h
  obtain ⟨hlength, values, hvalues, rfl⟩ := h
  have hbound := foldl_lt hvalues 0
  rw [hlength] at hbound
  simpa [IsProper] using hbound

/-- Every digit of an identifier is read as one. -/
theorem ne_of_mem_hexDigits {value : Nat} {c other : Char} (h : c ∈ hexDigits value)
    (hother : Json.Reader.hexDigit? other = none) : c ≠ other := by
  rintro rfl
  rw [hexDigits_eq, List.map_map, List.mem_map] at h
  obtain ⟨place, -, rfl⟩ := h
  rw [Function.comp_apply, hexDigit?_hexDigit (Nat.mod_lt _ (by decide))] at hother
  cases hother

/-! ## Texts -/

theorem toList_text (uuid : Uuid) :
    uuid.text.toList =
      ((hexDigits uuid.value).drop 0).take 8 ++ '-' ::
        (((hexDigits uuid.value).drop 8).take 4 ++ '-' ::
          (((hexDigits uuid.value).drop 12).take 4 ++ '-' ::
            (((hexDigits uuid.value).drop 16).take 4 ++ '-' ::
              ((hexDigits uuid.value).drop 20).take 12))) := by
  simp [text]

theorem length_text (uuid : Uuid) : uuid.text.toList.length = 36 := by
  simp [toList_text, length_hexDigits]

theorem ofGroups?_text {uuid : Uuid} (proper : uuid.IsProper) :
    ofGroups? uuid.text.toList = some uuid := by
  generalize hdigits : hexDigits uuid.value = digits
  have hlength : digits.length = 32 := hdigits ▸ length_hexDigits uuid.value
  have hpart : ∀ start count, '-' ∉ (digits.drop start).take count := by
    intro start count hmem
    rw [← hdigits] at hmem
    exact ne_of_mem_hexDigits (List.mem_of_mem_drop (List.mem_of_mem_take hmem)) rfl rfl
  have hgroups : Text.splitAt '-' uuid.text.toList =
      [(digits.drop 0).take 8, (digits.drop 8).take 4, (digits.drop 12).take 4,
        (digits.drop 16).take 4, (digits.drop 20).take 12] := by
    rw [toList_text, hdigits, Text.splitAt_append (hpart 0 8), Text.splitAt_append (hpart 8 4),
      Text.splitAt_append (hpart 12 4), Text.splitAt_append (hpart 16 4),
      Text.splitAt_of_notMem (hpart 20 12)]
  have hjoin : ∀ start count, (digits.drop start).take count ++ digits.drop (start + count) =
      digits.drop start := by
    intro start count
    rw [← List.drop_drop, List.take_append_drop]
  have hflat : (Text.splitAt '-' uuid.text.toList).flatten = digits := by
    have hlast : (digits.drop 20).take 12 = digits.drop 20 :=
      List.take_of_length_le (by simp [hlength])
    rw [hgroups, hlast]
    simp only [List.flatten_cons, List.flatten_nil, List.append_nil]
    rw [hjoin 16 4, hjoin 12 4, hjoin 8 4, hjoin 0 8, List.drop_zero]
  rw [ofGroups?, hflat, ← hdigits, ofDigits?_hexDigits proper, if_pos]
  simp [hgroups, hlength]

theorem isProper_of_ofGroups? {input : List Char} {uuid : Uuid}
    (h : ofGroups? input = some uuid) : uuid.IsProper := by
  simp only [ofGroups?, Option.ite_none_right_eq_some] at h
  exact isProper_of_ofDigits? h.2

/-- The spellings of an identifier in lower case. -/
def spellings (uuid : Uuid) : List String :=
  [uuid.text, String.ofList (hexDigits uuid.value), "\x7b" ++ uuid.text ++ "\x7d",
    "urn:uuid:" ++ uuid.text]

theorem first_of_text (uuid : Uuid) :
    ∃ c rest, uuid.text.toList = c :: rest ∧
      ∀ other, Json.Reader.hexDigit? other = none → c ≠ other := by
  obtain ⟨c, rest, hdigits⟩ : ∃ c rest, hexDigits uuid.value = c :: rest :=
    List.exists_cons_of_length_eq_add_one (length_hexDigits uuid.value)
  refine ⟨c, _, by rw [toList_text, hdigits]; rfl, fun other hother => ?_⟩
  exact ne_of_mem_hexDigits (by rw [hdigits]; exact List.mem_cons_self) hother

/-- The text starts with a digit, so it is neither a name of a resource nor in braces. -/
theorem parse?_text {uuid : Uuid} (proper : uuid.IsProper) : parse? uuid.text = some uuid := by
  have hgroups := ofGroups?_text proper
  obtain ⟨first, rest, hinput, hne⟩ := first_of_text uuid
  rw [parse?, if_neg (by rw [length_text]; decide)]
  rw [hinput] at hgroups ⊢
  have hname : Text.strip? "urn:uuid:".toList (first :: rest) = none := by
    rw [show "urn:uuid:".toList = 'u' :: "rn:uuid:".toList from rfl, Text.strip?, if_neg]
    exact Ne.symm (hne 'u' rfl)
  rw [hname]
  dsimp only
  split
  · rename_i heq
    exact absurd (List.cons.inj heq).1 (hne _ rfl)
  · exact hgroups

theorem parse?_braced {uuid : Uuid} (proper : uuid.IsProper) :
    parse? ("\x7b" ++ uuid.text ++ "\x7d") = some uuid := by
  have hinput : ("\x7b" ++ uuid.text ++ "\x7d").toList = '\x7b' :: (uuid.text.toList ++ ['\x7d']) := by
    simp
  have hname : Text.strip? "urn:uuid:".toList ('\x7b' :: (uuid.text.toList ++ ['\x7d'])) = none :=
    rfl
  rw [parse?, hinput, if_neg (by simp [length_text]), hname]
  change (if (uuid.text.toList ++ ['\x7d']).getLast? = some '\x7d'
    then ofGroups? (uuid.text.toList ++ ['\x7d']).dropLast else none) = some uuid
  rw [List.getLast?_concat, if_pos rfl, List.dropLast_concat]
  exact ofGroups?_text proper

theorem parse?_named {uuid : Uuid} (proper : uuid.IsProper) :
    parse? ("urn:uuid:" ++ uuid.text) = some uuid := by
  have hname : ∀ literal rest, Text.strip? literal (literal ++ rest) = some rest := by
    intro literal rest
    induction literal with
    | nil => rfl
    | cons c literal ih => rw [List.cons_append, Text.strip?, if_pos rfl, ih]
  have hlength : ("urn:uuid:".toList ++ uuid.text.toList).length ≠ 32 := by
    rw [List.length_append, length_text]
    decide
  rw [parse?, String.toList_append, if_neg hlength, hname]
  exact ofGroups?_text proper

theorem parse?_spelling {uuid : Uuid} (proper : uuid.IsProper) {spelling : String}
    (h : spelling ∈ uuid.spellings) : parse? spelling = some uuid := by
  simp only [spellings, List.mem_cons, List.not_mem_nil, or_false] at h
  rcases h with rfl | rfl | rfl | rfl
  · exact parse?_text proper
  · rw [parse?, String.toList_ofList, if_pos (length_hexDigits _), ofDigits?_hexDigits proper]
  · exact parse?_braced proper
  · exact parse?_named proper

theorem isProper_of_parse? {text : String} {uuid : Uuid} (h : parse? text = some uuid) :
    uuid.IsProper := by
  unfold parse? at h
  dsimp only at h
  split at h
  · exact isProper_of_ofDigits? h
  · split at h
    · exact isProper_of_ofGroups? h
    · split at h
      · rw [Option.ite_none_right_eq_some] at h
        exact isProper_of_ofGroups? h.2
      · exact isProper_of_ofGroups? h

theorem ofJson?_toJson {uuid : Uuid} (proper : uuid.IsProper) :
    ofJson? uuid.toJson = some uuid := by
  rw [toJson, ofJson?, parse?_text proper]

theorem isProper_of_ofJson? {value : Json} {uuid : Uuid} (h : ofJson? value = some uuid) :
    uuid.IsProper := by
  cases value with
  | text written => exact isProper_of_parse? h
  | _ => cases h

end Uuid

end Chronicle
