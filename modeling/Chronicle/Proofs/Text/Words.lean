import Chronicle.Proofs.Text.Identifiers
import Chronicle.Text.Decimal
import Mathlib.Algebra.Group.Nat.Defs
import Mathlib.Data.List.TakeWhile

/-!
# Texts taken apart

A text is taken apart into words between blanks, into parts between separators, or into digits.
Each function that does so is described by the texts that it takes apart: those that its results
make up again, in one way only.  The digits of a padded number stand for that number.
-/

namespace Chronicle.Text

/-! ## Padded numbers -/

theorem digitsToNat_eq (digits : List Char) : digitsToNat digits = Nat.ofDigitChars 10 digits 0 := by
  simp [digitsToNat, Nat.ofDigitChars_eq_foldl, Nat.mul_comm]

/-- Digits stand for a number with at most as many digits. -/
theorem digitsToNat_lt {digits : List Char} (h : ∀ c ∈ digits, c.isDigit = true) :
    digitsToNat digits < 10 ^ digits.length := by
  rw [digitsToNat_eq]
  induction digits with
  | nil => simp
  | cons c rest ih =>
      have hfirst := Char.isDigit_iff_toNat.1 (h c List.mem_cons_self)
      have hrest := ih fun d hmem => h d (List.mem_cons_of_mem c hmem)
      rw [Nat.ofDigitChars_cons, Nat.ofDigitChars_eq_ofDigitChars_zero, List.length_cons, Nat.pow_succ]
      have hdigit : 10 * 0 + (c.toNat - '0'.toNat) ≤ 9 := by
        simp only [Char.reduceToNat] at hfirst ⊢
        omega
      have hscaled := Nat.mul_le_mul_left (10 ^ rest.length) hdigit
      omega

theorem toList_padded (width value : Nat) :
    (padded width value).toList =
      List.replicate (width - (Nat.toDigits 10 value).length) '0' ++ Nat.toDigits 10 value := by
  simp [padded, Nat.repr_eq_ofList_toDigits]

theorem digitsToNat_padded (width value : Nat) : digitsToNat (padded width value).toList = value := by
  simp [digitsToNat_eq, toList_padded, Nat.ofDigitChars_append]

theorem isDigit_of_mem_padded {width value : Nat} {c : Char} (h : c ∈ (padded width value).toList) :
    c.isDigit = true := by
  rw [toList_padded, List.mem_append] at h
  rcases h with hzero | hdigit
  · rw [List.eq_of_mem_replicate hzero]
    rfl
  · exact Nat.isDigit_of_mem_toDigits (by decide) (by decide) hdigit

theorem padded_ne_nil {width value : Nat} : (padded width value).toList ≠ [] := by
  simp [toList_padded]

theorem length_padded {width value : Nat} (hwidth : 0 < width) (h : value < 10 ^ width) :
    (padded width value).toList.length = width := by
  have hlength := (Nat.length_toDigits_le_iff (by decide) hwidth).2 h
  rw [toList_padded, List.length_append, List.length_replicate]
  omega

/-! ## Numbers -/

/-- Digits, at least one, which stand for a number of so many bits. -/
structure IsDigits (bits : Nat) (text : List Char) (value : Nat) : Prop where
  nonempty : text ≠ []
  digits : ∀ c ∈ text, c.isDigit = true
  reads : Nat.ofDigitChars 10 text 0 = value
  bound : value < 2 ^ bits

/-- Digits after an optional plus sign. -/
def IsNumber (bits : Nat) (text : List Char) (value : Nat) : Prop :=
  IsDigits bits text value ∨ ∃ digits, text = '+' :: digits ∧ IsDigits bits digits value

variable {bits value : Nat} {text : List Char} {c separator : Char}

theorem not_isDigit_plus {digits : List Char} : ¬ IsDigits bits ('+' :: digits) value := by
  intro h
  have hplus := h.digits '+' List.mem_cons_self
  exact absurd hplus (by decide)

theorem digits_eq_some_iff :
    (if !text.isEmpty && text.all Char.isDigit then some (digitsToNat text) else none) = some value ∧
      value < 2 ^ bits ↔ IsDigits bits text value := by
  rw [Option.ite_none_right_eq_some, Option.some.injEq, digitsToNat_eq]
  simp only [Bool.and_eq_true, Bool.not_eq_true', List.isEmpty_eq_false_iff, List.all_eq_true]
  constructor
  · rintro ⟨⟨⟨hne, hdigits⟩, hvalue⟩, hbound⟩
    exact ⟨hne, hdigits, hvalue, hbound⟩
  · rintro ⟨hne, hdigits, hvalue, hbound⟩
    exact ⟨⟨⟨hne, hdigits⟩, hvalue⟩, hbound⟩

theorem unsigned?_eq_some : unsigned? text = some value ∧ value < 2 ^ bits ↔
    IsNumber bits text value := by
  unfold unsigned? IsNumber
  simp only
  rw [digits_eq_some_iff]
  split
  · simp [not_isDigit_plus]
  · rename_i hplus
    constructor
    · exact .inl
    · rintro (h | ⟨digits, rfl, -⟩)
      · exact h
      · exact absurd rfl (hplus digits)

theorem word?_eq_some : word? bits text = some value ↔ IsNumber bits text value := by
  rw [← unsigned?_eq_some]
  unfold word?
  cases unsigned? text with
  | none => simp
  | some number =>
      simp only [Option.ite_none_right_eq_some, Option.some.injEq, Nat.pow_eq]
      constructor
      · rintro ⟨hbound, rfl⟩
        exact ⟨rfl, hbound⟩
      · rintro ⟨rfl, hbound⟩
        exact ⟨hbound, rfl⟩

theorem IsNumber.notMem (h : IsNumber bits text value) (hdigit : c.isDigit = false)
    (hplus : c ≠ '+') : c ∉ text := by
  have hnot : ∀ digits, IsDigits bits digits value → c ∉ digits := by
    intro digits hdigits hmem
    rw [hdigits.digits c hmem] at hdigit
    cases hdigit
  rcases h with h | ⟨digits, rfl, h⟩
  · exact hnot text h
  · simp [hplus, hnot digits h]

/-! ## Separators -/

/-- The text falls apart at its first separator. -/
theorem splitOnce?_eq_some {before after : List Char} :
    splitOnce? separator text = some (before, after) ↔
      text = before ++ separator :: after ∧ separator ∉ before := by
  induction text generalizing before with
  | nil => simp [splitOnce?]
  | cons c rest ih =>
      unfold splitOnce?
      by_cases hc : c = separator
      · subst hc
        cases before with
        | nil => simp [eq_comm]
        | cons d before =>
            simp only [if_true, Option.some.injEq, Prod.mk.injEq, List.cons_append, List.cons.injEq,
              List.mem_cons, not_or]
            constructor
            · rintro ⟨⟨⟩, -⟩
            · rintro ⟨⟨rfl, -⟩, hne, -⟩
              exact absurd rfl hne
      · rw [if_neg hc, Option.map_eq_some_iff]
        cases before with
        | nil => simp [hc]
        | cons d before =>
            simp only [Prod.exists, Prod.mk.injEq, List.cons.injEq, List.cons_append, List.mem_cons,
              not_or]
            constructor
            · rintro ⟨first, second, hsplit, ⟨rfl, rfl⟩, rfl⟩
              obtain ⟨rfl, hnot⟩ := ih.1 hsplit
              exact ⟨⟨rfl, rfl⟩, Ne.symm hc, hnot⟩
            · rintro ⟨⟨rfl, rfl⟩, -, hnot⟩
              exact ⟨before, after, ih.2 ⟨rfl, hnot⟩, ⟨rfl, rfl⟩, rfl⟩

theorem splitOnce?_eq_none : splitOnce? separator text = none ↔ separator ∉ text := by
  induction text with
  | nil => simp [splitOnce?]
  | cons c rest ih =>
      unfold splitOnce?
      by_cases hc : c = separator
      · simp [hc]
      · rw [if_neg hc, Option.map_eq_none_iff, ih, List.mem_cons, not_or]
        exact ⟨fun h => ⟨Ne.symm hc, h⟩, And.right⟩

theorem splitAt_ne_nil : splitAt separator text ≠ [] := by
  cases text with
  | nil => simp [splitAt]
  | cons c rest =>
      unfold splitAt
      split
      · simp
      · split <;> simp

theorem intercalate_cons {part : List Char} {parts : List (List Char)} (h : parts ≠ []) :
    [separator].intercalate (part :: parts) = part ++ separator :: [separator].intercalate parts := by
  cases parts with
  | nil => exact absurd rfl h
  | cons first rest => simp [List.intercalate, List.intersperse]

/-- The parts between separators have none themselves. -/
theorem splitAt_eq_iff {parts : List (List Char)} : splitAt separator text = parts ↔
    parts ≠ [] ∧ (∀ part ∈ parts, separator ∉ part) ∧ [separator].intercalate parts = text := by
  -- one way is by induction on the text, the other on the parts
  constructor
  · rintro rfl
    refine ⟨splitAt_ne_nil, ?_⟩
    induction text with
    | nil => simp [splitAt, List.intercalate]
    | cons c rest ih =>
        unfold splitAt
        split
        case isTrue hc =>
          rw [intercalate_cons splitAt_ne_nil, ih.2, hc]
          exact ⟨by simpa using ih.1, rfl⟩
        case isFalse hc =>
          cases hsplit : splitAt separator rest with
          | nil => exact absurd hsplit splitAt_ne_nil
          | cons part more =>
              rw [hsplit] at ih
              obtain ⟨hnot, htext⟩ := ih
              rw [List.forall_mem_cons] at hnot ⊢
              refine ⟨⟨?_, hnot.2⟩, ?_⟩
              · rw [List.mem_cons, not_or]
                exact ⟨Ne.symm hc, hnot.1⟩
              · rw [← htext]
                cases more <;> simp [List.intercalate]
  · rintro ⟨hne, hnot, rfl⟩
    induction parts with
    | nil => exact absurd rfl hne
    | cons part more ih =>
        rw [List.forall_mem_cons] at hnot
        by_cases hmore : more = []
        · subst hmore
          simpa [List.intercalate] using splitAt_of_notMem hnot.1
        · rw [intercalate_cons hmore, splitAt_append hnot.1, ih hmore hnot.2]

/-! ## Words -/

/-- Words, each at least one character long, with blanks around and between them. -/
inductive Spaced : List Char → List (List Char) → Prop where
  | none {blanks : List Char} (hblanks : ∀ c ∈ blanks, isBlank c = true) : Spaced blanks []
  | word {blanks word rest : List Char} {words : List (List Char)}
      (hblanks : ∀ c ∈ blanks, isBlank c = true) (hne : word ≠ [])
      (hword : ∀ c ∈ word, isBlank c = false) (hends : ∀ c ∈ rest.head?, isBlank c = true)
      (spaced : Spaced rest words) : Spaced (blanks ++ word ++ rest) (word :: words)

theorem words_cons_blank (h : isBlank c = true) (rest : List Char) :
    words (c :: rest) = words rest := by
  cases rest <;> simp [words, h]

theorem words_blanks {blanks : List Char} (h : ∀ c ∈ blanks, isBlank c = true) (rest : List Char) :
    words (blanks ++ rest) = words rest := by
  induction blanks with
  | nil => rfl
  | cons c more ih =>
      rw [List.forall_mem_cons] at h
      rw [List.cons_append, words_cons_blank h.1, ih h.2]

theorem words_word {word rest : List Char} (hne : word ≠ []) (hword : ∀ c ∈ word, isBlank c = false)
    (hends : ∀ c ∈ rest.head?, isBlank c = true) : words (word ++ rest) = word :: words rest := by
  induction word with
  | nil => exact absurd rfl hne
  | cons c more ih =>
      rw [List.forall_mem_cons] at hword
      cases more with
      | nil =>
          cases rest with
          | nil => simp [words, hword.1]
          | cons d rest => simp [words, hword.1, hends d rfl]
      | cons d more =>
          have hrest := ih (by simp) hword.2
          rw [List.cons_append] at hrest
          rw [List.cons_append, List.cons_append, words, hrest]
          simp [hword.1, hword.2 d List.mem_cons_self]

theorem Spaced.blank {found : List (List Char)} (spaced : Spaced text found) (h : isBlank c = true) :
    Spaced (c :: text) found := by
  cases spaced with
  | none hblanks => exact .none (List.forall_mem_cons.2 ⟨h, hblanks⟩)
  | word hblanks hne hword hends rest =>
      exact .word (List.forall_mem_cons.2 ⟨h, hblanks⟩) hne hword hends rest

theorem spaced_words (text : List Char) : Spaced text (words text) := by
  induction hlength : text.length using Nat.strong_induction_on generalizing text with
  | _ length ih =>
      cases text with
      | nil => exact .none (by simp)
      | cons c rest =>
          rw [List.length_cons] at hlength
          by_cases hc : isBlank c = true
          · rw [words_cons_blank hc]
            exact (ih rest.length (by omega) rest rfl).blank hc
          · -- the word goes on to the next blank
            have hword : ∀ d ∈ c :: rest.takeWhile (fun d => !isBlank d), isBlank d = false := by
              rw [List.forall_mem_cons]
              refine ⟨by simpa using hc, fun d hmem => ?_⟩
              simpa using List.mem_takeWhile_imp hmem
            have hends : ∀ d ∈ (rest.dropWhile fun d => !isBlank d).head?, isBlank d = true := by
              intro d hhead
              have hnot := List.head?_dropWhile_not (fun d => !isBlank d) rest
              rw [Option.mem_def.1 hhead] at hnot
              simpa using hnot
            have hshorter := (List.dropWhile_sublist (fun d => !isBlank d) (l := rest)).length_le
            have hblanks : ∀ d ∈ ([] : List Char), isBlank d = true := by simp
            have spaced := Spaced.word hblanks (by simp) hword hends (ih _ (by omega) _ rfl)
            rw [← words_word (by simp) hword hends] at spaced
            simpa using spaced

theorem Spaced.words_eq {text : List Char} {found : List (List Char)} (spaced : Spaced text found) :
    words text = found := by
  induction spaced with
  | @none blanks hblanks => simpa [words] using words_blanks hblanks []
  | word hblanks hne hword hends _ ih =>
      rw [List.append_assoc, words_blanks hblanks, words_word hne hword hends, ih]

theorem words_eq_iff {found : List (List Char)} : words text = found ↔ Spaced text found :=
  ⟨fun h => h ▸ spaced_words text, Spaced.words_eq⟩

/-! ## Blanks at the ends -/

theorem words_append_blanks {blanks : List Char} (h : ∀ c ∈ blanks, isBlank c = true) :
    words (text ++ blanks) = words text := by
  have hspaced : ∀ found, Spaced text found → Spaced (text ++ blanks) found := by
    intro found spaced
    induction spaced with
    | none hblanks =>
        refine .none fun c hmem => ?_
        exact (List.mem_append.1 hmem).elim (hblanks c) (h c)
    | @word before word rest words hblanks hne hword hends _ ih =>
        rw [List.append_assoc]
        refine .word hblanks hne hword ?_ ih
        cases rest with
        | nil => exact fun c hmem => h c (List.mem_of_mem_head? hmem)
        | cons d rest => exact hends
  exact (hspaced _ (spaced_words text)).words_eq

theorem trimLeft_append (text : List Char) : ∃ blanks, (∀ c ∈ blanks, isBlank c = true) ∧
    text = blanks ++ trimLeft text :=
  ⟨text.takeWhile isBlank, fun _ => List.mem_takeWhile_imp, List.takeWhile_append_dropWhile.symm⟩

theorem trimRight_append (text : List Char) : ∃ blanks, (∀ c ∈ blanks, isBlank c = true) ∧
    text = trimRight text ++ blanks := by
  obtain ⟨blanks, hblanks, htext⟩ := trimLeft_append text.reverse
  refine ⟨blanks.reverse, by simpa using hblanks, ?_⟩
  rw [trimRight, ← List.reverse_append, ← trimLeft, ← htext, List.reverse_reverse]

theorem words_trim (text : List Char) : words (trim text) = words text := by
  obtain ⟨before, hbefore, hleft⟩ := trimLeft_append text
  obtain ⟨after, hafter, hright⟩ := trimRight_append (trimLeft text)
  have htrim : words (trimLeft text) = words (trim text) :=
    (congrArg words hright).trans (words_append_blanks hafter)
  rw [← htrim, ← words_blanks hbefore (trimLeft text), ← hleft]

theorem strip?_eq_some {literal rest : List Char} :
    strip? literal text = some rest ↔ text = literal ++ rest := by
  induction literal generalizing text with
  | nil => simp [strip?]
  | cons c literal ih =>
      cases text with
      | nil => simp [strip?]
      | cons d text =>
          rw [strip?, Option.ite_none_right_eq_some, ih, List.cons_append, List.cons.injEq,
            eq_comm (a := c)]

end Chronicle.Text
