import Formula.Text.Blank
import Formula.Text.Word

/-!
# Classes of characters

A reader looks at the first character of a token to tell what it is, and at the first character behind it to see where
it ends. That works because the classes are apart: nothing that may start a word is a digit
(`isDigit_eq_false_of_isWordStart`), and nothing that may stand inside a word is a blank
(`isBlank_eq_false_of_isWordChar`).
-/

namespace Formula.Text

/-! ## Ranges that are apart -/

/-- No range of the one list meets a range of the other. -/
def Ranges.apart (xs ys : List (Nat × Nat)) : Bool :=
  xs.all fun x => ys.all fun y => x.2.blt y.1 || y.2.blt x.1

theorem Ranges.contains_eq_false {xs ys : List (Nat × Nat)} (h : Ranges.apart xs ys = true) {n : Nat}
    (hx : Ranges.contains xs n = true) : Ranges.contains ys n = false := by
  rw [Bool.eq_false_iff]
  intro hy
  obtain ⟨x, hx⟩ := Option.isSome_iff_exists.1 hx
  obtain ⟨y, hy⟩ := Option.isSome_iff_exists.1 hy
  obtain ⟨hxm, hx₁, hx₂⟩ := Ranges.find?_some hx
  obtain ⟨hym, hy₁, hy₂⟩ := Ranges.find?_some hy
  have hxy := List.all_eq_true.1 (List.all_eq_true.1 h x hxm) y hym
  simp only [Bool.or_eq_true, Nat.blt_eq] at hxy
  omega

theorem apart_letter_decimal : Ranges.apart letterRanges decimalRanges = true := by decide +kernel

theorem apart_letter_otherDigit : Ranges.apart letterRanges otherDigitRanges = true := by decide +kernel

theorem apart_blank_letter : Ranges.apart blankRanges letterRanges = true := by decide +kernel

theorem apart_blank_decimal : Ranges.apart blankRanges decimalRanges = true := by decide +kernel

theorem apart_blank_otherDigit : Ranges.apart blankRanges otherDigitRanges = true := by decide +kernel

theorem apart_blank_numeric : Ranges.apart blankRanges numericRanges = true := by decide +kernel

/-! ## Words, digits and blanks -/

/-- A digit of either sort lies in one of the two lists. -/
theorem isDigit_eq_false {c : Char} (h : Ranges.contains decimalRanges c.toNat = false)
    (ho : Ranges.contains otherDigitRanges c.toNat = false) : isDigit c = false := by
  simp only [isDigit, digitValue?, Option.isSome_map, Bool.or_eq_false_iff]
  exact ⟨h, ho⟩

/-- What may start a word is no digit. -/
theorem isDigit_eq_false_of_isWordStart {c : Char} (h : isWordStart c = true) : isDigit c = false := by
  simp only [isWordStart, Bool.or_eq_true, beq_iff_eq] at h
  rcases h with h | rfl
  · exact isDigit_eq_false (Ranges.contains_eq_false apart_letter_decimal h)
      (Ranges.contains_eq_false apart_letter_otherDigit h)
  · rfl

/-- None of the ten common digits starts a word. -/
theorem isWordStart_eq_false_of_common {c : Char} (h : c.isDigit = true) : isWordStart c = false := by
  have hle : 0x30 ≤ c.toNat ∧ c.toNat ≤ 0x39 := by
    rw [Char.isDigit, Bool.and_eq_true, decide_eq_true_iff, decide_eq_true_iff] at h
    exact h
  have hdigit : Ranges.contains [(0x30, 0x39)] c.toNat = true := by
    simp [Ranges.contains, Ranges.find?, hle.1, hle.2]
  have hletter : isLetter c = false := Ranges.contains_eq_false (by decide +kernel) hdigit
  have hmark : (c == '_') = false := by
    rw [beq_eq_false_iff_ne]
    rintro rfl
    cases h
  rw [isWordStart, hletter, hmark]
  rfl

/-- Digits have no case. -/
theorem toLower_eq_of_isDigit {c : Char} (h : isDigit c = true) : c.toLower = c := by
  refine dif_neg fun hc => ?_
  have hletter : Ranges.contains [(0x41, 0x5A)] c.toNat = true := by
    have hle : 0x41 ≤ c.toNat ∧ c.toNat ≤ 0x5A := hc
    simp [Ranges.contains, Ranges.find?, hle.1, hle.2]
  rw [isDigit_eq_false (Ranges.contains_eq_false (by decide +kernel) hletter)
    (Ranges.contains_eq_false (by decide +kernel) hletter)] at h
  cases h

theorem isWordChar_eq_false_of_isBlank {c : Char} (h : isBlank c = true) : isWordChar c = false := by
  have hl : isLetter c = false := Ranges.contains_eq_false apart_blank_letter h
  have hd : isDigit c = false := isDigit_eq_false (Ranges.contains_eq_false apart_blank_decimal h)
    (Ranges.contains_eq_false apart_blank_otherDigit h)
  have hn : Ranges.contains numericRanges c.toNat = false := Ranges.contains_eq_false apart_blank_numeric h
  have hu : (c == '_') = false := by
    rw [beq_eq_false_iff_ne]
    rintro rfl
    exact absurd h (by decide)
  simp only [isWordChar, hl, hd, hn, hu, Bool.or_self]

/-- What may stand inside a word is no blank. -/
theorem isBlank_eq_false_of_isWordChar {c : Char} (h : isWordChar c = true) : isBlank c = false := by
  rw [Bool.eq_false_iff]
  intro hb
  rw [isWordChar_eq_false_of_isBlank hb] at h
  cases h

/-- A character with a property is none without it. -/
theorem ne_of_class {p : Char → Bool} {c d : Char} (h : p c = true) (hd : p d = false) : c ≠ d := by
  rintro rfl
  rw [h] at hd
  cases hd

/-! ## The end of a stretch -/

/-- A numeral, a word or a variable before the text ends where the text begins. -/
def Ends (text : List Char) : Prop := ∀ c ∈ text.head?, isWordChar c = false ∧ c ≠ '.' ∧ c ≠ '('

theorem ends_nil : Ends [] := by
  intro c hc
  cases hc

theorem ends_cons {c : Char} {rest : List Char} (h : isWordChar c = false) (hp : c ≠ '.') (hb : c ≠ '(') :
    Ends (c :: rest) := by
  intro d hd
  obtain rfl : c = d := by simpa using hd
  exact ⟨h, hp, hb⟩

theorem ends_blank {c : Char} {rest : List Char} (h : isBlank c = true) : Ends (c :: rest) :=
  ends_cons (isWordChar_eq_false_of_isBlank h) (ne_of_class h (by decide)) (ne_of_class h (by decide))

theorem ends_blanks {blanks rest : List Char} (h : blanks.all isBlank = true) (hr : Ends rest) :
    Ends (blanks ++ rest) := by
  cases blanks with
  | nil => exact hr
  | cons c blanks =>
    rw [List.all_cons, Bool.and_eq_true] at h
    exact ends_blank h.1

theorem Ends.isDigit_eq_false {text : List Char} (h : Ends text) : ∀ c ∈ text.head?, isDigit c = false := by
  intro c hc
  rw [Bool.eq_false_iff]
  intro hd
  exact absurd (isWordChar_of_isDigit hd) (by simp [(h c hc).1])

section Stretch

variable {p : Char → Bool} {stretch rest : List Char}

/-- A stretch of characters of a class that ends behind it is taken as a whole. -/
theorem takeWhile_stretch (h : stretch.all p = true) (hr : ∀ c ∈ rest.head?, p c = false) :
    (stretch ++ rest).takeWhile p = stretch := by
  rw [List.takeWhile_append_of_pos (List.all_eq_true.1 h)]
  cases rest with
  | nil => simp
  | cons c rest => rw [List.takeWhile_cons_of_neg (by simp [hr c rfl]), List.append_nil]

theorem dropWhile_stretch (h : stretch.all p = true) (hr : ∀ c ∈ rest.head?, p c = false) :
    (stretch ++ rest).dropWhile p = rest := by
  rw [List.dropWhile_append_of_pos (List.all_eq_true.1 h)]
  cases rest with
  | nil => rfl
  | cons c rest => rw [List.dropWhile_cons_of_neg (by simp [hr c rfl])]

end Stretch

end Formula.Text
