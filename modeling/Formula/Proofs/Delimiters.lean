import Formula.Proofs.Lexemes
import Formula.Proofs.Spelling
import Mathlib.Data.List.Find

/-!
# Ends of tokens

A text that is empty or starts with a blank, a closing bracket or a separator ends every token before it (`Delimits`).
Numerals, words and symbols are read from a text as if nothing stood behind it if such a text does
(`Delimits.readNumeral_append`, `Delimits.takeWhile_append`, `Delimits.find?_append`), whatever the text is: it need not
be all of one token. A string that has its closing quote ends there before any text (`Literal.unquoted?_append`).
-/

namespace Formula.Infix

open Formula.Text

/-! ## Texts behind which every token ends -/

/-- The text is empty or starts with a blank, a closing bracket or a separator. -/
def Delimits (tail : List Char) : Prop := ∀ c ∈ tail.head?, isBlank c = true ∨ c = ')' ∨ c = ','

theorem delimits_blank {c : Char} {rest : List Char} (h : isBlank c = true) : Delimits (c :: rest) := by
  intro d hd
  obtain rfl : c = d := by simpa using hd
  exact .inl h

theorem delimits_closing (rest : List Char) : Delimits (')' :: rest) := by
  intro d hd
  obtain rfl : ')' = d := by simpa using hd
  exact .inr (.inl rfl)

theorem delimits_separator (rest : List Char) : Delimits (',' :: rest) := by
  intro d hd
  obtain rfl : ',' = d := by simpa using hd
  exact .inr (.inr rfl)

namespace Delimits

variable {tail : List Char}

/-- A class that holds of no blank, no closing bracket and no separator does not hold at the head. -/
theorem head_eq_false (h : Delimits tail) {p : Char → Bool} (hb : ∀ c, isBlank c = true → p c = false)
    (hc : p ')' = false) (hs : p ',' = false) : ∀ c ∈ tail.head?, p c = false := by
  intro c hm
  rcases h c hm with hblank | rfl | rfl
  · exact hb c hblank
  · exact hc
  · exact hs

theorem isDigit_eq_false (h : Delimits tail) : ∀ c ∈ tail.head?, isDigit c = false := by
  refine h.head_eq_false (fun c hb => ?_) rfl rfl
  rw [Bool.eq_false_iff]
  intro hd
  exact absurd (isWordChar_of_isDigit hd) (by simp [isWordChar_eq_false_of_isBlank hb])

theorem isWordChar_eq_false (h : Delimits tail) : ∀ c ∈ tail.head?, isWordChar c = false :=
  h.head_eq_false (fun _ hb => isWordChar_eq_false_of_isBlank hb) rfl rfl

theorem ne (h : Delimits tail) {d : Char} (hb : isBlank d = false) (hc : d ≠ ')') (hs : d ≠ ',') :
    ∀ c ∈ tail.head?, c ≠ d := by
  intro c hm
  rcases h c hm with hblank | rfl | rfl
  · exact ne_of_class hblank hb
  · exact hc.symm
  · exact hs.symm

/-- Appended text shows at the head only where nothing stands before it. -/
theorem head?_append_ne (h : Delimits tail) {d : Char} (hb : isBlank d = false) (hc : d ≠ ')') (hs : d ≠ ',')
    (text : List Char) : (text ++ tail).head? = some d ↔ text.head? = some d := by
  cases text with
  | nil => exact ⟨fun he => absurd rfl (h.ne hb hc hs d he), fun he => absurd he (by simp)⟩
  | cons c text => rfl

theorem takeWhile_append {p : Char → Bool} (h : ∀ c ∈ tail.head?, p c = false) (text : List Char) :
    (text ++ tail).takeWhile p = text.takeWhile p := by
  induction text with
  | nil => exact takeWhile_stretch rfl h
  | cons c text ih =>
    rw [List.cons_append, List.takeWhile_cons, List.takeWhile_cons, ih]

/-! ## Numerals -/

theorem fractionPart_append (h : Delimits tail) (text : List Char) :
    Literal.fractionPart (text ++ tail) = Literal.fractionPart text := by
  have hnone : ∀ {text : List Char}, (∀ c ∈ text.head?, c ≠ '.') → Literal.fractionPart text = [] :=
    Numeral.fractionPart_of_head
  cases text with
  | nil => exact hnone (h.ne (by decide) (by decide) (by decide))
  | cons c text =>
    by_cases hc : c = '.'
    · subst hc
      show '.' :: (text ++ tail).takeWhile isDigit = '.' :: text.takeWhile isDigit
      rw [takeWhile_append h.isDigit_eq_false]
    · rw [hnone (by simpa using hc), hnone (by simpa using hc)]

theorem signPart_append (h : Delimits tail) (text : List Char) :
    Literal.signPart (text ++ tail) = Literal.signPart text := by
  cases text with
  | nil =>
    have hplus := h.ne (d := '+') (by decide) (by decide) (by decide)
    have hminus := h.ne (d := '-') (by decide) (by decide) (by decide)
    rw [List.nil_append]
    unfold Literal.signPart
    split
    · exact absurd rfl (hplus _ rfl)
    · exact absurd rfl (hminus _ rfl)
    · rfl
  | cons c text =>
    rw [List.cons_append]
    unfold Literal.signPart
    split <;> simp_all

theorem exponentPart_append (h : Delimits tail) (text : List Char) :
    Literal.exponentPart (text ++ tail) = Literal.exponentPart text := by
  cases text with
  | nil =>
    refine Numeral.exponentPart_of_ends fun c hc => ?_
    exact ⟨h.isWordChar_eq_false c hc, h.ne (by decide) (by decide) (by decide) c hc,
      h.ne (by decide) (by decide) (by decide) c hc⟩
  | cons mark text =>
    have hle : (Literal.signPart text).length ≤ text.length := (Literal.signPart_isPrefix text).length_le
    rw [List.cons_append, Literal.exponentPart, Literal.exponentPart]
    simp only [h.signPart_append, List.drop_append_of_le_length hle, takeWhile_append h.isDigit_eq_false]

theorem numeral_append (h : Delimits tail) (text : List Char) :
    Literal.numeral (text ++ tail) = Literal.numeral text := by
  have hwhole : (text.takeWhile isDigit).length ≤ text.length := (List.takeWhile_prefix isDigit).length_le
  have hfraction : (text.takeWhile isDigit).length +
      (Literal.fractionPart (text.drop (text.takeWhile isDigit).length)).length ≤ text.length := by
    have hle := (Literal.fractionPart_isPrefix (text.drop (text.takeWhile isDigit).length)).length_le
    rw [List.length_drop] at hle
    omega
  simp only [Literal.numeral, takeWhile_append h.isDigit_eq_false, List.drop_append_of_le_length hwhole,
    h.fractionPart_append, List.drop_append_of_le_length hfraction, h.exponentPart_append]

theorem readNumeral_append (h : Delimits tail) (text : List Char) (position : Nat) :
    Literal.readNumeral (text ++ tail) position = Literal.readNumeral text position := by
  have hle : (Literal.numeral text).length ≤ text.length := (Literal.numeral_isPrefix text).length_le
  simp only [Literal.readNumeral, h.numeral_append, List.drop_append_of_le_length hle,
    h.head?_append_ne (d := '.') (by decide) (by decide) (by decide)]

/-! ## Symbols -/

/-- No symbol reaches into the text behind. -/
theorem isPrefixOf_append (h : Delimits tail) {registry : Registry} {symbol : String} (hs : symbol ∈ registry.symbols)
    (text : List Char) : symbol.toList.isPrefixOf (text ++ tail) = symbol.toList.isPrefixOf text := by
  obtain ⟨fixity, op, -, rfl⟩ := Registry.mem_symbols.1 hs
  rw [Bool.eq_iff_iff, List.isPrefixOf_iff_prefix, List.isPrefixOf_iff_prefix]
  refine ⟨fun hp => ?_, fun hp => hp.trans (List.prefix_append text tail)⟩
  rcases List.prefix_or_prefix_of_prefix hp (List.prefix_append text tail) with hle | ⟨more, hmore⟩
  · exact hle
  · rw [← hmore, List.prefix_append_right_inj] at hp
    cases more with
    | nil => simp [← hmore]
    | cons c more =>
      obtain ⟨others, rfl⟩ := hp
      obtain ⟨hblank, -, hclosing, hseparator⟩ := (isSymbol_iff.1 op.admissible).2 c (hmore ▸ by simp)
      rcases h c rfl with hb | rfl | rfl
      · cases hblank.symm.trans hb
      · exact absurd rfl hclosing
      · exact absurd rfl hseparator

theorem find?_append (h : Delimits tail) (registry : Registry) (text : List Char) :
    (registry.symbols.find? fun symbol => symbol.toList.isPrefixOf (text ++ tail)) =
      registry.symbols.find? fun symbol => symbol.toList.isPrefixOf text :=
  List.find?_congr fun _ hs => h.isPrefixOf_append hs text

theorem wordKind_append (h : Delimits tail) (registry : Registry) (before : Option Token.Kind) (word : String)
    (behind : List Char) :
    wordKind registry registry.symbols before word (behind ++ tail) =
      wordKind registry registry.symbols before word behind := by
  simp only [wordKind, h.head?_append_ne (d := '(') (by decide) (by decide) (by decide)]

end Delimits

end Formula.Infix
