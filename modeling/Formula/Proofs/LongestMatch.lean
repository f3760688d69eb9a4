import Formula.Literal
import Formula.Proofs.Agreement
import Formula.Proofs.CharacterClasses
import Mathlib.Computability.Language

/-!
# Longest matches

Numerals, words and symbols are read as far as they go: what is taken is the longest stretch at the head of the text
that belongs to a language (`IsLongest`). For words it is the language of all characters that may stand in one
(`isLongest_takeWhile`), for symbols that of the registered ones (`Registry.find?_symbols_eq_some`), and for numerals
it is written as a regular expression is (`Literal.numerals`, `Literal.isLongest_numeral`).

Such a stretch does not depend on what stands behind a cut that it does not reach (`IsLongest.cut`).
-/

namespace Formula.Text

/-- The longest stretch at the head of a text that belongs to a language. -/
structure IsLongest (language : Language Char) (text stretch : List Char) : Prop where
  isPrefix : stretch <+: text
  mem : stretch ∈ language
  le : ∀ other ∈ language, other <+: text → other.length ≤ stretch.length

namespace IsLongest

variable {language : Language Char} {text stretch near far : List Char}

theorem unique {other : List Char} (h : IsLongest language text stretch) (ho : IsLongest language text other) :
    stretch = other := by
  have hle : stretch.length ≤ other.length := ho.le stretch h.mem h.isPrefix
  have hge : other.length ≤ stretch.length := h.le other ho.mem ho.isPrefix
  apply (List.prefix_of_prefix_length_le h.isPrefix ho.isPrefix hle).eq_of_length
  omega

/-- What stands behind a cut may be changed if the stretch ends before it. -/
theorem cut (h : IsLongest language (near ++ far) stretch) (hle : stretch.length ≤ near.length) :
    IsLongest language near stretch where
  isPrefix := List.prefix_of_prefix_length_le h.isPrefix (List.prefix_append near far) hle
  mem := h.mem
  le other ho hp := h.le other ho (hp.trans (List.prefix_append near far))

/-- A part is taken as far as it goes, and then another. That is the longest way to put two parts together if behind
a shorter first part there is none. -/
theorem append {first second : Language Char} {part behind : List Char} (h : IsLongest first text part)
    (hb : IsLongest second (text.drop part.length) behind)
    (hshort : ∀ p ∈ first, ∀ b ∈ second, p ++ b <+: text → p.length < part.length → b = []) :
    IsLongest (first * second) text (part ++ behind) where
  isPrefix := Literal.append_isPrefix h.isPrefix hb.isPrefix
  mem := Language.append_mem_mul h.mem hb.mem
  le := by
    intro other ho hp
    obtain ⟨p, hpm, b, hbm, rfl⟩ := Language.mem_mul.1 ho
    have hpt : p <+: text := (List.prefix_append p b).trans hp
    have hle : p.length ≤ part.length := h.le p hpm hpt
    rw [List.length_append, List.length_append]
    rcases Nat.lt_or_eq_of_le hle with hlt | heq
    · simp [hshort p hpm b hbm hp hlt]
      omega
    · obtain rfl : p = part := (List.prefix_of_prefix_length_le hpt h.isPrefix hle).eq_of_length heq
      obtain ⟨more, rfl⟩ := hp
      have hble : b.length ≤ behind.length := hb.le b hbm (by simp)
      omega

end IsLongest

/-! ## Stretches of a class -/

/-- The texts of which all characters are of a class. -/
def stretches (p : Char → Bool) : Language Char := {text | text.all p = true}

variable {p : Char → Bool} {text : List Char}

@[simp]
theorem mem_stretches : text ∈ stretches p ↔ text.all p = true := Iff.rfl

theorem isLongest_takeWhile (p : Char → Bool) (text : List Char) :
    IsLongest (stretches p) text (text.takeWhile p) where
  isPrefix := List.takeWhile_prefix p
  mem := by simp
  le := by
    rintro other ho ⟨behind, rfl⟩
    rw [List.takeWhile_append_of_pos (List.all_eq_true.1 ho), List.length_append]
    apply Nat.le_add_right

/-- Behind a part that is shorter than a stretch, the text goes on with a character of the stretch. -/
theorem head_of_shorter {stretch part behind : List Char} (hs : stretch <+: text) (h : part ++ behind <+: text)
    (hlt : part.length < stretch.length) : ∀ c ∈ behind.head?, c ∈ stretch := by
  intro c hc
  obtain ⟨others, rfl⟩ := List.head?_eq_some_iff.1 hc
  have hpart : part ++ [c] <+: text := by
    apply List.IsPrefix.trans _ h
    rw [List.prefix_append_right_inj, List.prefix_cons_inj]
    exact List.nil_prefix
  have hle : (part ++ [c]).length ≤ stretch.length := by
    rw [List.length_append, List.length_singleton]
    omega
  have hprefix : part ++ [c] <+: stretch := List.prefix_of_prefix_length_le hpart hs hle
  exact hprefix.subset (by simp)

end Formula.Text

namespace Formula.Literal

open Formula.Text

/-! ## Numerals -/

/-- A point and digits behind it, or nothing. -/
def fractions : Language Char := 1 + {['.']} * stretches isDigit

/-- A mark, an optional sign and at least one digit. -/
def exponents : Language Char := {['e'], ['E']} * {[], ['+'], ['-']} * (stretches isDigit - 1)

/-- Digits with at most one point among them, and maybe an exponent behind them. -/
def numerals : Language Char := stretches isDigit * fractions * (1 + exponents)

variable {text : List Char}

theorem mem_fractions : text ∈ fractions ↔ text = [] ∨ ∃ digits, digits.all isDigit = true ∧ text = '.' :: digits := by
  simp only [fractions, Language.mem_add, Language.mem_one, Language.mem_mul, mem_stretches]
  constructor
  · rintro (h | ⟨point, rfl, digits, hd, rfl⟩)
    · exact .inl h
    · exact .inr ⟨digits, hd, rfl⟩
  · rintro (h | ⟨digits, hd, rfl⟩)
    · exact .inl h
    · exact .inr ⟨['.'], rfl, digits, hd, rfl⟩

theorem mem_exponents :
    text ∈ exponents ↔ ∃ mark sign digits, (mark = 'e' ∨ mark = 'E') ∧ (sign = [] ∨ sign = ['+'] ∨ sign = ['-']) ∧
      digits ≠ [] ∧ digits.all isDigit = true ∧ text = mark :: (sign ++ digits) := by
  simp only [exponents, Language.mem_mul]
  constructor
  · rintro ⟨-, ⟨mark, hm, sign, hs, rfl⟩, digits, ⟨hd, hne⟩, rfl⟩
    rcases hm with rfl | rfl
    · exact ⟨'e', sign, digits, .inl rfl, hs, hne, hd, rfl⟩
    · exact ⟨'E', sign, digits, .inr rfl, hs, hne, hd, rfl⟩
  · rintro ⟨mark, sign, digits, hm, hs, hne, hd, rfl⟩
    refine ⟨[mark] ++ sign, ⟨[mark], ?_, sign, hs, rfl⟩, digits, ⟨hd, hne⟩, rfl⟩
    rcases hm with rfl | rfl
    · exact .inl rfl
    · exact .inr rfl

theorem isLongest_fractionPart (text : List Char) : IsLongest fractions text (fractionPart text) where
  isPrefix := fractionPart_isPrefix text
  mem := by
    rw [mem_fractions]
    unfold fractionPart
    split
    · exact .inr ⟨_, by simp, rfl⟩
    · exact .inl rfl
  le := by
    intro other ho hp
    rcases mem_fractions.1 ho with rfl | ⟨digits, hd, rfl⟩
    · apply Nat.zero_le
    · obtain ⟨rest, rfl⟩ := hp
      have hle := (isLongest_takeWhile isDigit (digits ++ rest)).le digits hd (List.prefix_append digits rest)
      simpa [fractionPart] using hle

theorem isLongest_exponentPart (text : List Char) : IsLongest (1 + exponents) text (exponentPart text) where
  isPrefix := exponentPart_isPrefix text
  mem := by
    unfold exponentPart
    split
    · exact .inl rfl
    · rename_i mark rest
      dsimp only
      split
      · rename_i h
        refine .inr (mem_exponents.2 ⟨mark, signPart rest, _, h.1, ?_, h.2, by simp, rfl⟩)
        unfold signPart
        split <;> simp
      · exact .inl rfl
  le := by
    rintro other (rfl | ho) hp
    · apply Nat.zero_le
    · obtain ⟨mark, sign, digits, hm, hs, hne, hd, rfl⟩ := mem_exponents.1 ho
      obtain ⟨more, rfl⟩ := hp
      have hsign : signPart (sign ++ (digits ++ more)) = sign := Numeral.signPart_of_digits hs hne hd more
      have hle := (isLongest_takeWhile isDigit (digits ++ more)).le digits hd (List.prefix_append digits more)
      have hpos : (digits ++ more).takeWhile isDigit ≠ [] := by
        intro h
        rw [h, List.length_nil, Nat.le_zero, List.length_eq_zero_iff] at hle
        exact hne hle
      rw [List.cons_append, List.append_assoc, exponentPart]
      simp only [hsign, List.drop_left]
      rw [if_pos ⟨hm, hpos⟩]
      simp only [List.cons_append, List.length_cons, List.length_append]
      omega

/-- No mark of an exponent stands among the digits before it. -/
theorem ne_mark_of_mem {digits fraction : List Char} (hd : digits.all isDigit = true) (hf : fraction ∈ fractions)
    {c : Char} (hc : c ∈ digits ++ fraction) : c ≠ 'e' ∧ c ≠ 'E' := by
  have hdigit : ∀ {digits : List Char}, digits.all isDigit = true → c ∈ digits → c ≠ 'e' ∧ c ≠ 'E' :=
    fun hd hm => ⟨ne_of_class (List.all_eq_true.1 hd c hm) (by decide),
      ne_of_class (List.all_eq_true.1 hd c hm) (by decide)⟩
  rcases List.mem_append.1 hc with hm | hm
  · exact hdigit hd hm
  · rcases mem_fractions.1 hf with rfl | ⟨others, ho, rfl⟩
    · cases hm
    · rcases List.mem_cons.1 hm with rfl | hm
      · decide
      · exact hdigit ho hm

theorem all_isNumeralChar_of_mem (h : text ∈ numerals) : text.all Numeral.isNumeralChar = true := by
  have hdigits : ∀ {digits : List Char}, digits.all isDigit = true → digits.all Numeral.isNumeralChar = true :=
    fun hd => List.all_eq_true.2 fun c hc => Numeral.isNumeralChar_of_isDigit (List.all_eq_true.1 hd c hc)
  obtain ⟨-, ⟨whole, hw, fraction, hf, rfl⟩, exponent, he, rfl⟩ := h
  have hfraction : fraction.all Numeral.isNumeralChar = true := by
    rcases mem_fractions.1 hf with rfl | ⟨digits, hd, rfl⟩
    · rfl
    · rw [List.all_cons, hdigits hd]
      rfl
  have hexponent : exponent.all Numeral.isNumeralChar = true := by
    rcases he with rfl | he
    · rfl
    · obtain ⟨mark, sign, digits, hm, hs, -, hd, rfl⟩ := mem_exponents.1 he
      rw [List.all_cons, List.all_append, hdigits hd]
      rcases hm with rfl | rfl <;> rcases hs with rfl | rfl | rfl <;> rfl
  rw [List.all_append, List.all_append, hdigits hw, hfraction, hexponent]
  rfl

/-- **The numeral that is read is the longest** at the head of the text. -/
theorem isLongest_numeral (text : List Char) : IsLongest numerals text (numeral text) := by
  have hwhole := isLongest_takeWhile isDigit text
  have hpart := isLongest_fractionPart (text.drop (text.takeWhile isDigit).length)
  have hfraction : IsLongest (stretches isDigit * fractions) text
      (text.takeWhile isDigit ++ fractionPart (text.drop (text.takeWhile isDigit).length)) := by
    apply hwhole.append hpart
    intro whole _ fraction hf hp hlt
    rcases mem_fractions.1 hf with rfl | ⟨digits, -, rfl⟩
    · rfl
    · have hpoint := head_of_shorter hwhole.isPrefix hp hlt '.' rfl
      cases List.all_eq_true.1 hwhole.mem '.' hpoint
  apply hfraction.append
  · rw [List.length_append]
    apply isLongest_exponentPart
  · rintro part - exponent (rfl | he) hp hlt
    · rfl
    · obtain ⟨mark, sign, digits, hm, -, -, -, rfl⟩ := mem_exponents.1 he
      have hmark := ne_mark_of_mem hwhole.mem hpart.mem (head_of_shorter hfraction.isPrefix hp hlt mark rfl)
      exact absurd hm (not_or.2 hmark)

end Formula.Literal

namespace Formula.Registry

open Formula.Text

/-! ## Symbols -/

/-- There is an operator of the symbol, of one fixity or the other. -/
def HasSymbol (registry : Registry) (symbol : String) : Prop :=
  ∃ fixity op, (registry.operators fixity).find? symbol = some op

/-- The symbols of a registry. -/
def symbolTexts (registry : Registry) : Language Char := {text | registry.HasSymbol (String.ofList text)}

variable {registry : Registry} {text : List Char} {symbol : String}

theorem mem_symbols_iff : symbol ∈ registry.symbols ↔ registry.HasSymbol symbol := by
  simp only [mem_symbols_iff_find?, Option.isSome_iff_exists]
  rfl

theorem toList_mem_symbolTexts : symbol.toList ∈ registry.symbolTexts ↔ symbol ∈ registry.symbols := by
  show registry.HasSymbol (String.ofList symbol.toList) ↔ _
  rw [String.ofList_toList, mem_symbols_iff]

theorem isLongest_of_find?_symbols
    (h : (registry.symbols.find? fun symbol => symbol.toList.isPrefixOf text) = some symbol) :
    IsLongest registry.symbolTexts text symbol.toList where
  isPrefix := by
    have hfits := List.find?_some h
    rwa [List.isPrefixOf_iff_prefix] at hfits
  mem := toList_mem_symbolTexts.2 (List.mem_of_find?_eq_some h)
  le := by
    intro other ho hp
    obtain ⟨-, longer, shorter, hsymbols, hnone⟩ := List.find?_eq_some_iff_append.1 h
    have hm : String.ofList other ∈ longer ++ symbol :: shorter := hsymbols ▸ mem_symbols_iff.2 ho
    rcases List.mem_append.1 hm with hm | hm
    · have hfits := hnone _ hm
      rw [String.toList_ofList, List.isPrefixOf_iff_prefix.2 hp] at hfits
      cases hfits
    · rcases List.mem_cons.1 hm with rfl | hm
      · simp
      · have hpairwise := registry.pairwise_symbols
        rw [hsymbols, List.pairwise_append, List.pairwise_cons] at hpairwise
        have hlonger : longerFirst symbol (String.ofList other) := hpairwise.2.1.1 _ hm
        rcases hlonger with hlt | ⟨heq, -⟩
        · rw [String.length_ofList, ← String.length_toList] at hlt
          omega
        · rw [String.length_ofList, ← String.length_toList] at heq
          omega

/-- **The symbol that is found is the longest** registered one at the head of the text. -/
theorem find?_symbols_eq_some :
    (registry.symbols.find? fun symbol => symbol.toList.isPrefixOf text) = some symbol ↔
      IsLongest registry.symbolTexts text symbol.toList := by
  refine ⟨isLongest_of_find?_symbols, fun h => ?_⟩
  have hm : symbol ∈ registry.symbols := toList_mem_symbolTexts.1 h.mem
  cases hf : registry.symbols.find? fun symbol => symbol.toList.isPrefixOf text with
  | none =>
    have hnone := List.find?_eq_none.1 hf symbol hm
    simp [h.isPrefix] at hnone
  | some other => rw [String.toList_inj.1 ((isLongest_of_find?_symbols hf).unique h)]

end Formula.Registry
