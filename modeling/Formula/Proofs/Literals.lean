import Formula.Proofs.Layout
import Formula.Proofs.Scanning

/-!
# Literals at a point of a text

At a point of a text where a numeral may begin, the longest one is read, whatever follows; it has a value if a digit
stands before its exponent and all its digits are decimal ones (`Literal.IsValued`), and if not, or if a point stands
right behind it, the text is refused (`numeral_at_point`). At a quote, what is read is the string that is spelled up to
the closing quote, and the text is refused there if none is (`string_at_point`).
-/

namespace Formula

open Text

/-! ## Numerals with a value -/

namespace Literal

/-- No mark of an exponent. -/
def isNoMark (c : Char) : Bool := !(c == 'e' || c == 'E')

/-- A digit stands before the exponent, and all digits have a value. -/
structure IsValued (numeral : List Char) : Prop where
  exists_digit : ∃ c ∈ numeral.takeWhile isNoMark, isDigit c = true
  isDecimal : ∀ c ∈ numeral, isDigit c = true → Numeral.isDecimal c = true

variable {text : List Char}

theorem isNoMark_eq_true {c : Char} : isNoMark c = true ↔ c ≠ 'e' ∧ c ≠ 'E' := by
  simp [isNoMark]

/-- Up to its exponent, a numeral is digits with at most one point among them. -/
theorem takeWhile_isNoMark {whole fraction exponent : List Char} (hw : whole.all isDigit = true)
    (hf : fraction ∈ fractions) (he : exponent = [] ∨ exponent ∈ exponents) :
    (whole ++ fraction ++ exponent).takeWhile isNoMark = whole ++ fraction := by
  apply takeWhile_stretch
  · exact List.all_eq_true.2 fun c hc => isNoMark_eq_true.2 (ne_mark_of_mem hw hf hc)
  · rcases he with rfl | he
    · exact fun c hc => nomatch hc
    · obtain ⟨mark, sign, digits, hm, -, -, -, rfl⟩ := mem_exponents.1 he
      intro c hc
      obtain rfl : mark = c := by simpa using hc
      rcases hm with rfl | rfl <;> rfl

theorem fractionText_mem (form : Numeral.Form) : form.fractionText ∈ fractions := by
  rw [mem_fractions]
  have hd := Numeral.all_isDigit_of_isDecimal form.isDecimal_fraction
  unfold Numeral.Form.fractionText
  cases hf : form.fraction with
  | none => exact .inl rfl
  | some digits =>
    rw [hf] at hd
    exact .inr ⟨digits, hd, rfl⟩

theorem exponentText_mem (form : Numeral.Form) : form.exponentText = [] ∨ form.exponentText ∈ exponents := by
  unfold Numeral.Form.exponentText
  cases form.exponent with
  | none => exact .inl rfl
  | some exponent =>
    have hd := Numeral.all_isDigit_of_isDecimal exponent.isDecimal_digits
    exact .inr (mem_exponents.2 ⟨_, _, _, exponent.mark_eq, exponent.sign_eq, exponent.digits_ne, hd, rfl⟩)

theorem isDecimal_of_isFormChar {c : Char} (h : Numeral.isFormChar c = true) (hd : isDigit c = true) :
    Numeral.isDecimal c = true := by
  simp only [Numeral.isFormChar, Bool.or_eq_true, beq_iff_eq] at h
  rcases h with ((((h | rfl) | rfl) | rfl) | rfl) | rfl
  · exact h
  all_goals cases hd

theorem isValued_text (form : Numeral.Form) : IsValued form.text where
  exists_digit := by
    have hwhole := Numeral.all_isDigit_of_isDecimal form.isDecimal_whole
    rw [Numeral.Form.text, takeWhile_isNoMark hwhole (fractionText_mem form) (exponentText_mem form)]
    obtain ⟨c, others, hdigits⟩ := List.exists_cons_of_ne_nil form.digits_ne
    have hc : c ∈ form.whole ++ form.fraction.getD [] := by simp [hdigits]
    rcases List.mem_append.1 hc with hc | hc
    · exact ⟨c, List.mem_append_left _ hc, List.all_eq_true.1 hwhole c hc⟩
    · have hfraction := Numeral.all_isDigit_of_isDecimal form.isDecimal_fraction
      refine ⟨c, List.mem_append_right _ ?_, List.all_eq_true.1 hfraction c hc⟩
      unfold Numeral.Form.fractionText
      cases hf : form.fraction with
      | none => simp [hf] at hc
      | some digits =>
        rw [hf] at hc
        exact List.mem_cons_of_mem _ hc
  isDecimal c hc := isDecimal_of_isFormChar (List.all_eq_true.1 form.all_isFormChar c hc)

/-- Digits that all have a value. -/
theorem IsValued.all_isDecimal (h : IsValued text) {digits : List Char} (hd : digits.all isDigit = true)
    (hs : ∀ c ∈ digits, c ∈ text) : digits.all Numeral.isDecimal = true :=
  List.all_eq_true.2 fun c hc => h.isDecimal c (hs c hc) (List.all_eq_true.1 hd c hc)

theorem exists_fraction {part : List Char} (h : part ∈ fractions) :
    ∃ fraction : Option (List Char), part = fraction.elim [] ('.' :: ·) ∧ (fraction.getD []).all isDigit = true := by
  rcases mem_fractions.1 h with rfl | ⟨digits, hd, rfl⟩
  · exact ⟨none, rfl, rfl⟩
  · exact ⟨some digits, rfl, hd⟩

theorem mem_elim_of_mem_getD {fraction : Option (List Char)} {c : Char} (h : c ∈ fraction.getD []) :
    c ∈ fraction.elim [] ('.' :: ·) := by
  cases fraction with
  | none => cases h
  | some digits => exact List.mem_cons_of_mem _ h

/-- A numeral in which all digits have a value has a form. -/
theorem IsValued.exists_form (h : IsValued text) (hm : text ∈ numerals) : ∃ form : Numeral.Form, form.text = text := by
  obtain ⟨-, ⟨whole, hw, part, hf, rfl⟩, exponent, he, rfl⟩ := hm
  have hdigit := h.exists_digit
  rw [takeWhile_isNoMark hw hf he] at hdigit
  obtain ⟨fraction, rfl, hd⟩ := exists_fraction hf
  have hwhole : whole.all Numeral.isDecimal = true := h.all_isDecimal hw fun c hc => by simp [hc]
  have hfraction : (fraction.getD []).all Numeral.isDecimal = true :=
    h.all_isDecimal hd fun c hc => by simp [mem_elim_of_mem_getD hc]
  have hne : whole ++ fraction.getD [] ≠ [] := by
    obtain ⟨c, hc, hcd⟩ := hdigit
    have hmem : c ∈ whole ++ fraction.getD [] := by
      cases fraction with
      | none => exact hc
      | some digits => simpa [ne_of_class hcd (d := '.') rfl] using hc
    exact List.ne_nil_of_mem hmem
  rcases he with rfl | he
  · exact ⟨⟨whole, fraction, none, hwhole, hfraction, hne⟩, rfl⟩
  · obtain ⟨mark, sign, digits, hmark, hsign, hdne, hdigits, rfl⟩ := mem_exponents.1 he
    have hdecimal : digits.all Numeral.isDecimal = true := h.all_isDecimal hdigits fun c hc => by simp [hc]
    exact ⟨⟨whole, fraction, some ⟨mark, sign, digits, hmark, hsign, hdne, hdecimal⟩, hwhole, hfraction, hne⟩, rfl⟩

/-- A text that starts with a digit or a point is no word for a number. -/
theorem word?_eq_none (hh : ∀ c ∈ text.head?, isDigit c = true ∨ c = '.') : Numeral.word? text = none := by
  have hhead : ∀ c rest, text.map Char.toLower = c :: rest → isDigit c = true ∨ c = '.' := by
    intro c rest h
    obtain ⟨first, others, rfl, rfl, -⟩ := List.map_eq_cons_iff.1 h
    rcases hh first rfl with hd | rfl
    · rw [toLower_eq_of_isDigit hd]
      exact .inl hd
    · exact .inr rfl
  unfold Numeral.word?
  dsimp only
  rw [if_neg, if_neg]
  · intro h
    exact absurd (hhead _ _ h) (by decide)
  · rintro (h | h)
    · exact absurd (hhead _ _ h) (by decide)
    · exact absurd (hhead _ _ h) (by decide)

/-- **A numeral has a value** if and only if a digit stands before its exponent and all its digits are decimal ones. -/
theorem exists_value_iff (hm : text ∈ numerals) (hh : ∀ c ∈ text.head?, isDigit c = true ∨ c = '.') :
    (∃ value, Numeral.toFloat? text = some value) ↔ IsValued text := by
  have hsign : ∀ c ∈ text.head?, c ≠ '-' ∧ c ≠ '+' := by
    intro c hc
    rcases hh c hc with hd | rfl
    · exact ⟨ne_of_class hd (by decide), ne_of_class hd (by decide)⟩
    · decide
  have htext : Numeral.toFloat? text = Numeral.unsigned? text := by
    rw [Numeral.toFloat?_of_all (all_isNumeralChar_of_mem hm) hsign, word?_eq_none hh, Option.or_none]
  rw [htext]
  constructor
  · rintro ⟨value, h⟩
    obtain ⟨form, rfl, -⟩ := Numeral.exists_form h
    exact isValued_text form
  · intro h
    obtain ⟨form, rfl⟩ := h.exists_form hm
    exact ⟨form.value, form.unsigned?_text⟩

/-- The mark of an exponent has a digit behind it, maybe behind a sign. -/
def HasDigitBehind (late : List Char) : Prop :=
  ∃ sign digit more, (sign = [] ∨ sign = ['+'] ∨ sign = ['-']) ∧ isDigit digit = true ∧ late = sign ++ digit :: more

theorem hasDigitBehind_of_mem_exponents {exponent early late : List Char} {mark : Char} (he : exponent ∈ exponents)
    (h : exponent = early ++ mark :: late) (hmark : isNoMark mark = false) : HasDigitBehind late := by
  obtain ⟨first, sign, digits, -, hs, hne, hd, rfl⟩ := mem_exponents.1 he
  cases early with
  | nil =>
    obtain ⟨digit, others, rfl⟩ := List.exists_cons_of_ne_nil hne
    obtain ⟨-, rfl⟩ := List.cons.inj h
    exact ⟨sign, digit, others, hs, List.all_eq_true.1 hd digit List.mem_cons_self, rfl⟩
  | cons c early =>
    -- No other character of an exponent is a mark.
    have hmem : mark ∈ sign ++ digits := by
      rw [(List.cons.inj h).2]
      simp
    rcases List.mem_append.1 hmem with hc | hc
    · rcases hs with rfl | rfl | rfl
      · cases hc
      · rw [List.mem_singleton.1 hc] at hmark
        cases hmark
      · rw [List.mem_singleton.1 hc] at hmark
        cases hmark
    · have hdigit := List.all_eq_true.1 hd mark hc
      rw [isNoMark_eq_true.2 ⟨ne_of_class hdigit rfl, ne_of_class hdigit rfl⟩] at hmark
      cases hmark

/-- Where a mark of an exponent is taken, so is a digit behind it. -/
theorem hasDigitBehind_of_mem_numerals (hm : text ∈ numerals) {early late : List Char} {mark : Char}
    (h : text = early ++ mark :: late) (hmark : isNoMark mark = false) : HasDigitBehind late := by
  obtain ⟨-, ⟨whole, hw, fraction, hf, rfl⟩, exponent, he, rfl⟩ := hm
  have hfront : mark ∉ whole ++ fraction := by
    intro hc
    rw [isNoMark_eq_true.2 (ne_mark_of_mem hw hf hc)] at hmark
    cases hmark
  obtain ⟨more, hexponent⟩ : ∃ more, exponent = more ++ mark :: late := by
    rcases List.append_eq_append_iff.1 h with ⟨more, -, hexponent⟩ | ⟨more, hdigits, hlate⟩
    · exact ⟨more, hexponent⟩
    · cases more with
      | nil => exact ⟨[], hlate.symm⟩
      | cons c more =>
        obtain ⟨rfl, -⟩ := List.cons.inj hlate
        have hdigits : whole ++ fraction = early ++ mark :: more := hdigits
        exact absurd (by simp [hdigits]) hfront
  rcases he with rfl | he
  · simp at hexponent
  · exact hasDigitBehind_of_mem_exponents he hexponent hmark

end Literal

/-! ## Literals that are read -/

namespace Infix

open Literal

theorem readToken_numeral (registry : Registry) (symbols : List String) (before : Option Token.Kind) (position : Nat)
    {first : Char} (hf : isDigit first = true ∨ first = '.') (rest : List Char) :
    readToken registry symbols before position first rest = readNumeral (first :: rest) position := by
  have hnumeral : (isDigit first || first == '.') = true := by simpa using hf
  simp only [readToken, hnumeral, if_true]

theorem readToken_quote (registry : Registry) (symbols : List String) (before : Option Token.Kind) (position : Nat)
    (quote : Quote) (rest : List Char) :
    readToken registry symbols before position quote.char rest = readString quote rest position := by
  have hquote : quoteOf? quote.char = some quote := by cases quote <;> rfl
  simp only [readToken, isNumeralStart_of_quote hquote, Bool.false_eq_true, if_false, hquote]

/-- **A numeral is read as far as it goes.** Where a numeral may begin, let `numeral` be the longest one. If it has a
value and no point stands behind it, it is read as one number of this value, and nothing behind it is taken; if not, the
text is refused, at the point behind it, or else where it begins. A mark of an exponent is taken only with digits behind
it. -/
theorem numeral_at_point (registry : Registry) (text : String) (tokens : List Token) (position : Nat) (first : Char)
    (rest : List Char) (h : Reached registry text ⟨tokens, position, first :: rest⟩)
    (hf : isDigit first = true ∨ first = '.') :
    ∃ numeral behind, first :: rest = numeral ++ behind ∧ IsLongest numerals (first :: rest) numeral ∧
      ((∃ value, Numeral.toFloat? numeral = some value ∧
          ∀ next, Next registry ⟨tokens, position, first :: rest⟩ next ↔
            next = ⟨tokens ++ [⟨.number value, some (position : Int)⟩], position + numeral.length, behind⟩) ↔
        IsValued numeral ∧ behind.head? ≠ some '.') ∧
      (behind.head? = some '.' →
        read registry text = .error (.lexical .unexpectedPoint (position + numeral.length))) ∧
      (behind.head? ≠ some '.' → ¬IsValued numeral →
        read registry text = .error (.lexical (.badNumeral (String.ofList numeral)) position)) ∧
      ∀ early mark late, numeral = early ++ mark :: late → mark = 'e' ∨ mark = 'E' → HasDigitBehind late := by
  have hlongest := isLongest_numeral (first :: rest)
  have hread := readToken_numeral registry registry.symbols (lastKind? tokens) position hf rest
  have hb : isBlank first = false := by
    rcases hf with hd | rfl
    · exact isBlank_eq_false_of_isWordChar (isWordChar_of_isDigit hd)
    · rfl
  have hhead : ∀ c ∈ (numeral (first :: rest)).head?, isDigit c = true ∨ c = '.' := by
    intro c hc
    obtain ⟨others, hothers⟩ := List.head?_eq_some_iff.1 hc
    obtain ⟨behind, htext⟩ := hlongest.isPrefix
    rw [hothers] at htext
    obtain rfl : c = first := (List.cons.inj htext).1
    exact hf
  have hvalued := exists_value_iff hlongest.mem hhead
  refine ⟨numeral (first :: rest), (first :: rest).drop (numeral (first :: rest)).length,
    (List.prefix_iff_eq_append.1 hlongest.isPrefix).symm, hlongest, ⟨?_, ?_⟩, ?_, ?_, ?_⟩
  · rintro ⟨value, hv, hnext⟩
    obtain ⟨kind, count, hok, -⟩ := ((hnext _).2 rfl).exists_token hb
    rw [hread] at hok
    exact ⟨hvalued.1 ⟨value, hv⟩, (readNumeral_eq_ok hok).1⟩
  · rintro ⟨hv, hp⟩
    obtain ⟨value, hvalue⟩ := hvalued.2 hv
    refine ⟨value, hvalue, fun next => next_iff hb ?_⟩
    simp only [hread, readNumeral, if_neg hp, hvalue]
  · intro hp
    apply h.read_eq_error hb
    simp only [hread, readNumeral, if_pos hp]
  · intro hp hv
    apply h.read_eq_error hb
    cases hvalue : Numeral.toFloat? (numeral (first :: rest)) with
    | none => simp only [hread, readNumeral, if_neg hp, hvalue]
    | some value => exact absurd (hvalued.1 ⟨value, hvalue⟩) hv
  · rintro early mark late hnumeral (rfl | rfl)
    · exact hasDigitBehind_of_mem_numerals hlongest.mem hnumeral rfl
    · exact hasDigitBehind_of_mem_numerals hlongest.mem hnumeral rfl

/-- A mark without digits behind it ends a numeral, and a second point ends the text. -/
theorem numeral_at_point_halves :
    (Reached (.empty true) "1.5e+x" ⟨[], 0, "1.5e+x".toList⟩ ∧ isDigit '1' = true ∧
      Next (.empty true) ⟨[], 0, "1.5e+x".toList⟩ ⟨[⟨.number 1.5, some 0⟩], 3, "e+x".toList⟩) ∧
    read (.empty true) "1.5.x" = .error (.lexical .unexpectedPoint 3) := by
  have hdigit : isDigit '1' = true := by decide +kernel
  have hvalue : Numeral.toFloat? "1.5".toList = some 1.5 := by decide +kernel
  refine ⟨⟨reached_start _ _, hdigit, ?_⟩, ?_⟩
  · obtain ⟨numeral, behind, htext, hlongest, hiff, -⟩ :=
      numeral_at_point (.empty true) "1.5e+x" [] 0 '1' ".5e+x".toList (reached_start _ _) (.inl hdigit)
    obtain rfl : "1.5".toList = numeral := Eq.trans (by decide +kernel) ((isLongest_numeral _).unique hlongest)
    have hcut : "1.5".toList ++ "e+x".toList = "1.5".toList ++ behind := Eq.trans (by decide +kernel) htext
    obtain rfl : "e+x".toList = behind := List.append_cancel_left hcut
    have hvalued : IsValued "1.5".toList := by
      refine (exists_value_iff hlongest.mem fun c hc => ?_).1 ⟨1.5, hvalue⟩
      obtain rfl : '1' = c := Option.some.inj hc
      exact .inl hdigit
    obtain ⟨value, hv, hnext⟩ := hiff.2 ⟨hvalued, by decide⟩
    obtain rfl : 1.5 = value := Option.some.inj (hvalue.symm.trans hv)
    exact (hnext _).2 rfl
  · obtain ⟨numeral, behind, htext, hlongest, -, hpoint, -⟩ :=
      numeral_at_point (.empty true) "1.5.x" [] 0 '1' ".5.x".toList (reached_start _ _) (.inl hdigit)
    obtain rfl : "1.5".toList = numeral := Eq.trans (by decide +kernel) ((isLongest_numeral _).unique hlongest)
    have hcut : "1.5".toList ++ ".x".toList = "1.5".toList ++ behind := Eq.trans (by decide +kernel) htext
    obtain rfl : ".x".toList = behind := List.append_cancel_left hcut
    exact hpoint rfl

/-! ### Strings -/

/-- Where a string is read, it is spelled. -/
theorem HeadToken.exists_spelling {registry : Registry} {before : Option Token.Kind} {first : Char} {rest : List Char}
    {quote : Quote} {content : String} {count : Nat}
    (h : HeadToken registry before first rest (.text quote content) count) :
    ∃ written behind, first = quote.char ∧ rest = written ++ quote.char :: behind ∧ count = written.length + 2 ∧
      Spelling quote content.toList written := by
  cases h with
  | string hn hq hc =>
    obtain ⟨written, behind, rfl, rfl, hs⟩ := Literal.exists_spelling hc
    exact ⟨written, behind, eq_char_of_quoteOf? hq, rfl, rfl, by rwa [String.toList_ofList]⟩
  | word hn hq hw hk => cases (wordKind_name hk).1
  | structural hn hq hw hs =>
    unfold structural? at hs
    split at hs <;> cases hs
  | symbol hn hq hw hs hf hk => cases (operatorKind_name hk).1

theorem isBlank_quote (quote : Quote) : isBlank quote.char = false := by
  cases quote <;> decide

/-- Where a string is spelled between two quotes, it is read, and nothing behind the closing quote is taken. -/
theorem next_iff_of_spelling (registry : Registry) (tokens : List Token) (position : Nat) {quote : Quote}
    {content : String} {written : List Char} (hs : Spelling quote content.toList written) (behind : List Char)
    {next : Point} :
    Next registry ⟨tokens, position, quote.char :: (written ++ quote.char :: behind)⟩ next ↔
      next = ⟨tokens ++ [⟨.text quote content, some (position : Int)⟩], position + written.length + 2, behind⟩ := by
  have hread : readToken registry registry.symbols (lastKind? tokens) position quote.char
      (written ++ quote.char :: behind) = .ok (.text quote content, written.length + 2) := by
    rw [readToken_quote, readString, hs.unquoted?_eq]
    simp only [String.ofList_toList]
  have hbehind : (quote.char :: (written ++ quote.char :: behind)).drop (written.length + 2) = behind := by
    simp [List.drop_append]
  rw [next_iff (isBlank_quote quote) hread, hbehind, Nat.add_assoc]

/-- **A string is read as it is spelled.** At a point of the text, a spelling of a string between two quotes is read as
this string, and nothing behind the closing quote is taken; where a string is read, it is spelled there; and a quote at
which none is spelled is where the text is refused. -/
theorem string_at_point (registry : Registry) (text : String) (tokens : List Token) (position : Nat) (rest : List Char)
    (h : Reached registry text ⟨tokens, position, rest⟩) (quote : Quote) :
    (∀ content written behind, Spelling quote (String.toList content) written →
      rest = quote.char :: (written ++ quote.char :: behind) →
      ∀ next, Next registry ⟨tokens, position, rest⟩ next ↔
        next = ⟨tokens ++ [⟨.text quote content, some (position : Int)⟩], position + written.length + 2, behind⟩) ∧
    (∀ next token content, Next registry ⟨tokens, position, rest⟩ next → next.tokens = tokens ++ [token] →
      token.kind = .text quote content →
      ∃ written, Spelling quote (String.toList content) written ∧
        rest = quote.char :: (written ++ quote.char :: next.rest) ∧ token.position = some (position : Int) ∧
        next.position = position + written.length + 2) ∧
    (rest.head? = some quote.char →
      ((∃ cause, read registry text = .error (.lexical cause position)) ↔
        ¬∃ content written, Spelling quote (String.toList content) written ∧
          quote.char :: (written ++ [quote.char]) <+: rest) ∧
      ∀ cause, read registry text = .error (.lexical cause position) → cause = .unclosedString) := by
  refine ⟨?_, ?_, fun hq => ?_⟩
  · rintro content written behind hs rfl next
    exact next_iff_of_spelling registry tokens position hs behind
  · rintro next token content hn ht hk
    cases hn with
    | blank hb => simp at ht
    | @token _ _ count first rest kind hb hread =>
      obtain rfl : ⟨kind, some (position : Int)⟩ = token := by simpa using ht
      obtain rfl : kind = .text quote content := hk
      obtain ⟨written, behind, rfl, rfl, rfl, hs⟩ := (readToken_eq_ok.1 hread).exists_spelling
      exact ⟨written, hs, by simp [List.drop_append], rfl, rfl⟩
  · obtain ⟨others, rfl⟩ := List.head?_eq_some_iff.1 hq
    by_cases hspelled : ∃ content written, Spelling quote (String.toList content) written ∧
        quote.char :: (written ++ [quote.char]) <+: quote.char :: others
    · -- Reading the string is a step, and behind it nothing is refused at the offset of the opening quote.
      obtain ⟨content, written, hs, behind, htext⟩ := id hspelled
      obtain rfl : written ++ quote.char :: behind = others := by simpa using htext
      have hread := h.read_ne_lexical ((next_iff_of_spelling registry tokens position hs behind).2 rfl)
      refine ⟨iff_of_false ?_ (not_not.2 hspelled), fun cause hr => absurd hr (hread cause)⟩
      exact fun ⟨cause, hr⟩ => hread cause hr
    · have hnone : unquoted? quote.char others = none := by
        rw [Option.eq_none_iff_forall_ne_some]
        rintro ⟨content, count⟩ hc
        obtain ⟨written, behind, rfl, rfl, hs⟩ := Literal.exists_spelling hc
        exact hspelled ⟨String.ofList content, written, by rwa [String.toList_ofList], behind, by simp⟩
      have hread : read registry text = .error (.lexical .unclosedString position) := by
        apply h.read_eq_error (isBlank_quote quote)
        simp only [readToken_quote, readString, hnone]
      refine ⟨iff_of_true ⟨_, hread⟩ hspelled, fun cause hr => ?_⟩
      rw [hread] at hr
      cases hr
      rfl

/-- A quote behind a backslash does not close a string. -/
theorem string_at_point_escaped :
    (Reached (.empty true) "\x27it\\\x27s\x27+1" ⟨[], 0, "\x27it\\\x27s\x27+1".toList⟩ ∧
      Next (.empty true) ⟨[], 0, "\x27it\\\x27s\x27+1".toList⟩ ⟨[⟨.text .single "it\x27s", some 0⟩], 7, "+1".toList⟩) ∧
    ¬∃ content written, Spelling .single (String.toList content) written ∧
      '\x27' :: (written ++ ['\x27']) <+: "\x27it\\\x27".toList := by
  have hspelled : Spelling .single "it\x27s".toList "it\\\x27s".toList :=
    .plain (by decide) (by decide) (.plain (by decide) (by decide)
      (.escaped (by decide) (by decide) (.plain (by decide) (by decide) .nil)))
  have hunclosed : read (.empty true) "\x27it\\\x27" = .error (.lexical .unclosedString 0) := by decide +kernel
  refine ⟨⟨reached_start _ _, ?_⟩, ?_⟩
  · obtain ⟨hread, -, -⟩ := string_at_point (.empty true) "\x27it\\\x27s\x27+1" [] 0 _ (reached_start _ _) .single
    exact (hread "it\x27s" _ "+1".toList hspelled rfl _).2 rfl
  · obtain ⟨-, -, hrefused⟩ := string_at_point (.empty true) "\x27it\\\x27" [] 0 _ (reached_start _ _) .single
    exact (hrefused rfl).1.1 ⟨_, hunclosed⟩

end Infix

end Formula
