import Formula.Literal
import Formula.Proofs.CharacterClasses

/-!
# Forms of numerals

An unsigned numeral is made of whole digits, a point with digits behind it, and an exponent, where digits stand before
or behind the point and all else may be missing (`Numeral.Form`). It stands for its digits times a power of ten. Reading
the text of a form gives that number (`Numeral.Form.toFloat?_text`), and no other unsigned text has one
(`Numeral.exists_form`). At the head of a longer text the numeral is taken as a whole if the text behind it ends it
(`Numeral.Form.numeral_append`).
-/

namespace Formula.Numeral

open Formula.Text

theorem isDigit_of_isDecimal {c : Char} (h : isDecimal c = true) : isDigit c = true := by
  obtain ⟨d, hd⟩ := Option.isSome_iff_exists.1 h
  exact isDigit_of_digitValue? hd

theorem all_isDigit_of_isDecimal {digits : List Char} (h : digits.all isDecimal = true) : digits.all isDigit = true :=
  List.all_eq_true.2 fun c hc => isDigit_of_isDecimal (List.all_eq_true.1 h c hc)

/-! ## Forms -/

/-- An exponent as it is written. -/
structure ExponentForm where
  mark : Char
  sign : List Char
  digits : List Char
  mark_eq : mark = 'e' ∨ mark = 'E'
  sign_eq : sign = [] ∨ sign = ['+'] ∨ sign = ['-']
  digits_ne : digits ≠ []
  isDecimal_digits : digits.all isDecimal = true

namespace ExponentForm

def text (form : ExponentForm) : List Char := form.mark :: (form.sign ++ form.digits)

def value (form : ExponentForm) : Int :=
  if form.sign = ['-'] then -(Numeral.value form.digits : Int) else Numeral.value form.digits

end ExponentForm

/-- An unsigned numeral as it is written. -/
structure Form where
  whole : List Char
  /-- The digits behind the point, if there is one. -/
  fraction : Option (List Char)
  exponent : Option ExponentForm
  isDecimal_whole : whole.all isDecimal = true
  isDecimal_fraction : (fraction.getD []).all isDecimal = true
  digits_ne : whole ++ fraction.getD [] ≠ []

namespace Form

/-- The point and the digits behind it. -/
def fractionText (form : Form) : List Char := form.fraction.elim [] ('.' :: ·)

def exponentText (form : Form) : List Char := form.exponent.elim [] ExponentForm.text

def text (form : Form) : List Char := form.whole ++ form.fractionText ++ form.exponentText

/-- All digits as one number, times the power of ten that the exponent and the place of the point give. -/
def value (form : Form) : Float :=
  scaled (Numeral.value (form.whole ++ form.fraction.getD []))
    (form.exponent.elim 0 ExponentForm.value - (form.fraction.getD []).length)

end Form

/-! ## The numeral at the head of a text -/

/-- The sign before digits is the sign that is read. -/
theorem signPart_of_digits {sign digits : List Char} (hs : sign = [] ∨ sign = ['+'] ∨ sign = ['-']) (hne : digits ≠ [])
    (hd : digits.all isDigit = true) (rest : List Char) : Literal.signPart (sign ++ (digits ++ rest)) = sign := by
  rcases hs with rfl | rfl | rfl
  · obtain ⟨d, digits, rfl⟩ := List.exists_cons_of_ne_nil hne
    have hdigit : isDigit d = true := List.all_eq_true.1 hd d List.mem_cons_self
    have hplus : d ≠ '+' := ne_of_class hdigit (by decide)
    have hminus : d ≠ '-' := ne_of_class hdigit (by decide)
    rw [List.nil_append, List.cons_append]
    unfold Literal.signPart
    split <;> simp_all
  · rfl
  · rfl

namespace ExponentForm

variable (form : ExponentForm)

theorem head_digits : ∀ c ∈ form.digits.head?, isDecimal c = true := by
  intro c hc
  exact List.all_eq_true.1 form.isDecimal_digits c (List.mem_of_head? hc)

theorem exponentPart_append {rest : List Char} (h : Ends rest) :
    Literal.exponentPart (form.text ++ rest) = form.text := by
  have hdigits : ((form.sign ++ (form.digits ++ rest)).drop form.sign.length).takeWhile isDigit = form.digits := by
    rw [List.drop_left]
    exact takeWhile_stretch (all_isDigit_of_isDecimal form.isDecimal_digits) h.isDigit_eq_false
  rw [text, List.cons_append, List.append_assoc, Literal.exponentPart]
  have hsign := signPart_of_digits form.sign_eq form.digits_ne (all_isDigit_of_isDecimal form.isDecimal_digits) rest
  simp only [hsign, hdigits]
  rw [if_pos ⟨form.mark_eq, form.digits_ne⟩]
  rfl

/-- A mark of an exponent is no digit and no point. -/
theorem head_text : ∀ c ∈ form.text.head?, c = 'e' ∨ c = 'E' := by
  intro c hc
  obtain rfl : form.mark = c := by simpa [text] using hc
  exact form.mark_eq

end ExponentForm

theorem exponentPart_of_ends {rest : List Char} (h : Ends rest) : Literal.exponentPart rest = [] := by
  cases rest with
  | nil => rfl
  | cons c rest =>
    have hc : ¬ (c = 'e' ∨ c = 'E') := by
      rintro (rfl | rfl) <;> exact absurd (h _ rfl).1 (by decide)
    rw [Literal.exponentPart]
    exact if_neg fun he => hc he.1

theorem fractionPart_of_head {text : List Char} (h : ∀ c ∈ text.head?, c ≠ '.') : Literal.fractionPart text = [] := by
  unfold Literal.fractionPart
  split
  · exact absurd rfl (h '.' rfl)
  · rfl

namespace Form

variable (form : Form)

theorem exponentPart_append {rest : List Char} (h : Ends rest) :
    Literal.exponentPart (form.exponentText ++ rest) = form.exponentText := by
  unfold exponentText
  cases form.exponent with
  | none => exact exponentPart_of_ends h
  | some exponent => exact exponent.exponentPart_append h

/-- Neither a digit nor a point stands at the head of the exponent or of the text behind it. -/
theorem head_exponentText {rest : List Char} (h : Ends rest) :
    ∀ c ∈ (form.exponentText ++ rest).head?, isDigit c = false ∧ c ≠ '.' := by
  intro c hc
  unfold exponentText at hc
  cases he : form.exponent with
  | none =>
    rw [he] at hc
    exact ⟨h.isDigit_eq_false c hc, (h c hc).2.1⟩
  | some exponent =>
    rw [he] at hc
    rcases exponent.head_text c hc with rfl | rfl
    · exact ⟨rfl, by decide⟩
    · exact ⟨rfl, by decide⟩

theorem fractionPart_append {rest : List Char} (h : Ends rest) :
    Literal.fractionPart (form.fractionText ++ (form.exponentText ++ rest)) = form.fractionText := by
  have hd := form.isDecimal_fraction
  unfold fractionText
  cases hf : form.fraction with
  | none => exact fractionPart_of_head fun c hc => (form.head_exponentText h c hc).2
  | some digits =>
    rw [hf] at hd
    have htake : (digits ++ (form.exponentText ++ rest)).takeWhile isDigit = digits :=
      takeWhile_stretch (all_isDigit_of_isDecimal hd) fun c hc => (form.head_exponentText h c hc).1
    show '.' :: (digits ++ (form.exponentText ++ rest)).takeWhile isDigit = '.' :: digits
    rw [htake]

/-- No digit stands behind the whole digits. -/
theorem head_fractionText {rest : List Char} (h : Ends rest) :
    ∀ c ∈ (form.fractionText ++ (form.exponentText ++ rest)).head?, isDigit c = false := by
  intro c hc
  unfold fractionText at hc
  cases hf : form.fraction with
  | none =>
    rw [hf] at hc
    exact (form.head_exponentText h c hc).1
  | some digits =>
    rw [hf] at hc
    obtain rfl : '.' = c := by simpa using hc
    rfl

/-- **The numeral at the head of a text** is all of a form whose text ends there. -/
theorem numeral_append {rest : List Char} (h : Ends rest) : Literal.numeral (form.text ++ rest) = form.text := by
  have hwhole : (form.whole ++ (form.fractionText ++ (form.exponentText ++ rest))).takeWhile isDigit = form.whole :=
    takeWhile_stretch (all_isDigit_of_isDecimal form.isDecimal_whole) (form.head_fractionText h)
  simp only [Literal.numeral, text, List.append_assoc, hwhole, List.drop_left, form.fractionPart_append h]
  rw [← List.append_assoc, ← List.length_append, ← List.append_assoc form.whole, List.drop_left,
    form.exponentPart_append h, List.append_assoc]

end Form

/-! ## The value of a form -/

theorem toFloat?_nil : toFloat? [] = none := by decide +kernel

/-- May stand in the text of a form. -/
def isFormChar (c : Char) : Bool := isDecimal c || c == '.' || c == 'e' || c == 'E' || c == '+' || c == '-'

theorem isFormChar_of_isDecimal {c : Char} (h : isDecimal c = true) : isFormChar c = true := by
  simp [isFormChar, h]

theorem all_isFormChar_of_isDecimal {digits : List Char} (h : digits.all isDecimal = true) :
    digits.all isFormChar = true :=
  List.all_eq_true.2 fun c hc => isFormChar_of_isDecimal (List.all_eq_true.1 h c hc)

/-- May stand in a numeral, with a value or without one. -/
def isNumeralChar (c : Char) : Bool := isDigit c || c == '.' || c == 'e' || c == 'E' || c == '+' || c == '-'

theorem isNumeralChar_of_isDigit {c : Char} (h : isDigit c = true) : isNumeralChar c = true := by
  simp [isNumeralChar, h]

theorem isNumeralChar_of_isFormChar {c : Char} (h : isFormChar c = true) : isNumeralChar c = true := by
  simp only [isFormChar, Bool.or_eq_true, beq_iff_eq] at h
  rcases h with ((((h | rfl) | rfl) | rfl) | rfl) | rfl
  · exact isNumeralChar_of_isDigit (isDigit_of_isDecimal h)
  all_goals rfl

theorem isBlank_eq_false_of_isNumeralChar {c : Char} (h : isNumeralChar c = true) : isBlank c = false := by
  simp only [isNumeralChar, Bool.or_eq_true, beq_iff_eq] at h
  rcases h with ((((h | rfl) | rfl) | rfl) | rfl) | rfl
  · exact isBlank_eq_false_of_isWordChar (isWordChar_of_isDigit h)
  all_goals decide

theorem trimBy_eq_self {p : Char → Bool} {text : List Char} (h : ∀ c ∈ text, p c = false) : trimBy p text = text := by
  have hdrop : ∀ text : List Char, (∀ c ∈ text, p c = false) → text.dropWhile p = text := by
    intro text h
    cases text with
    | nil => rfl
    | cons c rest => rw [List.dropWhile_cons_of_neg (by simp [h c List.mem_cons_self])]
  rw [trimBy, hdrop text h, hdrop _ fun c hc => h c (List.mem_reverse.1 hc), List.reverse_reverse]

theorem ungrouped?_eq_some {text : List Char} (h : ∀ c ∈ text, c ≠ '_') (afterDigit : Bool) :
    ungrouped? afterDigit text = some text := by
  induction text generalizing afterDigit with
  | nil => rfl
  | cons c rest ih =>
    rw [ungrouped?, if_neg (h c List.mem_cons_self), ih fun d hd => h d (List.mem_cons_of_mem c hd)]
    rfl

theorem signed_of_head {text : List Char} (h : ∀ c ∈ text.head?, c ≠ '-' ∧ c ≠ '+') : signed text = (false, text) := by
  unfold signed
  split
  · exact absurd rfl (h _ rfl).1
  · exact absurd rfl (h _ rfl).2
  · rfl

/-- A text without margins, underscores and a sign is read as it is. -/
theorem toFloat?_of_all {text : List Char} (h : text.all isNumeralChar = true)
    (hs : ∀ c ∈ text.head?, c ≠ '-' ∧ c ≠ '+') : toFloat? text = (unsigned? text).or (word? text) := by
  have hmargin : ∀ c ∈ text, isMargin c = false := by
    intro c hc
    simp [isMargin, isBlank_eq_false_of_isNumeralChar (List.all_eq_true.1 h c hc)]
  have hplain : ∀ c ∈ text, c ≠ '_' := fun c hc => ne_of_class (List.all_eq_true.1 h c hc) (by decide)
  rw [toFloat?, trimBy_eq_self hmargin, ungrouped?_eq_some hplain false]
  simp only [Option.bind_eq_bind, Option.bind_some, signed_of_head hs]
  exact Option.bind_fun_some _

section

variable {whole tail : List Char}

theorem unsigned?_whole (h : whole.all isDecimal = true) (hne : whole ≠ []) (ht : ∀ c ∈ tail.head?, isDecimal c = false)
    (hp : ∀ c ∈ tail.head?, c ≠ '.') :
    unsigned? (whole ++ tail) = (exponent? tail).map fun e => scaled (Numeral.value whole) e := by
  rw [unsigned?]
  simp only [takeWhile_stretch h ht, dropWhile_stretch h ht]
  split
  · exact absurd rfl (hp '.' rfl)
  · simp [hne]

theorem unsigned?_fraction {fraction : List Char} (h : whole.all isDecimal = true) (hf : fraction.all isDecimal = true)
    (hne : whole ++ fraction ≠ []) (ht : ∀ c ∈ tail.head?, isDecimal c = false) :
    unsigned? (whole ++ '.' :: (fraction ++ tail)) =
      (exponent? tail).map fun e => scaled (Numeral.value (whole ++ fraction)) (e - fraction.length) := by
  have hpoint : ∀ c ∈ ('.' :: (fraction ++ tail)).head?, isDecimal c = false := by
    intro c hc
    obtain rfl : '.' = c := by simpa using hc
    rfl
  rw [unsigned?]
  simp only [takeWhile_stretch h hpoint, dropWhile_stretch h hpoint, takeWhile_stretch hf ht, dropWhile_stretch hf ht]
  rw [if_neg (by simpa using hne)]

end

namespace ExponentForm

variable (form : ExponentForm)

theorem signed_digits : signed (form.sign ++ form.digits) = (decide (form.sign = ['-']), form.digits) := by
  rcases form.sign_eq with h | h | h
  · rw [h, List.nil_append]
    refine (signed_of_head fun c hc => ?_).trans (by simp)
    exact ⟨ne_of_class (form.head_digits c hc) (by decide), ne_of_class (form.head_digits c hc) (by decide)⟩
  · rw [h]
    rfl
  · rw [h]
    rfl

theorem exponent?_text : exponent? form.text = some form.value := by
  rw [text, exponent?, signed_digits]
  simp only
  rw [if_pos ⟨form.mark_eq, form.digits_ne, form.isDecimal_digits⟩]
  simp [value]

theorem all_isFormChar : form.text.all isFormChar = true := by
  have hdigits := all_isFormChar_of_isDecimal form.isDecimal_digits
  rcases form.mark_eq with hm | hm <;> rcases form.sign_eq with h | h | h <;>
    simp only [text, hm, h, List.all_cons, List.all_append, hdigits] <;> rfl

end ExponentForm

namespace Form

variable (form : Form)

theorem all_isFormChar : form.text.all isFormChar = true := by
  have hwhole := all_isFormChar_of_isDecimal form.isDecimal_whole
  have hfraction : form.fractionText.all isFormChar = true := by
    have hd := form.isDecimal_fraction
    unfold fractionText
    cases hf : form.fraction with
    | none => rfl
    | some digits =>
      rw [hf] at hd
      exact Bool.and_eq_true_iff.2 ⟨rfl, all_isFormChar_of_isDecimal hd⟩
  have hexponent : form.exponentText.all isFormChar = true := by
    unfold exponentText
    cases form.exponent with
    | none => rfl
    | some exponent => exact exponent.all_isFormChar
  simp only [text, List.all_append, hwhole, hfraction, hexponent, Bool.and_self]

theorem exponent?_exponentText :
    exponent? form.exponentText = some (form.exponent.elim 0 ExponentForm.value) := by
  unfold exponentText
  cases form.exponent with
  | none => rfl
  | some exponent => exact exponent.exponent?_text

/-- No decimal digit stands at the head of the exponent. -/
theorem isDecimal_head_exponentText : ∀ c ∈ form.exponentText.head?, isDecimal c = false := by
  intro c hc
  have hd := (form.head_exponentText ends_nil c (by simpa using hc)).1
  rw [Bool.eq_false_iff]
  intro h
  rw [isDigit_of_isDecimal h] at hd
  cases hd

theorem unsigned?_text : unsigned? form.text = some form.value := by
  have hd := form.isDecimal_fraction
  have hne := form.digits_ne
  have hpoint := form.head_exponentText ends_nil
  rw [List.append_nil] at hpoint
  rw [text, value, fractionText, List.append_assoc]
  cases hf : form.fraction with
  | none =>
    simp only [hf, Option.getD_none, List.append_nil] at hne
    exact (unsigned?_whole form.isDecimal_whole hne form.isDecimal_head_exponentText fun c hc => (hpoint c hc).2).trans
      (by simp [form.exponent?_exponentText])
  | some digits =>
    simp only [hf, Option.getD_some] at hd hne
    exact (unsigned?_fraction form.isDecimal_whole hd hne form.isDecimal_head_exponentText).trans
      (by simp [form.exponent?_exponentText])

/-- A form starts with a digit or a point. -/
theorem exists_head : ∃ c rest, form.text = c :: rest ∧ (isDigit c = true ∨ c = '.') := by
  have hd := form.isDecimal_whole
  have hne := form.digits_ne
  rw [text, fractionText]
  cases hw : form.whole with
  | cons d whole =>
    rw [hw, List.all_cons, Bool.and_eq_true] at hd
    exact ⟨d, _, rfl, .inl (isDigit_of_isDecimal hd.1)⟩
  | nil =>
    cases hf : form.fraction with
    | none => simp [hw, hf] at hne
    | some digits => exact ⟨'.', _, rfl, .inr rfl⟩

/-- **Reading the text of a form** gives its value: there is no margin, no underscore and no sign to be taken away. -/
theorem toFloat?_text : toFloat? form.text = some form.value := by
  have hchars : form.text.all isNumeralChar = true :=
    List.all_eq_true.2 fun c hc => isNumeralChar_of_isFormChar (List.all_eq_true.1 form.all_isFormChar c hc)
  have hsign : ∀ c ∈ form.text.head?, c ≠ '-' ∧ c ≠ '+' := by
    obtain ⟨first, rest, he, hfirst⟩ := form.exists_head
    intro c hc
    obtain rfl : first = c := by simpa [he] using hc
    rcases hfirst with h | rfl
    · exact ⟨ne_of_class h (by decide), ne_of_class h (by decide)⟩
    · decide
  rw [toFloat?_of_all hchars hsign, unsigned?_text, Option.some_or]

end Form

/-! ## The form of a numeral with a value -/

theorem exists_sign (text : List Char) :
    ∃ sign, (sign = [] ∨ sign = ['+'] ∨ sign = ['-']) ∧ text = sign ++ (signed text).2 ∧
      (signed text).1 = decide (sign = ['-']) := by
  unfold signed
  split
  · exact ⟨['-'], .inr (.inr rfl), rfl, rfl⟩
  · exact ⟨['+'], .inr (.inl rfl), rfl, rfl⟩
  · exact ⟨[], .inl rfl, rfl, rfl⟩

/-- What is read as an exponent is written as one, or it is nothing. -/
theorem exists_exponentForm {text : List Char} {value : Int} (h : exponent? text = some value) :
    ∃ exponent : Option ExponentForm, exponent.elim [] ExponentForm.text = text ∧
      exponent.elim 0 ExponentForm.value = value := by
  cases text with
  | nil =>
    rw [exponent?] at h
    exact ⟨none, rfl, Option.some.inj h⟩
  | cons mark rest =>
    obtain ⟨sign, hs, hrest, hnegative⟩ := exists_sign rest
    rw [exponent?] at h
    dsimp only at h
    split at h
    · rename_i hc
      refine ⟨some ⟨mark, sign, (signed rest).2, hc.1, hs, hc.2.1, hc.2.2⟩, ?_, ?_⟩
      · exact congrArg (mark :: ·) hrest.symm
      · rw [hnegative] at h
        simpa [ExponentForm.value] using h
    · cases h

theorem exists_form_of_parts {whole tail : List Char} {x : Float} (fraction : Option (List Char))
    (hw : whole.all isDecimal = true) (hf : (fraction.getD []).all isDecimal = true)
    (hne : ¬(whole.isEmpty && (fraction.getD []).isEmpty) = true)
    (h : (exponent? tail).map (fun e => scaled (value (whole ++ fraction.getD [])) (e - (fraction.getD []).length)) =
      some x) :
    ∃ form : Form, form.text = whole ++ (fraction.elim [] ('.' :: ·) ++ tail) ∧ form.value = x := by
  obtain ⟨e, he, rfl⟩ := Option.map_eq_some_iff.1 h
  obtain ⟨exponent, rfl, rfl⟩ := exists_exponentForm he
  refine ⟨⟨whole, fraction, exponent, hw, hf, by simpa using hne⟩, ?_, rfl⟩
  rw [← List.append_assoc]
  rfl

/-- **What is read as an unsigned numeral has a form.** -/
theorem exists_form {text : List Char} {x : Float} (h : unsigned? text = some x) :
    ∃ form : Form, form.text = text ∧ form.value = x := by
  have htext : text.takeWhile isDecimal ++ text.dropWhile isDecimal = text := List.takeWhile_append_dropWhile
  have hwhole : (text.takeWhile isDecimal).all isDecimal = true := by simp
  unfold unsigned? at h
  dsimp only at h
  split at h
  · rename_i rest hbehind
    have hrest : rest.takeWhile isDecimal ++ rest.dropWhile isDecimal = rest := List.takeWhile_append_dropWhile
    rw [hbehind, ← hrest] at htext
    split at h
    · cases h
    · rename_i hne
      rw [← htext]
      exact exists_form_of_parts (some (rest.takeWhile isDecimal)) hwhole (by simp) hne h
  · split at h
    · cases h
    · rename_i hne
      rw [← htext]
      exact exists_form_of_parts none hwhole rfl hne h

end Formula.Numeral
