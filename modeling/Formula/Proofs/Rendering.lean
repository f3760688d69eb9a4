import Formula.Proofs.NumberNames
import Formula.Proofs.Resolution
import Formula.Proofs.StandardCallables
import Formula.Proofs.Weight

/-!
# Tokens as they are shown

Tokens are shown with one blank between two. A token is shown without a blank in it, or, if it is a string, between two
quotes (`IsCell`, `Token.Kind.isCell_render`). If no string goes on behind its own quote and a blank, the texts of the
tokens are found again (`eq_of_intercalate_eq`).

A string is told by its quote, an operator by its sign, and one of one operand by a mark behind the sign. Other tokens
are shown by their names alone, and so a variable is shown like a function or a number of its name
(`Token.Kind.Resembles`, `Token.Kind.resembles_of_render_eq`).
-/

namespace Formula

/-! ## Cells -/

/-- The text of a token: it has no blank and starts with no quote, or it stands between two quotes, and a blank behind
such a quote ends it. -/
inductive IsCell : List Char → Prop
  | plain {text : List Char} (hne : text ≠ []) (hb : ' ' ∉ text) (hq : ∀ c ∈ text.head?, Literal.quoteOf? c = none) :
      IsCell text
  | quoted (quote : Quote) {content : List Char} (h : ¬ [quote.char, ' '] <:+: content) :
      IsCell (quote.char :: (content ++ [quote.char]))

theorem quoteOf?_char (quote : Quote) : Literal.quoteOf? quote.char = some quote := by
  cases quote <;> rfl

/-- The text is empty or starts with a blank. -/
def Breaks (tail : List Char) : Prop := ∀ c ∈ tail.head?, c = ' '

namespace IsCell

variable {cell other tail tail' content : List Char}

theorem ne_nil (h : IsCell cell) : cell ≠ [] := by
  cases h with
  | plain hne => exact hne
  | quoted => simp

theorem takeWhile_eq (hb : ' ' ∉ cell) (ht : Breaks tail) : (cell ++ tail).takeWhile (· ≠ ' ') = cell := by
  refine Text.takeWhile_stretch (List.all_eq_true.2 fun c hc => ?_) fun c hc => ?_
  · simpa using ne_of_mem_of_not_mem hc hb
  · simpa using ht c hc

/-- A string does not end before its closing quote. -/
theorem eq_nil_of_quoted {quote : Quote} {more : List Char} (h : ¬ [quote.char, ' '] <:+: content ++ more)
    (ht : Breaks tail) (he : quote.char :: tail = more ++ quote.char :: tail') : more = [] := by
  cases more with
  | nil => rfl
  | cons d more =>
    obtain ⟨rfl, rfl⟩ := List.cons.inj he
    cases more with
    | nil =>
      have hquote : quote.char = ' ' := ht _ rfl
      cases quote <;> cases hquote
    | cons c more =>
      obtain rfl : c = ' ' := ht c rfl
      exact absurd ⟨content, more, by simp⟩ h

theorem eq_of_quoted {quote : Quote} (h : ¬ [quote.char, ' '] <:+: content) (ho : ¬ [quote.char, ' '] <:+: other)
    (ht : Breaks tail) (ht' : Breaks tail') (he : content ++ quote.char :: tail = other ++ quote.char :: tail') :
    content = other := by
  rcases List.append_eq_append_iff.1 he with ⟨more, rfl, hmore⟩ | ⟨more, rfl, hmore⟩
  · rw [eq_nil_of_quoted ho ht hmore, List.append_nil]
  · rw [eq_nil_of_quoted h ht' hmore, List.append_nil]

/-- A cell is told from the text that starts with it. -/
theorem eq_of_append (h : IsCell cell) (ho : IsCell other) (ht : Breaks tail) (ht' : Breaks tail')
    (he : cell ++ tail = other ++ tail') : cell = other := by
  cases h with
  | plain hne hb hq =>
    cases ho with
    | plain hne' hb' hq' => rw [← takeWhile_eq hb ht, he, takeWhile_eq hb' ht']
    | quoted quote =>
      obtain ⟨c, cell, rfl⟩ := List.exists_cons_of_ne_nil hne
      obtain ⟨rfl, -⟩ := List.cons.inj he
      cases (quoteOf?_char quote).symm.trans (hq _ rfl)
  | quoted quote h =>
    cases ho with
    | plain hne hb hq =>
      obtain ⟨c, other, rfl⟩ := List.exists_cons_of_ne_nil hne
      obtain ⟨rfl, -⟩ := List.cons.inj he
      cases (quoteOf?_char quote).symm.trans (hq _ rfl)
    | quoted quote' h' =>
      rw [List.cons_append, List.cons_append, List.append_assoc, List.append_assoc] at he
      obtain ⟨hquote, he⟩ := List.cons.inj he
      obtain rfl : quote = quote' := Option.some.inj ((quoteOf?_char quote).symm.trans (hquote ▸ quoteOf?_char quote'))
      rw [eq_of_quoted h h' ht ht' he]

end IsCell

/-- Cells with a blank before each of them. -/
def blanked (cells : List (List Char)) : List Char := cells.flatMap (' ' :: ·)

theorem breaks_blanked (cells : List (List Char)) : Breaks (blanked cells) := by
  cases cells with
  | nil =>
    intro c hc
    cases hc
  | cons cell cells => exact fun c hc => (Option.some.inj hc).symm

theorem eq_of_blanked_eq {cells others : List (List Char)} (h : ∀ cell ∈ cells, IsCell cell)
    (ho : ∀ cell ∈ others, IsCell cell) (he : blanked cells = blanked others) : cells = others := by
  induction cells generalizing others with
  | nil =>
    cases others with
    | nil => rfl
    | cons other others => cases he
  | cons cell cells ih =>
    cases others with
    | nil => cases he
    | cons other others =>
      obtain ⟨hcell, hcells⟩ := List.forall_mem_cons.1 h
      obtain ⟨hother, hothers⟩ := List.forall_mem_cons.1 ho
      have hrest : cell ++ blanked cells = other ++ blanked others := (List.cons.inj he).2
      obtain rfl := hcell.eq_of_append hother (breaks_blanked cells) (breaks_blanked others) hrest
      rw [ih hcells hothers (List.append_cancel_left hrest)]

theorem intercalate_eq (cell : List Char) (cells : List (List Char)) :
    [' '].intercalate (cell :: cells) = cell ++ blanked cells := by
  induction cells generalizing cell with
  | nil => simp [blanked]
  | cons next cells ih =>
    rw [List.intercalate_cons_cons, ih next, List.append_assoc]
    rfl

theorem eq_nil_of_intercalate_eq_nil {cells : List (List Char)} (h : ∀ cell ∈ cells, IsCell cell)
    (he : [' '].intercalate cells = []) : cells = [] := by
  cases cells with
  | nil => rfl
  | cons cell cells =>
    rw [intercalate_eq] at he
    exact absurd (List.append_eq_nil_iff.1 he).1 (h cell List.mem_cons_self).ne_nil

/-- **Cells with one blank between two are found again.** -/
theorem eq_of_intercalate_eq {cells others : List (List Char)} (h : ∀ cell ∈ cells, IsCell cell)
    (ho : ∀ cell ∈ others, IsCell cell) (he : [' '].intercalate cells = [' '].intercalate others) : cells = others := by
  cases cells with
  | nil => exact (eq_nil_of_intercalate_eq_nil ho he.symm).symm
  | cons cell cells =>
    cases others with
    | nil => exact eq_nil_of_intercalate_eq_nil h he
    | cons other others =>
      rw [intercalate_eq, intercalate_eq] at he
      exact eq_of_blanked_eq h ho (congrArg (' ' :: ·) he)

/-! ## Tokens as cells -/

namespace Token.Kind

/-- The kinds of tokens that the standard registry leaves in postfix order. -/
inductive IsShown (settings : Settings) : Kind → Prop
  | number (x : Float) : IsShown settings (.number x)
  | text (quote : Quote) (content : String) : IsShown settings (.text quote content)
  | var {name : String} (h : Text.isWord name.toList = true) : IsShown settings (.var name)
  | operator {op : Operator} (h : op ∈ settings.operators) :
      IsShown settings (.operator op.symbol op.fixity.arity)
  | function {function : Function} (h : function ∈ standardFunctions) : IsShown settings (.function function.name)

/-- A blank behind a quote of its kind ends a string that is shown. -/
def EndsItself : Kind → Prop
  | .text quote content => [quote.char, ' '] <:+: content.toList
  | _ => False

instance : (kind : Kind) → Decidable kind.EndsItself
  | .text quote content => inferInstanceAs (Decidable ([quote.char, ' '] <:+: content.toList))
  | .number _ | .var _ | .operator _ _ | .function _ | .openBracket | .closeBracket | .separator | .other _ _ _ =>
    inferInstanceAs (Decidable False)

variable {settings : Settings} {kind other : Kind}

theorem render_text (quote : Quote) (content : String) :
    (text quote content).render.toList = quote.char :: (content.toList ++ [quote.char]) := by
  have hquote : (toString quote.char).toList = [quote.char] := String.toList_singleton quote.char
  have hcontent : toString content = content := rfl
  simp [render, hquote, hcontent]

/-- An operator is shown as a sign, with a mark if it has one operand. -/
theorem render_operator {op : Operator} (h : op ∈ settings.operators) :
    ∃ c ∈ ['+', '-', '*', '/', '^'], op.symbol.toList = [c] ∧
      (operator op.symbol op.fixity.arity).render.toList =
        (if op.fixity = .unary then [c, 'u'] else [c]) := by
  obtain ⟨c, hc, hs⟩ := Registry.exists_symbol_eq h
  have hsymbol : toString op.symbol = op.symbol := rfl
  have hmark : toString "u" = "u" := rfl
  refine ⟨c, hc, hs, ?_⟩
  cases op.fixity <;> simp [render, Fixity.arity, hs, hsymbol, hmark]

theorem quoteOf?_eq_none_of_class {p : Char → Bool} {c : Char} (h : p c = true)
    (hp : ∀ quote : Quote, p quote.char = false) : Literal.quoteOf? c = none := by
  rw [Literal.quoteOf?, if_neg (Text.ne_of_class h (hp .single)), if_neg (Text.ne_of_class h (hp .double))]

theorem quoteOf?_head_word {text : List Char} (h : Text.isWord text = true) :
    ∀ {c : Char}, c ∈ text.head? → Literal.quoteOf? c = none := by
  intro c hc
  obtain ⟨rest, rfl⟩ := List.head?_eq_some_iff.1 hc
  rw [Text.isWord, Bool.and_eq_true] at h
  exact quoteOf?_eq_none_of_class h.1 fun quote => (by cases quote <;> rfl)

theorem quoteOf?_head_number {text : List Char} (h : NumberShape text) :
    ∀ {c : Char}, c ∈ text.head? → Literal.quoteOf? c = none := by
  intro c hc
  rcases h.head with rfl | rfl | ⟨d, hd, hclass⟩
  · obtain rfl := Option.some.inj hc
    rfl
  · obtain rfl := Option.some.inj hc
    rfl
  · obtain rfl : c = d := Option.some.inj (hc.symm.trans hd)
    rcases hclass with hdigit | rfl
    · exact quoteOf?_eq_none_of_class hdigit fun quote => (by cases quote <;> rfl)
    · rfl

theorem isCell_of_isWord {text : List Char} (h : Text.isWord text = true) : IsCell text := by
  refine .plain ?_ (fun hm => ?_) fun c hc => quoteOf?_head_word h hc
  · rintro rfl
    cases h
  · have hblank := List.all_eq_true.1 (Text.all_isWordChar_of_isWord h) _ hm
    cases hblank

/-- A token is shown as a cell. -/
theorem isCell_render (h : kind.IsShown settings) (hs : ¬ kind.EndsItself) : IsCell kind.render.toList := by
  cases h with
  | number x =>
    have hshape := numberShape_numberName x
    exact .plain hshape.ne_nil hshape.not_mem fun c hc => quoteOf?_head_number hshape hc
  | text quote content =>
    rw [render_text]
    exact .quoted quote hs
  | var h => exact isCell_of_isWord h
  | @operator op h =>
    obtain ⟨c, hc, -, he⟩ := render_operator h
    obtain ⟨hblank, -, hquote, -, -⟩ := Infix.class_of_sign hc
    have hne : ' ' ≠ c := fun hb => absurd hblank (by rw [← hb]; decide)
    rw [he]
    split <;> exact .plain (by simp) (by simp [hne]) fun d hd => Option.some.inj hd ▸ hquote
  | @function function h => exact isCell_of_isWord function.admissible

/-! ## Tokens that are shown alike -/

/-- Tokens that are alike are the same, but for the values of numbers with one name. -/
theorem likeness_eq_iff : kind.likeness = other.likeness ↔
    kind = other ∨ ∃ x y, kind = .number x ∧ other = .number y ∧ numberName x = numberName y := by
  constructor
  · intro h
    simp only [likeness, Prod.mk.injEq] at h
    obtain ⟨hcategory, hname, harity, hquote⟩ := h
    cases kind <;> cases other <;> simp_all [category, name, arity, quote?]
  · rintro (rfl | ⟨x, y, rfl, rfl, h⟩)
    · rfl
    · simp only [likeness, name, h]
      rfl

/-- What two tokens of postfix order have in common if they are shown alike: all that counts, or the name alone, if one
of them is a variable and the other a function or a number. -/
inductive Resembles : Kind → Kind → Prop
  | alike {kind other : Kind} (h : kind.likeness = other.likeness) : Resembles kind other
  | varFunction (name : String) : Resembles (.var name) (.function name)
  | functionVar (name : String) : Resembles (.function name) (.var name)
  | varNumber (x : Float) : Resembles (.var (numberName x)) (.number x)
  | numberVar (x : Float) : Resembles (.number x) (.var (numberName x))

theorem Resembles.symm (h : Resembles kind other) : Resembles other kind := by
  cases h with
  | alike h => exact .alike h.symm
  | varFunction name => exact .functionVar name
  | functionVar name => exact .varFunction name
  | varNumber x => exact .numberVar x
  | numberVar x => exact .varNumber x

theorem Resembles.render_eq (h : Resembles kind other) : kind.render = other.render := by
  cases h with
  | alike h =>
    obtain rfl | ⟨x, y, rfl, rfl, hname⟩ := likeness_eq_iff.1 h
    · rfl
    · exact hname
  | varFunction | functionVar | varNumber | numberVar => rfl

/-- Only a string is shown with a quote in front. -/
theorem eq_text_of_head (h : kind.IsShown settings) {quote : Quote} (hq : quote.char ∈ kind.render.toList.head?) :
    ∃ content, kind = .text quote content := by
  have hsome := quoteOf?_char quote
  cases h with
  | number x =>
    have hnone := quoteOf?_head_number (numberShape_numberName x) hq
    cases hnone.symm.trans hsome
  | text quote' content =>
    rw [render_text] at hq
    have hchar : quote'.char = quote.char := Option.some.inj hq
    rw [← hchar, quoteOf?_char] at hsome
    obtain rfl := Option.some.inj hsome
    exact ⟨content, rfl⟩
  | var h => cases (quoteOf?_head_word h hq).symm.trans hsome
  | @operator op h =>
    obtain ⟨c, hc, -, he⟩ := render_operator h
    obtain rfl : c = quote.char := by
      rw [he] at hq
      split at hq <;> exact Option.some.inj hq
    cases (Infix.class_of_sign hc).2.2.1.symm.trans hsome
  | @function function h => cases (quoteOf?_head_word function.admissible hq).symm.trans hsome

/-- Only an operator is shown as a sign, with or without a mark. -/
theorem exists_operator_of_sign (h : kind.IsShown settings) {c : Char} (hc : c ∈ ['+', '-', '*', '/', '^'])
    {mark : List Char} (hm : mark = [] ∨ mark = ['u']) (hr : kind.render.toList = c :: mark) :
    ∃ op ∈ settings.operators, kind = .operator op.symbol op.fixity.arity := by
  obtain ⟨-, -, hquote, hstart, -⟩ := Infix.class_of_sign hc
  have hword : ¬ Text.isWord (c :: mark) = true := by simp [Text.isWord, hstart]
  cases h with
  | number x =>
    have hshape : NumberShape (c :: mark) := hr ▸ numberShape_numberName x
    obtain ⟨d, hd, hclass⟩ := hshape.ne_sign hc
    rcases hm with rfl | rfl
    · cases hd
    · obtain rfl : 'u' = d := Option.some.inj hd
      simp at hclass
  | text quote content =>
    rw [render_text] at hr
    obtain ⟨rfl, -⟩ := List.cons.inj hr
    cases hquote.symm.trans (quoteOf?_char quote)
  | var h => exact absurd (hr ▸ h) hword
  | @operator op h => exact ⟨op, h, rfl⟩
  | @function function h => exact absurd (hr ▸ function.admissible) hword

theorem resembles_of_text {quote : Quote} {content : String} (ho : other.IsShown settings)
    (he : (text quote content).render = other.render) : Resembles (text quote content) other := by
  have hq : quote.char ∈ other.render.toList.head? := by
    rw [← he, render_text]
    rfl
  obtain ⟨content', rfl⟩ := eq_text_of_head ho hq
  have hlist := congrArg String.toList he
  rw [render_text, render_text] at hlist
  have hcontent := List.append_cancel_right (List.cons.inj hlist).2
  rw [String.toList_inj.1 hcontent]
  exact .alike rfl

theorem resembles_of_operator {op : Operator} (h : op ∈ settings.operators) (ho : other.IsShown settings)
    (he : (operator op.symbol op.fixity.arity).render = other.render) :
    Resembles (operator op.symbol op.fixity.arity) other := by
  obtain ⟨c, hc, hs, hr⟩ := render_operator h
  have hmark : ∃ mark, (mark = [] ∨ mark = ['u']) ∧ other.render.toList = c :: mark := by
    rw [← he, hr]
    split
    · exact ⟨['u'], .inr rfl, rfl⟩
    · exact ⟨[], .inl rfl, rfl⟩
  obtain ⟨mark, hm, ho'⟩ := hmark
  obtain ⟨op', h', rfl⟩ := exists_operator_of_sign ho hc hm ho'
  obtain ⟨c', -, hs', hr'⟩ := render_operator h'
  have hboth : (if op.fixity = .unary then [c, 'u'] else [c]) = if op'.fixity = .unary then [c', 'u'] else [c'] := by
    rw [← hr, ← hr', he]
  have hsame : c = c' ∧ op.fixity = op'.fixity := by
    cases hf : op.fixity <;> cases hf' : op'.fixity <;> simp_all
  have hsymbol : op.symbol = op'.symbol := String.toList_inj.1 (by rw [hs, hs', hsame.1])
  rw [hsymbol, hsame.2]
  exact .alike rfl

theorem ne_number_of_function {function : Function} (h : function ∈ standardFunctions) (x : Float) :
    function.name ≠ numberName x := by
  intro he
  have hshape : NumberShape function.name.toList := he ▸ numberShape_numberName x
  have hname := hshape.eq_of_isWord function.admissible
  simp only [standardFunctions, List.mem_cons, List.not_mem_nil, or_false] at h
  rcases h with rfl | rfl | rfl | rfl | rfl | rfl | rfl | rfl | rfl | rfl | rfl <;> simp at hname

/-- **Tokens that are shown alike resemble each other.** -/
theorem resembles_of_render_eq (h : kind.IsShown settings) (ho : other.IsShown settings)
    (he : kind.render = other.render) : Resembles kind other := by
  cases h with
  | text quote content => exact resembles_of_text ho he
  | operator h => exact resembles_of_operator h ho he
  | number x =>
    have hx : IsShown settings (.number x) := .number x
    cases ho with
    | number y =>
      exact .alike (likeness_eq_iff.2 (.inr ⟨x, y, rfl, rfl, he⟩))
    | text quote content => exact (resembles_of_text hx he.symm).symm
    | var h =>
      obtain rfl : numberName x = _ := he
      exact .numberVar x
    | operator h => exact (resembles_of_operator h hx he.symm).symm
    | function h => exact absurd he.symm (ne_number_of_function h x)
  | @var name h =>
    have hvar : IsShown settings (.var name) := .var h
    cases ho with
    | number x =>
      obtain rfl : name = numberName x := he
      exact .varNumber x
    | text quote content => exact (resembles_of_text hvar he.symm).symm
    | var h =>
      obtain rfl : name = _ := he
      exact .alike rfl
    | operator h' => exact (resembles_of_operator h' hvar he.symm).symm
    | @function function h' =>
      obtain rfl : name = function.name := he
      exact .varFunction function.name
  | @function function h =>
    have hfunction : IsShown settings (.function function.name) := .function h
    cases ho with
    | number x => exact absurd he (ne_number_of_function h x)
    | text quote content => exact (resembles_of_text hfunction he.symm).symm
    | var h =>
      obtain rfl : function.name = _ := he
      exact .functionVar function.name
    | operator h' => exact (resembles_of_operator h' hfunction he.symm).symm
    | @function function' h' =>
      have hname : function.name = function'.name := he
      rw [hname]
      exact .alike rfl

end Token.Kind

end Formula
