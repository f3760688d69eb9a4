import Formula.Infix
import Formula.Proofs.NumeralForm
import Formula.Proofs.Outcome
import Formula.Proofs.StandardRegistry

/-!
# Lexemes

Reading a text that starts with the writing of a token gives that token before the tokens of the rest (`ReadsAs`).
There is one lemma for every kind of token: numerals (`readsAs_numeral`), variables (`readsAs_var`), names of functions
right before an opening bracket (`readsAs_function`), structural signs (`readsAs_structural`) and the operators of the
standard registry (`readsAs_operator`). Blanks between tokens are skipped (`readsAs_blanks`). Texts one after another
are read as their tokens one after another (`ReadsAs.append`).
-/

namespace Formula.Infix

open Formula.Text

/-- Tokens before those of a result. -/
def prepend (tokens : List Token) (result : Except Fault (List Token)) : Except Fault (List Token) :=
  result.map (tokens ++ ·)

@[simp]
theorem prepend_ok (tokens others : List Token) : prepend tokens (.ok others) = .ok (tokens ++ others) := rfl

@[simp]
theorem prepend_nil (result : Except Fault (List Token)) : prepend [] result = result := by
  cases result <;> rfl

@[simp]
theorem prepend_prepend (tokens others : List Token) (result : Except Fault (List Token)) :
    prepend tokens (prepend others result) = prepend (tokens ++ others) result := by
  cases result with
  | error fault => rfl
  | ok rest => simp

theorem prepend_eq_ok {tokens front : List Token} {result : Except Fault (List Token)} :
    prepend front result = .ok tokens ↔ ∃ others, result = .ok others ∧ tokens = front ++ others := by
  cases result with
  | error fault => simp [prepend, Except.map]
  | ok others => simp [eq_comm]

/-- Behind the token `before` and at the given position, the text is read as the tokens, of which `last` is the last one
if there are any, and the rest behind it is read after them. -/
def ReadsAs (registry : Registry) (before : Option Token.Kind) (position : Nat) (text rest : List Char)
    (tokens : List Token) (last : Option Token.Kind) : Prop :=
  readFrom registry registry.symbols before position (text ++ rest) =
    prepend tokens (readFrom registry registry.symbols last (position + text.length) rest)

section Lexemes

variable {registry : Registry} {before middle last : Option Token.Kind} {position : Nat}

theorem ReadsAs.append {text others rest : List Char} {tokens behind : List Token}
    (h : ReadsAs registry before position text (others ++ rest) tokens middle)
    (ho : ReadsAs registry middle (position + text.length) others rest behind last) :
    ReadsAs registry before position (text ++ others) rest (tokens ++ behind) last := by
  unfold ReadsAs at *
  rw [List.append_assoc, h, ho, prepend_prepend, List.length_append, Nat.add_assoc]

theorem readsAs_blanks (registry : Registry) (before : Option Token.Kind) (position : Nat) {blanks : List Char}
    (h : blanks.all isBlank = true) (rest : List Char) :
    ReadsAs registry before position blanks rest [] before := by
  have hskip : readFrom registry registry.symbols before position (blanks ++ rest) =
      readFrom registry registry.symbols before (position + blanks.length) rest := by
    induction blanks generalizing position with
    | nil => rfl
    | cons c blanks ih =>
      rw [List.all_cons, Bool.and_eq_true] at h
      rw [List.cons_append, readFrom, if_pos h.1, ih (position + 1) h.2, List.length_cons, Nat.add_assoc,
        Nat.add_comm 1]
  rw [ReadsAs, hskip, prepend_nil]

/-- A whole text. -/
theorem ReadsAs.read_eq {text : String} {tokens : List Token} (h : ReadsAs registry none 0 text.toList [] tokens last) :
    read registry text = .ok tokens := by
  rw [ReadsAs, List.append_nil, readFrom, prepend_ok, List.append_nil] at h
  exact h

/-- A token that takes a character and all that is set apart behind it. -/
theorem readsAs_of_readToken {first : Char} {others rest : List Char} {kind : Token.Kind} (hb : isBlank first = false)
    (h : readToken registry registry.symbols before position first (others ++ rest) = .ok (kind, others.length + 1)) :
    ReadsAs registry before position (first :: others) rest [⟨kind, some (position : Int)⟩] (some kind) := by
  have hposition : position + 1 + others.length = position + (first :: others).length := by
    rw [List.length_cons]
    omega
  rw [ReadsAs, List.cons_append, readFrom, if_neg (by simp [hb]), h]
  simp only [Nat.add_sub_cancel, List.drop_left, hposition]
  cases readFrom registry registry.symbols (some kind) (position + (first :: others).length) rest <;> rfl

theorem readsAs_numeral (form : Numeral.Form) {rest : List Char} (hr : Ends rest) :
    ReadsAs registry before position form.text rest [⟨.number form.value, some (position : Int)⟩]
      (some (.number form.value)) := by
  obtain ⟨first, others, he, hfirst⟩ := form.exists_head
  have hblank : isBlank first = false := by
    rcases hfirst with h | rfl
    · exact isBlank_eq_false_of_isWordChar (isWordChar_of_isDigit h)
    · decide
  have hnumeral : (isDigit first || first == '.') = true := by simpa using hfirst
  have hbehind : ((form.text ++ rest).drop form.text.length).head? ≠ some '.' := by
    rw [List.drop_left]
    intro h
    exact (hr '.' h).2.1 rfl
  have hread : readToken registry registry.symbols before position first (others ++ rest) =
      .ok (.number form.value, others.length + 1) := by
    rw [readToken]
    simp only [hnumeral, if_true]
    rw [← List.cons_append, ← he, Literal.readNumeral]
    simp only [form.numeral_append hr, form.toFloat?_text]
    rw [if_neg hbehind, he, List.length_cons]
  rw [he]
  exact readsAs_of_readToken hblank hread

/-- A word is read up to its end. What it is depends on what stands behind it. -/
theorem readsAs_word {name : String} {kind : Token.Kind} {rest : List Char} (h : isWord name.toList = true)
    (hr : ∀ c ∈ rest.head?, isWordChar c = false)
    (hk : wordKind registry registry.symbols before name rest = .ok kind) :
    ReadsAs registry before position name.toList rest [⟨kind, some (position : Int)⟩] (some kind) := by
  have hword : (name.toList ++ rest).takeWhile isWordChar = name.toList :=
    takeWhile_stretch (all_isWordChar_of_isWord h) hr
  cases he : name.toList with
  | nil =>
    rw [he] at h
    cases h
  | cons first others =>
    rw [he, isWord, Bool.and_eq_true] at h
    have hstart : isWordStart first = true := h.1
    have hdigit : (isDigit first || first == '.') = false := by
      rw [isDigit_eq_false_of_isWordStart hstart, Bool.false_or, beq_eq_false_iff_ne]
      exact ne_of_class hstart (by decide)
    have hquote : Literal.quoteOf? first = none := by
      rw [Literal.quoteOf?, if_neg (ne_of_class hstart (by decide)), if_neg (ne_of_class hstart (by decide))]
    have hread : readToken registry registry.symbols before position first (others ++ rest) =
        .ok (kind, others.length + 1) := by
      rw [readToken]
      simp only [hdigit, hquote, hstart, Bool.false_eq_true, if_false, if_true]
      rw [← List.cons_append, ← he, hword, String.ofList_toList, List.drop_left, hk, he]
      rfl
    exact readsAs_of_readToken (isBlank_eq_false_of_isWordChar (isWordChar_of_isWordStart hstart)) hread

theorem readsAs_var {name : String} {rest : List Char} (h : isWord name.toList = true)
    (hs : name ∉ registry.symbols) (hr : Ends rest) :
    ReadsAs registry before position name.toList rest [⟨.var name, some (position : Int)⟩] (some (.var name)) := by
  refine readsAs_word h (fun c hc => (hr c hc).1) ?_
  have hbracket : rest.head? ≠ some '(' := fun hc => (hr _ hc).2.2 rfl
  rw [wordKind, if_neg hbracket, if_neg (by simpa using hs)]
  rfl

theorem readsAs_function (before : Option Token.Kind) (position : Nat) {function : Function}
    (hf : registry.functions.find? function.name = some function) (rest : List Char) :
    ReadsAs registry before position function.name.toList ('(' :: rest)
      [⟨.function function.name, some (position : Int)⟩] (some (.function function.name)) := by
  refine readsAs_word function.admissible (fun c hc => ?_) ?_
  · obtain rfl : '(' = c := by simpa using hc
    rfl
  · rw [wordKind, List.head?_cons, if_pos rfl, Registry.resolveFunction_eq_ok.2 hf]
    rfl

theorem readsAs_structural {c : Char} {kind : Token.Kind} (h : structural? c = some kind) (rest : List Char) :
    ReadsAs registry before position [c] rest [⟨kind, some (position : Int)⟩] (some kind) := by
  have hc : isBlank c = false ∧
      readToken registry registry.symbols before position c ([] ++ rest) =
        .ok (kind, ([] : List Char).length + 1) := by
    unfold structural? at h
    split at h <;> cases h <;> exact ⟨by decide, rfl⟩
  exact readsAs_of_readToken hc.1 hc.2

end Lexemes

/-! ## Operators of the standard registry -/

section Standard

variable {settings : Settings} {raises : Bool} {op : Operator}

theorem mem_symbols_standard (h : op ∈ settings.operators) :
    op.symbol ∈ (Registry.standard settings raises).symbols :=
  Registry.mem_symbols.2 ⟨op.fixity, op, Table.mem_of_find? (Registry.find?_standardOperators h raises), rfl⟩

theorem exists_of_mem_symbols_standard {symbol : String} (h : symbol ∈ (Registry.standard settings raises).symbols) :
    ∃ op ∈ settings.operators, op.symbol = symbol := by
  obtain ⟨fixity, op, hm, he⟩ := Registry.mem_symbols.1 h
  exact ⟨op, Registry.mem_standardOperators hm, he⟩

/-- A sign starts no other token. -/
theorem class_of_sign {c : Char} (h : c ∈ ['+', '-', '*', '/', '^']) :
    isBlank c = false ∧ (isDigit c || c == '.') = false ∧ Literal.quoteOf? c = none ∧ isWordStart c = false ∧
      structural? c = none := by
  simp only [List.mem_cons, List.not_mem_nil, or_false] at h
  rcases h with rfl | rfl | rfl | rfl | rfl <;> exact ⟨rfl, rfl, rfl, rfl, rfl⟩

/-- No word is an operator. -/
theorem not_mem_symbols_of_isWord {name : String} (h : isWord name.toList = true) :
    name ∉ (Registry.standard settings raises).symbols := by
  intro hm
  obtain ⟨op, ho, rfl⟩ := exists_of_mem_symbols_standard hm
  obtain ⟨c, hc, he⟩ := Registry.exists_symbol_eq ho
  rw [he, isWord, (class_of_sign hc).2.2.2.1] at h
  cases h

/-- The symbols have one character each, so that the text starts with just one of them. -/
theorem find?_symbols_standard (h : op ∈ settings.operators) {c : Char} (he : op.symbol.toList = [c])
    (rest : List Char) :
    ((Registry.standard settings raises).symbols.find? fun symbol => symbol.toList.isPrefixOf (c :: rest)) =
      some op.symbol := by
  cases hfound : (Registry.standard settings raises).symbols.find? fun s => s.toList.isPrefixOf (c :: rest) with
  | none =>
    have hnone := List.find?_eq_none.1 hfound op.symbol (mem_symbols_standard h)
    simp [he] at hnone
  | some symbol =>
    obtain ⟨other, ho, rfl⟩ := exists_of_mem_symbols_standard (List.mem_of_find?_eq_some hfound)
    obtain ⟨d, -, hd⟩ := Registry.exists_symbol_eq ho
    have hfirst := List.find?_some hfound
    simp only [hd, List.isPrefixOf_cons_cons, Bool.and_eq_true, beq_iff_eq] at hfirst
    rw [String.toList_inj.1 (hd.trans (hfirst.1 ▸ he.symm))]

/-- Numerals and words end before an operator. -/
theorem ends_operator (h : op ∈ settings.operators) (rest : List Char) : Ends (op.symbol.toList ++ rest) := by
  obtain ⟨c, hc, he⟩ := Registry.exists_symbol_eq h
  rw [he, List.singleton_append]
  simp only [List.mem_cons, List.not_mem_nil, or_false] at hc
  rcases hc with rfl | rfl | rfl | rfl | rfl <;> exact ends_cons rfl (by decide) (by decide)

theorem readsAs_operator (raises : Bool) (h : op ∈ settings.operators) (before : Option Token.Kind)
    (hb : expectsOperand before = decide (op.fixity = .unary)) (position : Nat) (rest : List Char) :
    ReadsAs (.standard settings raises) before position op.symbol.toList rest
      [⟨.operator op.symbol op.fixity.arity, some (position : Int)⟩] (some (.operator op.symbol op.fixity.arity)) := by
  obtain ⟨c, hc, he⟩ := Registry.exists_symbol_eq h
  obtain ⟨hblank, hdigit, hquote, hstart, hstructural⟩ := class_of_sign hc
  have hfixity : (if expectsOperand before then Fixity.unary else .binary) = op.fixity := by
    rw [hb]
    cases op.fixity <;> rfl
  have hkind : operatorKind (.standard settings raises) before op.symbol =
      .ok (.operator op.symbol op.fixity.arity) := by
    rw [operatorKind, hfixity, Registry.resolveOperator_eq_ok.2 (Registry.find?_standardOperators h raises)]
    rfl
  have hlength : op.symbol.length = 1 := by rw [← String.length_toList, he]; rfl
  have hread : readToken (.standard settings raises) (Registry.standard settings raises).symbols before position c
      ([] ++ rest) = .ok (.operator op.symbol op.fixity.arity, ([] : List Char).length + 1) := by
    rw [readToken]
    simp only [List.nil_append, hdigit, hquote, hstart, hstructural, find?_symbols_standard h he rest, hkind, hlength,
      Bool.false_eq_true, if_false]
    rfl
  rw [he]
  exact readsAs_of_readToken hblank hread

end Standard

end Formula.Infix
