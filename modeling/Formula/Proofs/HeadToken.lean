import Formula.Proofs.Delimiters

/-!
# The token at the head of a text

There are five ways to read a token (`HeadToken`, `readToken_eq_ok`). How a token is read depends on what stands
before it only as far as an operand is expected behind that or not (`HeadToken.congr`), and it does not depend on
what stands behind the text if that ends every token (`HeadToken.append`). What holds of every way to read a token
holds of all tokens of a text, by induction over the text that is read (`readFrom_induct`).
-/

namespace Formula.Infix

open Formula.Text

/-! ## Ways to read a token -/

/-- Behind the token `before`, a token of the given kind stands at the head of a text and takes so many characters. -/
inductive HeadToken (registry : Registry) (before : Option Token.Kind) (first : Char) (rest : List Char) :
    Token.Kind → Nat → Prop
  | numeral {value : Float} (hn : (isDigit first || first == '.') = true)
      (hp : ((first :: rest).drop (Literal.numeral (first :: rest)).length).head? ≠ some '.')
      (hv : Numeral.toFloat? (Literal.numeral (first :: rest)) = some value) :
      HeadToken registry before first rest (.number value) (Literal.numeral (first :: rest)).length
  | string {quote : Quote} {content : List Char} {count : Nat} (hn : (isDigit first || first == '.') = false)
      (hq : Literal.quoteOf? first = some quote) (hc : Literal.unquoted? quote.char rest = some (content, count)) :
      HeadToken registry before first rest (.text quote (String.ofList content)) (count + 1)
  | word {kind : Token.Kind} (hn : (isDigit first || first == '.') = false) (hq : Literal.quoteOf? first = none)
      (hw : isWordStart first = true)
      (hk : wordKind registry registry.symbols before (String.ofList ((first :: rest).takeWhile isWordChar))
        ((first :: rest).drop ((first :: rest).takeWhile isWordChar).length) = .ok kind) :
      HeadToken registry before first rest kind ((first :: rest).takeWhile isWordChar).length
  | structural {kind : Token.Kind} (hn : (isDigit first || first == '.') = false) (hq : Literal.quoteOf? first = none)
      (hw : isWordStart first = false) (hs : structural? first = some kind) :
      HeadToken registry before first rest kind 1
  | symbol {kind : Token.Kind} {symbol : String} (hn : (isDigit first || first == '.') = false)
      (hq : Literal.quoteOf? first = none) (hw : isWordStart first = false) (hs : structural? first = none)
      (hf : (registry.symbols.find? fun symbol => symbol.toList.isPrefixOf (first :: rest)) = some symbol)
      (hk : operatorKind registry before symbol = .ok kind) :
      HeadToken registry before first rest kind symbol.length

section

variable {registry : Registry} {before other : Option Token.Kind} {position count : Nat} {first : Char}
  {rest tail : List Char} {kind : Token.Kind}

theorem readNumeral_eq_ok {text : List Char} (h : Literal.readNumeral text position = .ok (kind, count)) :
    (text.drop (Literal.numeral text).length).head? ≠ some '.' ∧ count = (Literal.numeral text).length ∧
      ∃ value, Numeral.toFloat? (Literal.numeral text) = some value ∧ kind = .number value := by
  unfold Literal.readNumeral at h
  dsimp only at h
  split at h
  · cases h
  · rename_i hp
    split at h
    · rename_i value hv
      cases h
      exact ⟨hp, rfl, value, hv, rfl⟩
    · cases h

theorem readString_eq_ok {quote : Quote} (h : Literal.readString quote rest position = .ok (kind, count)) :
    ∃ content taken, Literal.unquoted? quote.char rest = some (content, taken) ∧
      kind = .text quote (String.ofList content) ∧ count = taken + 1 := by
  unfold Literal.readString at h
  split at h
  · rename_i content taken hc
    cases h
    exact ⟨content, taken, hc, rfl, rfl⟩
  · cases h

/-- The ways are tried in this order. -/
theorem headToken_of_readToken
    (h : readToken registry registry.symbols before position first rest = .ok (kind, count)) :
    HeadToken registry before first rest kind count := by
  unfold readToken at h
  dsimp only at h
  split at h
  · rename_i hn
    obtain ⟨hp, rfl, value, hv, rfl⟩ := readNumeral_eq_ok h
    exact .numeral hn hp hv
  · rename_i hn
    rw [Bool.not_eq_true] at hn
    split at h
    · rename_i quote hq
      obtain ⟨content, taken, hc, rfl, rfl⟩ := readString_eq_ok h
      exact .string hn hq hc
    · rename_i hq
      have hnone : Literal.quoteOf? first = none := Option.eq_none_iff_forall_ne_some.2 hq
      split at h
      · rename_i hw
        obtain ⟨word, hk, h⟩ := exists_of_bind_eq_ok h
        cases h
        exact .word hn hnone hw hk
      · rename_i hw
        rw [Bool.not_eq_true] at hw
        split at h
        · rename_i structural hs
          cases h
          exact .structural hn hnone hw hs
        · rename_i hs
          have hstructural : structural? first = none := Option.eq_none_iff_forall_ne_some.2 hs
          split at h
          · rename_i symbol hf
            obtain ⟨operator, hk, h⟩ := exists_of_bind_eq_ok h
            cases h
            exact .symbol hn hnone hw hstructural hf hk
          · cases h

theorem HeadToken.readToken_eq (h : HeadToken registry before first rest kind count) (position : Nat) :
    readToken registry registry.symbols before position first rest = .ok (kind, count) := by
  unfold readToken
  cases h with
  | numeral hn hp hv => simp only [hn, if_true, Literal.readNumeral, if_neg hp, hv]
  | string hn hq hc => simp only [hn, hq, Literal.readString, hc, Bool.false_eq_true, if_false]
  | word hn hq hw hk =>
    simp only [hn, hq, hw, hk, Bool.false_eq_true, if_false, if_true]
    rfl
  | structural hn hq hw hs =>
    simp only [hn, hq, hw, hs, Bool.false_eq_true, if_false]
    rfl
  | symbol hn hq hw hs hf hk =>
    simp only [hn, hq, hw, hs, hf, hk, Bool.false_eq_true, if_false]
    rfl

theorem readToken_eq_ok :
    readToken registry registry.symbols before position first rest = .ok (kind, count) ↔
      HeadToken registry before first rest kind count :=
  ⟨headToken_of_readToken, fun h => h.readToken_eq position⟩

/-! ### What stands before -/

theorem operatorKind_congr (h : expectsOperand before = expectsOperand other) (symbol : String) :
    operatorKind registry before symbol = operatorKind registry other symbol := by
  simp only [operatorKind, h]

theorem wordKind_congr (h : expectsOperand before = expectsOperand other) (word : String) (behind : List Char) :
    wordKind registry registry.symbols before word behind = wordKind registry registry.symbols other word behind := by
  simp only [wordKind, operatorKind_congr h]

theorem HeadToken.congr (h : HeadToken registry before first rest kind count)
    (he : expectsOperand before = expectsOperand other) : HeadToken registry other first rest kind count := by
  cases h with
  | numeral hn hp hv => exact .numeral hn hp hv
  | string hn hq hc => exact .string hn hq hc
  | word hn hq hw hk => exact .word hn hq hw ((wordKind_congr he _ _).symm.trans hk)
  | structural hn hq hw hs => exact .structural hn hq hw hs
  | symbol hn hq hw hs hf hk => exact .symbol hn hq hw hs hf ((operatorKind_congr he _).symm.trans hk)

/-! ### What stands behind -/

/-- Only a string may go on in the text behind. -/
theorem Delimits.readToken_append (h : Delimits tail) (hq : Literal.quoteOf? first = none) :
    readToken registry registry.symbols before position first (rest ++ tail) =
      readToken registry registry.symbols before position first rest := by
  have hle : ((first :: rest).takeWhile isWordChar).length ≤ (first :: rest).length :=
    (List.takeWhile_prefix isWordChar).length_le
  simp only [readToken, hq, ← List.cons_append, h.readNumeral_append, takeWhile_append h.isWordChar_eq_false,
    List.drop_append_of_le_length hle, h.wordKind_append registry before, h.find?_append]

theorem eq_char_of_quoteOf? {quote : Quote} (h : Literal.quoteOf? first = some quote) : first = quote.char := by
  unfold Literal.quoteOf? at h
  split at h
  · rename_i hs
    cases h
    exact hs
  · split at h
    · rename_i hd
      cases h
      exact hd
    · cases h

theorem isNumeralStart_of_quote {quote : Quote} (h : Literal.quoteOf? first = some quote) :
    (isDigit first || first == '.') = false := by
  rw [eq_char_of_quoteOf? h]
  cases quote <;> rfl

/-- A token at the head of a text is one at the head of a longer text. -/
theorem HeadToken.append (h : HeadToken registry before first rest kind count) (ht : Delimits tail) :
    HeadToken registry before first (rest ++ tail) kind count := by
  cases hq : Literal.quoteOf? first with
  | none =>
    have hread := h.readToken_eq 0
    rw [← ht.readToken_append hq] at hread
    exact headToken_of_readToken hread
  | some quote =>
    cases h with
    | numeral hn =>
      rw [isNumeralStart_of_quote hq] at hn
      cases hn
    | string hn hq hc => exact .string hn hq (Literal.unquoted?_append hc tail)
    | word hn hq' | structural hn hq' | symbol hn hq' =>
      rw [hq] at hq'
      cases hq'

/-- A token takes one character at least, and no more than there are. -/
theorem HeadToken.count_le (h : HeadToken registry before first rest kind count) :
    0 < count ∧ count ≤ rest.length + 1 := by
  cases h with
  | numeral hn hp hv =>
    refine ⟨List.length_pos_iff.2 fun he => ?_, (Literal.numeral_isPrefix (first :: rest)).length_le⟩
    rw [he, Numeral.toFloat?_nil] at hv
    cases hv
  | string hn hq hc => exact ⟨Nat.succ_pos _, Nat.succ_le_succ (Literal.unquoted?_count hc)⟩
  | word hn hq hw hk =>
    refine ⟨?_, (List.takeWhile_prefix isWordChar).length_le⟩
    rw [List.takeWhile_cons_of_pos (isWordChar_of_isWordStart hw)]
    exact Nat.succ_pos _
  | structural => exact ⟨Nat.one_pos, Nat.succ_pos _⟩
  | symbol hn hq hw hs hf hk =>
    have hprefix := List.find?_some hf
    rw [List.isPrefixOf_iff_prefix] at hprefix
    obtain ⟨fixity, op, -, rfl⟩ := Registry.mem_symbols.1 (List.mem_of_find?_eq_some hf)
    rw [← String.length_toList]
    exact ⟨List.length_pos_iff.2 (isSymbol_iff.1 op.admissible).1, hprefix.length_le⟩

/-! ### Operators and functions -/

theorem operatorKind_eq_ok {symbol : String} :
    operatorKind registry before symbol = .ok kind ↔
      ∃ op, registry.resolveOperator (if expectsOperand before then .unary else .binary) symbol = .ok op ∧
        kind = .operator symbol op.fixity.arity := by
  unfold operatorKind
  constructor
  · intro h
    obtain ⟨op, ho, h⟩ := exists_of_bind_eq_ok h
    cases h
    exact ⟨op, ho, rfl⟩
  · rintro ⟨op, ho, rfl⟩
    simp only [ho]
    rfl

/-- An operator takes the characters of its symbol, and it is the one that belongs where it stands. -/
theorem HeadToken.operator {symbol : String} {arity : Int}
    (h : HeadToken registry before first rest (.operator symbol arity) count) :
    Literal.quoteOf? first = none ∧ count = symbol.length ∧
      operatorKind registry before symbol = .ok (.operator symbol arity) := by
  cases h with
  | word hn hq hw hk =>
    unfold wordKind at hk
    split at hk
    · obtain ⟨function, -, hk⟩ := exists_of_bind_eq_ok hk
      cases hk
    · split at hk
      · obtain ⟨op, -, he⟩ := operatorKind_eq_ok.1 hk
        obtain ⟨rfl, -⟩ := Token.Kind.operator.inj he
        exact ⟨hq, String.length_ofList.symm, hk⟩
      · cases hk
  | structural hn hq hw hs =>
    unfold structural? at hs
    split at hs <;> cases hs
  | symbol hn hq hw hs hf hk =>
    obtain ⟨op, -, he⟩ := operatorKind_eq_ok.1 hk
    obtain ⟨rfl, -⟩ := Token.Kind.operator.inj he
    exact ⟨hq, rfl, hk⟩

/-- A function is registered, and an opening bracket stands right behind it. -/
theorem HeadToken.function {name : String} (h : HeadToken registry before first rest (.function name) count) :
    (∃ function, registry.functions.find? name = some function) ∧ (rest.drop (count - 1)).head? = some '(' := by
  cases h with
  | word hn hq hw hk =>
    unfold wordKind at hk
    split at hk
    · rename_i hb
      obtain ⟨function, hf, hk⟩ := exists_of_bind_eq_ok hk
      cases hk
      refine ⟨⟨function, Registry.resolveFunction_eq_ok.1 hf⟩, ?_⟩
      rw [List.takeWhile_cons_of_pos (isWordChar_of_isWordStart hw)] at hb ⊢
      exact hb
    · split at hk
      · obtain ⟨op, -, he⟩ := operatorKind_eq_ok.1 hk
        cases he
      · cases hk
  | structural hn hq hw hs =>
    unfold structural? at hs
    split at hs <;> cases hs
  | symbol hn hq hw hs hf hk =>
    obtain ⟨op, -, he⟩ := operatorKind_eq_ok.1 hk
    cases he

/-- A variable is a word. -/
theorem HeadToken.var {name : String} (h : HeadToken registry before first rest (.var name) count) :
    isWord name.toList = true := by
  cases h with
  | word hn hq hw hk =>
    unfold wordKind at hk
    split at hk
    · obtain ⟨function, -, hk⟩ := exists_of_bind_eq_ok hk
      cases hk
    · split at hk
      · obtain ⟨op, -, he⟩ := operatorKind_eq_ok.1 hk
        cases he
      · cases hk
        rw [String.toList_ofList, List.takeWhile_cons_of_pos (isWordChar_of_isWordStart hw), isWord, hw]
        exact List.all_takeWhile
  | structural hn hq hw hs =>
    unfold structural? at hs
    split at hs <;> cases hs
  | symbol hn hq hw hs hf hk =>
    obtain ⟨op, -, he⟩ := operatorKind_eq_ok.1 hk
    cases he

/-! ## Texts that are read -/

/-- Induction over a text that is read: at its end, before a blank and before a token. -/
theorem readFrom_induct {P : Option Token.Kind → Nat → List Char → List Token → Prop}
    (hnil : ∀ before position, P before position [] [])
    (hblank : ∀ {before position first rest tokens}, isBlank first = true → P before (position + 1) rest tokens →
      P before position (first :: rest) tokens)
    (htoken : ∀ {before position first rest kind count tokens}, isBlank first = false →
      HeadToken registry before first rest kind count →
      readFrom registry registry.symbols (some kind) (position + count) (rest.drop (count - 1)) = .ok tokens →
      P (some kind) (position + count) (rest.drop (count - 1)) tokens →
      P before position (first :: rest) (⟨kind, some (position : Int)⟩ :: tokens))
    {text : List Char} {tokens : List Token}
    (h : readFrom registry registry.symbols before position text = .ok tokens) : P before position text tokens := by
  fun_induction readFrom registry registry.symbols before position text generalizing tokens with
  | case1 =>
    cases h
    exact hnil _ _
  | case2 before position first rest hb ih => exact hblank hb (ih h)
  | case3 => cases h
  | case4 => cases h
  | case5 before position first rest hb kind count hread others hrest ih =>
    cases h
    have hhead : HeadToken registry before first rest kind count := readToken_eq_ok.1 hread
    have hposition : position + 1 + (count - 1) = position + count := by
      have hpos := hhead.count_le.1
      omega
    rw [hposition] at hrest ih
    exact htoken (by simpa using hb) hhead hrest (ih hrest)

/-- Where no blank stands at the head of a text that is read, a token does. -/
theorem exists_headToken {tokens : List Token} (hb : isBlank first = false)
    (h : readFrom registry registry.symbols before position (first :: rest) = .ok tokens) :
    ∃ kind count others, HeadToken registry before first rest kind count ∧
      tokens = ⟨kind, some (position : Int)⟩ :: others := by
  rw [readFrom, if_neg (by simp [hb])] at h
  split at h
  · cases h
  · rename_i kind count hread
    split at h
    · cases h
    · cases h
      exact ⟨kind, count, _, readToken_eq_ok.1 hread, rfl⟩

end

end Formula.Infix
