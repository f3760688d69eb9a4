import Formula.Proofs.Layout

/-!
# What words and symbols are

Of every token of a text that is read, the tokens before it and the text from its offset on tell what it is
(`IsClassified`). An operator is taken to stand before its operand or between two by the token before it. A word goes as
far as it can, and the character behind it and the symbols of the registry decide whether it is a function, an operator
or a variable. Any other operator has the longest symbol that fits.
-/

namespace Formula.Infix

open Text

/-! ## Operators -/

/-- At the start, and behind an operator, an opening bracket or a separator. -/
def AtOperand (front : List Token) : Prop :=
  front = [] ∨ ∃ previous ∈ front.getLast?, previous.kind.category ∈ [.operator, .openBracket, .separator]

theorem expectsOperand_lastKind? (front : List Token) : expectsOperand (lastKind? front) = true ↔ AtOperand front := by
  unfold AtOperand lastKind?
  cases hlast : front.getLast? with
  | none => simp [List.getLast?_eq_none_iff.1 hlast, expectsOperand]
  | some previous =>
    have hne : front ≠ [] := by
      rintro rfl
      cases hlast
    cases hk : previous.kind <;> simp [hne, hk, expectsOperand, Token.Kind.category]

/-- The arity is that of an operator of the registry, and it goes by what stands before. -/
structure OperatorFits (registry : Registry) (front : List Token) (symbol : String) (arity : Int) : Prop where
  one : AtOperand front → arity = 1
  two : ¬ AtOperand front → arity = 2
  registered : ∃ fixity op, fixity.arity = arity ∧ (registry.operators fixity).find? symbol = some op

section

variable {registry : Registry} {before : Option Token.Kind} {front : List Token} {count : Nat} {first : Char}
  {rest behind : List Char} {kind : Token.Kind} {symbol : String} {arity : Int}

theorem operatorFits (h : operatorKind registry (lastKind? front) symbol = .ok (.operator symbol arity)) :
    OperatorFits registry front symbol arity := by
  obtain ⟨op, hop, hkind⟩ := operatorKind_eq_ok.1 h
  obtain ⟨-, rfl⟩ := Token.Kind.operator.inj hkind
  have hfixity := (Registry.resolveOperator_ok hop).2
  have hfind := Registry.resolveOperator_eq_ok.1 hop
  rw [← hfixity] at hfind
  constructor
  · intro hat
    rw [(expectsOperand_lastKind? front).2 hat, if_pos rfl] at hfixity
    rw [hfixity]
    rfl
  · intro hat
    rw [← expectsOperand_lastKind?] at hat
    rw [if_neg hat] at hfixity
    rw [hfixity]
    rfl
  · exact ⟨op.fixity, op, rfl, hfind⟩

/-! ## Words -/

/-- What a word is: a function right before an opening bracket, and else an operator if it is a symbol. -/
inductive WordIs (registry : Registry) (word : String) (behind : List Char) : Token.Kind → Prop
  | function {function : Function} (hb : behind.head? = some '(')
      (hf : registry.functions.find? word = some function) : WordIs registry word behind (.function word)
  | operator {arity : Int} (hb : behind.head? ≠ some '(') (hs : registry.HasSymbol word) :
      WordIs registry word behind (.operator word arity)
  | var (hb : behind.head? ≠ some '(') (hs : ¬ registry.HasSymbol word) : WordIs registry word behind (.var word)

theorem wordIs_of_wordKind {word : String} (h : wordKind registry registry.symbols before word behind = .ok kind) :
    WordIs registry word behind kind := by
  unfold wordKind at h
  split at h
  · rename_i hb
    obtain ⟨function, hf, h⟩ := exists_of_bind_eq_ok h
    cases h
    exact .function hb (Registry.resolveFunction_eq_ok.1 hf)
  · rename_i hb
    split at h
    · rename_i hs
      rw [List.contains_iff_mem, Registry.mem_symbols_iff] at hs
      obtain ⟨op, -, rfl⟩ := operatorKind_eq_ok.1 h
      exact .operator hb hs
    · rename_i hs
      rw [List.contains_iff_mem, Registry.mem_symbols_iff] at hs
      cases h
      exact .var hb hs

theorem drop_length_takeWhile (p : Char → Bool) (text : List Char) :
    text.drop (text.takeWhile p).length = text.dropWhile p := by
  have hcut : text.takeWhile p ++ text.drop (text.takeWhile p).length = text :=
    List.prefix_iff_eq_append.1 (List.takeWhile_prefix p)
  have hsame : text.takeWhile p ++ text.dropWhile p = text := List.takeWhile_append_dropWhile
  exact List.append_cancel_left (hcut.trans hsame.symm)

/-- Where a word may start, one does. -/
theorem HeadToken.wordIs (h : HeadToken registry before first rest kind count) (hw : isWordStart first = true) :
    WordIs registry (String.ofList ((first :: rest).takeWhile isWordChar)) ((first :: rest).dropWhile isWordChar)
      kind := by
  cases h with
  | numeral hn =>
    rw [isDigit_eq_false_of_isWordStart hw, Bool.false_or, beq_iff_eq] at hn
    subst hn
    cases hw
  | @string quote content taken hn hq =>
    rw [eq_char_of_quoteOf? hq] at hw
    cases quote <;> cases hw
  | word hn hq hw' hk =>
    have hbehind := wordIs_of_wordKind hk
    rwa [drop_length_takeWhile] at hbehind
  | structural hn hq hw' => cases hw'.symm.trans hw
  | symbol hn hq hw' => cases hw'.symm.trans hw

/-! ## Symbols -/

theorem HeadToken.isLongest (h : HeadToken registry before first rest (.operator symbol arity) count)
    (hw : isWordStart first = false) : IsLongest registry.symbolTexts (first :: rest) symbol.toList := by
  cases h with
  | word hn hq hw' => cases hw'.symm.trans hw
  | structural hn hq hw' hs =>
    unfold structural? at hs
    split at hs <;> cases hs
  | symbol hn hq hw' hs hf hk =>
    obtain ⟨op, -, hkind⟩ := operatorKind_eq_ok.1 hk
    obtain ⟨rfl, -⟩ := Token.Kind.operator.inj hkind
    exact Registry.find?_symbols_eq_some.1 hf

/-! ## Tokens of a text -/

/-- What is known of a token from the tokens before it and the text from its offset on. -/
structure IsClassified (registry : Registry) (front : List Token) (text : List Char) (kind : Token.Kind) : Prop where
  operator : ∀ symbol arity, kind = .operator symbol arity → OperatorFits registry front symbol arity
  word : ∀ first ∈ text.head?, isWordStart first = true →
    WordIs registry (String.ofList (text.takeWhile isWordChar)) (text.dropWhile isWordChar) kind
  symbol : ∀ first ∈ text.head?, isWordStart first = false → ∀ symbol arity, kind = .operator symbol arity →
    IsLongest registry.symbolTexts text symbol.toList

theorem HeadToken.isClassified (h : HeadToken registry (lastKind? front) first rest kind count) :
    IsClassified registry front (first :: rest) kind := by
  constructor
  · rintro symbol arity rfl
    exact operatorFits h.operator.2.2
  · intro c hc hw
    obtain rfl : first = c := by simpa using hc
    exact h.wordIs hw
  · rintro c hc hw symbol arity rfl
    obtain rfl : first = c := by simpa using hc
    exact h.isLongest hw

/-- **What every token is** goes by the token before it and the text from its offset on. -/
theorem exists_isClassified (registry : Registry) (text : String) (front behind : List Token) (token : Token)
    (h : read registry text = .ok (front ++ token :: behind)) :
    ∃ p : Nat, token.position = some (p : Int) ∧ p < text.length ∧
      IsClassified registry front (text.toList.drop p) token.kind := by
  obtain ⟨pieces, trail, -, htext, htokens, hlaid⟩ := exists_laid h
  obtain ⟨early, piece, late, rfl, rfl, -, ⟨first, others, hlexeme, -, hhead⟩, -⟩ := hlaid.exists_spells htokens.symm
  rw [Option.or_none] at hhead
  have hsplit : text.toList = (spread early ++ piece.gap) ++ first :: (others ++ (spread late ++ trail)) := by
    rw [htext, spread_append, spread_cons, hlexeme]
    simp only [List.append_assoc, List.cons_append]
  have hlength : 0 + (spread early).length + piece.gap.length = (spread early ++ piece.gap).length := by
    rw [List.length_append, Nat.zero_add]
  refine ⟨(spread early ++ piece.gap).length, by rw [← hlength], ?_, ?_⟩
  · rw [← String.length_toList, hsplit]
    simp
  · rw [hsplit, List.drop_left]
    exact hhead.isClassified

/-- The standard registry with a symbol that is a word and one that begins with another symbol. -/
def worded : Registry :=
  ((Registry.standard .shipped true).addOperator ⟨"mod", .binary, 2, .left, .mul, by decide⟩).addOperator
    ⟨"**", .binary, 3, .right, .power, by decide⟩

theorem exists_isClassified_power :
    let front : List Token :=
      [⟨.var "x", some 0⟩, ⟨.operator "mod" 2, some 2⟩, ⟨.operator "-" 1, some 6⟩, ⟨.var "z", some 7⟩]
    let token : Token := ⟨.operator "**" 2, some 8⟩
    read worded "x mod -z**y" = .ok (front ++ token :: [⟨.var "y", some 10⟩]) ∧
      ∃ p : Nat, token.position = some (p : Int) ∧ p < "x mod -z**y".length ∧
        IsClassified worded front ("x mod -z**y".toList.drop p) token.kind := by
  intro front token
  have hread : read worded "x mod -z**y" = .ok (front ++ token :: [⟨.var "y", some 10⟩]) :=
    eq_ok_of_toOption (by decide +kernel)
  exact ⟨hread, exists_isClassified worded _ front _ token hread⟩

end

end Formula.Infix
