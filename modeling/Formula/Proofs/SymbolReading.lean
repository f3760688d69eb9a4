import Formula.Proofs.Layout
import Formula.Proofs.Placement

/-!
# Symbols that can be written

An operator may be registered under any symbol without blanks, brackets and commas, but texts are read from their first
character on, and so a symbol that starts like a numeral, like a string or like a longer word is never found
(`IsWritable`, `HeadToken.isWritable`). Every other symbol is found wherever an operator of its fixity may stand, if the
token ends behind it, whatever other symbols are registered (`readsAs_symbol`). The name of a function right before an
opening bracket is found in any case, and what is inside the bracket is read as it is read alone (`read_call_iff`).
-/

namespace Formula.Infix

open Formula.Text

/-- The symbol starts no numeral and no string, and it is a word if it starts one. -/
def IsWritable (symbol : String) : Prop :=
  ∀ first ∈ symbol.toList.head?, isDigit first = false ∧ first ≠ '.' ∧ first ≠ Quote.single.char ∧
    first ≠ Quote.double.char ∧ (isWordStart first = true → symbol.toList.all isWordChar = true)

variable {registry : Registry} {before other : Option Token.Kind} {position count : Nat} {first : Char}
  {rest tail text : List Char} {kind : Token.Kind} {tokens : List Token} {symbol : String} {fixity : Fixity}
  {op : Operator}

/-! ## Symbols that are read -/

theorem quoteOf?_eq_none {c : Char} :
    Literal.quoteOf? c = none ↔ c ≠ Quote.single.char ∧ c ≠ Quote.double.char := by
  unfold Literal.quoteOf?
  split
  · simp_all
  · split <;> simp_all

/-- Whatever symbol is read can be written. -/
theorem HeadToken.isWritable {arity : Int} (h : HeadToken registry before first rest (.operator symbol arity) count) :
    IsWritable symbol := by
  have hlexeme : (first :: rest).take count = symbol.toList := h.isLexeme.eq_name rfl
  intro c hc
  obtain rfl : first = c := by
    obtain ⟨others, hs⟩ := List.head?_eq_some_iff.1 hc
    have hprefix : c :: others <+: first :: rest := hs ▸ hlexeme ▸ List.take_prefix count (first :: rest)
    exact (List.cons_prefix_cons.1 hprefix).1.symm
  have hclass : (isDigit first || first == '.') = false ∧ Literal.quoteOf? first = none ∧
      (isWordStart first = true → symbol.toList.all isWordChar = true) := by
    cases h with
    | word hn hq hw hk =>
      obtain rfl : symbol = _ := (wordKind_name hk).2
      exact ⟨hn, hq, fun _ => by simp⟩
    | structural hn hq hw hs => exact ⟨hn, hq, fun hstart => absurd hstart (by simp [hw])⟩
    | symbol hn hq hw hs hf hk => exact ⟨hn, hq, fun hstart => absurd hstart (by simp [hw])⟩
  obtain ⟨hn, hq, hw⟩ := hclass
  rw [Bool.or_eq_false_iff, beq_eq_false_iff_ne] at hn
  obtain ⟨hsingle, hdouble⟩ := quoteOf?_eq_none.1 hq
  exact ⟨hn.1, hn.2, hsingle, hdouble, hw⟩

theorem isWritable_of_readFrom {arity : Int}
    (h : readFrom registry registry.symbols before position text = .ok tokens) :
    ∀ token ∈ tokens, token.kind = .operator symbol arity → IsWritable symbol := by
  refine readFrom_induct (P := fun _ _ _ tokens => ∀ token ∈ tokens, token.kind = .operator symbol arity →
    IsWritable symbol) ?_ ?_ ?_ h
  · intro before position token ht
    cases ht
  · intro before position first rest tokens hb ih
    exact ih
  · intro before position first rest kind count tokens hb hhead hrest ih
    refine List.forall_mem_cons.2 ⟨?_, ih⟩
    rintro rfl
    exact hhead.isWritable

/-! ## Symbols that can be written -/

/-- No longer symbol reaches behind the end of a token. -/
theorem isLongest_symbol (h : (registry.operators fixity).find? symbol = some op) (ht : Delimits tail) :
    IsLongest registry.symbolTexts (symbol.toList ++ tail) symbol.toList := by
  have hm : symbol ∈ registry.symbols := Registry.mem_symbols_iff.2 ⟨fixity, op, h⟩
  refine ⟨List.prefix_append _ _, Registry.toList_mem_symbolTexts.2 hm, fun other ho hp => ?_⟩
  have hother : String.ofList other ∈ registry.symbols := Registry.mem_symbols_iff.2 ho
  have hfits := ht.isPrefixOf_append hother symbol.toList
  rw [String.toList_ofList, List.isPrefixOf_iff_prefix.2 hp] at hfits
  exact (List.isPrefixOf_iff_prefix.1 hfits.symm).length_le

/-- **A symbol that can be written is read** wherever an operator of its fixity may stand. -/
theorem readsAs_symbol (h : (registry.operators fixity).find? symbol = some op) (hw : IsWritable symbol)
    (hb : expectsOperand before = decide (fixity = .unary)) (position : Nat) (ht : Delimits tail) :
    ReadsAs registry before position symbol.toList tail [⟨.operator symbol fixity.arity, some (position : Int)⟩]
      (some (.operator symbol fixity.arity)) := by
  obtain ⟨hsymbol, hfixity⟩ := Registry.resolveOperator_ok (Registry.resolveOperator_eq_ok.2 h)
  have hkind : operatorKind registry before symbol = .ok (.operator symbol fixity.arity) := by
    have hexpected : (if expectsOperand before then Fixity.unary else .binary) = fixity := by
      rw [hb]
      cases fixity <;> rfl
    rw [← hfixity]
    refine operatorKind_eq_ok.2 ⟨op, ?_, rfl⟩
    rw [hexpected]
    exact Registry.resolveOperator_eq_ok.2 h
  have hadmissible := isSymbol_iff.1 op.admissible
  rw [hsymbol] at hadmissible
  obtain ⟨first, others, hs⟩ := List.exists_cons_of_ne_nil hadmissible.1
  obtain ⟨hdigit, hpoint, hsingle, hdouble, hall⟩ := hw first (by rw [hs]; rfl)
  by_cases hstart : isWordStart first = true
  · have hword : isWord symbol.toList = true := by
      have hchars := hall hstart
      rw [hs, List.all_cons, Bool.and_eq_true] at hchars
      rw [hs, isWord, hstart, hchars.2]
      rfl
    refine readsAs_word hword ht.isWordChar_eq_false ?_
    have hbracket : tail.head? ≠ some '(' := fun he => ht.ne (by decide) (by decide) (by decide) _ he rfl
    have hm : registry.symbols.contains symbol = true :=
      List.contains_iff_mem.2 (Registry.mem_symbols_iff.2 ⟨fixity, op, h⟩)
    rw [wordKind, if_neg hbracket, if_pos hm, hkind]
  · obtain ⟨hblank, hopening, hclosing, hseparator⟩ := hadmissible.2 first (by rw [hs]; exact List.mem_cons_self)
    have hstructural : structural? first = none := by
      unfold structural?
      split <;> first | contradiction | rfl
    have hlongest := isLongest_symbol h ht
    rw [hs, List.cons_append, ← hs] at hlongest
    have hhead : HeadToken registry before first (others ++ tail) (.operator symbol fixity.arity) symbol.length :=
      .symbol (by simp [hdigit, hpoint]) (quoteOf?_eq_none.2 ⟨hsingle, hdouble⟩) (by simpa using hstart) hstructural
        (Registry.find?_symbols_eq_some.2 hlongest) hkind
    have hlength : symbol.length = others.length + 1 := by rw [← String.length_toList, hs, List.length_cons]
    rw [hs]
    exact readsAs_of_readToken hblank (hlength ▸ hhead.readToken_eq position)

/-- A short numeral. -/
def one : Numeral.Form := ⟨['1'], none, none, rfl, rfl, by simp⟩

/-- A symbol that can be written is read behind anything that expects it, with a blank and a numeral behind it. -/
theorem readsAs_before (h : (registry.operators fixity).find? symbol = some op) (hw : IsWritable symbol)
    (hb : expectsOperand before = decide (fixity = .unary)) (position : Nat) :
    ∃ tokens last, ReadsAs registry before position (symbol.toList ++ [' '] ++ one.text) [] tokens last ∧
      tokens.map Token.kind = [.operator symbol fixity.arity, .number one.value] := by
  have ht : Delimits ([' '] ++ (one.text ++ [])) := delimits_blank rfl
  have hsymbol := readsAs_symbol h hw hb position ht
  have hall : [' '].all isBlank = true := rfl
  have hblank := readsAs_blanks registry (some (.operator symbol fixity.arity)) (position + symbol.toList.length) hall
    (one.text ++ [])
  exact ⟨_, _, (hsymbol.append hblank).append (readsAs_numeral one ends_nil), rfl⟩

theorem read_between (h : (registry.operators .binary).find? symbol = some op) (hw : IsWritable symbol) :
    (read registry ("1 " ++ symbol ++ " 1")).map (List.map Token.kind) =
      .ok [.number one.value, .operator symbol 2, .number one.value] := by
  have hfixity : expectsOperand (some (.number one.value)) = decide (Fixity.binary = .unary) := rfl
  obtain ⟨tokens, last, hread, hkinds⟩ := readsAs_before h hw hfixity (0 + (one.text ++ [' ']).length)
  have hends : Ends ([' '] ++ (symbol.toList ++ [' '] ++ one.text ++ [])) := ends_blank rfl
  have hone : ReadsAs registry none 0 one.text _ [⟨.number one.value, some 0⟩] (some (.number one.value)) :=
    readsAs_numeral one hends
  have hbehind : [' '].all isBlank = true := rfl
  have hblank := readsAs_blanks registry (some (.number one.value)) (0 + one.text.length) hbehind
    (symbol.toList ++ [' '] ++ one.text ++ [])
  have hall := (hone.append hblank).append hread
  have htext : one.text ++ [' '] ++ (symbol.toList ++ [' '] ++ one.text) = ("1 " ++ symbol ++ " 1").toList := by
    simp [one, Numeral.Form.text, Numeral.Form.fractionText, Numeral.Form.exponentText]
  rw [htext] at hall
  rw [hall.read_eq, Except.map, List.map_append, hkinds]
  rfl

theorem read_before (h : (registry.operators .unary).find? symbol = some op) (hw : IsWritable symbol) :
    (read registry (symbol ++ " 1")).map (List.map Token.kind) =
      .ok [.operator symbol 1, .number one.value] := by
  have hfixity : expectsOperand none = decide (Fixity.unary = .unary) := rfl
  obtain ⟨tokens, last, hread, hkinds⟩ := readsAs_before h hw hfixity 0
  have htext : symbol.toList ++ [' '] ++ one.text = (symbol ++ " 1").toList := by
    simp [one, Numeral.Form.text, Numeral.Form.fractionText, Numeral.Form.exponentText]
  rw [htext] at hread
  rw [hread.read_eq, Except.map, hkinds]
  rfl

/-! ## Names of functions -/

theorem tokensFrom_shift (position offset : Nat) (pieces : List Piece) :
    tokensFrom (position + offset) pieces = (tokensFrom position pieces).map (Token.shift offset) := by
  induction pieces generalizing position with
  | nil => rfl
  | cons piece pieces ih =>
    have hgap : position + offset + piece.gap.length = position + piece.gap.length + offset := by omega
    have hnext : position + offset + piece.gap.length + piece.lexeme.length =
        position + piece.gap.length + piece.lexeme.length + offset := by omega
    rw [tokensFrom, tokensFrom, List.map_cons, ← ih, hnext, hgap]
    rfl

theorem Laid.congr {trail : List Char} {pieces : List Piece} (h : Laid registry trail before pieces)
    (he : expectsOperand before = expectsOperand other) : Laid registry trail other pieces := by
  cases pieces with
  | nil => trivial
  | cons piece pieces =>
    obtain ⟨⟨first, others, hlexeme, hb, hhead⟩, hrest⟩ := h
    exact ⟨⟨first, others, hlexeme, hb, hhead.congr he⟩, hrest⟩

/-- Only the offsets of the tokens change when a text is read at another offset. -/
theorem readFrom_shift (he : expectsOperand before = expectsOperand other) (offset : Nat) :
    readFrom registry registry.symbols other (position + offset) text = .ok tokens ↔
      ∃ inner, readFrom registry registry.symbols before position text = .ok inner ∧
        tokens = inner.map (Token.shift offset) := by
  constructor
  · intro h
    obtain ⟨pieces, trail, ht, rfl, rfl, hlaid⟩ := exists_laid h
    exact ⟨_, (hlaid.congr he.symm).readFrom_eq ht position, tokensFrom_shift position offset pieces⟩
  · rintro ⟨inner, h, rfl⟩
    obtain ⟨pieces, trail, ht, rfl, rfl, hlaid⟩ := exists_laid h
    rw [← tokensFrom_shift]
    exact (hlaid.congr he).readFrom_eq ht (position + offset)

/-- **A registered name right before an opening bracket is a function**, and what stands behind the bracket is read as
it is read alone. -/
theorem read_call_iff {name rest : String} {function : Function} (h : registry.functions.find? name = some function) :
    read registry (name ++ "(" ++ rest) = .ok tokens ↔
      ∃ inner, read registry rest = .ok inner ∧
        tokens = ⟨.function name, some 0⟩ :: ⟨.openBracket, some (name.length : Int)⟩ ::
          inner.map (Token.shift (name.length + 1)) := by
  obtain rfl : function.name = name := Table.key_of_find? h
  have hname := readsAs_function none 0 h rest.toList
  have hbracket : ReadsAs registry (some (.function function.name)) (0 + function.name.toList.length) ['('] rest.toList
      [⟨.openBracket, _⟩] (some .openBracket) :=
    readsAs_structural rfl rest.toList
  have hcall := hname.append hbracket
  have htext : (function.name ++ "(" ++ rest).toList = function.name.toList ++ ['('] ++ rest.toList := by simp
  rw [ReadsAs, ← htext] at hcall
  rw [read, hcall, prepend_eq_ok, List.length_append, String.length_toList]
  have hopen : expectsOperand none = expectsOperand (some .openBracket) := rfl
  simp only [List.length_singleton, readFrom_shift hopen]
  constructor
  · rintro ⟨-, ⟨inner, hinner, rfl⟩, rfl⟩
    exact ⟨inner, hinner, by simp⟩
  · rintro ⟨inner, hinner, rfl⟩
    exact ⟨_, ⟨inner, hinner, rfl⟩, by simp⟩

/-! ## Operators and functions of a registry -/

/-- A symbol that is read among others can be written. -/
theorem isWritable_of_read {text : String} {kinds : List Token.Kind} {arity : Int}
    (h : (read registry text).map (List.map Token.kind) = .ok kinds) (hm : .operator symbol arity ∈ kinds) :
    IsWritable symbol := by
  cases hread : read registry text with
  | error fault =>
    rw [hread] at h
    cases h
  | ok tokens =>
    rw [hread] at h
    obtain rfl : tokens.map Token.kind = kinds := Except.ok.inj h
    obtain ⟨token, ht, hkind⟩ := List.mem_map.1 hm
    exact isWritable_of_readFrom hread token ht hkind

/-- **Which symbols can be written.** An operator of a registry is read between two numerals, or before one if it has
one operand, just if its symbol starts no numeral and no string and is a word if it starts one; otherwise no text has
it. The name of a function with an opening bracket right behind it is read in any case, and what follows is read as if
it stood alone. -/
theorem isWritable_iff_read (registry : Registry) :
    (∀ symbol op, (registry.operators .binary).find? symbol = some op →
      ((∃ x y, (read registry ("1 " ++ symbol ++ " 1")).map (List.map Token.kind) =
        .ok [.number x, .operator symbol 2, .number y]) ↔ IsWritable symbol)) ∧
    (∀ symbol op, (registry.operators .unary).find? symbol = some op →
      ((∃ x, (read registry (symbol ++ " 1")).map (List.map Token.kind) = .ok [.operator symbol 1, .number x]) ↔
        IsWritable symbol)) ∧
    (∀ symbol, ¬ IsWritable symbol → ∀ text tokens, read registry text = .ok tokens →
      ∀ token ∈ tokens, ∀ arity, token.kind ≠ .operator symbol arity) ∧
    ∀ name function, registry.functions.find? name = some function → ∀ rest tokens,
      (read registry (name ++ "(" ++ rest) = .ok tokens ↔
        ∃ inner, read registry rest = .ok inner ∧
          tokens = ⟨.function name, some 0⟩ :: ⟨.openBracket, some (name.length : Int)⟩ ::
            inner.map (Token.shift (name.length + 1))) := by
  refine ⟨fun symbol op h => ⟨?_, fun hw => ⟨_, _, read_between h hw⟩⟩,
    fun symbol op h => ⟨?_, fun hw => ⟨_, read_before h hw⟩⟩, ?_, fun name function h rest tokens => read_call_iff h⟩
  · rintro ⟨x, y, hread⟩
    have hm : .operator symbol 2 ∈ [Token.Kind.number x, .operator symbol 2, .number y] := by simp
    exact isWritable_of_read hread hm
  · rintro ⟨x, hread⟩
    have hm : .operator symbol 1 ∈ [Token.Kind.operator symbol 1, .number x] := by simp
    exact isWritable_of_read hread hm
  · intro symbol hw text tokens hread token ht arity hkind
    exact hw (isWritable_of_readFrom hread token ht hkind)

/-- The standard registry with a symbol that begins with another one, and with one that begins like a word. -/
def crowded : Registry :=
  ((Registry.standard .shipped true).addOperator ⟨"**", .binary, 3, .right, .power, rfl⟩).addOperator
    ⟨"e+", .binary, 1, .left, .add, rfl⟩

theorem isWritable_iff_read_crowded :
    (∃ x y, (read crowded ("1 " ++ "**" ++ " 1")).map (List.map Token.kind) =
      .ok [.number x, .operator "**" 2, .number y]) ∧
    (¬ ∃ x y, (read crowded ("1 " ++ "e+" ++ " 1")).map (List.map Token.kind) =
      .ok [.number x, .operator "e+" 2, .number y]) ∧
    (∃ x, (read crowded ("-" ++ " 1")).map (List.map Token.kind) = .ok [.operator "-" 1, .number x]) ∧
    (∀ text tokens, read crowded text = .ok tokens → ∀ token ∈ tokens, ∀ arity, token.kind ≠ .operator "e+" arity) ∧
    read crowded ("sin" ++ "(" ++ "e)") =
      .ok [⟨.function "sin", some 0⟩, ⟨.openBracket, some 3⟩, ⟨.var "e", some 4⟩, ⟨.closeBracket, some 5⟩] := by
  obtain ⟨hbinary, hunary, hnever, hcall⟩ := isWritable_iff_read crowded
  have hpower : IsWritable "**" := by
    intro c hc
    obtain rfl : '*' = c := Option.some.inj hc
    exact ⟨by decide, by decide, by decide, by decide, fun h => absurd h (by decide)⟩
  have hminus : IsWritable "-" := by
    intro c hc
    obtain rfl : '-' = c := Option.some.inj hc
    exact ⟨by decide, by decide, by decide, by decide, fun h => absurd h (by decide)⟩
  have hlike : ¬ IsWritable "e+" := by
    intro h
    obtain ⟨-, -, -, -, hall⟩ := h 'e' rfl
    exact absurd (hall (by decide)) (by decide)
  have hinner : read crowded "e)" = .ok [⟨.var "e", some 0⟩, ⟨.closeBracket, some 1⟩] :=
    eq_ok_of_toOption (by decide +kernel)
  exact ⟨(hbinary "**" _ rfl).2 hpower, mt (hbinary "e+" _ rfl).1 hlike, (hunary "-" _ rfl).2 hminus, hnever "e+" hlike,
    (hcall "sin" _ rfl _ _).2 ⟨_, hinner, rfl⟩⟩

end Formula.Infix
