import Formula.Proofs.Adjacency
import Formula.Proofs.LongestMatch
import Formula.Proofs.OpenBrackets

/-!
# Layouts of texts

A text that is read is made of blanks and lexemes in turn and of nothing else (`Layout`): each token has a lexeme, it
stands at the offset of its lexeme, and there may be blanks before every lexeme and behind the last one. A lexeme is the
name of its token, or a numeral or a string that stands for it (`Lexeme`).

The layout is found by induction over the text that is read, together with the way in which each lexeme is read
(`exists_laid`). The other way round, a text whose lexemes are read that way is read as a whole
(`Laid.readFrom_eq`). No text has two layouts with the same tokens (`Layout.eq_of_tokens_eq`).
-/

namespace Formula

/-- A token that is written by its name. -/
def Token.Kind.isNamed : Token.Kind → Bool
  | .number _ | .text _ _ | .other _ _ _ => false
  | _ => true

namespace Infix

open Text

/-! ## Lexemes -/

/-- The text is a writing of a token of the kind. -/
inductive Lexeme : Token.Kind → List Char → Prop
  | numeral {value : Float} {text : List Char} (hn : text ∈ Literal.numerals)
      (hv : Numeral.toFloat? text = some value) : Lexeme (.number value) text
  | string {quote : Quote} {inner content : List Char}
      (hc : Literal.unquoted? quote.char (inner ++ [quote.char]) = some (content, inner.length + 1)) :
      Lexeme (.text quote (String.ofList content)) (quote.char :: (inner ++ [quote.char]))
  | name {kind : Token.Kind} (hk : kind.isNamed = true) (hne : kind.name.toList ≠ []) : Lexeme kind kind.name.toList

section

variable {registry : Registry} {before : Option Token.Kind} {count : Nat} {first : Char}
  {rest text lexeme : List Char} {kind : Token.Kind}

theorem Lexeme.ne_nil (h : Lexeme kind lexeme) : lexeme ≠ [] := by
  cases h with
  | numeral hn hv =>
    rintro rfl
    rw [Numeral.toFloat?_nil] at hv
    cases hv
  | string hc => simp
  | name hk hne => exact hne

theorem Lexeme.eq_name (h : Lexeme kind lexeme) (hk : kind.isNamed = true) : lexeme = kind.name.toList := by
  cases h with
  | numeral | string => cases hk
  | name => rfl

theorem Lexeme.of_name (h : kind.isNamed = true ∧ kind.name = String.ofList text) (hne : text ≠ []) :
    Lexeme kind text := by
  have htext : kind.name.toList = text := by rw [h.2, String.toList_ofList]
  rw [← htext] at hne ⊢
  exact .name h.1 hne

/-- A string ends with the first quote that closes it. -/
theorem exists_of_unquoted? {quote : Quote} {content : List Char}
    (h : Literal.unquoted? quote.char text = some (content, count)) :
    ∃ inner behind, text = inner ++ quote.char :: behind ∧ count = inner.length + 1 ∧
      Literal.unquoted? quote.char (inner ++ [quote.char]) = some (content, count) := by
  obtain ⟨inner, behind, rfl, rfl, hs⟩ := Literal.exists_spelling h
  exact ⟨inner, behind, rfl, rfl, hs.unquoted?_eq []⟩

/-! ### What is read as a token -/

theorem operatorKind_name {symbol : String} (h : operatorKind registry before symbol = .ok kind) :
    kind.isNamed = true ∧ kind.name = symbol := by
  obtain ⟨op, -, rfl⟩ := operatorKind_eq_ok.1 h
  exact ⟨rfl, rfl⟩

theorem wordKind_name {word : String} (h : wordKind registry registry.symbols before word rest = .ok kind) :
    kind.isNamed = true ∧ kind.name = word := by
  unfold wordKind at h
  split at h
  · obtain ⟨function, -, h⟩ := exists_of_bind_eq_ok h
    cases h
    exact ⟨rfl, rfl⟩
  · split at h
    · exact operatorKind_name h
    · cases h
      exact ⟨rfl, rfl⟩

/-- The characters that a token takes are a writing of it. -/
theorem HeadToken.isLexeme (h : HeadToken registry before first rest kind count) :
    Lexeme kind ((first :: rest).take count) := by
  have hne : (first :: rest).take count ≠ [] := by
    have hpos := h.count_le.1
    simp
    omega
  cases h with
  | numeral hn hp hv =>
    rw [← List.prefix_iff_eq_take.1 (Literal.numeral_isPrefix (first :: rest))]
    exact .numeral (Literal.isLongest_numeral _).mem hv
  | @string quote content taken hn hq hc =>
    obtain ⟨inner, behind, rfl, rfl, hinner⟩ := exists_of_unquoted? hc
    obtain rfl : first = quote.char := eq_char_of_quoteOf? hq
    have htake : (quote.char :: (inner ++ quote.char :: behind)).take (inner.length + 1 + 1) =
        quote.char :: (inner ++ [quote.char]) := by
      simp [List.take_append]
    rw [htake]
    exact .string hinner
  | word hn hq hw hk =>
    apply Lexeme.of_name _ hne
    rw [← List.prefix_iff_eq_take.1 (List.takeWhile_prefix isWordChar)]
    exact wordKind_name hk
  | structural hn hq hw hs =>
    unfold structural? at hs
    split at hs <;> cases hs <;> exact .name rfl (by decide)
  | symbol hn hq hw hs hf hk =>
    apply Lexeme.of_name _ hne
    have hlongest := Registry.find?_symbols_eq_some.1 hf
    rw [← String.length_toList, ← List.prefix_iff_eq_take.1 hlongest.isPrefix, String.ofList_toList]
    exact operatorKind_name hk

end

/-! ## Layouts -/

/-- A lexeme and the blanks before it. -/
structure Piece where
  gap : List Char
  kind : Token.Kind
  lexeme : List Char
  isBlank_gap : gap.all isBlank = true
  isLexeme : Lexeme kind lexeme

/-- Pieces one after another, and the blanks behind them. -/
structure Layout where
  pieces : List Piece
  trail : List Char
  isBlank_trail : trail.all isBlank = true

/-- The text of pieces. -/
def spread (pieces : List Piece) : List Char := pieces.flatMap fun piece => piece.gap ++ piece.lexeme

@[simp]
theorem spread_nil : spread [] = [] := rfl

@[simp]
theorem spread_cons (piece : Piece) (pieces : List Piece) :
    spread (piece :: pieces) = piece.gap ++ (piece.lexeme ++ spread pieces) := by
  rw [spread, List.flatMap_cons, List.append_assoc, spread]

theorem spread_append (pieces others : List Piece) : spread (pieces ++ others) = spread pieces ++ spread others :=
  List.flatMap_append

/-- The tokens of pieces that stand from an offset on. Each token stands where its lexeme does. -/
def tokensFrom (position : Nat) : List Piece → List Token
  | [] => []
  | piece :: pieces =>
    ⟨piece.kind, some ((position + piece.gap.length : Nat) : Int)⟩ ::
      tokensFrom (position + piece.gap.length + piece.lexeme.length) pieces

namespace Layout

def text (layout : Layout) : List Char := spread layout.pieces ++ layout.trail

def tokens (layout : Layout) : List Token := tokensFrom 0 layout.pieces

end Layout

/-! ### Layouts that are read -/

/-- Between the token `before` and the text `behind`, the lexeme is read as a token of the kind. -/
def Spells (registry : Registry) (before : Option Token.Kind) (lexeme behind : List Char) (kind : Token.Kind) : Prop :=
  ∃ first others, lexeme = first :: others ∧ isBlank first = false ∧
    HeadToken registry before first (others ++ behind) kind lexeme.length

/-- Behind the token `before`, the pieces are read as their tokens. -/
def Laid (registry : Registry) (trail : List Char) : Option Token.Kind → List Piece → Prop
  | _, [] => True
  | before, piece :: pieces =>
    Spells registry before piece.lexeme (spread pieces ++ trail) piece.kind ∧
      Laid registry trail (some piece.kind) pieces

section

variable {registry : Registry} {before : Option Token.Kind} {position : Nat} {lexeme behind trail : List Char}
  {kind : Token.Kind} {pieces : List Piece}

theorem Spells.readsAs (h : Spells registry before lexeme behind kind) (position : Nat) :
    ReadsAs registry before position lexeme behind [⟨kind, some (position : Int)⟩] (some kind) := by
  obtain ⟨first, others, rfl, hb, hhead⟩ := h
  exact readsAs_of_readToken hb (hhead.readToken_eq position)

/-- A text is read as the tokens of its pieces. -/
theorem Laid.readFrom_eq (ht : trail.all isBlank = true)
    (h : Laid registry trail before pieces) (position : Nat) :
    readFrom registry registry.symbols before position (spread pieces ++ trail) = .ok (tokensFrom position pieces) := by
  induction pieces generalizing before position with
  | nil =>
    have hread := readsAs_blanks registry before position ht []
    rw [ReadsAs, List.append_nil, readFrom, prepend_ok] at hread
    exact hread
  | cons piece pieces ih =>
    have hread := (readsAs_blanks registry before position piece.isBlank_gap _).append (h.1.readsAs _)
    rw [ReadsAs, List.append_assoc, List.length_append, ← Nat.add_assoc, ih h.2] at hread
    rw [spread_cons, List.append_assoc, List.append_assoc, hread]
    rfl

/-- A text that is read has a layout with its tokens. -/
theorem exists_laid {text : List Char} {tokens : List Token}
    (h : readFrom registry registry.symbols before position text = .ok tokens) :
    ∃ pieces trail, trail.all isBlank = true ∧ text = spread pieces ++ trail ∧ tokens = tokensFrom position pieces ∧
      Laid registry trail before pieces := by
  refine readFrom_induct (P := fun before position text tokens =>
    ∃ pieces trail, trail.all isBlank = true ∧ text = spread pieces ++ trail ∧ tokens = tokensFrom position pieces ∧
      Laid registry trail before pieces) ?_ ?_ ?_ h
  · intro before position
    exact ⟨[], [], rfl, rfl, rfl, trivial⟩
  · rintro before position first rest tokens hb ⟨pieces, trail, ht, rfl, rfl, hlaid⟩
    -- The blank belongs to the first piece, if there is one.
    cases pieces with
    | nil => exact ⟨[], first :: trail, by simp [hb, ht], rfl, rfl, trivial⟩
    | cons piece pieces =>
      have hgap : (first :: piece.gap).all isBlank = true := by simp [hb, piece.isBlank_gap]
      refine ⟨⟨first :: piece.gap, piece.kind, piece.lexeme, hgap, piece.isLexeme⟩ :: pieces, trail, ht, ?_, ?_, hlaid⟩
      · simp
      · simp only [tokensFrom, List.length_cons]
        rw [Nat.add_assoc position 1, Nat.add_comm 1]
  · rintro before position first rest kind count tokens hb hhead - ⟨pieces, trail, ht, hrest, rfl, hlaid⟩
    obtain ⟨hpos, hle⟩ := hhead.count_le
    obtain ⟨taken, rfl⟩ : ∃ taken, count = taken + 1 := ⟨count - 1, by omega⟩
    rw [Nat.add_sub_cancel] at hrest
    have hlength : (first :: rest.take taken).length = taken + 1 := by
      rw [List.length_cons, List.length_take_of_le (by omega)]
    refine ⟨⟨[], kind, first :: rest.take taken, by simp, hhead.isLexeme⟩ :: pieces, trail, ht, ?_, ?_, ?_, hlaid⟩
    · simp [← hrest]
    · simp only [tokensFrom, hlength]
      rfl
    · refine ⟨first, rest.take taken, rfl, hb, ?_⟩
      rwa [hlength, ← hrest, List.take_append_drop]

/-! ### Tokens and their pieces -/

/-- The token has an offset, and that is not before the given one. -/
def Reaches (position : Nat) (token : Token) : Prop := ∃ p : Nat, token.position = some (p : Int) ∧ position ≤ p

theorem reaches_tokensFrom (position : Nat) (pieces : List Piece) :
    ∀ token ∈ tokensFrom position pieces, Reaches position token := by
  induction pieces generalizing position with
  | nil => simp [tokensFrom]
  | cons piece pieces ih =>
    intro token hm
    rcases List.mem_cons.1 hm with rfl | hm
    · exact ⟨_, rfl, Nat.le_add_right _ _⟩
    · obtain ⟨p, hp, hle⟩ := ih _ token hm
      exact ⟨p, hp, by omega⟩

/-- The token stands before the other one. -/
def Precedes (token other : Token) : Prop :=
  ∃ p q : Nat, token.position = some (p : Int) ∧ other.position = some (q : Int) ∧ p < q

theorem pairwise_tokensFrom (position : Nat) (pieces : List Piece) :
    (tokensFrom position pieces).Pairwise Precedes := by
  induction pieces generalizing position with
  | nil => exact .nil
  | cons piece pieces ih =>
    refine .cons (fun token hm => ?_) (ih _)
    obtain ⟨q, hq, hle⟩ := reaches_tokensFrom _ pieces token hm
    have hpos : 0 < piece.lexeme.length := List.length_pos_iff.2 piece.isLexeme.ne_nil
    exact ⟨_, q, rfl, hq, by omega⟩

/-- A token among others is that of a piece among others, and it is read behind the token before it. -/
theorem Laid.exists_spells {front behind : List Token} {token : Token} (hlaid : Laid registry trail before pieces)
    (h : tokensFrom position pieces = front ++ token :: behind) :
    ∃ early piece late, pieces = early ++ piece :: late ∧
      token = ⟨piece.kind, some ((position + (spread early).length + piece.gap.length : Nat) : Int)⟩ ∧
      behind = tokensFrom (position + (spread early).length + piece.gap.length + piece.lexeme.length) late ∧
      Spells registry ((lastKind? front).or before) piece.lexeme (spread late ++ trail) piece.kind ∧
      Laid registry trail (some piece.kind) late := by
  induction pieces generalizing position front before with
  | nil => simp [tokensFrom] at h
  | cons piece pieces ih =>
    cases front with
    | nil =>
      obtain ⟨rfl, rfl⟩ := List.cons.inj h
      exact ⟨[], piece, pieces, rfl, rfl, rfl, hlaid⟩
    | cons head front =>
      obtain ⟨rfl, hrest⟩ := List.cons.inj h
      obtain ⟨early, found, late, rfl, htoken, hbehind, hspells, hlate⟩ := ih hlaid.2 hrest
      have hlength : position + (spread (piece :: early)).length =
          position + piece.gap.length + piece.lexeme.length + (spread early).length := by
        simp only [spread_cons, List.length_append]
        omega
      refine ⟨piece :: early, found, late, rfl, by rw [hlength, htoken], by rw [hlength, hbehind], ?_, hlate⟩
      rw [lastKind?_cons, Option.or_assoc]
      exact hspells

/-! ### One layout for a text and its tokens -/

/-- No blank stands in a numeral. -/
theorem isBlank_eq_false_of_mem_numerals {text : List Char} (h : text ∈ Literal.numerals) :
    ∀ c ∈ text, isBlank c = false := by
  intro c hc
  exact Numeral.isBlank_eq_false_of_isNumeralChar (List.all_eq_true.1 (Literal.all_isNumeralChar_of_mem h) c hc)

/-- The blanks behind a lexeme show where it ends. -/
theorem Lexeme.eq_of_append_eq {other blanks blanks' : List Char} (h : Lexeme kind lexeme) (ho : Lexeme kind other)
    (hb : blanks.all isBlank = true) (hb' : blanks'.all isBlank = true) (he : lexeme ++ blanks = other ++ blanks') :
    lexeme = other := by
  cases h with
  | numeral hn hv =>
    cases ho with
    | name hk => cases hk
    | numeral hn' hv' =>
      have hstretch : ∀ {text blanks : List Char}, text ∈ Literal.numerals → blanks.all isBlank = true →
          (text ++ blanks).takeWhile (fun c => !isBlank c) = text := by
        intro text blanks ht hb
        apply takeWhile_stretch
        · rw [List.all_eq_true]
          intro c hc
          rw [isBlank_eq_false_of_mem_numerals ht c hc, Bool.not_false]
        · intro c hc
          rw [List.all_eq_true.1 hb c (List.mem_of_head? hc), Bool.not_true]
      rw [← hstretch hn hb, he, hstretch hn' hb']
  | name hk hne => exact (ho.eq_name hk).symm
  | @string quote inner content hc =>
    generalize hkind : Token.Kind.text quote (String.ofList content) = kind at ho
    cases ho with
    | numeral => cases hkind
    | name hk =>
      subst hkind
      cases hk
    | @string quote' inner' content' hc' =>
      obtain ⟨rfl, -⟩ := Token.Kind.text.inj hkind
      have hread := Literal.unquoted?_append hc blanks
      have hread' := Literal.unquoted?_append hc' blanks'
      have htext : inner ++ [quote.char] ++ blanks = inner' ++ [quote.char] ++ blanks' := (List.cons.inj he).2
      rw [htext, hread'] at hread
      have hlength : inner'.length + 1 = inner.length + 1 := congrArg Prod.snd (Option.some.inj hread)
      rw [List.append_inj_left htext (by simpa using hlength.symm)]

section

variable {others : List Piece} {trail' : List Char}

/-- The next tokens show where the blanks behind a lexeme end. -/
theorem Lexeme.eq_of_tokens_eq {other : List Char} (h : Lexeme kind lexeme) (ho : Lexeme kind other)
    (ht : trail.all isBlank = true) (ht' : trail'.all isBlank = true)
    (he : lexeme ++ (spread pieces ++ trail) = other ++ (spread others ++ trail'))
    (htokens : tokensFrom (position + lexeme.length) pieces = tokensFrom (position + other.length) others) :
    lexeme = other := by
  cases pieces with
  | nil =>
    cases others with
    | nil => exact h.eq_of_append_eq ho ht ht' he
    | cons => cases htokens
  | cons next pieces =>
    cases others with
    | nil => cases htokens
    | cons next' others =>
      have hposition := congrArg Token.position (List.cons.inj htokens).1
      simp only [Option.some.injEq, Int.natCast_inj] at hposition
      simp only [spread_cons, List.append_assoc] at he
      rw [← List.append_assoc, ← List.append_assoc other] at he
      apply h.eq_of_append_eq ho next.isBlank_gap next'.isBlank_gap
      apply List.append_inj_left he
      rw [List.length_append, List.length_append]
      omega

theorem pieces_eq (ht : trail.all isBlank = true) (ht' : trail'.all isBlank = true)
    (he : spread pieces ++ trail = spread others ++ trail')
    (htokens : tokensFrom position pieces = tokensFrom position others) : pieces = others ∧ trail = trail' := by
  induction pieces generalizing position others with
  | nil =>
    cases others with
    | nil => exact ⟨rfl, he⟩
    | cons => cases htokens
  | cons piece pieces ih =>
    cases others with
    | nil => cases htokens
    | cons other others =>
      obtain ⟨gap, kind, lexeme, hblank, hlexeme⟩ := piece
      obtain ⟨gap', kind', lexeme', hblank', hlexeme'⟩ := other
      obtain ⟨htoken, hbehind⟩ := List.cons.inj htokens
      obtain ⟨rfl, hposition⟩ := Token.mk.inj htoken
      simp only [Option.some.injEq, Int.natCast_inj] at hposition
      simp only [spread_cons, List.append_assoc] at he
      obtain ⟨rfl, hrest⟩ := List.append_inj he (by omega)
      obtain rfl := hlexeme.eq_of_tokens_eq hlexeme' ht ht' hrest hbehind
      obtain ⟨rfl, rfl⟩ := ih (List.append_cancel_left hrest) hbehind
      exact ⟨rfl, rfl⟩

end

/-- No text has two layouts with the same tokens. -/
theorem Layout.eq_of_tokens_eq {layout other : Layout} (h : layout.text = other.text)
    (htokens : layout.tokens = other.tokens) : layout = other := by
  obtain ⟨pieces, trail, ht⟩ := layout
  obtain ⟨others, trail', ht'⟩ := other
  obtain ⟨rfl, rfl⟩ := pieces_eq ht ht' h htokens
  rfl

/-! ## Functions and their brackets -/

theorem Spells.function {name : String} (h : Spells registry before lexeme behind (.function name)) :
    behind.head? = some '(' := by
  obtain ⟨first, others, rfl, -, hhead⟩ := h
  have hopening := hhead.function.2
  rwa [List.length_cons, Nat.add_sub_cancel, List.drop_left] at hopening

/-- Where an opening bracket stands at the head of a text, the first token is one, and no blank stands before it. -/
theorem Laid.exists_opening (ht : trail.all isBlank = true) (h : Laid registry trail before pieces)
    (hhead : (spread pieces ++ trail).head? = some '(') (position : Nat) :
    ∃ later, tokensFrom position pieces = ⟨.openBracket, some (position : Int)⟩ :: later := by
  have hblank : ∀ {gap : List Char}, gap.all isBlank = true → gap.head? ≠ some '(' := by
    intro gap hgap hc
    cases List.all_eq_true.1 hgap '(' (List.mem_of_head? hc)
  cases pieces with
  | nil => exact absurd hhead (hblank ht)
  | cons piece pieces =>
    obtain ⟨⟨first, others, hlexeme, -, hfirst⟩, -⟩ := h
    cases hgap : piece.gap with
    | nil =>
      obtain rfl : first = '(' := by simpa [hgap, hlexeme] using hhead
      refine ⟨tokensFrom (position + piece.gap.length + piece.lexeme.length) pieces, ?_⟩
      rw [tokensFrom, hfirst.opening, hgap]
      rfl
    | cons c gap =>
      have hc : piece.gap.head? = some '(' := by
        rw [spread_cons, hgap] at hhead
        rw [hgap]
        exact hhead
      exact absurd hc (hblank piece.isBlank_gap)

/-- **Reading accounts for every character.** The text is blanks and lexemes in turn; the tokens stand at the offsets
of their lexemes, so one behind the other, and right behind a function an opening bracket follows. -/
theorem exists_layout (registry : Registry) (text : String) (tokens : List Token)
    (h : read registry text = .ok tokens) :
    ∃ layout : Layout, layout.text = text.toList ∧ layout.tokens = tokens ∧ tokens.Pairwise Precedes ∧
      ∀ front token behind name, tokens = front ++ token :: behind → token.kind = .function name →
        ∃ p : Nat, token.position = some (p : Int) ∧
          ∃ later, behind = ⟨.openBracket, some ((p + name.length : Nat) : Int)⟩ :: later := by
  obtain ⟨pieces, trail, ht, htext, rfl, hlaid⟩ := exists_laid h
  refine ⟨⟨pieces, trail, ht⟩, htext.symm, rfl, pairwise_tokensFrom 0 pieces, ?_⟩
  intro front token behind name htokens hk
  obtain ⟨early, piece, late, rfl, rfl, rfl, hspells, hlate⟩ := hlaid.exists_spells htokens
  obtain hk : piece.kind = .function name := hk
  rw [hk] at hspells
  have hlexeme : piece.lexeme.length = name.length := by
    have hname : piece.lexeme = piece.kind.name.toList := piece.isLexeme.eq_name (by rw [hk]; rfl)
    rw [hname, hk]
    exact String.length_toList
  have hopening : (spread late ++ trail).head? = some '(' := hspells.function
  refine ⟨_, rfl, ?_⟩
  rw [hlexeme]
  exact hlate.exists_opening ht hopening _

theorem exists_layout_call :
    let tokens : List Token :=
      [⟨.function "sin", some 1⟩, ⟨.openBracket, some 4⟩, ⟨.number 25, some 6⟩, ⟨.closeBracket, some 11⟩]
    read (.standard .shipped true) " sin( 2.5e1)" = .ok tokens ∧
      ∃ layout : Layout, layout.text = " sin( 2.5e1)".toList ∧ layout.tokens = tokens := by
  intro tokens
  have hread : read (.standard .shipped true) " sin( 2.5e1)" = .ok tokens := eq_ok_of_toOption (by decide +kernel)
  obtain ⟨layout, htext, htokens, -⟩ := exists_layout _ _ _ hread
  exact ⟨hread, layout, htext, htokens⟩

end

end Infix

end Formula
