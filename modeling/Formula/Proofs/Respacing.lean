import Formula.Evaluation
import Formula.Proofs.Completion
import Formula.Proofs.Layout

/-!
# Blanks between tokens

Blanks between tokens may be changed (`Respaced`): more of them or other ones where there are some, and new ones between
any two tokens but a function and its opening bracket. The text is then read as the same tokens at other offsets.

A token looks no farther into the text behind it than to its own end, or for a function to the opening bracket
(`HeadToken.cut`), and what stands behind may be replaced by anything that ends every token (`HeadToken.append`). The
texts behind a token before and after the change have a beginning in common; behind that, the new one is empty or goes
on with a blank (`Respaced.exists_common`).
-/

namespace Formula

namespace Infix

open Text

/-! ## How far a token looks -/

section

variable {registry : Registry} {before : Option Token.Kind} {count : Nat} {first : Char} {near far : List Char}
  {kind : Token.Kind}

theorem takeWhile_cut {p : Char → Bool} (h : ((near ++ far).takeWhile p).length ≤ near.length) :
    near.takeWhile p = (near ++ far).takeWhile p :=
  (isLongest_takeWhile p near).unique ((isLongest_takeWhile p (near ++ far)).cut h)

theorem numeral_cut (h : (Literal.numeral (near ++ far)).length ≤ near.length) :
    Literal.numeral near = Literal.numeral (near ++ far) :=
  (Literal.isLongest_numeral near).unique ((Literal.isLongest_numeral (near ++ far)).cut h)

theorem unquoted?_cut {quote : Quote} {content : List Char}
    (h : Literal.unquoted? quote.char (near ++ far) = some (content, count)) (hle : count ≤ near.length) :
    Literal.unquoted? quote.char near = some (content, count) := by
  obtain ⟨inner, behind, htext, rfl, hinner⟩ := exists_of_unquoted? h
  have hprefix : inner ++ [quote.char] <+: near ++ far := by
    rw [htext]
    simp
  obtain ⟨more, rfl⟩ : inner ++ [quote.char] <+: near := by
    apply List.prefix_of_prefix_length_le hprefix (List.prefix_append near far)
    simpa using hle
  exact Literal.unquoted?_append hinner more

/-- Of the text behind it, a word looks at the first character at most. -/
theorem wordKind_cut {word : String} (h : wordKind registry registry.symbols before word (near ++ far) = .ok kind)
    (hf : ∀ name, kind = .function name → near ≠ []) :
    wordKind registry registry.symbols before word near = .ok kind := by
  have hiff : near.head? = some '(' ↔ (near ++ far).head? = some '(' := by
    cases near with
    | cons c near => rfl
    | nil =>
      constructor
      · intro hc
        cases hc
      · intro hc
        rw [wordKind, if_pos hc] at h
        obtain ⟨function, -, hk⟩ := exists_of_bind_eq_ok h
        cases hk
        exact absurd rfl (hf word rfl)
  unfold wordKind at h ⊢
  rwa [if_congr hiff rfl rfl]

/-- **A token looks no farther than to its end**, or to the opening bracket behind a function. -/
theorem HeadToken.cut (h : HeadToken registry before first (near ++ far) kind count) (hle : count ≤ near.length + 1)
    (hf : ∀ name, kind = .function name → count ≤ near.length) : HeadToken registry before first near kind count := by
  cases h with
  | numeral hn hp hv =>
    have hcut : Literal.numeral (first :: near) = Literal.numeral (first :: (near ++ far)) := numeral_cut hle
    rw [← hcut] at hle hp hv ⊢
    refine .numeral hn (fun hc => hp ?_) hv
    rw [← List.cons_append, List.drop_append_of_le_length hle, List.head?_append, hc]
    rfl
  | string hn hq hc => exact .string hn hq (unquoted?_cut hc (by omega))
  | word hn hq hw hk =>
    have hcut : (first :: near).takeWhile isWordChar = (first :: (near ++ far)).takeWhile isWordChar :=
      takeWhile_cut hle
    rw [← hcut] at hle hf hk ⊢
    rw [← List.cons_append, List.drop_append_of_le_length hle] at hk
    refine .word hn hq hw (wordKind_cut hk fun name hname => ?_)
    have hlt := hf name hname
    rw [Ne, List.drop_eq_nil_iff, List.length_cons]
    omega
  | structural hn hq hw hs => exact .structural hn hq hw hs
  | symbol hn hq hw hs hfind hk =>
    refine .symbol hn hq hw hs ?_ hk
    rw [Registry.find?_symbols_eq_some, ← List.cons_append] at hfind
    rw [Registry.find?_symbols_eq_some]
    apply hfind.cut
    rwa [String.length_toList]

end

/-! ## Pieces with other blanks -/

/-- The same lexemes with other blanks before them. Before the first one the blanks are free; behind a token they do not
vanish, and right behind a function none come in. -/
inductive Respaced : Option Token.Kind → List Piece → List Piece → Prop
  | nil {before : Option Token.Kind} : Respaced before [] []
  | cons {before : Option Token.Kind} {piece other : Piece} {pieces others : List Piece}
      (hkind : other.kind = piece.kind) (hlexeme : other.lexeme = piece.lexeme)
      (hgap : before ≠ none → piece.gap ≠ [] → other.gap ≠ [])
      (hcall : ∀ name, before = some (.function name) → other.gap = [])
      (h : Respaced (some piece.kind) pieces others) : Respaced before (piece :: pieces) (other :: others)

/-- The same lexemes with other blanks between them and at both ends. -/
def Layout.Respaced (layout other : Layout) : Prop := Infix.Respaced none layout.pieces other.pieces

section

variable {registry : Registry} {before : Option Token.Kind} {lexeme common far tail trail trail' : List Char}
  {kind : Token.Kind} {pieces others : List Piece}

theorem delimits_blanks {blanks : List Char} (hb : blanks.all isBlank = true) (hne : blanks ≠ []) (rest : List Char) :
    Delimits (blanks ++ rest) := by
  obtain ⟨c, blanks, rfl⟩ := List.exists_cons_of_ne_nil hne
  exact delimits_blank (List.all_eq_true.1 hb c List.mem_cons_self)

theorem delimits_trail (ht : trail.all isBlank = true) : Delimits trail := by
  intro c hc
  exact .inl (List.all_eq_true.1 ht c (List.mem_of_head? hc))

/-- **What stands behind a token** has a beginning in common before and after the change, and behind that the new text
ends every token. Behind a function the beginning holds the opening bracket. -/
theorem Respaced.exists_common (h : Respaced before pieces others) (hbefore : before ≠ none)
    (ht : trail.all isBlank = true) (ht' : trail'.all isBlank = true) :
    ∃ common far tail, spread pieces ++ trail = common ++ far ∧ spread others ++ trail' = common ++ tail ∧
      Delimits tail ∧
      ∀ name, before = some (.function name) → (spread pieces ++ trail).head? = some '(' → common ≠ [] := by
  induction h with
  | nil =>
    refine ⟨[], trail, trail', rfl, rfl, delimits_trail ht', fun name _ hc => ?_⟩
    cases List.all_eq_true.1 ht '(' (List.mem_of_head? hc)
  | @cons before piece other pieces others hkind hlexeme hgap hcall h ih =>
    obtain ⟨common, far, tail, hold, hnew, htail, -⟩ := ih (by simp)
    by_cases hother : other.gap = []
    · have hpiece : piece.gap = [] := Classical.not_not.1 fun hne => hgap hbefore hne hother
      refine ⟨piece.lexeme ++ common, far, tail, ?_, ?_, htail, ?_⟩
      · rw [spread_cons, hpiece, List.nil_append, List.append_assoc, hold, List.append_assoc]
      · rw [spread_cons, hother, hlexeme, List.nil_append, List.append_assoc, hnew, List.append_assoc]
      · intro name _ _ hnil
        exact piece.isLexeme.ne_nil (List.append_eq_nil_iff.1 hnil).1
    · refine ⟨[], _, spread (other :: others) ++ trail', rfl, rfl, ?_,
        fun name hname _ => absurd (hcall name hname) hother⟩
      rw [spread_cons, List.append_assoc]
      exact delimits_blanks other.isBlank_gap hother _

/-- A lexeme is read as before if what stands behind it is changed from a delimiter on. -/
theorem Spells.change (h : Spells registry before lexeme (common ++ far) kind) (ht : Delimits tail)
    (hf : ∀ name, kind = .function name → common ≠ []) : Spells registry before lexeme (common ++ tail) kind := by
  obtain ⟨first, others, rfl, hb, hhead⟩ := h
  refine ⟨first, others, rfl, hb, ?_⟩
  rw [← List.append_assoc] at hhead ⊢
  apply HeadToken.append _ ht
  apply hhead.cut
  · simp
  · intro name hname
    have hpos : 0 < common.length := List.length_pos_iff.2 (hf name hname)
    simp only [List.length_cons, List.length_append]
    omega

/-- Pieces with other blanks are read as the same tokens. -/
theorem Laid.respaced (hlaid : Laid registry trail before pieces) (h : Respaced before pieces others)
    (ht : trail.all isBlank = true) (ht' : trail'.all isBlank = true) : Laid registry trail' before others := by
  induction h with
  | nil => exact trivial
  | @cons before piece other pieces others hkind hlexeme hgap hcall h ih =>
    obtain ⟨hspells, hrest⟩ := hlaid
    have hlater := ih hrest
    obtain ⟨common, far, tail, hold, hnew, htail, hopening⟩ := h.exists_common (by simp) ht ht'
    refine ⟨?_, by rwa [hkind]⟩
    rw [hlexeme, hkind, hnew]
    rw [hold] at hspells
    apply hspells.change htail
    intro name hname
    rw [hname] at hspells
    apply hopening name (congrArg some hname)
    rw [hold]
    exact hspells.function

theorem kinds_tokensFrom (position : Nat) (pieces : List Piece) :
    (tokensFrom position pieces).map Token.kind = pieces.map Piece.kind := by
  induction pieces generalizing position with
  | nil => rfl
  | cons piece pieces ih => rw [tokensFrom, List.map_cons, List.map_cons, ih]

theorem Respaced.kinds_eq (h : Respaced before pieces others) : others.map Piece.kind = pieces.map Piece.kind := by
  induction h with
  | nil => rfl
  | cons hkind _ _ _ _ ih => rw [List.map_cons, List.map_cons, hkind, ih]

end

end Infix

/-! ## Tokens of the same kinds -/

section

variable {registry : Registry} {tokens others : List Token}

/-- A token without its offset. -/
def Token.unplaced (token : Token) : Token := ⟨token.kind, none⟩

theorem map_unplaced_eq (h : tokens.map Token.kind = others.map Token.kind) :
    tokens.map Token.unplaced = others.map Token.unplaced := by
  have hunplaced : ∀ tokens : List Token, tokens.map Token.unplaced =
      (tokens.map Token.kind).map fun kind => ⟨kind, none⟩ := by
    intro tokens
    rw [List.map_map]
    rfl
  rw [hunplaced, hunplaced, h]

/-- The offsets of tokens do not matter to rearranging. -/
theorem Postfix.ofInfix_kinds (h : tokens.map Token.kind = others.map Token.kind) :
    (ofInfix registry tokens).map (List.map Token.kind) = (ofInfix registry others).map (List.map Token.kind) := by
  have hunplaced : ∀ tokens : List Token, (ofInfix registry (tokens.map Token.unplaced)).map (List.map Token.kind) =
      (ofInfix registry tokens).map (List.map Token.kind) := by
    intro tokens
    have hmap : ofInfix registry (tokens.map Token.unplaced) = _ := ofInfix_map fun _ _ => .inl rfl
    rw [hmap]
    cases ofInfix registry tokens with
    | error fault => rfl
    | ok output =>
      show Except.ok ((output.map Token.unplaced).map Token.kind) = .ok (output.map Token.kind)
      rw [List.map_map]
      rfl
  rw [← hunplaced tokens, map_unplaced_eq h, hunplaced others]

/-- The offsets of tokens do not matter to evaluation. -/
theorem Evaluation.evaluate_kinds (h : tokens.map Token.kind = others.map Token.kind) (environment : Environment) :
    evaluate registry environment tokens = evaluate registry environment others := by
  have hunplaced : ∀ tokens : List Token, evaluate registry environment (tokens.map Token.unplaced) =
      evaluate registry environment tokens := by
    intro tokens
    rw [evaluate, List.foldlM_map]
    rfl
  rw [← hunplaced tokens, map_unplaced_eq h, hunplaced others]

/-- So the value is the same if the tokens in postfix order have the same kinds. -/
theorem Evaluation.bind_evaluate_kinds {output output' : Except Fault (List Token)}
    (h : output.map (List.map Token.kind) = output'.map (List.map Token.kind)) (environment : Environment) :
    output >>= evaluate registry environment = output' >>= evaluate registry environment := by
  cases output with
  | error fault =>
    cases output' with
    | error fault' => exact congrArg _ (Except.error.inj h)
    | ok => cases h
  | ok tokens =>
    cases output' with
    | error => cases h
    | ok others => exact evaluate_kinds (Except.ok.inj h) environment

end

/-! ## Texts with other blanks -/

/-- **Blanks between tokens do not matter.** A text that is read has one layout with its tokens. Laid out with other
blanks it is read as tokens of the same kinds, and it has the same tokens in postfix order, but for their offsets, and
the same value. -/
theorem Infix.read_respaced (registry : Registry) (text : String) (tokens : List Token)
    (h : read registry text = .ok tokens) :
    ∃ layout : Layout, layout.text = text.toList ∧ layout.tokens = tokens ∧
      (∀ same : Layout, same.text = text.toList → same.tokens = tokens → same = layout) ∧
      ∀ other : Layout, layout.Respaced other →
        let respaced := String.ofList other.text
        read registry respaced = .ok other.tokens ∧ other.tokens.map Token.kind = tokens.map Token.kind ∧
          (Postfix.compile registry respaced).map (List.map Token.kind) =
            (Postfix.compile registry text).map (List.map Token.kind) ∧
          ∀ environment, (Postfix.compile registry respaced >>= Evaluation.evaluate registry environment) =
            Postfix.compile registry text >>= Evaluation.evaluate registry environment := by
  obtain ⟨pieces, trail, ht, htext, rfl, hlaid⟩ := exists_laid h
  refine ⟨⟨pieces, trail, ht⟩, htext.symm, rfl, ?_, ?_⟩
  · intro same hsame htokens
    exact Layout.eq_of_tokens_eq (hsame.trans htext) htokens
  · intro other hrespaced respaced
    have hread : read registry respaced = .ok other.tokens := by
      rw [read, String.toList_ofList]
      exact (hlaid.respaced hrespaced ht other.isBlank_trail).readFrom_eq other.isBlank_trail 0
    have hkinds : other.tokens.map Token.kind = (tokensFrom 0 pieces).map Token.kind := by
      rw [Layout.tokens, kinds_tokensFrom, kinds_tokensFrom, hrespaced.kinds_eq]
    have hcompile : (Postfix.compile registry respaced).map (List.map Token.kind) =
        (Postfix.compile registry text).map (List.map Token.kind) := by
      rw [Postfix.compile, Postfix.compile, hread, h]
      exact Postfix.ofInfix_kinds hkinds
    exact ⟨hread, hkinds, hcompile, Evaluation.bind_evaluate_kinds hcompile⟩

namespace Infix

/-- A token written by its name behind so many blanks. -/
def Piece.named (blanks : Nat) (kind : Token.Kind) (hk : kind.isNamed = true) (hne : kind.name.toList ≠ []) :
    Piece where
  gap := List.replicate blanks ' '
  kind := kind
  lexeme := kind.name.toList
  isBlank_gap := by
    rw [List.all_replicate]
    cases blanks <;> rfl
  isLexeme := .name hk hne

/-- The text `sin(x)+y` with so many blanks wherever there may be some. -/
def spaced (blanks : Nat) : Layout where
  pieces := [.named blanks (.function "sin") rfl (by decide), .named 0 .openBracket rfl (by decide),
    .named blanks (.var "x") rfl (by decide), .named blanks .closeBracket rfl (by decide),
    .named blanks (.operator "+" 2) rfl (by decide), .named blanks (.var "y") rfl (by decide)]
  trail := List.replicate blanks ' '
  isBlank_trail := by
    rw [List.all_replicate]
    cases blanks <;> rfl

theorem respaced_spaced (blanks : Nat) : (spaced 0).Respaced (spaced blanks) := by
  have hgap : ∀ {before : Option Token.Kind} {gap : List Char}, before ≠ none → List.replicate 0 ' ' ≠ [] → gap ≠ [] :=
    fun _ hne => absurd rfl hne
  exact .cons rfl rfl hgap nofun (.cons rfl rfl hgap (fun _ _ => rfl) (.cons rfl rfl hgap nofun
    (.cons rfl rfl hgap nofun (.cons rfl rfl hgap nofun (.cons rfl rfl hgap nofun .nil)))))

theorem read_respaced_spaced :
    read (.standard .shipped true) "sin(x)+y" = .ok (spaced 0).tokens ∧
      read (.standard .shipped true) "  sin(  x  )  +  y  " = .ok (spaced 2).tokens := by
  have hread : read (.standard .shipped true) "sin(x)+y" = .ok (spaced 0).tokens :=
    eq_ok_of_toOption (by decide +kernel)
  have hplain : (spaced 0).text = "sin(x)+y".toList := by decide
  have hroomy : String.ofList (spaced 2).text = "  sin(  x  )  +  y  " := by decide
  obtain ⟨layout, -, -, hunique, hrespaced⟩ := read_respaced _ _ _ hread
  obtain rfl := hunique (spaced 0) hplain rfl
  have hother := hrespaced (spaced 2) (respaced_spaced 2)
  rw [hroomy] at hother
  exact ⟨hread, hother.1⟩

end Infix

end Formula
