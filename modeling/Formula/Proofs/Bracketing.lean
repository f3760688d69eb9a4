import Formula.Token
import Mathlib.Data.List.Infix

/-!
# Brackets in a list of tokens

A list is balanced (`Balanced`) if none of its beginnings closes more brackets than it opens, and all are closed at its
end. The tokens between a bracket and the one that closes it are balanced, and what is open at the end of a list is open
in one way only: the innermost open bracket is the one with balanced tokens behind it (`eq_of_innermost`). Every open
bracket has tokens behind it that leave it open (`KeepsOpen`). Where more brackets are closed than opened, one of the
tokens closes a bracket that was open before (`exists_closing`).

The separators that stand in none of its brackets cut a list into segments (`segments`): in the bracket of a call these
are the arguments.
-/

namespace Formula

/-! ## Depth -/

/-- How many more brackets are open behind a token than before it. -/
def Token.Kind.nesting : Token.Kind → Int
  | .openBracket => 1
  | .closeBracket => -1
  | _ => 0

/-- How many more brackets the tokens open than they close. -/
def depth : List Token → Int
  | [] => 0
  | token :: tokens => token.kind.nesting + depth tokens

@[simp]
theorem depth_nil : depth [] = 0 := rfl

@[simp]
theorem depth_cons (token : Token) (tokens : List Token) :
    depth (token :: tokens) = token.kind.nesting + depth tokens := rfl

@[simp]
theorem depth_append (tokens behind : List Token) : depth (tokens ++ behind) = depth tokens + depth behind := by
  induction tokens with
  | nil => simp
  | cons token tokens ih => rw [List.cons_append, depth_cons, depth_cons, ih, Int.add_assoc]

@[simp]
theorem Token.Kind.nesting_openBracket : Token.Kind.nesting .openBracket = 1 := rfl

@[simp]
theorem Token.Kind.nesting_closeBracket : Token.Kind.nesting .closeBracket = -1 := rfl

@[simp]
theorem Token.Kind.nesting_separator : Token.Kind.nesting .separator = 0 := rfl

/-! ## Brackets that stay open -/

/-- No beginning of the tokens closes more brackets than it opens. -/
def KeepsOpen (tokens : List Token) : Prop := ∀ before, before <+: tokens → 0 ≤ depth before

section

variable {tokens behind inside : List Token} {opening : Token}

theorem KeepsOpen.depth_nonneg (h : KeepsOpen tokens) : 0 ≤ depth tokens := h tokens (List.prefix_refl tokens)

theorem KeepsOpen.append (h : KeepsOpen tokens) (hb : KeepsOpen behind) : KeepsOpen (tokens ++ behind) := by
  intro before hp
  rcases List.prefix_or_prefix_of_prefix hp (List.prefix_append tokens behind) with hf | ⟨more, rfl⟩
  · exact h before hf
  · have hmore := hb more ((List.prefix_append_right_inj tokens).1 hp)
    have htokens := h.depth_nonneg
    rw [depth_append]
    omega

theorem KeepsOpen.cons_opening (ho : opening.kind = .openBracket) (h : KeepsOpen inside) :
    KeepsOpen (opening :: inside) := by
  intro before hp
  rcases List.prefix_cons_iff.1 hp with rfl | ⟨rest, rfl, hr⟩
  · exact Int.le_refl 0
  · have hrest := h rest hr
    rw [depth_cons, ho, Token.Kind.nesting_openBracket]
    omega

end

/-! ## Balanced lists -/

/-- The brackets are balanced. -/
structure Balanced (tokens : List Token) : Prop where
  /-- No beginning closes more brackets than it opens. -/
  nonneg : ∀ before, before <+: tokens → 0 ≤ depth before
  /-- All brackets are closed. -/
  closed : depth tokens = 0

section

variable {tokens before behind inside outer others : List Token} {token opening closing other : Token}

theorem balanced_nil : Balanced [] where
  nonneg := by
    intro before hp
    rw [List.prefix_nil.1 hp]
    exact Int.le_refl 0
  closed := rfl

/-- A list is balanced if each of its beginnings is that of a balanced one, and all is closed. -/
theorem Balanced.of_isPrefix (h : Balanced tokens) (hp : before <+: tokens) (hd : depth before = 0) :
    Balanced before where
  nonneg := fun first hf => h.nonneg first (hf.trans hp)
  closed := hd

theorem Balanced.append (h : Balanced tokens) (h' : Balanced behind) : Balanced (tokens ++ behind) where
  nonneg := KeepsOpen.append h.nonneg h'.nonneg
  closed := by rw [depth_append, h.closed, h'.closed, Int.add_zero]

theorem balanced_singleton (h : token.kind.nesting = 0) : Balanced [token] where
  nonneg := by
    intro before hp
    rcases List.prefix_cons_iff.1 hp with rfl | ⟨rest, rfl, hr⟩
    · exact Int.le_refl 0
    · rw [List.prefix_nil.1 hr, depth_cons, h]
      exact Int.le_refl 0
  closed := by rw [depth_cons, h, depth_nil, Int.add_zero]

/-- Brackets around balanced tokens. -/
theorem Balanced.enclose (ho : opening.kind = .openBracket) (h : Balanced inside) (hc : closing.kind = .closeBracket) :
    Balanced (opening :: (inside ++ [closing])) where
  nonneg := by
    intro before hp
    rcases List.prefix_cons_iff.1 hp with rfl | ⟨rest, rfl, hr⟩
    · exact Int.le_refl 0
    · rw [depth_cons, ho, Token.Kind.nesting_openBracket]
      rcases List.prefix_concat_iff.1 hr with rfl | hr
      · rw [depth_append, h.closed, depth_cons, hc]
        decide
      · have := h.nonneg rest hr
        omega
  closed := by
    rw [depth_cons, depth_append, h.closed, depth_cons, ho, hc]
    rfl

/-- Tokens of the same kinds are balanced alike. -/
theorem Balanced.map_congr {α : Type} {f g : α → Token} {items : List α} (h : Balanced (items.map f))
    (hk : ∀ item, (g item).kind = (f item).kind) : Balanced (items.map g) := by
  have hdepth : ∀ items : List α, depth (items.map g) = depth (items.map f) := by
    intro items
    induction items with
    | nil => rfl
    | cons item items ih => rw [List.map_cons, List.map_cons, depth_cons, depth_cons, hk, ih]
  refine ⟨fun before hp => ?_, (hdepth items).trans h.closed⟩
  rw [List.prefix_iff_eq_take.1 hp, ← List.map_take, hdepth, List.map_take]
  exact h.nonneg _ (List.take_prefix _ _)

theorem kind_of_nesting_neg {kind : Token.Kind} (h : kind.nesting < 0) : kind = .closeBracket := by
  cases kind with
  | closeBracket => rfl
  | openBracket | number | text | var | operator | function | separator | other =>
    simp [Token.Kind.nesting] at h

theorem nesting_ge (kind : Token.Kind) : -1 ≤ kind.nesting := by
  cases kind <;> simp [Token.Kind.nesting]

/-- Behind tokens that close nothing from before, the first bracket that closes too much. -/
theorem exists_closing_behind (hn : ∀ first, first <+: before → 0 ≤ depth first) (h : depth (before ++ tokens) < 0) :
    ∃ inside closing behind, tokens = inside ++ closing :: behind ∧ closing.kind = .closeBracket ∧
      Balanced (before ++ inside) := by
  -- By induction on what is still to be read; tokens go over to `before` as long as nothing from before is closed.
  induction tokens generalizing before with
  | nil =>
    rw [List.append_nil] at h
    have := hn before (List.prefix_refl before)
    omega
  | cons token tokens ih =>
    have hbefore := hn before (List.prefix_refl before)
    by_cases hd : 0 ≤ depth (before ++ [token])
    · have hn' : ∀ first, first <+: before ++ [token] → 0 ≤ depth first := by
        intro first hf
        rcases List.prefix_concat_iff.1 hf with rfl | hf
        · exact hd
        · exact hn first hf
      obtain ⟨inside, closing, behind, rfl, hc, hb⟩ := ih hn' (by simpa using h)
      exact ⟨token :: inside, closing, behind, rfl, hc, by simpa using hb⟩
    · rw [depth_append, depth_cons, depth_nil] at hd
      have hge := nesting_ge token.kind
      refine ⟨[], token, tokens, rfl, kind_of_nesting_neg (by omega), ?_⟩
      rw [List.append_nil]
      exact ⟨hn, by omega⟩

/-- Where more brackets are closed than opened, one of the tokens closes a bracket that was open before. -/
theorem exists_closing (h : depth tokens < 0) :
    ∃ inside closing behind, tokens = inside ++ closing :: behind ∧ closing.kind = .closeBracket ∧ Balanced inside :=
  exists_closing_behind balanced_nil.nonneg h

/-- In a balanced list every bracket that is opened is closed. -/
theorem Balanced.exists_closing (h : Balanced (before ++ opening :: tokens)) (ho : opening.kind = .openBracket) :
    ∃ inside closing behind, tokens = inside ++ closing :: behind ∧ closing.kind = .closeBracket ∧ Balanced inside := by
  have hbefore := h.nonneg before (List.prefix_append before _)
  have hall := h.closed
  rw [depth_append, depth_cons, ho, Token.Kind.nesting_openBracket] at hall
  exact Formula.exists_closing (by omega)

/-- Behind a bracket that is open at the end, the tokens are not balanced together with those before it. -/
theorem not_balanced_of_innermost (ho : opening.kind = .openBracket) (hi : Balanced inside) :
    ¬Balanced (before ++ opening :: inside) := by
  intro h
  have hb := h.nonneg before (List.prefix_append before _)
  have hd := h.closed
  rw [depth_append, depth_cons, hi.closed, ho, Token.Kind.nesting_openBracket] at hd
  omega

/-- There is at most one innermost open bracket. -/
theorem eq_of_innermost (ho : opening.kind = .openBracket) (hi : Balanced inside)
    (ho' : other.kind = .openBracket) (hi' : Balanced others)
    (h : before ++ opening :: inside = outer ++ other :: others) :
    before = outer ∧ opening = other ∧ inside = others := by
  rcases List.append_eq_append_iff.1 h with ⟨between, rfl, hb⟩ | ⟨between, rfl, hb⟩
  · cases between with
    | nil => simpa using hb
    | cons first between =>
      obtain ⟨-, rfl⟩ := List.cons.inj hb
      exact absurd hi (not_balanced_of_innermost ho' hi')
  · cases between with
    | nil => simpa [eq_comm] using hb
    | cons first between =>
      obtain ⟨-, rfl⟩ := List.cons.inj hb
      exact absurd hi' (not_balanced_of_innermost ho hi)

end

/-- A bracket stands in the list, with these tokens before it, in it and behind it. -/
def Encloses (tokens before inside behind : List Token) : Prop :=
  ∃ opening closing, opening.kind = .openBracket ∧ closing.kind = .closeBracket ∧ Balanced inside ∧
    tokens = before ++ opening :: (inside ++ closing :: behind)

/-! ## Segments -/

/-- The parts of a list between its separators, of which only those count before which no bracket is open. So many are
open before the list. -/
def segmentsAt : Int → List Token → List (List Token)
  | _, [] => [[]]
  | level, token :: tokens =>
    if level = 0 ∧ token.kind = .separator then [] :: segmentsAt level tokens
    else (segmentsAt (level + token.kind.nesting) tokens).modifyHead (token :: ·)

/-- The parts of a list between the separators that stand in none of its brackets. -/
def segments (tokens : List Token) : List (List Token) := segmentsAt 0 tokens

section

variable {level : Int} {token separator opening closing : Token} {tokens behind inside item : List Token}

theorem segmentsAt_separator (h : token.kind = .separator) :
    segmentsAt 0 (token :: tokens) = [] :: segmentsAt 0 tokens := by
  rw [segmentsAt, if_pos ⟨rfl, h⟩]

theorem segmentsAt_cons (h : ¬(level = 0 ∧ token.kind = .separator)) :
    segmentsAt level (token :: tokens) = (segmentsAt (level + token.kind.nesting) tokens).modifyHead (token :: ·) := by
  rw [segmentsAt, if_neg h]

theorem segmentsAt_ne_nil (level : Int) (tokens : List Token) : segmentsAt level tokens ≠ [] := by
  induction tokens generalizing level with
  | nil => exact List.cons_ne_nil _ _
  | cons token tokens ih =>
    unfold segmentsAt
    split
    · exact List.cons_ne_nil _ _
    · simpa [List.modifyHead_eq_nil_iff] using ih _

/-- A list in which all separators stand in brackets is one segment. -/
theorem segmentsAt_eq_singleton (h : ∀ before separator behind, tokens = before ++ separator :: behind →
    separator.kind = .separator → level + depth before ≠ 0) : segmentsAt level tokens = [tokens] := by
  induction tokens generalizing level with
  | nil => rfl
  | cons token tokens ih =>
    have htoken : ¬(level = 0 ∧ token.kind = .separator) := fun hs => h [] token tokens rfl hs.2 (by simp [hs.1])
    rw [segmentsAt_cons htoken, ih fun before separator behind heq hs => ?_]
    · rfl
    · rw [Int.add_assoc, ← depth_cons]
      exact h (token :: before) separator behind (by rw [heq]; rfl) hs

/-- The separators behind a bracket that stays open stand in this bracket. -/
theorem KeepsOpen.segmentsAt_opening (ho : opening.kind = .openBracket) (h : KeepsOpen inside)
    (hb : ∀ token ∈ behind, token.kind ≠ .separator) (hl : 0 ≤ level) :
    segmentsAt level (opening :: (inside ++ behind)) = [opening :: (inside ++ behind)] := by
  refine segmentsAt_eq_singleton fun before separator rest heq hs => ?_
  cases before with
  | nil =>
    obtain ⟨rfl, -⟩ := List.cons.inj heq
    rw [ho] at hs
    cases hs
  | cons first before =>
    obtain ⟨rfl, hsplit⟩ := List.cons.inj heq
    rcases List.append_eq_append_iff.1 hsplit with ⟨more, -, rfl⟩ | ⟨more, rfl, -⟩
    · exact absurd hs (hb separator (by simp))
    · have hbefore := h before (List.prefix_append before more)
      rw [depth_cons, ho, Token.Kind.nesting_openBracket]
      omega

/-- What has no separators of its own goes on with the last segment. -/
theorem exists_segmentsAt_append (tokens : List Token) (h : segmentsAt (level + depth tokens) item = [item]) :
    ∃ front last, segmentsAt level tokens = front ++ [last] ∧
      segmentsAt level (tokens ++ item) = front ++ [last ++ item] := by
  induction tokens generalizing level with
  | nil => exact ⟨[], [], rfl, by simpa using h⟩
  | cons token tokens ih =>
    rw [List.cons_append]
    by_cases hs : level = 0 ∧ token.kind = .separator
    · obtain ⟨rfl, hk⟩ := hs
      have hrest : segmentsAt (0 + depth tokens) item = [item] := by simpa [hk] using h
      obtain ⟨front, last, hf, hl⟩ := ih hrest
      exact ⟨[] :: front, last, by rw [segmentsAt_separator hk, hf]; rfl, by rw [segmentsAt_separator hk, hl]; rfl⟩
    · have hrest : segmentsAt (level + token.kind.nesting + depth tokens) item = [item] := by
        simpa [Int.add_assoc] using h
      obtain ⟨front, last, hf, hl⟩ := ih hrest
      rw [segmentsAt_cons hs, segmentsAt_cons hs, hf, hl]
      cases front with
      | nil => exact ⟨[], token :: last, rfl, rfl⟩
      | cons first front => exact ⟨(token :: first) :: front, last, rfl, rfl⟩

/-- A separator outside all brackets cuts a list. -/
theorem segmentsAt_append_separator (tokens : List Token) (hd : level + depth tokens = 0)
    (hs : separator.kind = .separator) :
    segmentsAt level (tokens ++ separator :: behind) = segmentsAt level tokens ++ segmentsAt 0 behind := by
  induction tokens generalizing level with
  | nil =>
    obtain rfl : level = 0 := by simpa using hd
    exact segmentsAt_separator hs
  | cons token tokens ih =>
    rw [List.cons_append]
    by_cases ht : level = 0 ∧ token.kind = .separator
    · obtain ⟨rfl, hk⟩ := ht
      rw [segmentsAt_separator hk, segmentsAt_separator hk, ih (by simpa [hk] using hd), List.cons_append]
    · rw [segmentsAt_cons ht, segmentsAt_cons ht, ih (by simpa [Int.add_assoc] using hd)]
      cases hf : segmentsAt (level + token.kind.nesting) tokens with
      | nil => exact absurd hf (segmentsAt_ne_nil _ _)
      | cons first others => rfl

/-- Behind every segment but the last stands a separator that is outside all brackets. -/
theorem exists_separator_of_lt {count : Nat} (h : count + 1 < (segmentsAt level tokens).length) :
    ∃ before separator behind, tokens = before ++ separator :: behind ∧ separator.kind = .separator ∧
      level + depth before = 0 ∧ segmentsAt level before = (segmentsAt level tokens).take (count + 1) := by
  induction tokens generalizing level count with
  | nil => exact absurd h (by simp [segmentsAt])
  | cons token tokens ih =>
    by_cases hs : level = 0 ∧ token.kind = .separator
    · obtain ⟨rfl, hk⟩ := hs
      rw [segmentsAt_separator hk] at h ⊢
      cases count with
      | zero => exact ⟨[], token, tokens, rfl, hk, rfl, rfl⟩
      | succ count =>
        obtain ⟨before, separator, behind, rfl, hk', hd, hf⟩ := ih (Nat.lt_of_succ_lt_succ h)
        refine ⟨token :: before, separator, behind, rfl, hk', by simpa [hk] using hd, ?_⟩
        rw [segmentsAt_separator hk, hf, List.take_succ_cons]
    · rw [segmentsAt_cons hs] at h ⊢
      obtain ⟨before, separator, behind, rfl, hk, hd, hf⟩ := ih (by simpa using h)
      refine ⟨token :: before, separator, behind, rfl, hk, by simpa [Int.add_assoc] using hd, ?_⟩
      rw [segmentsAt_cons hs, hf]
      cases segmentsAt (level + token.kind.nesting) (before ++ separator :: behind) <;> rfl

end

/-! ## Compact parts -/

/-- Tokens that count as one thing in a bracket: a single one, or a bracket with all that stands in it. -/
structure Compact (item : List Token) : Prop where
  ne_nil : item ≠ []
  balanced : Balanced item
  segments_eq : segments item = [item]

theorem compact_singleton {token : Token} (hn : token.kind.nesting = 0) (hs : token.kind ≠ .separator) :
    Compact [token] where
  ne_nil := List.cons_ne_nil _ _
  balanced := balanced_singleton hn
  segments_eq := by
    rw [segments, segmentsAt_cons fun h => hs h.2]
    rfl

theorem Balanced.compact {opening closing : Token} {inside : List Token} (ho : opening.kind = .openBracket)
    (h : Balanced inside) (hc : closing.kind = .closeBracket) : Compact (opening :: (inside ++ [closing])) where
  ne_nil := List.cons_ne_nil _ _
  balanced := h.enclose ho hc
  segments_eq := by
    refine KeepsOpen.segmentsAt_opening ho h.nonneg ?_ (Int.le_refl 0)
    intro token ht hs
    rw [List.mem_singleton.1 ht, hc] at hs
    cases hs

end Formula
