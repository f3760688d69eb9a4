import Formula.Proofs.Alternation
import Formula.Proofs.Rendering
import Mathlib.Data.List.Forall2

/-!
# Lists that are shown alike

The postfix order of an expression is shown as the texts of its tokens with one blank between two. The texts are found
again in it, unless a string contains its own quote with a blank behind it, and so two lists are shown alike just if
their tokens are, one by one (`Token.renderTokens_eq_iff_forall₂`).

A function and a variable of one name are shown alike, but no expression is made of another by such a change alone: an
expression stands for one operand in all (`Phrase.totalWeight`), and a function takes operands away where a variable
adds one. So if one list has a function where the other has a variable, somewhere else it is the other way round
(`Registry.likeness_eq_of_totalWeight_eq`).
-/

namespace Formula

variable {registry : Registry} {settings : Settings} {raises : Bool} {tokens output others : List Token} {text : String}

/-! ## Counting the operands of an expression -/

/-- How many operands a part of an expression stands for. -/
def Part.weight : Part → Int
  | .expression | .operand => 1
  | .tail => 0
  | .arguments count => count

theorem Phrase.totalWeight {part : Part} (h : Phrase registry part tokens) :
    registry.totalWeight tokens = part.weight := by
  induction h with
  | leaf h => simp [Registry.weight_leaf h, Part.weight]
  | sign h operand ih =>
    rw [Registry.totalWeight_cons, Registry.weight_operator h, ih]
    rfl
  | brackets ho expression hc ih => simp [ho, hc, ih, Part.weight]
  | call hk hf ho arguments hc ih => simp [Registry.weight_function hk hf, ho, hc, ih, Part.weight]
  | expression operand tail iho iht => simp [iho, iht, Part.weight]
  | more h expression ih =>
    rw [Registry.totalWeight_cons, Registry.weight_operator h, ih]
    rfl
  | nothing | noArgument => rfl
  | argument expression ih => rw [ih]; rfl
  | separated expression hs arguments ihe iha =>
    simp only [Registry.totalWeight_append, Registry.totalWeight_cons, hs, Registry.weight_separator, ihe, iha,
      Part.weight]
    push_cast
    omega

namespace Postfix

/-- The list is the postfix order of a text that is an expression. -/
def Derives (registry : Registry) (text : String) (output : List Token) : Prop :=
  ∃ tokens, Infix.read registry text = .ok tokens ∧ Phrase registry .expression tokens ∧
    ofInfix registry tokens = .ok output

/-- A text is an expression just if its operands and operators alternate and stand for one operand in all. -/
theorem derives_iff : Derives registry text output ↔
    ∃ tokens, Infix.read registry text = .ok tokens ∧ Alternates tokens ∧ ofInfix registry tokens = .ok output ∧
      registry.totalWeight output = 1 := by
  constructor
  · rintro ⟨tokens, hread, h, ho⟩
    exact ⟨tokens, hread, h.alternates, ho, by rw [totalWeight_of_ofInfix ho, h.totalWeight, Part.weight]⟩
  · rintro ⟨tokens, hread, ha, ho, hw⟩
    rw [totalWeight_of_ofInfix ho] at hw
    refine ⟨tokens, hread, phrase_of_totalWeight ho (Infix.succession_of_readFrom hread ?_ ha ?_) hw, ho⟩
    · intro name hn
      cases hn
    · intro token _ _ previous hp
      cases hp

instance (registry : Registry) (text : String) (output : List Token) : Decidable (Derives registry text output) :=
  match h : Infix.read registry text with
  | .error _ => isFalse fun ⟨_, hread, _⟩ => nomatch h.symm.trans hread
  | .ok tokens =>
    decidable_of_iff (Alternates tokens ∧ ofInfix registry tokens = .ok output ∧ registry.totalWeight output = 1) <| by
      simp [derives_iff, h]

end Postfix

/-! ## What is shown in postfix order -/

namespace Postfix

open Token.Kind

/-- A variable that is read is a word. -/
theorem isWord_of_read (h : Infix.read registry text = .ok tokens) :
    ∀ token ∈ tokens, ∀ name, token.kind = .var name → Text.isWord name.toList = true := by
  refine Infix.readFrom_induct (P := fun _ _ _ tokens => ∀ token ∈ tokens, ∀ name, token.kind = .var name →
    Text.isWord name.toList = true) ?_ ?_ ?_ h
  · exact fun _ _ => List.forall_mem_nil _
  · exact fun _ ih => ih
  · intro before position first rest kind count tokens hb hhead hrest ih
    refine List.forall_mem_cons.2 ⟨?_, ih⟩
    rintro name rfl
    exact hhead.var

theorem isShown_of_ofInfix (hr : Infix.read (.standard settings raises) text = .ok tokens)
    (ho : ofInfix (.standard settings raises) tokens = .ok output) :
    ∀ token ∈ output, token.kind.IsShown settings := by
  intro token ht
  have hknown := known_of_ofInfix hr ho token ht
  have hword := isWord_of_read hr token (mem_of_ofInfix ho ht ((leaves_of_ofInfix ho).2 token ht))
  obtain ⟨kind, position⟩ := token
  cases hknown with
  | leaf hl =>
    cases kind with
    | number x => exact .number x
    | text quote content => exact .text quote content
    | var name => exact .var (hword name rfl)
    | _ => cases hl
  | @operator symbol arity op hop ha =>
    obtain ⟨hsymbol, -⟩ := Registry.resolveOperator_ok hop
    have hm := Registry.mem_standardOperators (Table.mem_of_find? (Registry.resolveOperator_eq_ok.1 hop))
    rw [← hsymbol, ← ha]
    exact .operator hm
  | function hf =>
    have hfind := Registry.resolveFunction_eq_ok.1 hf
    rw [← Table.key_of_find? hfind]
    exact .function (Registry.mem_standardFunctions hfind)

end Postfix

/-! ## Lists that are shown alike -/

theorem toList_renderTokens (tokens : List Token) :
    (renderTokens tokens).toList = [' '].intercalate (tokens.map fun token => token.kind.render.toList) := by
  rw [renderTokens, String.toList_intercalate, List.map_map]
  rfl

section

variable {α β : Type} {items others : List α}

theorem map_eq_iff_forall₂ {f : α → β} :
    items.map f = others.map f ↔ List.Forall₂ (fun item other => f item = f other) items others := by
  rw [← List.forall₂_eq_eq_eq, List.forall₂_map_left_iff, List.forall₂_map_right_iff]

theorem forall₂_imp_of_mem {R S : α → α → Prop} (h : List.Forall₂ R items others)
    (hi : ∀ item ∈ items, ∀ other ∈ others, R item other → S item other) : List.Forall₂ S items others := by
  obtain ⟨hlength, hzip⟩ := List.forall₂_iff_zip.1 h
  refine List.forall₂_iff_zip.2 ⟨hlength, fun hm => ?_⟩
  obtain ⟨hitem, hother⟩ := List.of_mem_zip hm
  exact hi _ hitem _ hother (hzip hm)

end

namespace Token

open Kind

/-- The token can be told from what stands behind it where it is shown. -/
def IsTold (settings : Settings) (token : Token) : Prop := token.kind.IsShown settings ∧ ¬ token.kind.EndsItself

/-- Lists of tokens are shown alike just if their tokens are, one by one. -/
theorem renderTokens_eq_iff_forall₂ (h : ∀ token ∈ output, token.IsTold settings)
    (ho : ∀ token ∈ others, token.IsTold settings) :
    renderTokens output = renderTokens others ↔
      List.Forall₂ (fun token other => Resembles token.kind other.kind) output others := by
  have hcells : ∀ {tokens : List Token}, (∀ token ∈ tokens, token.IsTold settings) →
      ∀ cell ∈ tokens.map fun token => token.kind.render.toList, IsCell cell := by
    intro tokens h
    exact List.forall_mem_map.2 fun token ht => isCell_render (h token ht).1 (h token ht).2
  constructor
  · intro he
    rw [← String.toList_inj, toList_renderTokens, toList_renderTokens] at he
    have hlist := map_eq_iff_forall₂.1 (eq_of_intercalate_eq (hcells h) (hcells ho) he)
    exact forall₂_imp_of_mem hlist fun token ht other hm hrender =>
      resembles_of_render_eq (h token ht).1 (ho other hm).1 (String.toList_inj.1 hrender)
  · intro hforall
    rw [renderTokens, renderTokens, map_eq_iff_forall₂.2 (hforall.imp fun _ _ => Resembles.render_eq)]

end Token

/-! ## Weights of tokens that are shown alike -/

namespace Registry

open Token.Kind

variable {kind other : Token.Kind}

theorem weight_eq_of_likeness_eq (h : kind.likeness = other.likeness) :
    registry.weight kind = registry.weight other := by
  obtain rfl | ⟨x, y, rfl, rfl, -⟩ := likeness_eq_iff.1 h
  · rfl
  · rfl

/-- A standard function takes at least one operand. -/
theorem weight_function_lt_var (raises : Bool) {name : String} (h : IsShown settings (.function name)) :
    (standard settings raises).weight (.function name) < (standard settings raises).weight (.var name) := by
  cases h with
  | @function function h =>
    rw [weight_function rfl (find?_standardFunctions settings h raises), weight_leaf rfl]
    have harity : 0 < function.arity := by
      simp only [standardFunctions, List.mem_cons, List.not_mem_nil, or_false] at h
      rcases h with rfl | rfl | rfl | rfl | rfl | rfl | rfl | rfl | rfl | rfl | rfl <;> decide
    omega

/-- Lists of one weight are alike, if every token that is not like the one in its place weighs less. -/
theorem likeness_eq_of_totalWeight_eq
    (h : List.Forall₂ (fun token other => token.kind.likeness = other.kind.likeness ∨
      registry.weight token.kind < registry.weight other.kind) output others) :
    registry.totalWeight output ≤ registry.totalWeight others ∧
      (registry.totalWeight output = registry.totalWeight others →
        output.map (·.kind.likeness) = others.map (·.kind.likeness)) := by
  induction h with
  | nil => exact ⟨Int.le_refl _, fun _ => rfl⟩
  | cons hfirst _ ih =>
    obtain ⟨hle, hlist⟩ := ih
    rw [totalWeight_cons, totalWeight_cons, List.map_cons, List.map_cons]
    rcases hfirst with halike | hlt
    · rw [weight_eq_of_likeness_eq halike, halike]
      exact ⟨by omega, fun he => by rw [hlist (by omega)]⟩
    · exact ⟨by omega, fun he => absurd he (by omega)⟩

end Registry

/-! ## Expressions that are shown alike -/

namespace Postfix

open Token.Kind

/-- No variable of the first list has the name of a function of the other one, and no variable of either has the name of
a number of the other. -/
structure NamedApart (output others : List Token) : Prop where
  noFunction : ∀ name, .var name ∈ output.map Token.kind → .function name ∉ others.map Token.kind
  noNumber : ∀ x, .var (numberName x) ∈ output.map Token.kind → .number x ∉ others.map Token.kind
  noVariable : ∀ x, .number x ∈ output.map Token.kind → .var (numberName x) ∉ others.map Token.kind

theorem Derives.isShown (h : Derives (.standard settings raises) text output) :
    ∀ token ∈ output, token.kind.IsShown settings := by
  obtain ⟨tokens, hread, -, ho⟩ := h
  exact isShown_of_ofInfix hread ho

theorem Derives.totalWeight_eq (h : Derives registry text output) : registry.totalWeight output = 1 := by
  obtain ⟨tokens, -, -, -, hw⟩ := derives_iff.1 h
  exact hw

/-- **Which expressions are shown alike.** If no string ends itself, the postfix orders of two expressions are shown
alike just if their tokens resemble each other, one by one. If besides no variable of the first has the name of a
function of the other, and none of either has the name of a number of the other, they are shown alike just if they are
alike. -/
theorem renderTokens_eq_iff (settings : Settings) (raises : Bool) (text other : String) (output others : List Token)
    (h : Derives (.standard settings raises) text output) (ho : Derives (.standard settings raises) other others)
    (hs : ∀ token ∈ output ++ others, ¬ token.kind.EndsItself) :
    (renderTokens output = renderTokens others ↔
      List.Forall₂ (fun token other => Resembles token.kind other.kind) output others) ∧
    (NamedApart output others → (renderTokens output = renderTokens others ↔
      output.map (·.kind.likeness) = others.map (·.kind.likeness))) := by
  obtain ⟨hs, hs'⟩ := List.forall_mem_append.1 hs
  have hshown := h.isShown
  have hiff := Token.renderTokens_eq_iff_forall₂ (fun token ht => ⟨hshown token ht, hs token ht⟩)
    fun token ht => ⟨ho.isShown token ht, hs' token ht⟩
  refine ⟨hiff, fun hapart => ⟨fun he => ?_, fun he => hiff.2 ?_⟩⟩
  · refine (Registry.likeness_eq_of_totalWeight_eq (forall₂_imp_of_mem (hiff.1 he) ?_)).2
      (h.totalWeight_eq.trans ho.totalWeight_eq.symm)
    rintro ⟨kind, _⟩ ht ⟨kind', _⟩ ht' hresembles
    have hm := List.mem_map_of_mem (f := Token.kind) ht
    have hm' := List.mem_map_of_mem (f := Token.kind) ht'
    cases hresembles with
    | alike halike => exact .inl halike
    | functionVar name => exact .inr (Registry.weight_function_lt_var raises (hshown _ ht))
    | varFunction name => exact absurd hm' (hapart.noFunction name hm)
    | varNumber x => exact absurd hm' (hapart.noNumber x hm)
    | numberVar x => exact absurd hm' (hapart.noVariable x hm)
  · exact (map_eq_iff_forall₂.1 he).imp fun _ _ => .alike

/-- The postfix order of `max(-x, 'a b')*2`. -/
def maximum : List Token :=
  [⟨.var "x", some 5⟩, ⟨.operator "-" 1, some 4⟩, ⟨.text .single "a b", some 8⟩, ⟨.function "max", some 0⟩,
    ⟨.number 2.0, some 15⟩, ⟨.operator "*" 2, some 14⟩]

/-- The postfix order of the same expression with blanks in other places. -/
def maximumSpaced : List Token :=
  [⟨.var "x", some 6⟩, ⟨.operator "-" 1, some 4⟩, ⟨.text .single "a b", some 8⟩, ⟨.function "max", some 0⟩,
    ⟨.number 2.0, some 17⟩, ⟨.operator "*" 2, some 15⟩]

theorem renderTokens_eq_iff_spaced :
    Derives (.standard .shipped true) "max(-x, \x27a b\x27)*2" maximum ∧
    Derives (.standard .shipped true) "max(- x,\x27a b\x27) * 2.0" maximumSpaced ∧
    (∀ token ∈ maximum ++ maximumSpaced, ¬ token.kind.EndsItself) ∧ NamedApart maximum maximumSpaced ∧
    renderTokens maximum = renderTokens maximumSpaced := by
  have h : Derives (.standard .shipped true) "max(-x, \x27a b\x27)*2" maximum := by decide +kernel
  have ho : Derives (.standard .shipped true) "max(- x,\x27a b\x27) * 2.0" maximumSpaced := by decide +kernel
  have hs : ∀ token ∈ maximum ++ maximumSpaced, ¬ token.kind.EndsItself := by decide
  have hname : numberName 2.0 ≠ "x" := by decide +kernel
  have hapart : NamedApart maximum maximumSpaced := by
    constructor
    · simp [maximum, maximumSpaced]
    · intro x hx hm
      obtain rfl : x = 2.0 := by simpa [maximumSpaced] using hm
      exact hname (by simpa [maximum] using hx)
    · simp [maximum, maximumSpaced, hname]
  exact ⟨h, ho, hs, hapart, ((renderTokens_eq_iff _ _ _ _ _ _ h ho hs).2 hapart).2 rfl⟩

/-- The postfix orders of the two expressions are shown alike, but they are not alike. -/
def AreConfused (registry : Registry) (text other : String) : Prop :=
  ∃ output others, Derives registry text output ∧ Derives registry other others ∧
    renderTokens output = renderTokens others ∧ output.map (·.kind.likeness) ≠ others.map (·.kind.likeness)

/-- A variable with the name of a function, a number that is not finite, and strings that end themselves. -/
theorem areConfused_expressions :
    AreConfused (.standard .shipped true) "max(sin(x), sin)" "max(x, sin(sin))" ∧
    AreConfused (.standard .shipped true) "1e999" "inf" ∧
    AreConfused (.standard .shipped true) "max(\x27a\x27, \x27b\\\x27 \\\x27c\x27)"
      "max(\x27a\\\x27 \\\x27b\x27, \x27c\x27)" := by
  refine ⟨?names, ?numbers, ?strings⟩
  case names =>
    refine ⟨[⟨.var "x", some 8⟩, ⟨.function "sin", some 4⟩, ⟨.var "sin", some 12⟩, ⟨.function "max", some 0⟩],
      [⟨.var "x", some 4⟩, ⟨.var "sin", some 11⟩, ⟨.function "sin", some 7⟩, ⟨.function "max", some 0⟩], ?_⟩
    decide +kernel
  case numbers =>
    refine ⟨[⟨.number (1 / 0), some 0⟩], [⟨.var "inf", some 0⟩], ?_⟩
    decide +kernel
  case strings =>
    refine ⟨[⟨.text .single "a", some 4⟩, ⟨.text .single "b\x27 \x27c", some 9⟩, ⟨.function "max", some 0⟩],
      [⟨.text .single "a\x27 \x27b", some 4⟩, ⟨.text .single "c", some 15⟩, ⟨.function "max", some 0⟩], ?_⟩
    decide +kernel

end Postfix

end Formula
