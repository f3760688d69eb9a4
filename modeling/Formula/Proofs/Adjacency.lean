import Formula.Proofs.HeadToken
import Formula.Proofs.MachineRun
import Mathlib.Data.List.Chain

/-!
# Tokens beside each other

In a list of tokens no operand stands directly behind another (`Alternates`) if wherever one ends there is an
operator, a closing bracket or a separator behind it. That holds of every expression of the grammar
(`Phrase.alternates`).

Reading a text sees to all else that two tokens beside each other must fulfil: an operator has the fixity that belongs
where it stands, and an opening bracket follows the name of a function. A text that is read as tokens without two
operands beside each other is read as a list in which every token may follow the one before it (`Succession`,
`Infix.succession_of_readFrom`).
-/

namespace Formula

open Infix

namespace Token.Kind

/-- Behind the token an operand is complete. -/
def endsOperand : Kind → Bool
  | .operator _ _ | .function _ | .openBracket | .separator => false
  | _ => true

/-- An operand begins with the token itself, and not with an operator before it. -/
def startsOperand : Kind → Bool
  | .number _ | .text _ _ | .var _ | .function _ | .openBracket => true
  | _ => false

end Token.Kind

theorem startsOperand_of_isLeaf {kind : Token.Kind} (h : kind.isLeaf = true) : kind.startsOperand = true := by
  cases kind with
  | number | text | var => rfl
  | _ => cases h

theorem endsOperand_of_isLeaf {kind : Token.Kind} (h : kind.isLeaf = true) : kind.endsOperand = true := by
  cases kind with
  | number | text | var => rfl
  | _ => cases h

/-- No operand stands directly behind another. -/
def Alternates (tokens : List Token) : Prop :=
  tokens.IsChain fun token next => token.kind.endsOperand = true → next.kind.startsOperand = false

instance (tokens : List Token) : Decidable (Alternates tokens) := inferInstanceAs (Decidable (List.IsChain _ _))

/-! ## Expressions -/

section

variable {registry : Registry}

theorem startsOperand_of_operatorOf? {fixity : Fixity} {kind : Token.Kind} {op : Operator}
    (h : registry.operatorOf? fixity kind = some op) : kind.startsOperand = false ∧ kind.endsOperand = false := by
  obtain ⟨symbol, arity, rfl, -⟩ := Registry.operatorOf?_eq_some.1 h
  exact ⟨rfl, rfl⟩

/-- What stands behind an operand begins with an operator, if there is anything. -/
theorem Phrase.head_tail {tokens : List Token} (h : Phrase registry .tail tokens) :
    ∀ token ∈ tokens.head?, token.kind.startsOperand = false := by
  cases h with
  | nothing => simp
  | more h _ => simpa using (startsOperand_of_operatorOf? h).1

/-- **In an expression no operand stands directly behind another.** -/
theorem Phrase.alternates {part : Part} {tokens : List Token} (h : Phrase registry part tokens) :
    Alternates tokens := by
  unfold Alternates
  induction h with
  | leaf h => exact .singleton _
  | sign h _ ih =>
    refine List.isChain_cons.2 ⟨fun next _ he => ?_, ih⟩
    rw [(startsOperand_of_operatorOf? h).2] at he
    cases he
  | brackets ho _ hc ih =>
    refine List.isChain_cons.2 ⟨fun next _ he => ?_, List.isChain_append.2 ⟨ih, .singleton _, ?_⟩⟩
    · rw [ho] at he
      cases he
    · simp [hc, Token.Kind.startsOperand]
  | call hk _ ho _ hc ih =>
    refine List.isChain_cons.2 ⟨fun next _ he => ?_, List.isChain_cons.2 ⟨fun next _ he => ?_,
      List.isChain_append.2 ⟨ih, .singleton _, ?_⟩⟩⟩
    · rw [hk] at he
      cases he
    · rw [ho] at he
      cases he
    · simp [hc, Token.Kind.startsOperand]
  | expression _ tail ih iht =>
    exact List.isChain_append.2 ⟨ih, iht, fun token _ next hn _ => tail.head_tail next hn⟩
  | nothing => exact .nil
  | more h _ ih =>
    refine List.isChain_cons.2 ⟨fun next _ he => ?_, ih⟩
    rw [(startsOperand_of_operatorOf? h).2] at he
    cases he
  | noArgument => exact .nil
  | argument _ ih => exact ih
  | separated _ hs _ ih iha =>
    refine List.isChain_append.2 ⟨ih, List.isChain_cons.2 ⟨fun next _ he => ?_, iha⟩, ?_⟩
    · rw [hs] at he
      cases he
    · simp [hs, Token.Kind.startsOperand]

end

/-! ## Texts that are read -/

/-- The token may follow the one before it. -/
structure Follows (before : Option Token.Kind) (kind : Token.Kind) : Prop where
  fixity : ∀ symbol arity, kind = .operator symbol arity →
    kind.fixity = if expectsOperand before then .unary else .binary
  opening : ∀ name, before = some (.function name) → kind = .openBracket
  operand : kind.startsOperand = true → ∀ previous ∈ before, previous.endsOperand = false

namespace Follows

variable {registry : Registry} {before : Option Token.Kind} {kind : Token.Kind} {op : Operator}

theorem notCalling (h : Follows before kind) (hk : kind ≠ .openBracket) : Postfix.NotCalling before :=
  fun name hn => hk (h.opening name hn)

theorem expects (h : Follows before kind) (hs : kind.startsOperand = true) (hn : Postfix.NotCalling before) :
    expectsOperand before = true := by
  cases before with
  | none => rfl
  | some previous =>
    have he := h.operand hs previous rfl
    cases previous with
    | operator | openBracket | separator => rfl
    | function name => exact absurd rfl (hn name)
    | _ => cases he

theorem expects_unary (h : Follows before kind) (ho : registry.operatorOf? .unary kind = some op) :
    expectsOperand before = true := by
  obtain ⟨symbol, arity, hk, hf, -⟩ := Registry.operatorOf?_eq_some.1 ho
  have hfixity := h.fixity symbol arity hk
  rw [hf] at hfixity
  cases he : expectsOperand before with
  | true => rfl
  | false => simp [he] at hfixity

theorem not_expects_binary (h : Follows before kind) (ho : registry.operatorOf? .binary kind = some op) :
    expectsOperand before = false := by
  obtain ⟨symbol, arity, hk, hf, -⟩ := Registry.operatorOf?_eq_some.1 ho
  have hfixity := h.fixity symbol arity hk
  rw [hf] at hfixity
  cases he : expectsOperand before with
  | false => rfl
  | true => simp [he] at hfixity

end Follows

/-- Every token may follow the one before it, and behind the last one no opening bracket is missing. -/
def Succession (before : Option Token.Kind) : List Token → Prop
  | [] => Postfix.NotCalling before
  | token :: tokens => Follows before token.kind ∧ Succession (some token.kind) tokens

namespace Infix

variable {registry : Registry} {before : Option Token.Kind} {position count : Nat} {rest text : List Char}
  {tokens : List Token} {kind : Token.Kind}

theorem HeadToken.opening (h : HeadToken registry before '(' rest kind count) : kind = .openBracket := by
  cases h with
  | numeral hn => cases hn
  | string hn hq => cases hq
  | word hn hq hw => cases hw
  | structural hn hq hw hs => exact (Option.some.inj hs).symm
  | symbol hn hq hw hs => cases hs

theorem HeadToken.fixity {first : Char} {symbol : String} {arity : Int}
    (h : HeadToken registry before first rest (.operator symbol arity) count) :
    (Token.Kind.operator symbol arity).fixity = if expectsOperand before then .unary else .binary := by
  obtain ⟨-, -, hk⟩ := h.operator
  obtain ⟨op, ho, he⟩ := operatorKind_eq_ok.1 hk
  rw [← (Registry.resolveOperator_ok ho).2, he]
  cases op.fixity <;> rfl

/-- A text behind the name of a function must go on with an opening bracket. -/
theorem succession_of_readFrom (h : readFrom registry registry.symbols before position text = .ok tokens)
    (hb : ∀ name, before = some (.function name) → text.head? = some '(') (ha : Alternates tokens)
    (hh : ∀ token ∈ tokens.head?, token.kind.startsOperand = true → ∀ previous ∈ before, previous.endsOperand = false) :
    Succession before tokens := by
  refine readFrom_induct (P := fun before position text tokens =>
    (∀ name, before = some (.function name) → text.head? = some '(') → Alternates tokens →
    (∀ token ∈ tokens.head?, token.kind.startsOperand = true → ∀ previous ∈ before, previous.endsOperand = false) →
    Succession before tokens) ?_ ?_ ?_ h hb ha hh
  · intro before position hb _ _ name hn
    cases hb name hn
  · intro before position first rest tokens hblank ih hb ha hh
    refine ih (fun name hn => ?_) ha hh
    obtain rfl : first = '(' := by simpa using hb name hn
    cases hblank
  · intro before position first rest kind count tokens hblank hhead _ ih hb ha hh
    obtain ⟨hnext, ha⟩ := List.isChain_cons.1 ha
    refine ⟨⟨fun symbol arity hk => ?_, fun name hn => ?_, hh _ rfl⟩, ih ?_ ha ?_⟩
    · obtain rfl : kind = .operator symbol arity := hk
      exact hhead.fixity
    · obtain rfl : first = '(' := by simpa using hb name hn
      exact hhead.opening
    · intro name hn
      obtain rfl : kind = .function name := Option.some.inj hn
      exact hhead.function.2
    · intro token ht hs previous hp
      obtain rfl : kind = previous := by simpa using hp
      cases he : kind.endsOperand with
      | false => rfl
      | true => rw [hnext token ht he] at hs; cases hs

end Infix

end Formula
