import Formula.Proofs.Layout
import Formula.Proofs.Reordering
import Formula.Settings

/-!
# Names are found again

A name is looked up up to three times: when its token is read, when the bracket of its call is opened, and when it is
evaluated. The questions differ. For an operator, the reader goes by the token before it, and evaluation by the arity in
the token; for a function, rearranging goes by the token before the bracket, and evaluation by the token itself. The
answers agree (`Evaluation.known_of_compile`): evaluation finds every name in a text that compiles, an operator with as
many operands as its token tells, and a function with the definition by which the number of its arguments was judged.

What is read is known (`Infix.known_of_read`), and rearranging adds no token and leaves nothing structural
(`Postfix.known_of_ofInfix`). A step of evaluation on a known token fails only for the values that it meets
(`Evaluation.values_step`).
-/

namespace Formula

/-- Evaluation knows what to do with a token of the kind: it is an operand, or its name is registered, an operator with
as many operands as the token tells. -/
inductive Registry.Knows (registry : Registry) : Token.Kind → Prop
  | leaf {kind : Token.Kind} (h : kind.isLeaf = true) : Knows registry kind
  | operator {symbol : String} {arity : Int} {op : Operator}
      (h : registry.resolveOperator (Token.Kind.operator symbol arity).fixity symbol = .ok op)
      (ha : (op.fixity.arity : Int) = arity) : Knows registry (.operator symbol arity)
  | function {name : String} {function : Function} (h : registry.resolveFunction name = .ok function) :
      Knows registry (.function name)

/-! ## Reading -/

namespace Infix

variable {registry : Registry} {before : Option Token.Kind} {position count : Nat} {first : Char} {rest : List Char}
  {kind : Token.Kind}

theorem not_lexeme_other (word shown name : String) (lexeme : List Char) :
    ¬Lexeme (.other word shown name) lexeme := by
  intro h
  generalize hkind : Token.Kind.other word shown name = kind at h
  cases h with
  | numeral | string => cases hkind
  | name hk =>
    subst hkind
    cases hk

/-- An operator is looked up by what stands before it, and its token tells the arity of what is found. -/
theorem HeadToken.known (h : HeadToken registry before first rest kind count) :
    kind.isStructural = true ∨ registry.Knows kind := by
  cases kind with
  | number value => exact .inr (.leaf rfl)
  | text quote content => exact .inr (.leaf rfl)
  | var name => exact .inr (.leaf rfl)
  | openBracket => exact .inl rfl
  | closeBracket => exact .inl rfl
  | separator => exact .inl rfl
  | operator symbol arity =>
    obtain ⟨op, hop, he⟩ := operatorKind_eq_ok.1 h.operator.2.2
    rw [← h.fixity] at hop
    exact .inr (.operator hop (Token.Kind.operator.inj he).2.symm)
  | function name =>
    obtain ⟨function, hf⟩ := h.function.1
    exact .inr (.function (Registry.resolveFunction_eq_ok.2 hf))
  | other word shown name => exact absurd h.isLexeme (not_lexeme_other word shown name _)

theorem known_of_read {text : String} {tokens : List Token} (h : read registry text = .ok tokens) :
    ∀ token ∈ tokens, token.kind.isStructural = true ∨ registry.Knows token.kind := by
  refine readFrom_induct (P := fun _ _ _ tokens =>
    ∀ token ∈ tokens, token.kind.isStructural = true ∨ registry.Knows token.kind) ?_ ?_ ?_ h
  · exact fun _ _ => List.forall_mem_nil _
  · exact fun _ ih => ih
  · exact fun _ hhead _ ih => List.forall_mem_cons.2 ⟨hhead.known, ih⟩

/-- Right behind a function that is read, an opening bracket is read. -/
theorem exists_opening_of_read {text : String} {front behind : List Token} {token : Token} {name : String}
    (h : read registry text = .ok (front ++ token :: behind)) (hk : token.kind = .function name) :
    ∃ opening later, behind = opening :: later ∧ opening.kind = .openBracket := by
  obtain ⟨pieces, trail, ht, -, htokens, hlaid⟩ := exists_laid h
  obtain ⟨early, piece, late, -, rfl, rfl, hspells, hlate⟩ := hlaid.exists_spells htokens.symm
  obtain hk : piece.kind = .function name := hk
  rw [hk] at hspells
  obtain ⟨later, hlater⟩ := hlate.exists_opening ht hspells.function _
  exact ⟨_, later, hlater, rfl⟩

end Infix

/-! ## Rearranging -/

namespace Postfix

/-- Where the call of the token ends, the number of its arguments was compared with what the function takes. -/
inductive CheckedAgainst (registry : Registry) (tokens : List Token) (called : Token) (function : Function) : Prop
  | call {front inside behind out : List Token} {opening closing : Token} {state : State} {bracket : Bracket}
      {outer : List Bracket} (ht : tokens = front ++ called :: opening :: (inside ++ closing :: behind))
      (ho : opening.kind = .openBracket) (hi : Balanced inside) (hc : closing.kind = .closeBracket)
      (hr : State.start.run registry (front ++ called :: opening :: inside) = .ok (out, state))
      (hb : state.brackets = bracket :: outer) (hcall : bracket.call = some function) (hcheck : bracket.check = .ok ())
      (hcount : bracket.argumentCount = function.arity)

variable {registry : Registry} {text : String} {tokens output : List Token} {token : Token} {name : String}

/-- The bracket of a call is judged by the function that the name stands for. -/
theorem exists_checkedAgainst (hr : Infix.read registry text = .ok tokens) (ho : ofInfix registry tokens = .ok output)
    (hm : token ∈ tokens) (hk : token.kind = .function name) :
    ∃ function, registry.resolveFunction name = .ok function ∧ CheckedAgainst registry tokens token function := by
  obtain ⟨front, behind, rfl⟩ := List.append_of_mem hm
  obtain ⟨opening, later, rfl, hopening⟩ := Infix.exists_opening_of_read hr hk
  obtain ⟨⟨out, last⟩, hrun, h⟩ := exists_of_bind_eq_ok ho
  obtain ⟨rest, hfinish, -⟩ := exists_of_bind_eq_ok h
  -- Since the list is rearranged, its brackets are balanced, and so the bracket of the call is closed.
  have hb : Balanced (front ++ token :: opening :: later) :=
    ((State.describes_run hrun).finish_iff (State.wellNested_run hrun)).1 ⟨rest, hfinish⟩
  have hsplit : front ++ token :: opening :: later = (front ++ [token]) ++ opening :: later := by simp
  rw [hsplit] at hb
  obtain ⟨inside, closing, behind, rfl, hclosing, hi⟩ := hb.exists_closing hopening
  have hcut : front ++ token :: opening :: (inside ++ closing :: behind) =
      (front ++ token :: opening :: inside) ++ closing :: behind := by simp
  rw [hcut] at hrun
  obtain ⟨given, middle, more, hmiddle, hclose, -⟩ := State.exists_of_run_append hrun
  obtain ⟨letGo, next, others, hstep, -⟩ := State.exists_of_run_cons hclose
  obtain ⟨held, below, function, outer, -, hbrackets, hf, hfills, -⟩ :=
    State.exists_of_closed_call hmiddle hstep hk hopening hi hclosing
  refine ⟨function, Registry.resolveFunction_eq_ok.2 hf, ?_⟩
  refine .call rfl hopening hi hclosing hmiddle hbrackets rfl (Bracket.check_call.2 hfills) ?_
  rw [Bracket.argumentCount_holding]
  exact hfills.2

/-- What is left of a text in postfix order is known. -/
theorem known_of_ofInfix (hr : Infix.read registry text = .ok tokens) (ho : ofInfix registry tokens = .ok output) :
    ∀ token ∈ output, registry.Knows token.kind := by
  intro token ht
  have hplain := (leaves_of_ofInfix ho).2 token ht
  rcases Infix.known_of_read hr token (mem_of_ofInfix ho ht hplain) with hs | hk
  · rw [hplain] at hs
    cases hs
  · exact hk

end Postfix

/-! ## Evaluating -/

namespace Evaluation

open Fault

variable {registry : Registry} {environment : Environment} {token : Token} {tokens : List Token}

theorem values_ask (h : registry.Knows token.kind) (stack : List Operand) :
    FailsOnly isOfValues (ask registry environment stack token) := by
  obtain ⟨kind, position⟩ := token
  cases h with
  | leaf hl =>
    cases kind with
    | number value => exact .ok _ _
    | text quote content => exact .ok _ _
    | var name => exact (values_lookUp name).bind fun _ => .ok _ _
    | operator | function | openBracket | closeBracket | separator | other => cases hl
  | @operator symbol arity op hop =>
    simp only [ask, hop]
    refine (values_takeOperands symbol _ stack).bind fun (operands, below) => ?_
    dsimp only
    split
    · exact .error trivial
    · exact .ok _ _
  | @function name function hf =>
    simp only [ask, hf]
    exact (values_takeOperands name _ stack).bind fun _ => .ok _ _

/-- On a known token, a step fails only for the values that it meets, or with what a callable raises. -/
theorem values_step (h : registry.Knows token.kind) (stack : List Operand) :
    FailsOnly (fun fault => fault.isOfValues ∨ registry.Raises fault) (step registry environment stack token) := by
  rw [step_eq]
  refine ((values_ask h stack).mono fun _ => Or.inl).bind_of_ok fun asked ha => ?_
  cases asked with
  | operand operand => exact .ok _ _
  | call name callable args below => exact (values_invoke (registers_of_ask ha) name args).bind fun _ => .ok _ _

theorem values_evaluate (h : ∀ token ∈ tokens, registry.Knows token.kind) :
    FailsOnly (fun fault => fault.isOfValues ∨ registry.Raises fault) (evaluate registry environment tokens) := by
  refine (FailsOnly.foldlM (fun token ht stack => values_step (h token ht) stack) []).bind fun stack => ?_
  exact (values_result stack).mono fun _ => Or.inl

/-- **Every name in a text that compiles is known to evaluation.** In no environment evaluation fails for a name that
is unknown, for a token that is structural or for one of an unknown kind, unless a registered callable raises the fault.
An operator is found with as many operands as its token tells, and a function is the one that the number of arguments in
its call was compared with. -/
theorem known_of_compile (registry : Registry) (text : String) (output : List Token)
    (h : Postfix.compile registry text = .ok output) :
    (∀ environment fault, evaluate registry environment output = .error fault →
      fault.label? ≠ some "UnknownTokenError" ∧ (∀ name, fault ≠ .malformed (.structuralToken name)) ∧
      (∀ shown, fault ≠ .malformed (.unknownKind shown)) ∧
      ∀ refusal, fault = .refused refusal → registry.Raises fault) ∧
    (∀ token ∈ output, ∀ symbol arity, token.kind = .operator symbol arity →
      ∃ op, registry.resolveOperator token.kind.fixity symbol = .ok op ∧ (op.fixity.arity : Int) = arity) ∧
    ∀ token ∈ output, ∀ name, token.kind = .function name →
      ∃ function, registry.resolveFunction name = .ok function ∧
        ∃ tokens, Infix.read registry text = .ok tokens ∧ Postfix.CheckedAgainst registry tokens token function := by
  obtain ⟨tokens, hread, ho⟩ := exists_of_bind_eq_ok h
  have hknown := Postfix.known_of_ofInfix hread ho
  refine ⟨fun environment fault hfault => ?_, fun token ht symbol arity hk => ?_, fun token ht name hk => ?_⟩
  · -- A fault of values is none of those that are excluded, and none that is refused; what is refused is raised.
    rcases values_evaluate hknown fault hfault with hv | hr
    · refine ⟨?_, ?_, ?_, ?_⟩
      · cases fault with
        | unknownOperator | unknownFunction | refused => exact hv.elim
        | lexical | malformed | unboundVariable | definition | variableType | cacheEmpty => simp [label?]
      · rintro name rfl
        exact hv
      · rintro shown rfl
        exact hv
      · rintro refusal rfl
        exact hv.elim
    · obtain ⟨callable, args, refusal, -, -, -, rfl⟩ := id hr
      refine ⟨?_, ?_, ?_, fun _ _ => hr⟩
      · cases refusal <;> simp [label?]
      · intro name h
        cases h
      · intro shown h
        cases h
  · have hknows := hknown token ht
    rw [hk] at hknows ⊢
    cases hknows with
    | leaf hl => cases hl
    | operator hop ha => exact ⟨_, hop, ha⟩
  · have hm : token ∈ tokens := Postfix.mem_of_ofInfix ho ht (by rw [hk]; rfl)
    obtain ⟨function, hf, hc⟩ := Postfix.exists_checkedAgainst hread ho hm hk
    exact ⟨function, hf, tokens, hread, hc⟩

/-- A text may compile though it is no phrase. -/
theorem known_of_compile_dangling :
    let registry : Registry := .standard .shipped true
    let output : List Token :=
      [⟨.number 1, some 5⟩, ⟨.number 2, some 7⟩, ⟨.var "x", some 10⟩, ⟨.function "max", some 1⟩,
        ⟨.operator "-" 1, some 0⟩, ⟨.operator "+" 2, some 13⟩]
    Postfix.compile registry "-max(1 2, x) +" = .ok output ∧
      (∀ environment fault, evaluate registry environment output = .error fault →
        fault.label? ≠ some "UnknownTokenError") ∧
      (∃ op, registry.resolveOperator .unary "-" = .ok op ∧ (op.fixity.arity : Int) = 1) ∧
      ∃ function, registry.resolveFunction "max" = .ok function ∧
        ∃ tokens, Infix.read registry "-max(1 2, x) +" = .ok tokens ∧
          Postfix.CheckedAgainst registry tokens ⟨.function "max", some 1⟩ function := by
  intro registry output
  have hcompile : Postfix.compile registry "-max(1 2, x) +" = .ok output := eq_ok_of_toOption (by decide +kernel)
  obtain ⟨hfaults, hoperators, hfunctions⟩ := known_of_compile registry _ output hcompile
  have hsign : (⟨.operator "-" 1, some 0⟩ : Token) ∈ output := by simp [output]
  have hcalled : (⟨.function "max", some 1⟩ : Token) ∈ output := by simp [output]
  refine ⟨hcompile, fun environment fault hf => (hfaults environment fault hf).1, ?_, ?_⟩
  · exact hoperators _ hsign "-" 1 rfl
  · exact hfunctions _ hcalled "max" rfl

end Evaluation

end Formula
