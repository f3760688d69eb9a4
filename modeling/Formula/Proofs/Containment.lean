import Formula.Proofs.EvaluationStep
import Formula.Proofs.Nesting

/-!
# Faults are contained

Reading a text and rearranging tokens fail with faults of the expression only, whatever the text and the tokens are:
each of these is a fault of how the text is written or of a name in it (`Fault.isOfText`), and has a label under which
it is reported (`Fault.isLabelled`). Evaluation may also pass on what a registered callable refuses by a failure of its
own; complaints about arguments become faults of the expression.

Two facts make sure that nothing else can go wrong on the way. Where a bracket is closed, it waits on the stack, and
the function of a call waits right below it (`State.closing_finds`). And a result that is a number can only be
refused as a double for being out of range (`Value.kind_of_isNumeric`), which is the one refusal of a result that is
reported.
-/

namespace Formula

namespace Fault

/-- The fault is one of an expression. -/
def isLabelled (fault : Fault) : Prop := fault.label?.isSome = true

/-- The fault is one of how an expression is written, or of a name in it that stands for nothing. -/
def isOfText : Fault → Prop
  | .lexical _ _ | .malformed _ | .unknownOperator _ _ | .unknownFunction _ | .unboundVariable _ => True
  | _ => False

/-- The fault is one of values: a variable has none, or operands are missing or do not fit. Nothing is said of a name
or a kind of token that is not known. -/
def isOfValues : Fault → Prop
  | .malformed (.structuralToken _) | .malformed (.unknownKind _) => False
  | .malformed _ | .unboundVariable _ => True
  | _ => False

theorem isOfValues.isOfText {fault : Fault} (h : fault.isOfValues) : fault.isOfText := by
  cases fault with
  | malformed _ | unboundVariable _ => trivial
  | lexical _ _ | unknownOperator _ _ | unknownFunction _ | refused _ | definition _ | variableType _ _ | cacheEmpty =>
    exact h.elim

/-- The fault has the label of a malformed expression, or that of an unknown name, which is a special case of it. -/
def isOfArrangement (fault : Fault) : Prop :=
  fault.label? = some "IncorrectExpressionError" ∨ fault.label? = some "UnknownTokenError"

theorem isOfArrangement.isOfText {fault : Fault} (h : fault.isOfArrangement) : fault.isOfText := by
  cases fault with
  | malformed _ | unknownOperator _ _ | unknownFunction _ => trivial
  | lexical _ _ | unboundVariable _ | definition _ | variableType _ _ | cacheEmpty =>
    exact absurd h (by simp [isOfArrangement, label?])
  | refused refusal => cases refusal <;> exact absurd h (by simp [isOfArrangement, label?])

theorem isOfText.isLabelled {fault : Fault} (h : fault.isOfText) : fault.isLabelled := by
  cases fault with
  | lexical _ _ | malformed _ | unknownOperator _ _ | unknownFunction _ | unboundVariable _ => rfl
  | refused _ | definition _ | variableType _ _ | cacheEmpty => exact h.elim

end Fault

/-! ## Reading -/

namespace Infix

open Fault

variable (registry : Registry)

theorem arrangement_resolveOperator (fixity : Fixity) (symbol : String) :
    FailsOnly isOfArrangement (registry.resolveOperator fixity symbol) := by
  unfold Registry.resolveOperator
  split
  · exact .ok _ _
  · exact .error (.inr rfl)

theorem arrangement_resolveFunction (name : String) : FailsOnly isOfArrangement (registry.resolveFunction name) := by
  unfold Registry.resolveFunction
  split
  · exact .ok _ _
  · exact .error (.inr rfl)

theorem failsOnly_resolveOperator (fixity : Fixity) (symbol : String) :
    FailsOnly isOfText (registry.resolveOperator fixity symbol) :=
  (arrangement_resolveOperator registry fixity symbol).mono fun _ => isOfArrangement.isOfText

theorem failsOnly_resolveFunction (name : String) : FailsOnly isOfText (registry.resolveFunction name) :=
  (arrangement_resolveFunction registry name).mono fun _ => isOfArrangement.isOfText

theorem failsOnly_readNumeral (text : List Char) (position : Nat) :
    FailsOnly isOfText (Literal.readNumeral text position) := by
  unfold Literal.readNumeral
  dsimp only
  split
  · exact .error trivial
  · split
    · exact .ok _ _
    · exact .error trivial

theorem failsOnly_readString (quote : Quote) (rest : List Char) (position : Nat) :
    FailsOnly isOfText (Literal.readString quote rest position) := by
  unfold Literal.readString
  split
  · exact .ok _ _
  · exact .error trivial

theorem arrangement_operatorKind (before : Option Token.Kind) (symbol : String) :
    FailsOnly isOfArrangement (operatorKind registry before symbol) :=
  (arrangement_resolveOperator registry _ symbol).bind fun _ => .ok _ _

theorem arrangement_wordKind (symbols : List String) (before : Option Token.Kind) (word : String)
    (behind : List Char) : FailsOnly isOfArrangement (wordKind registry symbols before word behind) := by
  unfold wordKind
  split
  · exact (arrangement_resolveFunction registry word).bind fun _ => .ok _ _
  · split
    · exact arrangement_operatorKind registry before word
    · exact .ok _ _

theorem failsOnly_readToken (symbols : List String) (before : Option Token.Kind) (position : Nat) (first : Char)
    (rest : List Char) : FailsOnly isOfText (readToken registry symbols before position first rest) := by
  unfold readToken
  dsimp only
  split
  · exact failsOnly_readNumeral _ position
  · split
    · exact failsOnly_readString _ rest position
    · split
      · exact ((arrangement_wordKind registry symbols before _ _).mono fun _ => isOfArrangement.isOfText).bind
          fun _ => .ok _ _
      · split
        · exact .ok _ _
        · split
          · exact ((arrangement_operatorKind registry before _).mono fun _ => isOfArrangement.isOfText).bind
              fun _ => .ok _ _
          · exact .error trivial

theorem ofText_readFrom (symbols : List String) (before : Option Token.Kind) (position : Nat) (text : List Char) :
    FailsOnly isOfText (readFrom registry symbols before position text) := by
  fun_induction readFrom registry symbols before position text with
  | case1 => exact .ok _ _
  | case2 before position first rest hb ih => exact ih
  | case3 before position first rest hb fault h =>
    exact .error (failsOnly_readToken registry symbols before position first rest fault h)
  | case4 before position first rest hb kind count h fault hf ih => exact .error (ih fault hf)
  | case5 => exact .ok _ _

theorem failsOnly_readFrom (symbols : List String) (before : Option Token.Kind) (position : Nat) (text : List Char) :
    FailsOnly isLabelled (readFrom registry symbols before position text) :=
  (ofText_readFrom registry symbols before position text).mono fun _ => isOfText.isLabelled

end Infix

/-! ## Rearranging -/

namespace Postfix

open Fault

variable (registry : Registry)

theorem arrangement_check (bracket : Bracket) : FailsOnly isOfArrangement bracket.check := by
  unfold Bracket.check
  split
  · split
    · exact .error (.inl rfl)
    · exact .ok _ _
  · split
    · exact .error (.inl rfl)
    · split
      · exact .error (.inl rfl)
      · exact .ok _ _

theorem arrangement_place (previous : Option Token.Kind) (pending : List Pending) (brackets : List Bracket)
    (token : Token) : FailsOnly isOfArrangement (State.place registry previous pending brackets token) := by
  cases hk : token.kind with
  | number _ | text _ _ | var _ | function _ =>
    simp only [State.place, hk]
    exact .ok _ _
  | operator symbol arity =>
    simp only [State.place, hk]
    exact (Infix.arrangement_resolveOperator registry _ symbol).bind fun _ => .ok _ _
  | openBracket =>
    simp only [State.place, hk]
    split
    · exact (Infix.arrangement_resolveFunction registry _).map.bind fun _ => .ok _ _
    · exact .ok _ _
  | separator =>
    simp only [State.place, hk]
    split
    · exact .error (.inl rfl)
    · split
      · exact .error (.inl rfl)
      · split
        · exact .error (.inl rfl)
        · exact .ok _ _
  | closeBracket =>
    simp only [State.place, hk]
    split
    · exact .error (.inl rfl)
    · exact (arrangement_check _).bind fun _ => .ok _ _
  | other word shown name =>
    simp only [State.place, hk]
    exact .error (.inl rfl)

theorem arrangement_run (state : State) (tokens : List Token) :
    FailsOnly isOfArrangement (state.run registry tokens) := by
  induction tokens generalizing state with
  | nil => exact .ok _ _
  | cons token tokens ih =>
    have hstep : FailsOnly isOfArrangement (state.step registry token) :=
      (arrangement_place registry state.previous state.pending _ token).bind fun _ => .ok _ _
    exact hstep.bind fun next => (ih next.2).bind fun _ => .ok _ _

theorem arrangement_ofInfix (tokens : List Token) : FailsOnly isOfArrangement (ofInfix registry tokens) := by
  refine (arrangement_run registry .start tokens).bind fun result => .bind ?_ fun _ => .ok _ _
  unfold State.finish
  split
  · exact .error (.inl rfl)
  · exact .ok _ _

theorem ofText_ofInfix (tokens : List Token) : FailsOnly isOfText (ofInfix registry tokens) :=
  (arrangement_ofInfix registry tokens).mono fun _ => isOfArrangement.isOfText

theorem failsOnly_ofInfix (tokens : List Token) : FailsOnly isLabelled (ofInfix registry tokens) :=
  (ofText_ofInfix registry tokens).mono fun _ => isOfText.isLabelled

theorem ofText_compile (text : String) : FailsOnly isOfText (compile registry text) :=
  (Infix.ofText_readFrom registry registry.symbols none 0 text.toList).bind (ofText_ofInfix registry)

variable {registry}

/-- Where a bracket is closed, it waits on the stack, and the function of a call waits right below it. -/
theorem State.closing_finds {tokens out : List Token} {state : State} {bracket : Bracket} {outer : List Bracket}
    (h : State.start.run registry tokens = .ok (out, state)) (hb : state.brackets = bracket :: outer) :
    ∃ opening below, State.fromBracket state.pending = .bracket opening :: below ∧
      ∀ function ∈ bracket.call, ∃ called rest, below = .function called :: rest := by
  have hn := (State.wellNested_run h).nested
  rw [hb, List.map_cons] at hn
  cases hcall : bracket.call with
  | none =>
    obtain ⟨held, opening, below, hp, hh⟩ := hn.exists_bracket
    refine ⟨opening, below, ?_, by simp⟩
    rw [hp, State.fromBracket_append hh rfl]
  | some function =>
    obtain ⟨held, opening, called, name, below, hp, hh, -⟩ := Nested.exists_call (hcall ▸ hn)
    refine ⟨opening, .function called :: below, ?_, fun _ _ => ⟨called, below, rfl⟩⟩
    rw [hp, State.fromBracket_append hh rfl]

end Postfix

/-! ## Evaluating -/

/-- A complaint about arguments. -/
def Refusal.isComplaint : Refusal → Bool
  | .complaint _ => true
  | _ => false

/-- An operator or a function of the registry computes by the callable. -/
def Registry.Registers (registry : Registry) (callable : Callable) : Prop :=
  (∃ fixity symbol op, (registry.operators fixity).find? symbol = some op ∧ op.callable = callable) ∨
    ∃ name function, registry.functions.find? name = some function ∧ function.callable = callable

/-- A registered callable gives the fault in place of a value, and not as a complaint about its arguments. -/
def Registry.Raises (registry : Registry) (fault : Fault) : Prop :=
  ∃ callable args refusal, registry.Registers callable ∧ callable.call registry.divisionRaises args = .error refusal ∧
    refusal.isComplaint = false ∧ fault = .refused refusal

/-- A number is refused as a double only for being out of range. -/
theorem Value.kind_of_isNumeric {value : Value} {complaint : Complaint} (hn : value.isNumeric = true)
    (h : value.toFloat = .error complaint) : complaint.kind = .range := by
  cases value with
  | int n =>
    simp only [toFloat, floatOfInt] at h
    split at h <;> cases h
    rfl
  | float x => cases h
  | text _ | truth _ | nothing => cases hn

namespace Evaluation

open Fault

variable (registry : Registry)

/-- A fault of the expression, or one that a registered callable raises. -/
def Contained (fault : Fault) : Prop := fault.isLabelled ∨ registry.Raises fault

variable {registry} {environment : Environment}

theorem values_lookUp (name : String) : FailsOnly isOfValues (lookUp environment name) := by
  unfold lookUp
  split
  · exact .error trivial
  · split
    · exact .ok _ _
    · exact .error trivial

theorem failsOnly_lookUp (name : String) : FailsOnly isOfText (lookUp environment name) :=
  (values_lookUp name).mono fun _ => isOfValues.isOfText

theorem values_takeOperands (name : String) (arity : Nat) (stack : List Operand) :
    FailsOnly isOfValues (takeOperands name arity stack) := by
  unfold takeOperands
  split
  · exact .error trivial
  · exact .ok _ _

theorem failsOnly_takeOperands (name : String) (arity : Nat) (stack : List Operand) :
    FailsOnly isOfText (takeOperands name arity stack) :=
  (values_takeOperands name arity stack).mono fun _ => isOfValues.isOfText

/-- A call fails with a fault of values, or with what the callable raises. -/
theorem values_invoke {callable : Callable} (h : registry.Registers callable) (name : String) (args : List Value) :
    FailsOnly (fun fault => fault.isOfValues ∨ registry.Raises fault)
      (invoke registry.divisionRaises name callable args) := by
  unfold invoke
  split
  · exact .error (.inl trivial)
  · rename_i refusal hc hcall
    refine .error (.inr ⟨callable, args, refusal, h, hcall, ?_, rfl⟩)
    cases refusal with
    | complaint cause => exact absurd rfl (hc cause)
    | divisionByZero | failure label message => rfl
  · split
    · split
      · exact .ok _ _
      · exact .error (.inl trivial)
    · exact .error (.inl trivial)

theorem failsOnly_invoke {callable : Callable} (h : registry.Registers callable) (name : String) (args : List Value) :
    FailsOnly (Contained registry) (invoke registry.divisionRaises name callable args) :=
  (values_invoke h name args).mono fun _ => Or.imp_left fun hv => hv.isOfText.isLabelled

theorem failsOnly_ask (stack : List Operand) (token : Token) :
    FailsOnly isOfText (ask registry environment stack token) := by
  unfold ask
  cases hk : token.kind with
  | number _ | text _ _ => exact .ok _ _
  | var name => exact (failsOnly_lookUp name).bind fun _ => .ok _ _
  | operator symbol arity =>
    refine (Infix.failsOnly_resolveOperator registry _ symbol).bind fun op => ?_
    refine (failsOnly_takeOperands symbol _ stack).bind fun (operands, below) => ?_
    dsimp only
    split
    · exact .error trivial
    · exact .ok _ _
  | function name =>
    refine (Infix.failsOnly_resolveFunction registry name).bind fun function => ?_
    exact (failsOnly_takeOperands name _ stack).bind fun _ => .ok _ _
  | openBracket | closeBracket | separator | other _ => exact .error trivial

/-- Only callables of the registry are asked for. -/
theorem registers_of_ask {stack below : List Operand} {token : Token} {name : String} {callable : Callable}
    {args : List Value} (h : ask registry environment stack token = .ok (.call name callable args below)) :
    registry.Registers callable := by
  unfold ask at h
  cases hk : token.kind with
  | number _ | text _ _ | openBracket | closeBracket | separator | other _ =>
    simp only [hk] at h
    cases h
  | var name =>
    simp only [hk] at h
    obtain ⟨x, -, h⟩ := exists_of_bind_eq_ok h
    cases h
  | operator symbol arity =>
    simp only [hk] at h
    obtain ⟨op, hop, h⟩ := exists_of_bind_eq_ok h
    obtain ⟨⟨operands, below⟩, -, h⟩ := exists_of_bind_eq_ok h
    dsimp only at h
    split at h <;> cases h
    exact .inl ⟨_, _, op, Registry.resolveOperator_eq_ok.1 hop, rfl⟩
  | function name =>
    simp only [hk] at h
    obtain ⟨function, hfunction, h⟩ := exists_of_bind_eq_ok h
    obtain ⟨⟨operands, below⟩, -, h⟩ := exists_of_bind_eq_ok h
    cases h
    exact .inr ⟨_, function, Registry.resolveFunction_eq_ok.1 hfunction, rfl⟩

theorem failsOnly_step (stack : List Operand) (token : Token) :
    FailsOnly (Contained registry) (step registry environment stack token) := by
  rw [step_eq]
  have hask : FailsOnly (Contained registry) (ask registry environment stack token) :=
    (failsOnly_ask stack token).mono fun _ h => .inl h.isLabelled
  refine hask.bind_of_ok fun asked ha => ?_
  cases asked with
  | operand operand => exact .ok _ _
  | call name callable args below =>
    exact (failsOnly_invoke (registers_of_ask ha) name args).bind fun _ => .ok _ _

theorem values_result (stack : List Operand) : FailsOnly isOfValues (result stack) := by
  unfold result
  split
  · exact .ok _ _
  · exact .error trivial
  · exact .error trivial

theorem failsOnly_result (stack : List Operand) : FailsOnly isOfText (result stack) :=
  (values_result stack).mono fun _ => isOfValues.isOfText

theorem failsOnly_evaluate (tokens : List Token) :
    FailsOnly (Contained registry) (evaluate registry environment tokens) := by
  refine (FailsOnly.foldlM (fun token _ stack => failsOnly_step stack token) []).bind fun stack => ?_
  exact (failsOnly_result stack).mono fun _ h => .inl h.isLabelled

/-- **Faults are contained.** Whatever the registry, the text, the tokens and the values of the variables are,
reading and rearranging fail with faults of the expression only, and evaluating with these or with what a registered
callable raises itself. A closed bracket finds its entries on the stack, and a number that a callable gives is
refused as a double only for being out of range. -/
theorem faults_contained (registry : Registry) (environment : Environment) :
    (∀ text, FailsOnly isLabelled (Infix.read registry text)) ∧
    (∀ tokens, FailsOnly isLabelled (Postfix.ofInfix registry tokens)) ∧
    (∀ tokens, FailsOnly (Contained registry) (evaluate registry environment tokens)) ∧
    (∀ tokens out state bracket outer, Postfix.State.start.run registry tokens = .ok (out, state) →
      state.brackets = bracket :: outer → ∃ opening below,
        Postfix.State.fromBracket state.pending = .bracket opening :: below ∧
        ∀ function ∈ bracket.call, ∃ called rest, below = .function called :: rest) ∧
    ∀ value complaint, Value.isNumeric value = true → value.toFloat = .error complaint → complaint.kind = .range := by
  refine ⟨fun text => ?_, Postfix.failsOnly_ofInfix registry, failsOnly_evaluate, ?_, ?_⟩
  · exact Infix.failsOnly_readFrom registry registry.symbols none 0 text.toList
  · intro tokens out state bracket outer hrun hbrackets
    exact Postfix.State.closing_finds hrun hbrackets
  · intro value complaint hn h
    exact Value.kind_of_isNumeric hn h

/-- A function that fails by itself. -/
def troubled : Registry :=
  (Registry.empty true).addFunction
    ⟨"fail", 0, .ofFunction fun _ => .error (.failure "KeyError" "gone"), by decide +kernel⟩

theorem faults_contained_troubled :
    (evaluate troubled (fun _ => none) [⟨.function "fail", none⟩] = .error (.refused (.failure "KeyError" "gone")) ∧
      Contained troubled (.refused (.failure "KeyError" "gone"))) ∧
    (∃ out state, Postfix.State.start.run troubled [⟨.function "fail", none⟩, ⟨.openBracket, none⟩] = .ok (out, state) ∧
      ∃ opening below, Postfix.State.fromBracket state.pending = .bracket opening :: below ∧
        ∃ called rest, below = .function called :: rest) ∧
    (Value.int (.pow 10 400)).toFloat = .error .tooLarge ∧ Complaint.tooLarge.kind = .range := by
  obtain ⟨-, -, hevaluate, hclosing, hrange⟩ := faults_contained troubled fun _ => none
  have hfail : evaluate troubled (fun _ => none) [⟨.function "fail", none⟩] =
      .error (.refused (.failure "KeyError" "gone")) := rfl
  have hlarge : (Value.int (.pow 10 400)).toFloat = .error .tooLarge := by
    simp only [Value.toFloat, floatOfInt]
    rw [if_pos (by decide +kernel)]
  refine ⟨⟨hfail, hevaluate _ _ hfail⟩, ⟨_, _, rfl, ?_⟩, hlarge, hrange _ _ rfl hlarge⟩
  obtain ⟨opening, below, hp, hc⟩ :=
    hclosing [⟨.function "fail", none⟩, ⟨.openBracket, none⟩] _ _ _ [] rfl rfl
  exact ⟨opening, below, hp, hc _ rfl⟩

end Evaluation

end Formula
