import Formula.Proofs.Completion
import Formula.Proofs.Conservation
import Formula.Session

/-!
# Variables and their values

A variable stands for the double that its value is, and for nothing else. So wherever its name stands, the double may be
written in its place, and the variable is not needed any more (`variable_stands_for_number`): the tokens are rearranged
as before, because one operand is put in the place of another (`Postfix.ofInfix_put`), and in every step of evaluation
the same operand comes on the stack (`Evaluation.step_put`). A variable that does not stand among the tokens is never
looked up (`Evaluation.evaluate_congr`).
-/

namespace Formula

/-! ## Numbers in the place of a variable -/

/-- The number in the place of the variable. -/
def Token.Kind.put (name : String) (x : Float) : Token.Kind → Token.Kind
  | .var found => if found = name then .number x else .var found
  | kind => kind

/-- The token with the number in the place of the variable. -/
def Token.put (name : String) (x : Float) (token : Token) : Token := { token with kind := token.kind.put name x }

theorem Token.Kind.put_playsAs (name : String) (x : Float) (kind : Token.Kind) : (kind.put name x).PlaysAs kind := by
  cases kind with
  | var found =>
    by_cases h : found = name
    · exact .inr ⟨by simp [put, h, isLeaf], rfl⟩
    · exact .inl (by simp [put, h])
  | number | text | operator | function | openBracket | closeBracket | separator | other => exact .inl rfl

/-- Rearranging does not tell a variable from a number. -/
theorem Postfix.ofInfix_put (registry : Registry) (name : String) (x : Float) (tokens : List Token) :
    ofInfix registry (tokens.map (Token.put name x)) = (ofInfix registry tokens).map (List.map (Token.put name x)) :=
  ofInfix_map fun token _ => token.kind.put_playsAs name x

namespace Evaluation

/-- The environment in which the name stands for nothing. -/
def Environment.without (environment : Environment) (name : String) : Environment := fun other =>
  if other = name then none else environment other

variable {registry : Registry} {environment other : Environment} {name : String} {value : Value} {x : Float}

@[simp]
theorem lookUp_without_of_ne (environment : Environment) {name other : String} (h : other ≠ name) :
    lookUp (environment.without name) other = lookUp environment other := by
  simp [lookUp, Environment.without, h]

theorem lookUp_eq_ok (hv : environment name = some value) (hx : value.toFloat = .ok x) :
    lookUp environment name = .ok x := by
  simp [lookUp, hv, hx]

/-- The number and the variable that stands for it put the same operand on the stack. -/
theorem step_put (h : lookUp environment name = .ok x) (stack : List Operand) (token : Token) :
    step registry (environment.without name) stack (token.put name x) = step registry environment stack token := by
  obtain ⟨kind, position⟩ := token
  cases kind with
  | var found =>
    by_cases ho : found = name
    · subst ho
      simp only [step, Token.put, Token.Kind.put, if_true, h]
      rfl
    · simp only [step, Token.put, Token.Kind.put, if_neg ho, lookUp_without_of_ne environment ho]
  | number | text | operator | function | openBracket | closeBracket | separator | other => rfl

theorem evaluate_put (h : lookUp environment name = .ok x) (tokens : List Token) :
    evaluate registry (environment.without name) (tokens.map (Token.put name x)) =
      evaluate registry environment tokens := by
  have hstep : (fun stack token => step registry (environment.without name) stack (Token.put name x token)) =
      step registry environment := funext fun stack => funext fun token => step_put h stack token
  rw [evaluate, List.foldlM_map, hstep, evaluate]

/-- A variable that is removed from a session stands for nothing in it. -/
theorem environment_removeVariable (session : Session) (name : String) :
    (session.removeVariable name).environment = session.environment.without name := by
  funext other
  by_cases h : other = name <;>
    simp [Session.environment, Session.removeVariable, Environment.without, Table.find?_erase, h]

/-! ## Variables that are looked up -/

theorem step_congr (stack : List Operand) {token : Token}
    (h : ∀ name, token.kind = .var name → environment name = other name) :
    step registry environment stack token = step registry other stack token := by
  obtain ⟨kind, position⟩ := token
  cases kind with
  | var name => simp only [step, lookUp, h name rfl]
  | number | text | operator | function | openBracket | closeBracket | separator | other => rfl

/-- Only variables that stand among the tokens are looked up. -/
theorem evaluate_congr {tokens : List Token}
    (h : ∀ token ∈ tokens, ∀ name, token.kind = .var name → environment name = other name) :
    evaluate registry environment tokens = evaluate registry other tokens := by
  have hfold : ∀ stack,
      tokens.foldlM (step registry environment) stack = tokens.foldlM (step registry other) stack := by
    induction tokens with
    | nil => exact fun _ => rfl
    | cons token tokens ih =>
      obtain ⟨htoken, hrest⟩ := List.forall_mem_cons.1 h
      intro stack
      rw [List.foldlM_cons, List.foldlM_cons, step_congr stack htoken]
      exact congrArg _ (funext (ih hrest))
  rw [evaluate, hfold, evaluate]

/-- Only variables that stand among the tokens before they are rearranged are looked up. -/
theorem bind_evaluate_congr {tokens : List Token}
    (h : ∀ token ∈ tokens, ∀ name, token.kind = .var name → environment name = other name) :
    (Postfix.ofInfix registry tokens >>= evaluate registry environment) =
      Postfix.ofInfix registry tokens >>= evaluate registry other := by
  cases hout : Postfix.ofInfix registry tokens with
  | error fault => rfl
  | ok output =>
    refine evaluate_congr fun token ht name hk => ?_
    exact h token (Postfix.mem_of_ofInfix hout ht (by rw [hk]; rfl)) name hk

/-- **A variable stands for the number that its value is.** With the number in the place of the variable, the tokens
are rearranged as before, or refused with the same fault, and without the variable they have the same value as before,
or the same fault. What a list comes to depends only on the variables that stand in it. -/
theorem variable_stands_for_number (registry : Registry) (tokens : List Token) (name : String)
    (environment : Environment) (value : Value) (x : Float) (hv : environment name = some value)
    (hx : value.toFloat = .ok x) :
    Postfix.ofInfix registry (tokens.map (Token.put name x)) =
      (Postfix.ofInfix registry tokens).map (List.map (Token.put name x)) ∧
    (∀ output, Postfix.ofInfix registry tokens = .ok output →
      evaluate registry (environment.without name) (output.map (Token.put name x)) =
        evaluate registry environment output) ∧
    (Postfix.ofInfix registry (tokens.map (Token.put name x)) >>= evaluate registry (environment.without name)) =
      Postfix.ofInfix registry tokens >>= evaluate registry environment ∧
    ∀ other : Environment,
      (∀ token ∈ tokens, ∀ name, token.kind = .var name → environment name = other name) →
        (Postfix.ofInfix registry tokens >>= evaluate registry environment) =
          Postfix.ofInfix registry tokens >>= evaluate registry other := by
  have hlook : lookUp environment name = .ok x := lookUp_eq_ok hv hx
  have hput := Postfix.ofInfix_put registry name x tokens
  refine ⟨hput, fun output _ => evaluate_put hlook output, ?_, fun other h => bind_evaluate_congr h⟩
  rw [hput]
  cases Postfix.ofInfix registry tokens with
  | error fault => rfl
  | ok output => exact evaluate_put hlook output

/-- The tokens of `x - pi * x`. -/
def twice : List Token :=
  [⟨.var "x", some 0⟩, ⟨.operator "-" 2, some 2⟩, ⟨.var "pi", some 4⟩, ⟨.operator "*" 2, some 7⟩, ⟨.var "x", some 9⟩]

theorem variable_stands_for_number_twice :
    let session := ((Session.start .shipped none none).setVariable "x" (.int 3)).2
    session.environment "x" = some (.int 3) ∧ (Value.int 3).toFloat = .ok 3.0 ∧
      (Postfix.ofInfix session.registry (twice.map (Token.put "x" 3.0)) >>=
          evaluate session.registry (session.removeVariable "x").environment) =
        Postfix.ofInfix session.registry twice >>= evaluate session.registry session.environment := by
  intro session
  have hv : session.environment "x" = some (.int 3) := by decide +kernel
  have hx : (Value.int 3).toFloat = .ok 3.0 := eq_ok_of_toOption (by decide +kernel)
  refine ⟨hv, hx, ?_⟩
  rw [environment_removeVariable]
  exact (variable_stands_for_number session.registry twice "x" session.environment (.int 3) 3.0 hv hx).2.2.1

end Evaluation

end Formula
