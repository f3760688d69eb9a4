import Formula.Proofs.Nesting
import Formula.Proofs.TreeEvaluation

/-!
# Counting operands

A token changes the number of operands on the stack by the one that it puts there, less those that it takes
(`Registry.weight`). The machine that rearranges tokens neither adds nor drops a token that has a weight
(`Postfix.totalWeight_of_ofInfix`), so that the weights of a list of tokens that has a value when it is rearranged
add up to one (`totalWeight_of_evaluate`).
-/

namespace Formula

namespace Registry

variable (registry : Registry)

/-- How many operands more there are on the stack behind a token. Brackets and separators are not evaluated. -/
def weight (kind : Token.Kind) : Int := (registry.arity? kind).elim 0 fun arity => 1 - arity

def totalWeight : List Token → Int
  | [] => 0
  | token :: tokens => registry.weight token.kind + totalWeight tokens

@[simp]
theorem totalWeight_nil : registry.totalWeight [] = 0 := rfl

@[simp]
theorem totalWeight_cons (token : Token) (tokens : List Token) :
    registry.totalWeight (token :: tokens) = registry.weight token.kind + registry.totalWeight tokens := rfl

@[simp]
theorem totalWeight_append (tokens others : List Token) :
    registry.totalWeight (tokens ++ others) = registry.totalWeight tokens + registry.totalWeight others := by
  induction tokens with
  | nil => simp
  | cons token tokens ih => rw [List.cons_append, totalWeight_cons, totalWeight_cons, ih, Int.add_assoc]

variable {registry} {kind : Token.Kind}

theorem weight_leaf (h : kind.isLeaf = true) : registry.weight kind = 1 := by
  cases kind with
  | number _ | text _ _ | var _ => rfl
  | _ => cases h

theorem weight_operator {fixity : Fixity} {op : Operator} (h : registry.operatorOf? fixity kind = some op) :
    registry.weight kind = 1 - fixity.arity := by
  obtain ⟨symbol, arity, rfl, hf, hr⟩ := operatorOf?_eq_some.1 h
  have hfind := resolveOperator_eq_ok.1 hr
  simp only [weight, arity?, hf, hfind, Option.map_some, Option.elim_some, (resolveOperator_ok hr).2]

theorem weight_function {name : String} {function : Function} (hk : kind = .function name)
    (hf : registry.functions.find? name = some function) : registry.weight kind = 1 - function.arity := by
  subst hk
  simp only [weight, arity?, hf, Option.map_some, Option.elim_some]

@[simp]
theorem weight_openBracket : registry.weight .openBracket = 0 := rfl

@[simp]
theorem weight_closeBracket : registry.weight .closeBracket = 0 := rfl

@[simp]
theorem weight_separator : registry.weight .separator = 0 := rfl

end Registry

/-! ## Rearranging -/

namespace Postfix

variable {registry : Registry}

/-- A move keeps the weight of what was let go and of what waits together. -/
theorem State.Move.totalWeight {token : Token} {state next : State} {out : List Token}
    (h : Move registry token state out next) :
    registry.totalWeight out + registry.totalWeight (next.pending.map Pending.token) =
      registry.weight token.kind + registry.totalWeight (state.pending.map Pending.token) := by
  cases h with
  | leaf | unary | function | opening | calling | closing => simp [Pending.token, *]
  | binary | separator | called =>
    simp only [List.map_append, List.map_cons, Pending.token, Registry.totalWeight_append, Registry.totalWeight_cons,
      Registry.totalWeight_nil, Registry.weight_separator, Registry.weight_closeBracket, Registry.weight_openBracket, *]
    omega

/-- Rearranging keeps the weight. -/
theorem totalWeight_of_ofInfix {tokens output : List Token} (h : ofInfix registry tokens = .ok output) :
    registry.totalWeight output = registry.totalWeight tokens := by
  obtain ⟨⟨out, last⟩, hrun, h⟩ := exists_of_bind_eq_ok h
  obtain ⟨rest, hfinish, h⟩ := exists_of_bind_eq_ok h
  obtain rfl : out ++ rest = output := Except.ok.inj h
  obtain ⟨hw, hweight⟩ := State.run_start_induct (R := fun done before state =>
    registry.totalWeight before + registry.totalWeight (state.pending.map Pending.token) = registry.totalWeight done)
    rfl (fun _ hr hm => by
      have hmove := hm.totalWeight
      simp only [Registry.totalWeight_append, Registry.totalWeight_cons, Registry.totalWeight_nil]
      omega) hrun
  obtain ⟨-, -, rfl⟩ := State.finish_eq_ok hw hfinish
  rw [Registry.totalWeight_append, hweight]

end Postfix

/-! ## Evaluating -/

namespace Evaluation

variable {registry : Registry} {environment : Environment}

/-- The weight of the tokens is what the stack gains. -/
theorem length_of_foldlM {tokens : List Token} {stack next : List Operand}
    (h : tokens.foldlM (step registry environment) stack = .ok next) :
    (next.length : Int) = stack.length + registry.totalWeight tokens := by
  induction tokens generalizing stack with
  | nil =>
    cases h
    simp
  | cons token tokens ih =>
    rw [List.foldlM_cons] at h
    obtain ⟨middle, hm, h⟩ := exists_of_bind_eq_ok h
    obtain ⟨arity, ha, -, hlength⟩ := length_of_step hm
    have hweight : registry.weight token.kind = 1 - arity := by rw [Registry.weight, ha, Option.elim_some]
    rw [ih h, Registry.totalWeight_cons, hweight]
    omega

theorem totalWeight_of_evaluate {tokens : List Token} {x : Float} (h : evaluate registry environment tokens = .ok x) :
    registry.totalWeight tokens = 1 := by
  obtain ⟨stack, hs, hr⟩ := exists_of_bind_eq_ok h
  have hlength := length_of_foldlM hs
  rw [eq_of_result_eq_ok hr] at hlength
  simpa using hlength.symm

end Evaluation

end Formula
