import Formula.Evaluation
import Formula.Proofs.Outcome
import Formula.Proofs.Tree
import Formula.Settings
import Mathlib.Logic.ExistsUnique

/-!
# Evaluation over a stack is evaluation of a tree

`Tree.evaluate` evaluates a tree from its leaves up: the children of a node from left to right, then the node with
the values of its children. On the listing of a tree that fits the registry the evaluation over a stack has the same
outcome (`evaluate_postorder_of_fits`): the machine of `Evaluation.step` turns the operands of a node into its value
whatever lies below them (`step_reverse_append`).

Conversely a list of tokens that evaluates is the listing of just one fitting tree. The operands on the stack stand
for a forest that lists the tokens so far (`exists_forest`), and the tokens alone tell which forest that is, since
they build it over a stack of trees (`assemble`).
-/

namespace Formula

open Evaluation

/-! ## Values of trees -/

/-- What a node gives for the values of its children. -/
def Evaluation.ofNode (registry : Registry) (environment : Environment) (kind : Token.Kind)
    (operands : List Operand) : Except Fault Operand :=
  match kind with
  | .number x => .ok (.number x)
  | .text _ content => .ok (.text content)
  | .var name => (lookUp environment name).map .number
  | .operator symbol _ => do
    let op ← registry.resolveOperator kind.fixity symbol
    if operands.any Operand.isText then .error (.malformed (.textOperand symbol))
    else (invoke registry.divisionRaises symbol op.callable (operands.map Operand.toValue)).map .number
  | .function name => do
    let function ← registry.resolveFunction name
    (invoke registry.divisionRaises name function.callable (operands.map Operand.toValue)).map .number
  | .openBracket | .closeBracket | .separator => .error (.malformed (.structuralToken kind.name))
  | .other _ shown _ => .error (.malformed (.unknownKind shown))

/-- The value of a tree: those of its children from left to right, and then that of the node. -/
def Tree.value (registry : Registry) (environment : Environment) : Tree Token.Kind → Except Fault Operand
  | .node kind children => do
    let operands ← children.mapM (Tree.value registry environment)
    ofNode registry environment kind operands

/-- The number that a tree stands for. -/
def Tree.evaluate (registry : Registry) (environment : Environment) (tree : Tree Token.Kind) : Except Fault Float := do
  match ← tree.value registry environment with
  | .number x => return x
  | .text _ => .error (.malformed .textResult)

namespace Evaluation

variable {registry : Registry} {environment : Environment}

/-- Operands that lie on the stack, the last one on top, are taken off in order. -/
theorem takeOperands_reverse_append (name : String) (operands stack : List Operand) :
    takeOperands name operands.length (operands.reverse ++ stack) = .ok (operands, stack) := by
  have hl : operands.reverse.length = operands.length := List.length_reverse
  unfold takeOperands
  rw [if_neg (by simp), List.take_left' hl, List.drop_left' hl, List.reverse_reverse]

/-- Operands that are taken off a stack leave what lies below them. -/
theorem takeOperands_eq_ok {name : String} {arity : Nat} {stack operands below : List Operand}
    (h : takeOperands name arity stack = .ok (operands, below)) : arity ≤ stack.length ∧ below = stack.drop arity := by
  unfold takeOperands at h
  split at h
  · cases h
  · cases h
    exact ⟨by omega, rfl⟩

/-- A token takes the operands of its node off the stack and puts the value of the node on it. -/
theorem step_reverse_append {token : Token} {operands : List Operand}
    (h : registry.arity? token.kind = some operands.length) (stack : List Operand) :
    step registry environment (operands.reverse ++ stack) token =
      (· :: stack) <$> ofNode registry environment token.kind operands := by
  obtain ⟨kind, position⟩ := token
  cases kind with
  | number x | text quote content =>
    obtain rfl : operands = [] := List.length_eq_zero_iff.1 (Option.some.inj h).symm
    rfl
  | var name =>
    obtain rfl : operands = [] := List.length_eq_zero_iff.1 (Option.some.inj h).symm
    simp only [step, ofNode]
    cases lookUp environment name <;> rfl
  | operator symbol arity =>
    obtain ⟨op, hop, ha⟩ := Option.map_eq_some_iff.1 h
    simp only [step, ofNode, Registry.resolveOperator, hop, ha, bind, Except.bind, takeOperands_reverse_append]
    split
    · rfl
    · cases invoke registry.divisionRaises symbol op.callable (operands.map Operand.toValue) <;> rfl
  | function name =>
    obtain ⟨function, hf, ha⟩ := Option.map_eq_some_iff.1 h
    simp only [step, ofNode, Registry.resolveFunction, hf, ha, bind, Except.bind, takeOperands_reverse_append]
    cases invoke registry.divisionRaises name function.callable (operands.map Operand.toValue) <;> rfl
  | openBracket | closeBracket | separator | other => cases h

/-- Evaluating the listing of a fitting tree puts the value of the tree on the stack. -/
theorem foldlM_step_postorder {tree : Tree Token} (h : (tree.map Token.kind).Fits registry) (stack : List Operand) :
    tree.postorder.foldlM (step registry environment) stack =
      (· :: stack) <$> (tree.map Token.kind).value registry environment := by
  refine Tree.foldlM_postorder (fun tree => (tree.map Token.kind).value registry environment) ?_ h stack
  intro token children stack ha
  rw [Tree.map_node, Tree.value, List.mapM_map, Function.comp_def]
  cases hm : children.mapM fun child => (child.map Token.kind).value registry environment with
  | error fault => rfl
  | ok operands =>
    rw [← length_of_mapM_eq_ok hm] at ha
    exact step_reverse_append ha stack

/-- On the listing of a fitting tree the evaluation over a stack is the evaluation of the tree. -/
theorem evaluate_postorder_of_fits {tree : Tree Token} (h : (tree.map Token.kind).Fits registry) :
    evaluate registry environment tree.postorder = (tree.map Token.kind).evaluate registry environment := by
  rw [evaluate, foldlM_step_postorder h]
  unfold Tree.evaluate
  cases (tree.map Token.kind).value registry environment with
  | error fault => rfl
  | ok operand => cases operand <;> rfl

/-! ## Trees from listings -/

/-- Trees that fit and that together list the given tokens; the last tree comes first. -/
structure Forest (registry : Registry) (trees : List (Tree Token)) (tokens : List Token) : Prop where
  fits : ∀ tree ∈ trees, (tree.map Token.kind).Fits registry
  listing : trees.reverse.flatMap Tree.postorder = tokens

theorem Forest.nil : Forest registry [] [] := ⟨by simp, rfl⟩

/-- A token behind a forest becomes a node over the last trees. -/
theorem Forest.push {trees : List (Tree Token)} {tokens : List Token} (h : Forest registry trees tokens) {token : Token}
    {arity : Nat} (ha : registry.arity? token.kind = some arity) (hle : arity ≤ trees.length) :
    Forest registry (.node token (trees.take arity).reverse :: trees.drop arity) (tokens ++ [token]) where
  fits := by
    intro tree ht
    rcases List.mem_cons.1 ht with rfl | ht
    · rw [Tree.map_node]
      refine .node (by simpa [Nat.min_eq_left hle] using ha) fun kinds hk => ?_
      obtain ⟨child, hc, rfl⟩ := List.mem_map.1 hk
      exact h.fits _ (List.mem_of_mem_take (List.mem_reverse.1 hc))
    · exact h.fits _ (List.mem_of_mem_drop ht)
  listing := by
    have hsplit : trees.reverse = (trees.drop arity).reverse ++ (trees.take arity).reverse := by
      rw [← List.reverse_append, List.take_append_drop]
    rw [← h.listing, hsplit]
    simp only [List.reverse_cons, List.flatMap_append, List.flatMap_singleton, Tree.postorder_node, List.append_assoc]

/-- A step that succeeds finds as many operands on the stack as its token takes, and leaves one in their place. -/
theorem length_of_step {stack next : List Operand} {token : Token}
    (h : step registry environment stack token = .ok next) :
    ∃ arity, registry.arity? token.kind = some arity ∧ arity ≤ stack.length ∧
      next.length + arity = stack.length + 1 := by
  obtain ⟨kind, position⟩ := token
  cases kind with
  | number x | text quote content =>
    cases h
    exact ⟨0, rfl, Nat.zero_le _, rfl⟩
  | var name =>
    obtain ⟨x, -, h⟩ := exists_of_bind_eq_ok h
    cases h
    exact ⟨0, rfl, Nat.zero_le _, rfl⟩
  | operator symbol arity =>
    simp only [step] at h
    obtain ⟨op, hop, h⟩ := exists_of_bind_eq_ok h
    obtain ⟨⟨operands, below⟩, hb, h⟩ := exists_of_bind_eq_ok h
    have ha := congrArg (Option.map fun op => op.fixity.arity) (Registry.resolveOperator_eq_ok.1 hop)
    obtain ⟨hle, rfl⟩ := takeOperands_eq_ok hb
    split at h
    · cases h
    · obtain ⟨x, -, h⟩ := exists_of_bind_eq_ok h
      cases h
      exact ⟨_, ha, hle, by simp; omega⟩
  | function name =>
    obtain ⟨function, hf, h⟩ := exists_of_bind_eq_ok h
    obtain ⟨⟨operands, below⟩, hb, h⟩ := exists_of_bind_eq_ok h
    have ha := congrArg (Option.map Function.arity) (Registry.resolveFunction_eq_ok.1 hf)
    obtain ⟨hle, rfl⟩ := takeOperands_eq_ok hb
    obtain ⟨x, -, h⟩ := exists_of_bind_eq_ok h
    cases h
    exact ⟨_, ha, hle, by simp; omega⟩
  | openBracket | closeBracket | separator | other => cases h

/-- A list of tokens that evaluates is the listing of a forest with one tree for each operand that is left. -/
theorem exists_forest {tokens : List Token} {stack next : List Operand}
    (h : tokens.foldlM (step registry environment) stack = .ok next) {trees : List (Tree Token)} {before : List Token}
    (hf : Forest registry trees before) (hl : trees.length = stack.length) :
    ∃ others, Forest registry others (before ++ tokens) ∧ others.length = next.length := by
  induction tokens generalizing stack trees before with
  | nil =>
    cases h
    exact ⟨trees, by rwa [List.append_nil], hl⟩
  | cons token tokens ih =>
    rw [List.foldlM_cons] at h
    obtain ⟨middle, hm, h⟩ := exists_of_bind_eq_ok h
    obtain ⟨arity, ha, hle, hlen⟩ := length_of_step hm
    -- The forest has one tree for each operand again, as both lose `arity` of them and gain one.
    obtain ⟨others, ho, hlo⟩ := ih h (hf.push ha (by omega)) (by simp; omega)
    exact ⟨others, by simpa using ho, hlo⟩

/-- Builds a tree over a stack of trees, the last one on top. -/
def assemble (registry : Registry) (trees : List (Tree Token)) (token : Token) : Option (List (Tree Token)) := do
  let arity ← registry.arity? token.kind
  if trees.length < arity then none
  else some (.node token (trees.take arity).reverse :: trees.drop arity)

theorem assemble_reverse_append {token : Token} {children : List (Tree Token)}
    (h : registry.arity? token.kind = some children.length) (trees : List (Tree Token)) :
    assemble registry (children.reverse ++ trees) token = some (.node token children :: trees) := by
  have hl : children.reverse.length = children.length := List.length_reverse
  simp only [assemble, h, bind, Option.bind]
  rw [if_neg (by simp), List.take_left' hl, List.drop_left' hl, List.reverse_reverse]

/-- The listing of a fitting tree builds the tree. -/
theorem foldlM_assemble_postorder {tree : Tree Token} (h : (tree.map Token.kind).Fits registry)
    (trees : List (Tree Token)) : tree.postorder.foldlM (assemble registry) trees = some (tree :: trees) := by
  refine Tree.foldlM_postorder some (fun token children trees ha => ?_) h trees
  have hm : children.mapM some = some children := by
    simpa using List.mapM_pure (m := Option) (f := id) (l := children)
  rw [hm]
  exact assemble_reverse_append ha trees

/-- Fitting trees of the same listing are the same tree. -/
theorem eq_of_postorder_eq {tree other : Tree Token} (h : (tree.map Token.kind).Fits registry)
    (h' : (other.map Token.kind).Fits registry) (heq : tree.postorder = other.postorder) : tree = other := by
  -- Building is a function of the tokens, so that one listing cannot build two trees.
  have hb := foldlM_assemble_postorder h []
  rw [heq, foldlM_assemble_postorder h' []] at hb
  exact (List.cons.inj (Option.some.inj hb)).1.symm

/-- Only a single number is a result. -/
theorem eq_of_result_eq_ok {stack : List Operand} {x : Float} (h : result stack = .ok x) : stack = [.number x] := by
  unfold result at h
  split at h
  · cases h
    rfl
  · cases h
  · cases h

/-- A list of tokens that evaluates to a number is the listing of a fitting tree. -/
theorem exists_tree_of_evaluate {tokens : List Token} {x : Float}
    (h : evaluate registry environment tokens = .ok x) :
    ∃ tree : Tree Token, (tree.map Token.kind).Fits registry ∧ tree.postorder = tokens := by
  obtain ⟨stack, hs, hr⟩ := exists_of_bind_eq_ok h
  obtain rfl := eq_of_result_eq_ok hr
  obtain ⟨trees, hf, hl⟩ := exists_forest hs .nil rfl
  obtain ⟨tree, rfl⟩ := List.length_eq_one_iff.1 hl
  exact ⟨tree, hf.fits tree List.mem_cons_self, by simpa using hf.listing⟩

/-- **Evaluation over a stack is evaluation of a tree.** On the listing of a fitting tree both have the same outcome,
and a list that evaluates to a number is the listing of exactly one fitting tree. -/
theorem evaluate_postorder (registry : Registry) (environment : Environment) :
    (∀ tree : Tree Token, (tree.map Token.kind).Fits registry →
      evaluate registry environment tree.postorder = (tree.map Token.kind).evaluate registry environment) ∧
    ∀ tokens x, evaluate registry environment tokens = .ok x →
      ∃! tree : Tree Token, (tree.map Token.kind).Fits registry ∧ tree.postorder = tokens := by
  refine ⟨fun tree h => evaluate_postorder_of_fits h, fun tokens x h => ?_⟩
  obtain ⟨tree, hf, rfl⟩ := exists_tree_of_evaluate h
  exact ⟨tree, ⟨hf, rfl⟩, fun other ⟨hf', he⟩ => eq_of_postorder_eq hf' hf he⟩

/-- `-x - 6 / y`, with the offsets of its tokens. -/
def lessQuotient : Tree Token :=
  .node ⟨.operator "-" 2, some 3⟩
    [.node ⟨.operator "-" 1, some 0⟩ [.node ⟨.var "x", some 1⟩ []],
      .node ⟨.operator "/" 2, some 7⟩ [.node ⟨.number 6.0, some 5⟩ [], .node ⟨.var "y", some 9⟩ []]]

theorem evaluate_postorder_lessQuotient :
    (lessQuotient.map Token.kind).Fits (.standard .shipped true) ∧
    evaluate (.standard .shipped true) (fun _ => some (.int 4)) lessQuotient.postorder = .ok (-5.5) ∧
    (lessQuotient.map Token.kind).evaluate (.standard .shipped true) (fun _ => some (.int 4)) = .ok (-5.5) ∧
    ∃! tree : Tree Token,
      (tree.map Token.kind).Fits (.standard .shipped true) ∧ tree.postorder = lessQuotient.postorder := by
  have hf : (lessQuotient.map Token.kind).Fits (.standard .shipped true) := by
    simp only [lessQuotient, Tree.map_node, List.map_cons, List.map_nil]
    refine .node rfl (List.forall_mem_cons.2 ⟨.node rfl (List.forall_mem_singleton.2 (.node rfl ?_)),
      List.forall_mem_singleton.2 (.node rfl (List.forall_mem_cons.2 ⟨.node rfl ?_,
        List.forall_mem_singleton.2 (.node rfl ?_)⟩))⟩)
    all_goals exact List.forall_mem_nil _
  -- Neither operator commutes, so the value tells the operands apart.
  have he : evaluate (.standard .shipped true) (fun _ => some (.int 4)) lessQuotient.postorder = .ok (-5.5) := by
    simp only [lessQuotient, Tree.postorder_node, List.flatMap_cons, List.flatMap_nil]
    rfl
  obtain ⟨hsame, hunique⟩ := evaluate_postorder (.standard .shipped true) fun _ => some (.int 4)
  exact ⟨hf, he, (hsame lessQuotient hf).symm.trans he, hunique _ _ he⟩

end Evaluation

end Formula
