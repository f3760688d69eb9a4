import Formula.Registry
import Formula.Token

/-!
# Trees of tokens

A text in infix or postfix order stands for a tree: an operator or a function is a node over its operands, and numbers,
strings and variables are leaves. `Tree.postorder` lists a tree with every node behind its operands. A tree fits a
registry (`Tree.Fits`) if every node has as many operands as the definition of its label takes.

A stack machine that does the right thing at every node of a fitting tree does the right thing on its whole listing
(`Tree.foldlM_postorder`): started on any stack, it ends with the result of the tree on top of that stack.
-/

namespace Formula

/-- A finite tree with a label at every node. -/
inductive Tree (α : Type) where
  | node (label : α) (children : List (Tree α))

namespace Tree

variable {α β : Type}

/-- The labels, those of the children before that of their parent and from left to right. -/
def postorder : Tree α → List α
  | .node label children => children.flatMap postorder ++ [label]

/-- The tree of the same shape with other labels. -/
def map (f : α → β) : Tree α → Tree β
  | .node label children => .node (f label) (children.map (map f))

@[simp]
theorem postorder_node (label : α) (children : List (Tree α)) :
    (node label children).postorder = children.flatMap postorder ++ [label] := by
  rw [postorder]

@[simp]
theorem map_node (f : α → β) (label : α) (children : List (Tree α)) :
    (node label children).map f = node (f label) (children.map (map f)) := by
  rw [map]

theorem postorder_map (f : α → β) : ∀ tree : Tree α, (tree.map f).postorder = tree.postorder.map f
  | .node label children => by
    have hchildren : ∀ child ∈ children, (child.map f).postorder = child.postorder.map f := fun child _ =>
      postorder_map f child
    rw [map_node, postorder_node, postorder_node, List.flatMap_map, List.map_append, List.map_flatMap]
    rw [List.flatMap_def, List.map_congr_left hchildren, ← List.flatMap_def, List.map_singleton]

theorem map_map {γ : Type} (g : β → γ) (f : α → β) : ∀ tree : Tree α, (tree.map f).map g = tree.map (g ∘ f)
  | .node label children => by
    have hchildren : ∀ child ∈ children, (child.map f).map g = child.map (g ∘ f) := fun child _ => map_map g f child
    rw [map_node, map_node, map_node, List.map_map, Function.comp_apply]
    exact congrArg (node _) (List.map_congr_left hchildren)

end Tree

/-! ## Trees that fit a registry -/

/-- The number of operands of a token in a tree, if it may stand in one. -/
def Registry.arity? (registry : Registry) : Token.Kind → Option Nat
  | .number _ | .text _ _ | .var _ => some 0
  | kind@(.operator symbol _) => ((registry.operators kind.fixity).find? symbol).map fun op => op.fixity.arity
  | .function name => (registry.functions.find? name).map Function.arity
  | .openBracket | .closeBracket | .separator | .other _ _ _ => none

namespace Tree

/-- Every node has as many children as its label takes operands. -/
inductive Fits (registry : Registry) : Tree Token.Kind → Prop
  | node {kind : Token.Kind} {children : List (Tree Token.Kind)} (arity : registry.arity? kind = some children.length)
      (fits : ∀ child ∈ children, Fits registry child) : Fits registry (.node kind children)

section Machine

variable {m : Type → Type} [Monad m] [LawfulMonad m] {registry : Registry} {step : List β → Token → m (List β)}
  (value : Tree Token → m β)

/-- The listings of trees one after another put the results of the trees on the stack, the last one on top. -/
theorem foldlM_flatMap_postorder {trees : List (Tree Token)}
    (h : ∀ tree ∈ trees, ∀ stack, tree.postorder.foldlM step stack = (· :: stack) <$> value tree) (stack : List β) :
    (trees.flatMap postorder).foldlM step stack = (·.reverse ++ stack) <$> trees.mapM value := by
  induction trees generalizing stack with
  | nil => simp
  | cons tree trees ih =>
    have hrest := ih fun t ht => h t (List.mem_cons_of_mem _ ht)
    rw [List.flatMap_cons, List.foldlM_append, h tree List.mem_cons_self, List.mapM_cons]
    simp only [bind_map_left, hrest, map_bind, bind_pure_comp, Functor.map_map, List.reverse_cons,
      List.append_assoc, List.singleton_append]

/-- If a machine turns the results of the children of every node into the result of the node, then it turns the listing
of a fitting tree into the result of the tree. -/
theorem foldlM_postorder
    (hstep : ∀ token children stack, registry.arity? token.kind = some children.length →
      (children.mapM value >>= fun results => step (results.reverse ++ stack) token) =
        (· :: stack) <$> value (.node token children))
    {tree : Tree Token} (h : (tree.map Token.kind).Fits registry) (stack : List β) :
    tree.postorder.foldlM step stack = (· :: stack) <$> value tree := by
  generalize hk : tree.map Token.kind = kinds at h
  induction h generalizing tree stack with
  | node arity fits ih =>
    obtain ⟨token, children⟩ := tree
    simp only [map_node, node.injEq] at hk
    obtain ⟨rfl, rfl⟩ := hk
    have hall : ∀ child ∈ children, ∀ stack, child.postorder.foldlM step stack = (· :: stack) <$> value child :=
      fun child hc stack => ih _ (List.mem_map_of_mem hc) stack rfl
    rw [List.length_map] at arity
    rw [postorder_node, List.foldlM_append, foldlM_flatMap_postorder value hall, ← hstep token children stack arity]
    simp only [bind_map_left, List.foldlM_cons, List.foldlM_nil, bind_pure]

end Machine

end Tree

end Formula
