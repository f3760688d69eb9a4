import Formula.Proofs.Arrangement
import Formula.Proofs.CacheCoherence
import Formula.Proofs.TreeEvaluation
import Formula.Proofs.WrittenForm

/-!
# From texts to values

A text that writes a tree of the standard operators and functions compiles to the postorder of that tree, and its value
is that of the tree (`Session.execute_of_writes`): in every session that comes from a new one without definitions of its
own, whatever its variables, its policy on zero divisors and its cache are.
-/

namespace Formula

/-- What is written compiles to the postorder of a tree of tokens that are what the nodes of the tree are. -/
theorem Postfix.compile_of_writes {settings : Settings} (hs : settings.Ascends) (raises : Bool)
    {outermost : Option Operator} {tree : Tree Token.Kind} {text : String}
    (h : Writes settings (.expression outermost tree) text.toList) :
    ∃ spanned : Tree Token, spanned.map Token.kind = tree ∧
      compile (.standard settings raises) text = .ok spanned.postorder := by
  obtain ⟨tokens, spanned, last, -, hread, htree, hspan⟩ := h.isRead raises hs none 0 [] rfl Text.ends_nil
  refine ⟨spanned, htree, ?_⟩
  rw [compile, hread.read_eq]
  exact ofInfix_of_read hspan.read_eq

namespace Session

/-- **A text that writes a tree has the postorder of the tree as its tokens, and the value of the tree.** -/
theorem execute_of_writes {settings : Settings} (hs : settings.check = .ok ()) (ha : settings.Ascends)
    {capacity : Option Int} (hc : ∀ n ∈ capacity, 0 ≤ n) (raises : Option Bool) {commands : List Command}
    (hd : ∀ command ∈ commands, command.defines = false) {outermost : Option Operator} {tree : Tree Token.Kind}
    {text : String} (h : Writes settings (.expression outermost tree) text.toList) :
    let session := ((start settings capacity raises).run commands).2
    (∃ tokens, (session.compile text).1 = .ok tokens ∧ tokens.map Token.kind = tree.postorder) ∧
      (session.execute text).1 = tree.evaluate session.registry session.environment := by
  intro session
  have hcapacity : ∀ n ∈ capacity.or settings.cacheCapacity, 0 ≤ n := by
    cases capacity with
    | none => exact (Configuration.check_eq_ok.1 hs).2
    | some n => exact hc
  obtain ⟨hcoherent, htakes⟩ := coherent_run_start settings capacity raises hcapacity commands
  -- Without definitions only the policy on zero divisors can have changed.
  obtain ⟨policy, hregistry⟩ : ∃ policy, session.registry = .standard settings policy := by
    obtain ⟨bindings, hstart⟩ := start_eq settings raises
    obtain ⟨policy, hp⟩ := run_registry (start settings capacity raises) hd
    refine ⟨policy, hp.trans ?_⟩
    rw [hstart, Registry.setDivision_standard]
  obtain ⟨spanned, rfl, hcompile⟩ := Postfix.compile_of_writes ha policy h
  have hfits : (spanned.map Token.kind).Fits session.registry := hregistry ▸ h.fits policy
  rw [← hregistry] at hcompile
  refine ⟨⟨spanned.postorder, ?_, (Tree.postorder_map Token.kind spanned).symm⟩, ?_⟩
  · rw [compile_fst hcoherent htakes, hcompile]
  · rw [execute_fst hcoherent htakes, hcompile]
    exact Evaluation.evaluate_postorder_of_fits hfits

/-- The tree of `-x^2 + max(1.5, y)/4`. -/
def signedPower : Tree Token.Kind :=
  .node (.operator "+" 2)
    [.node (.operator "^" 2) [.node (.operator "-" 1) [.node (.var "x") []], .node (.number 2) []],
      .node (.operator "/" 2)
        [.node (.function "max") [.node (.number 1.5) [], .node (.var "y") []], .node (.number 4) []]]

/-- The sign takes its operand first, and no operator needs brackets. -/
theorem writes_signedPower :
    ∃ op, Writes .shipped (.expression (some op) signedPower) "-x^2 + max(1.5, y)/4".toList := by
  have plus : ⟨"+", .binary, 1, .left, .add, rfl⟩ ∈ Settings.shipped.operators := by
    simp [Precedences.operators, Settings.shipped]
  have divide : ⟨"/", .binary, 2, .left, .division, rfl⟩ ∈ Settings.shipped.operators := by
    simp [Precedences.operators, Settings.shipped]
  have hat : ⟨"^", .binary, 3, .right, .power, rfl⟩ ∈ Settings.shipped.operators := by
    simp [Precedences.operators, Settings.shipped]
  have minus : ⟨"-", .unary, 4, .right, .neg, rfl⟩ ∈ Settings.shipped.operators := by
    simp [Precedences.operators, Settings.shipped]
  have greater : ⟨"max", 2, .max, rfl⟩ ∈ standardFunctions := by simp [standardFunctions]
  have free : ∀ (op : Operator) side, ∀ inner ∈ (none : Option Operator), ¬ op.NeedsBrackets side inner :=
    fun op side inner h => absurd h (Option.not_mem_none inner)
  have blank : [' '].all Text.isBlank = true := rfl
  have nothing : ([] : List Char).all Text.isBlank = true := rfl
  have x : Writes .shipped (.expression none (.node (.var "x") [])) "x".toList := .var rfl
  have y : Writes .shipped (.expression none (.node (.var "y") [])) "y".toList := .var rfl
  have two : Writes .shipped (.expression none (.node (.number 2) [])) ['2'] :=
    .numeral ⟨['2'], none, none, rfl, rfl, by simp⟩
  have four : Writes .shipped (.expression none (.node (.number 4) [])) ['4'] :=
    .numeral ⟨['4'], none, none, rfl, rfl, by simp⟩
  have half : Writes .shipped (.expression none (.node (.number 1.5) [])) ['1', '.', '5'] :=
    .numeral ⟨['1'], some ['5'], none, rfl, rfl, by simp⟩
  have power := Writes.binary hat rfl (free _ _) (free _ _) (.sign minus rfl x) (.spaced two nothing blank)
  have call := Writes.call greater rfl (.separated half (.argument (.spaced y blank nothing)))
  have quotient := Writes.binary divide rfl (free _ _) (free _ _) (.spaced call blank nothing) four
  have sum := Writes.binary plus rfl (by decide) (by decide) power quotient
  exact ⟨_, (congrArg (Writes .shipped _) (by decide)).mp sum⟩

theorem execute_of_writes_signedPower :
    let commands : List Command :=
      [.setDivision false, .setVariable "x" (.int 3), .setVariable "y" (.float 2.5), .removeVariable "pi"]
    Settings.shipped.check = .ok () ∧ Settings.shipped.Ascends ∧ (∀ n ∈ (none : Option Int), 0 ≤ n) ∧
    (∀ command ∈ commands, command.defines = false) ∧
    (∃ op, Writes .shipped (.expression (some op) signedPower) "-x^2 + max(1.5, y)/4".toList) ∧
    let session := ((start .shipped none none).run commands).2
    (∃ tokens, (session.compile "-x^2 + max(1.5, y)/4").1 = .ok tokens ∧
      tokens.map Token.kind = [.var "x", .operator "-" 1, .number 2, .operator "^" 2, .number 1.5, .var "y",
        .function "max", .number 4, .operator "/" 2, .operator "+" 2]) ∧
    (session.execute "-x^2 + max(1.5, y)/4").1 = .ok 9.625 ∧
      signedPower.evaluate session.registry session.environment = .ok 9.625 := by
  intro commands
  have ascends : Settings.shipped.Ascends := ⟨⟨1, 2, 3, 4⟩, ⟨rfl, rfl, rfl, rfl⟩, by decide, by decide, by decide⟩
  have capacity : ∀ n ∈ (none : Option Int), 0 ≤ n := fun n h => absurd h (Option.not_mem_none n)
  have defines : ∀ command ∈ commands, command.defines = false := by simp [commands, Command.defines]
  obtain ⟨op, h⟩ := writes_signedPower
  obtain ⟨⟨tokens, hcompile, hkinds⟩, hexecute⟩ := execute_of_writes rfl ascends capacity none defines h
  simp only [signedPower, Tree.postorder_node, List.flatMap_cons, List.flatMap_nil, List.cons_append, List.nil_append]
    at hkinds
  -- The sign goes first: nine and five eighths, and not five eighths less nine.
  have hvalue : (((start .shipped none none).run commands).2.execute "-x^2 + max(1.5, y)/4").1 = .ok 9.625 := by
    decide +kernel
  exact ⟨rfl, ascends, capacity, defines, ⟨op, h⟩, ⟨tokens, hcompile, hkinds⟩, hvalue, hexecute.symm.trans hvalue⟩

end Session

end Formula
