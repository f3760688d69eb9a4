import Formula.Proofs.StandardCallables
import Formula.Proofs.TreeEvaluation

/-!
# Strings in the place of numbers

A string may be an argument of a function, and nothing else (`Tree.TextsInCalls`). The standard callables make a double
of every argument first (`Callable.TakesNumbers`), and a string that writes a number has a double. So such a string
stands for its number, in a call and in a variable alike, and any other string has no value
(`Evaluation.evaluate_eq_ok_iff_asNumber`).

Replacing such strings by their numbers (`asNumber`) changes the value of a tree in the same way if strings are
arguments only (`Evaluation.value_asNumber`), and a tree has a number for its value only if they are
(`Evaluation.textsInCalls_of_value`); both are shown by induction over the tree.
-/

namespace Formula

open Evaluation

/-! ## Callables that take numbers -/

/-- The callable makes a double of every argument, and nothing else matters to it. -/
structure Callable.TakesNumbers (callable : Callable) : Prop where
  congr : ∀ raises args others, args.map Value.toFloat = others.map Value.toFloat →
    callable.call raises args = callable.call raises others
  converts : ∀ raises args value, callable.call raises args = .ok value → ∀ arg ∈ args, ∃ x, arg.toFloat = .ok x

namespace Callable

theorem eq_ok_of_mapError {ε ε' α : Type} {outcome : Except ε α} {f : ε → ε'} {a : α}
    (h : outcome.mapError f = .ok a) : outcome = .ok a := by
  cases outcome with
  | error fault => cases h
  | ok b => exact congrArg Except.ok (Except.ok.inj h)

theorem takesNumbers_ofUnary (signature : Signature) (compute : Float → Float) :
    (ofFunction (ofUnary signature compute)).TakesNumbers where
  congr := by
    intro raises args others h
    have hlength : args.length = others.length := by simpa using congrArg List.length h
    match args, others, h with
    | [], [], _ => rfl
    | [a], [b], h =>
      have hab : a.toFloat = b.toFloat := (List.cons.inj h).1
      simp only [call, ofUnary, hab]
    | _ :: _ :: args, _ :: _ :: others, _ => simp only [call, ofUnary, hlength]
  converts := by
    intro raises args value h
    simp only [call, ofUnary] at h
    split at h
    · obtain ⟨x, hx, -⟩ := exists_of_bind_eq_ok h
      exact List.forall_mem_singleton.2 ⟨x, eq_ok_of_mapError hx⟩
    · cases h

theorem takesNumbers_of_binary? {callable : Callable} {signature : Signature}
    (compute : Bool → Float → Float → Except Refusal Float)
    (h : ∀ raises args, callable.call raises args = ofBinary? signature (compute raises) args) :
    callable.TakesNumbers where
  congr := by
    intro raises args others he
    have hlength : args.length = others.length := by simpa using congrArg List.length he
    rw [h, h]
    match args, others, he with
    | [], [], _ => rfl
    | [_], [_], _ => rfl
    | [a, a'], [b, b'], he =>
      obtain ⟨hab, he⟩ := List.cons.inj he
      have hab' : a'.toFloat = b'.toFloat := (List.cons.inj he).1
      simp only [ofBinary?, hab, hab']
    | _ :: _ :: _ :: args, _ :: _ :: _ :: others, _ => simp only [ofBinary?, hlength]
  converts := by
    intro raises args value hcall
    rw [h] at hcall
    unfold ofBinary? at hcall
    split at hcall
    · obtain ⟨x, hx, hcall⟩ := exists_of_bind_eq_ok hcall
      obtain ⟨y, hy, -⟩ := exists_of_bind_eq_ok hcall
      exact List.forall_mem_cons.2 ⟨⟨x, eq_ok_of_mapError hx⟩,
        List.forall_mem_singleton.2 ⟨y, eq_ok_of_mapError hy⟩⟩
    · cases hcall

theorem takesNumbers_division : division.TakesNumbers := takesNumbers_of_binary? quotient fun _ _ => rfl

theorem takesNumbers_ofBinary (signature : Signature) (compute : Float → Float → Float) :
    (ofFunction (ofBinary signature compute)).TakesNumbers :=
  takesNumbers_of_binary? (fun _ a b => .ok (compute a b)) fun _ _ => rfl

end Callable

/-- Every standard callable takes numbers. -/
theorem Registry.takesNumbers_of_registers {settings : Settings} {raises : Bool} {callable : Callable}
    (h : (Registry.standard settings raises).Registers callable) : callable.TakesNumbers :=
  forall_standard_callables Callable.takesNumbers_division Callable.takesNumbers_ofUnary
    Callable.takesNumbers_ofBinary h

/-! ## Numbers in the place of strings -/

/-- The number that a string writes in place of the string, if it writes one. -/
def Value.asNumber : Value → Value
  | .text s => (Numeral.toFloat? s.toList).elim (.text s) .float
  | value => value

/-- The same of a token. -/
def Token.Kind.asNumber : Token.Kind → Token.Kind
  | .text quote content => (Numeral.toFloat? content.toList).elim (.text quote content) .number
  | kind => kind

def Token.asNumber (token : Token) : Token := { token with kind := token.kind.asNumber }

def Token.Kind.isText : Token.Kind → Bool
  | .text _ _ => true
  | _ => false

/-- The string that a token stands for. -/
def Token.Kind.textIn? (environment : Environment) : Token.Kind → Option String
  | .text _ content => some content
  | .var name => match environment name with
    | some (.text s) => some s
    | _ => none
  | _ => none

namespace Evaluation

/-- The same of an operand. -/
def Operand.asNumber : Operand → Operand
  | .text content => (Numeral.toFloat? content.toList).elim (.text content) .number
  | operand => operand

/-- The same of all variables. -/
def Environment.asNumbers (environment : Environment) : Environment := fun name => (environment name).map Value.asNumber

section

variable {registry : Registry} {environment : Environment}

theorem lookUp_asNumbers (environment : Environment) (name : String) :
    lookUp environment.asNumbers name = lookUp environment name := by
  unfold lookUp Environment.asNumbers
  cases environment name with
  | none => rfl
  | some value =>
    cases value with
    | text s =>
      simp only [Option.map_some, Value.asNumber, Value.toFloat]
      cases hs : Numeral.toFloat? s.toList with
      | none => simp [hs]
      | some x => simp
    | _ => rfl

theorem toFloat_asNumber (operand : Operand) : operand.asNumber.toValue.toFloat = operand.toValue.toFloat := by
  cases operand with
  | number x => rfl
  | text content =>
    simp only [Operand.asNumber, Operand.toValue, Value.toFloat]
    cases hs : Numeral.toFloat? content.toList with
    | none => simp [hs]
    | some x => simp

theorem invoke_asNumber {callable : Callable} (h : callable.TakesNumbers) (raises : Bool) (name : String)
    (operands : List Operand) :
    invoke raises name callable ((operands.map Operand.asNumber).map Operand.toValue) =
      invoke raises name callable (operands.map Operand.toValue) := by
  have hargs : ((operands.map Operand.asNumber).map Operand.toValue).map Value.toFloat =
      (operands.map Operand.toValue).map Value.toFloat := by
    simp [toFloat_asNumber]
  unfold invoke
  rw [h.congr raises _ _ hargs]

theorem isText_of_map_number {outcome : Except Fault Float} {operand : Operand}
    (h : outcome.map Operand.number = .ok operand) : operand.isText = false := by
  cases outcome with
  | error fault => cases h
  | ok x =>
    cases h
    rfl

/-- A node gives a number unless it is a string. -/
theorem isText_of_ofNode {kind : Token.Kind} {operands : List Operand} {operand : Operand}
    (h : ofNode registry environment kind operands = .ok operand) : operand.isText = kind.isText := by
  unfold ofNode at h
  cases kind with
  | number x | text quote content =>
    cases h
    rfl
  | var name => exact isText_of_map_number h
  | operator symbol arity =>
    obtain ⟨op, -, h⟩ := exists_of_bind_eq_ok h
    split at h
    · cases h
    · exact isText_of_map_number h
  | function name =>
    obtain ⟨function, -, h⟩ := exists_of_bind_eq_ok h
    exact isText_of_map_number h
  | openBracket | closeBracket | separator | other => cases h

theorem map_asNumber_number (outcome : Except Fault Float) :
    (outcome.map Operand.number).map Operand.asNumber = outcome.map Operand.number := by
  cases outcome <;> rfl

theorem map_asNumber_of_any_eq_false {operands : List Operand} (h : operands.any Operand.isText = false) :
    operands.map Operand.asNumber = operands := by
  refine (List.map_congr_left fun operand ho => ?_).trans (List.map_id operands)
  cases operand with
  | number x => rfl
  | text content => exact absurd (List.any_eq_false.1 h _ ho) (by simp [Operand.isText])

/-- A node gives the same with numbers in the place of strings if these are arguments of a function. -/
theorem ofNode_asNumber (hr : ∀ callable, registry.Registers callable → callable.TakesNumbers) {kind : Token.Kind}
    {operands : List Operand} (h : operands.any Operand.isText = false ∨ ∃ name, kind = .function name) :
    ofNode registry environment.asNumbers kind.asNumber (operands.map Operand.asNumber) =
      (ofNode registry environment kind operands).map Operand.asNumber := by
  cases kind with
  | number x | openBracket | closeBracket | separator | other => rfl
  | text quote content =>
    simp only [Token.Kind.asNumber, ofNode, Except.map, Operand.asNumber]
    cases Numeral.toFloat? content.toList <;> rfl
  | var name =>
    simp only [Token.Kind.asNumber, ofNode, lookUp_asNumbers]
    exact (map_asNumber_number _).symm
  | operator symbol arity =>
    have hnone : operands.any Operand.isText = false := h.resolve_right (by simp)
    rw [map_asNumber_of_any_eq_false hnone]
    simp only [Token.Kind.asNumber, ofNode, hnone, Bool.false_eq_true, if_false]
    cases registry.resolveOperator (Token.Kind.operator symbol arity).fixity symbol with
    | error fault => rfl
    | ok op => exact (map_asNumber_number _).symm
  | function name =>
    simp only [Token.Kind.asNumber, ofNode]
    cases hf : registry.resolveFunction name with
    | error fault => rfl
    | ok function =>
      have hcallable : function.callable.TakesNumbers :=
        hr _ (.inr ⟨name, function, Registry.resolveFunction_eq_ok.1 hf, rfl⟩)
      have hsame := invoke_asNumber hcallable registry.divisionRaises name operands
      simp only [bind, Except.bind, hsame]
      exact (map_asNumber_number _).symm

end

end Evaluation

/-! ## Strings in trees -/

namespace Tree

/-- The label at the root. -/
def label {α : Type} : Tree α → α
  | .node label _ => label

/-- Strings are arguments of functions, and nothing else. -/
inductive TextsInCalls : Tree Token.Kind → Prop
  | call {name : String} {children : List (Tree Token.Kind)}
      (h : ∀ child ∈ children, child.label.isText = false → TextsInCalls child) :
      TextsInCalls (.node (.function name) children)
  | node {kind : Token.Kind} {children : List (Tree Token.Kind)} (hk : kind.isText = false)
      (h : ∀ child ∈ children, TextsInCalls child) : TextsInCalls (.node kind children)

theorem TextsInCalls.isText_label {tree : Tree Token.Kind} (h : tree.TextsInCalls) : tree.label.isText = false := by
  cases h with
  | call => rfl
  | node hk => exact hk

/-- The same number of operands belongs to a number as to a string. -/
theorem Fits.asNumber {registry : Registry} {tree : Tree Token.Kind} (h : tree.Fits registry) :
    (tree.map Token.Kind.asNumber).Fits registry := by
  induction h with
  | @node kind children arity fits ih =>
    have harity : registry.arity? kind.asNumber = registry.arity? kind := by
      cases kind with
      | text quote content =>
        simp only [Token.Kind.asNumber]
        cases Numeral.toFloat? content.toList <;> rfl
      | _ => rfl
    rw [map_node]
    refine .node (by rw [harity, arity, List.length_map]) fun child hc => ?_
    obtain ⟨other, ho, rfl⟩ := List.mem_map.1 hc
    exact ih other ho

end Tree

namespace Evaluation

variable {registry : Registry} {environment : Environment} {tree : Tree Token.Kind}

theorem isText_of_value {operand : Operand} (h : tree.value registry environment = .ok operand) :
    operand.isText = tree.label.isText := by
  obtain ⟨kind, children⟩ := tree
  rw [Tree.value] at h
  obtain ⟨operands, -, h⟩ := exists_of_bind_eq_ok h
  exact isText_of_ofNode h

theorem value_text (quote : Quote) (content : String) :
    (Tree.node (.text quote content) []).value registry environment = .ok (.text content) := by
  rw [Tree.value]
  rfl

/-- A string is a leaf. -/
theorem eq_leaf_of_isText (hf : tree.Fits registry) (h : tree.label.isText = true) :
    ∃ quote content, tree = .node (.text quote content) [] := by
  cases hf with
  | @node kind children arity fits =>
    cases kind with
    | text quote content =>
      obtain rfl : children = [] := List.length_eq_zero_iff.1 (Option.some.inj arity).symm
      exact ⟨quote, content, rfl⟩
    | _ => cases h

theorem value_node_asNumber (hr : ∀ callable, registry.Registers callable → callable.TakesNumbers)
    {kind : Token.Kind} {children : List (Tree Token.Kind)}
    (hchildren : ∀ child ∈ children, (child.map Token.Kind.asNumber).value registry environment.asNumbers =
      (child.value registry environment).map Operand.asNumber)
    (h : (∀ child ∈ children, child.label.isText = false) ∨ ∃ name, kind = .function name) :
    ((Tree.node kind children).map Token.Kind.asNumber).value registry environment.asNumbers =
      ((Tree.node kind children).value registry environment).map Operand.asNumber := by
  rw [Tree.map_node, Tree.value, Tree.value, mapM_map_eq hchildren]
  cases hm : children.mapM (Tree.value registry environment) with
  | error fault => rfl
  | ok operands =>
    refine ofNode_asNumber hr (h.imp_left fun hlabels => List.any_eq_false.2 fun operand ho => ?_)
    obtain ⟨child, hc, hv⟩ := (exists_of_mapM_eq_ok hm).2 operand ho
    rw [isText_of_value hv, hlabels child hc]
    exact Bool.false_ne_true

/-- **Numbers may stand for strings** in a tree with strings in calls only. -/
theorem value_asNumber (hr : ∀ callable, registry.Registers callable → callable.TakesNumbers)
    (hf : tree.Fits registry) (h : tree.TextsInCalls) :
    (tree.map Token.Kind.asNumber).value registry environment.asNumbers =
      (tree.value registry environment).map Operand.asNumber := by
  induction h with
  | @call name children h ih =>
    cases hf with
    | node arity fits =>
      refine value_node_asNumber hr (fun child hc => ?_) (.inr ⟨name, rfl⟩)
      cases htext : child.label.isText with
      | false => exact ih child hc htext (fits child hc)
      | true =>
        obtain ⟨quote, content, rfl⟩ := eq_leaf_of_isText (fits child hc) htext
        exact value_node_asNumber hr (fun _ hm => absurd hm List.not_mem_nil)
          (.inl fun _ hm => absurd hm List.not_mem_nil)
  | @node kind children hk h ih =>
    cases hf with
    | node arity fits =>
      exact value_node_asNumber hr (fun child hc => ih child hc (fits child hc))
        (.inl fun child hc => (h child hc).isText_label)

/-- Every string that the tokens stand for writes a number. -/
def TextsWriteNumbers (environment : Environment) (kinds : List Token.Kind) : Prop :=
  ∀ kind ∈ kinds, ∀ text ∈ kind.textIn? environment, (Numeral.toFloat? text.toList).isSome = true

theorem isSome_of_toFloat {content : String} {x : Float} (h : (Value.text content).toFloat = .ok x) :
    (Numeral.toFloat? content.toList).isSome = true := by
  rw [Value.toFloat] at h
  split at h
  · rename_i y hy
    rw [hy]
    rfl
  · cases h

/-- What is looked up writes a number if it is a string. -/
theorem textsWriteNumbers_of_lookUp {name : String} {x : Float} (h : lookUp environment name = .ok x) :
    TextsWriteNumbers environment [.var name] := by
  intro kind hk text ht
  obtain rfl := List.mem_singleton.1 hk
  simp only [Token.Kind.textIn?] at ht
  split at ht
  · rename_i s hs
    obtain rfl := Option.some.inj ht
    simp only [lookUp, hs] at h
    split at h
    · rename_i y hy
      exact isSome_of_toFloat hy
    · cases h
  · cases ht

theorem call_eq_ok_of_invoke {raises : Bool} {name : String} {callable : Callable} {args : List Value} {x : Float}
    (h : invoke raises name callable args = .ok x) : ∃ value, callable.call raises args = .ok value := by
  unfold invoke at h
  split at h
  · cases h
  · cases h
  · rename_i value hcall
    exact ⟨value, hcall⟩

/-- A node that has a number for its value has no string among its operands, or it is a call, and all of them are
numbers or write one. -/
theorem operands_of_ofNode (hr : ∀ callable, registry.Registers callable → callable.TakesNumbers) {kind : Token.Kind}
    {operands : List Operand} {operand : Operand} (harity : registry.arity? kind = some operands.length)
    (h : ofNode registry environment kind operands = .ok operand) (ho : operand.isText = false) :
    TextsWriteNumbers environment [kind] ∧
      ((∀ operand ∈ operands, operand.isText = false) ∨
        (∃ name, kind = .function name) ∧ ∀ operand ∈ operands, ∃ x, operand.toValue.toFloat = .ok x) := by
  have hnone : ∀ {kind : Token.Kind}, kind.textIn? environment = none → TextsWriteNumbers environment [kind] := by
    intro kind hk other hm text ht
    obtain rfl := List.mem_singleton.1 hm
    rw [hk] at ht
    cases ht
  cases kind with
  | number x =>
    obtain rfl : operands = [] := List.length_eq_zero_iff.1 (Option.some.inj harity).symm
    exact ⟨hnone rfl, .inl fun _ hm => absurd hm List.not_mem_nil⟩
  | text quote content =>
    cases h
    cases ho
  | var name =>
    obtain rfl : operands = [] := List.length_eq_zero_iff.1 (Option.some.inj harity).symm
    refine ⟨?_, .inl fun _ hm => absurd hm List.not_mem_nil⟩
    cases hx : lookUp environment name with
    | error fault =>
      rw [ofNode, hx] at h
      cases h
    | ok x => exact textsWriteNumbers_of_lookUp hx
  | operator symbol arity =>
    obtain ⟨op, -, h⟩ := exists_of_bind_eq_ok h
    split at h
    · cases h
    · rename_i hany
      refine ⟨hnone rfl, .inl fun operand hm => ?_⟩
      simpa using List.any_eq_false.1 (Bool.not_eq_true _ ▸ hany) operand hm
  | function name =>
    obtain ⟨function, hf, h⟩ := exists_of_bind_eq_ok h
    have hcallable : function.callable.TakesNumbers :=
      hr _ (.inr ⟨name, function, Registry.resolveFunction_eq_ok.1 hf, rfl⟩)
    cases hx : invoke registry.divisionRaises name function.callable (operands.map Operand.toValue) with
    | error fault =>
      rw [hx] at h
      cases h
    | ok x =>
      obtain ⟨value, hcall⟩ := call_eq_ok_of_invoke hx
      exact ⟨hnone rfl, .inr ⟨⟨name, rfl⟩, fun operand hm =>
        hcallable.converts _ _ value hcall _ (List.mem_map_of_mem hm)⟩⟩
  | openBracket | closeBracket | separator | other => cases h

/-- **Only a tree with strings in calls that write numbers** has a number for its value. -/
theorem textsInCalls_of_value (hr : ∀ callable, registry.Registers callable → callable.TakesNumbers)
    (hf : tree.Fits registry) {operand : Operand} (h : tree.value registry environment = .ok operand)
    (ho : operand.isText = false) :
    tree.TextsInCalls ∧ TextsWriteNumbers environment tree.postorder := by
  induction hf generalizing operand with
  | @node kind children arity fits ih =>
    rw [Tree.value] at h
    obtain ⟨operands, hm, hnode⟩ := exists_of_bind_eq_ok h
    obtain ⟨hself, hoperands⟩ :=
      operands_of_ofNode hr (arity.trans (by rw [length_of_mapM_eq_ok hm])) hnode ho
    have hsound : ∀ child ∈ children, child.label.isText = false →
        child.TextsInCalls ∧ TextsWriteNumbers environment child.postorder := by
      intro child hc htext
      obtain ⟨result, -, hv⟩ := (exists_of_mapM_eq_ok hm).1 child hc
      exact ih child hc hv ((isText_of_value hv).trans htext)
    have hwrites : (∀ child ∈ children, TextsWriteNumbers environment child.postorder) →
        TextsWriteNumbers environment (Tree.node kind children).postorder := by
      intro hchildren other hother
      rw [Tree.postorder_node] at hother
      rcases List.mem_append.1 hother with hother | hother
      · obtain ⟨child, hc, hother⟩ := List.mem_flatMap.1 hother
        exact hchildren child hc other hother
      · exact hself other hother
    rcases hoperands with hplain | ⟨⟨name, rfl⟩, hnumbers⟩
    · have hlabels : ∀ child ∈ children, child.label.isText = false := by
        intro child hc
        obtain ⟨result, hresult, hv⟩ := (exists_of_mapM_eq_ok hm).1 child hc
        exact (isText_of_value hv).symm.trans (hplain result hresult)
      have hkind : kind.isText = false := (isText_of_ofNode hnode).symm.trans ho
      exact ⟨.node hkind fun child hc => (hsound child hc (hlabels child hc)).1,
        hwrites fun child hc => (hsound child hc (hlabels child hc)).2⟩
    · refine ⟨.call fun child hc htext => (hsound child hc htext).1, hwrites fun child hc => ?_⟩
      cases htext : child.label.isText with
      | false => exact (hsound child hc htext).2
      | true =>
        obtain ⟨quote, content, rfl⟩ := eq_leaf_of_isText (fits child hc) htext
        obtain ⟨result, hresult, hv⟩ := (exists_of_mapM_eq_ok hm).1 _ hc
        rw [value_text] at hv
        obtain rfl : Operand.text content = result := Except.ok.inj hv
        obtain ⟨x, hx⟩ := hnumbers _ hresult
        intro other hother text ht
        rw [Tree.postorder_node, List.flatMap_nil, List.nil_append] at hother
        obtain rfl := List.mem_singleton.1 hother
        obtain rfl := Option.some.inj ht
        exact isSome_of_toFloat hx

theorem evaluate_eq_ok {x : Float} :
    tree.evaluate registry environment = .ok x ↔ tree.value registry environment = .ok (.number x) := by
  unfold Tree.evaluate
  cases tree.value registry environment with
  | error fault => exact ⟨fun h => (by cases h), fun h => (by cases h)⟩
  | ok operand =>
    cases operand with
    | number y => exact ⟨fun h => congrArg _ (congrArg _ (Except.ok.inj h)), fun h => (by cases h; rfl)⟩
    | text content => exact ⟨fun h => (by cases h), fun h => (by cases h)⟩

/-- A list with strings in calls only has the same value, or fails in the same way, with their numbers in place of
them. -/
theorem evaluate_asNumber (hr : ∀ callable, registry.Registers callable → callable.TakesNumbers) {tree : Tree Token}
    (hf : (tree.map Token.kind).Fits registry) (h : (tree.map Token.kind).TextsInCalls) :
    evaluate registry environment.asNumbers (tree.postorder.map Token.asNumber) =
      evaluate registry environment tree.postorder := by
  have hkinds : (tree.map Token.asNumber).map Token.kind = (tree.map Token.kind).map Token.Kind.asNumber := by
    rw [Tree.map_map, Tree.map_map]
    rfl
  have hfits : ((tree.map Token.asNumber).map Token.kind).Fits registry := hkinds ▸ hf.asNumber
  rw [← Tree.postorder_map, evaluate_postorder_of_fits hfits, evaluate_postorder_of_fits hf, hkinds, Tree.evaluate,
    value_asNumber hr hf h, Tree.evaluate]
  cases hv : (tree.map Token.kind).value registry environment with
  | error fault => rfl
  | ok operand =>
    cases operand with
    | number x => rfl
    | text content => cases (isText_of_value hv).trans h.isText_label

/-- **Strings stand for the numbers that they write.** Under a standard registry a list of tokens has a value just if it
is the listing of a tree in which strings are arguments of functions only, every string and every variable that holds
one writes a number, and the list with these numbers in the place of the strings has that value. -/
theorem evaluate_eq_ok_iff_asNumber (settings : Settings) (raises : Bool) (environment : Environment)
    (tokens : List Token) (x : Float) :
    evaluate (.standard settings raises) environment tokens = .ok x ↔
      (∃ tree : Tree Token, tree.postorder = tokens ∧ (tree.map Token.kind).Fits (.standard settings raises) ∧
        (tree.map Token.kind).TextsInCalls) ∧
      TextsWriteNumbers environment (tokens.map Token.kind) ∧
      evaluate (.standard settings raises) environment.asNumbers (tokens.map Token.asNumber) = .ok x := by
  have hr : ∀ callable, (Registry.standard settings raises).Registers callable → callable.TakesNumbers :=
    fun callable => Registry.takesNumbers_of_registers
  constructor
  · intro h
    obtain ⟨tree, hf, rfl⟩ := exists_tree_of_evaluate h
    have hv := h
    rw [evaluate_postorder_of_fits hf, evaluate_eq_ok] at hv
    obtain ⟨hcalls, hwrites⟩ := textsInCalls_of_value hr hf hv rfl
    rw [Tree.postorder_map] at hwrites
    exact ⟨⟨tree, rfl, hf, hcalls⟩, hwrites, (evaluate_asNumber hr hf hcalls).trans h⟩
  · rintro ⟨⟨tree, rfl, hf, hcalls⟩, -, h⟩
    exact (evaluate_asNumber hr hf hcalls).symm.trans h

/-- The tokens of `avg('1', x)`, with a string for the variable. -/
def averaged : List Token := [⟨.text .single "1", some 4⟩, ⟨.var "x", some 9⟩, ⟨.function "avg", some 0⟩]

theorem evaluate_eq_ok_iff_asNumber_averaged :
    evaluate (.standard .shipped true) (fun _ => some (.text " 3e0 ")) averaged = .ok 2.0 ∧
      TextsWriteNumbers (fun _ => some (.text " 3e0 ")) (averaged.map Token.kind) ∧
      evaluate (.standard .shipped true) (Environment.asNumbers fun _ => some (.text " 3e0 "))
        (averaged.map Token.asNumber) = .ok 2.0 := by
  have h : evaluate (.standard .shipped true) (fun _ => some (.text " 3e0 ")) averaged = .ok 2.0 :=
    eq_ok_of_toOption (by decide +kernel)
  exact ⟨h, ((evaluate_eq_ok_iff_asNumber _ _ _ _ _).1 h).2⟩

/-- A string that writes a number has a value in a call. -/
theorem text_has_value :
    ¬ ∀ (environment : Environment) (tokens : List Token),
      (∃ token ∈ tokens, (token.kind.textIn? environment).isSome = true) →
        ∀ x, evaluate (.standard .shipped true) environment tokens ≠ .ok x := by
  intro h
  have hvalue : evaluate (.standard .shipped true) (fun _ => none)
      [⟨.text .single "1", some 4⟩, ⟨.text .single "3", some 9⟩, ⟨.function "avg", some 0⟩] = .ok 2.0 :=
    eq_ok_of_toOption (by decide +kernel)
  exact h _ _ ⟨_, List.mem_cons_self, rfl⟩ _ hvalue

end Evaluation

end Formula
