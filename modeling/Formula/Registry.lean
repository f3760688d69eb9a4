import Formula.Callable
import Formula.Table
import Formula.Text.Word

/-!
# Registries

A registry holds the operators and functions that texts may use, and the policy on zero divisors. A definition is
drafted freely and checked when it is registered; the last one of a name wins. Operators of one operand and operators of
two are looked up apart. The symbols of both are offered to the reader of texts in one list without repetition, longer
ones first (`Registry.pairwise_symbols`, `Registry.mem_symbols`).
-/

namespace Formula

/-! ## Definitions -/

/-- A symbol is not empty and has neither blanks nor brackets nor commas. -/
def isSymbol (symbol : String) : Bool :=
  !symbol.toList.isEmpty && symbol.toList.all fun c => !(Text.isBlank c || c == '(' || c == ')' || c == ',')

theorem isSymbol_iff {symbol : String} : isSymbol symbol = true ↔
    symbol.toList ≠ [] ∧ ∀ c ∈ symbol.toList, Text.isBlank c = false ∧ c ≠ '(' ∧ c ≠ ')' ∧ c ≠ ',' := by
  simp [isSymbol, and_assoc]

/-- An operator that texts may use. -/
structure Operator where
  symbol : String
  fixity : Fixity
  /-- The higher, the tighter its operands are bound. -/
  precedence : Int
  associativity : Associativity
  callable : Callable
  admissible : isSymbol symbol = true

/-- A function that texts may call. -/
structure Function where
  name : String
  arity : Nat
  callable : Callable
  admissible : Text.isWord name.toList = true

/-- An operator before it is checked. -/
structure OperatorDraft where
  symbol : String
  precedence : Value
  associativity : Associativity
  callable : Callable
  arity : Int

/-- A function before it is checked. -/
structure FunctionDraft where
  name : String
  callable : Callable
  arity : Int

/-- Checks the arity, then the symbol, then the precedence. -/
def OperatorDraft.check (draft : OperatorDraft) : Except Fault Operator :=
  if draft.arity ≠ 1 ∧ draft.arity ≠ 2 then .error (.definition (.operatorArity draft.arity))
  else if h : isSymbol draft.symbol = true then
    match draft.precedence.toInt with
    | .ok precedence =>
      .ok {
        symbol := draft.symbol
        fixity := if draft.arity = 1 then .unary else .binary
        precedence := precedence
        associativity := draft.associativity
        callable := draft.callable
        admissible := h }
    | .error complaint => .error (.refused (.complaint complaint))
  else .error (.definition (.operatorSymbol draft.symbol))

/-- Checks the name, then the arity. -/
def FunctionDraft.check (draft : FunctionDraft) : Except Fault Function :=
  if h : Text.isWord draft.name.toList = true then
    if draft.arity < 0 then .error (.definition (.functionArity draft.arity))
    else .ok ⟨draft.name, draft.arity.toNat, draft.callable, h⟩
  else .error (.definition (.functionName draft.name))

/-- An operator as it is shown in lists. -/
def Operator.describe (op : Operator) : String :=
  let associativity := op.associativity.word
  s!"OperatorDefinition({Text.quoted op.symbol}, precedence={op.precedence}, {associativity}, arity={op.fixity.arity})"

/-- A function as it is shown in lists. -/
def Function.describe (function : Function) : String :=
  s!"FunctionDefinition({Text.quoted function.name}, arity={function.arity})"

/-! ## The order of symbols -/

/-- Longer symbols come first, and symbols of one length in the order of their code points. -/
def longerFirst (s t : String) : Prop := t.length < s.length ∨ s.length = t.length ∧ s < t

instance : DecidableRel longerFirst := fun _ _ => inferInstanceAs (Decidable (_ ∨ _))

theorem strictOrder_longerFirst : StrictOrder longerFirst where
  irrefl s h := h.elim (Nat.lt_irrefl _) fun h => String.lt_irrefl s h.2
  trans := by
    rintro s t u (h | ⟨h, hs⟩) (h' | ⟨h', ht⟩)
    · exact .inl (by omega)
    · exact .inl (by omega)
    · exact .inl (by omega)
    · exact .inr ⟨by omega, String.lt_trans hs ht⟩
  eq_of_not := by
    intro s t h h'
    simp only [longerFirst, not_or, not_and] at h h'
    have hl : s.length = t.length := by omega
    exact strictOrder_lt.eq_of_not (h.2 hl) (h'.2 hl.symm)

/-! ## Registries -/

/-- The operators and functions that texts may use, and the policy on zero divisors. -/
structure Registry where
  unary : Table Operator Operator.symbol
  binary : Table Operator Operator.symbol
  functions : Table Function Function.name
  /-- A zero divisor is refused. -/
  divisionRaises : Bool
  fixity_unary : ∀ op ∈ unary.entries, op.fixity = .unary
  fixity_binary : ∀ op ∈ binary.entries, op.fixity = .binary

namespace Registry

/-- A registry without operators and functions. -/
def empty (divisionRaises : Bool) : Registry where
  unary := .empty
  binary := .empty
  functions := .empty
  divisionRaises := divisionRaises
  fixity_unary := by simp [Table.empty]
  fixity_binary := by simp [Table.empty]

/-- The operators of one fixity. -/
def operators (registry : Registry) : Fixity → Table Operator Operator.symbol
  | .unary => registry.unary
  | .binary => registry.binary

/-- Adds an operator, in place of the one of the same symbol and fixity. -/
def addOperator (registry : Registry) (op : Operator) : Registry :=
  match h : op.fixity with
  | .unary =>
    { registry with
      unary := registry.unary.insert op
      fixity_unary := fun _ hd => (Table.mem_of_mem_insert hd).elim (· ▸ h) (registry.fixity_unary _) }
  | .binary =>
    { registry with
      binary := registry.binary.insert op
      fixity_binary := fun _ hd => (Table.mem_of_mem_insert hd).elim (· ▸ h) (registry.fixity_binary _) }

/-- Adds a function, in place of the one of the same name. -/
def addFunction (registry : Registry) (function : Function) : Registry :=
  { registry with functions := registry.functions.insert function }

/-- Changes the policy on zero divisors. -/
def setDivision (registry : Registry) (raises : Bool) : Registry := { registry with divisionRaises := raises }

/-- The operator of a symbol and a fixity. -/
def resolveOperator (registry : Registry) (fixity : Fixity) (symbol : String) : Except Fault Operator :=
  match (registry.operators fixity).find? symbol with
  | some op => .ok op
  | none => .error (.unknownOperator fixity symbol)

/-- The function of a name. -/
def resolveFunction (registry : Registry) (name : String) : Except Fault Function :=
  match registry.functions.find? name with
  | some function => .ok function
  | none => .error (.unknownFunction name)

/-- The symbols of all operators, longer ones first, each of them once. -/
def symbols (registry : Registry) : List String :=
  ((registry.binary.entries ++ registry.unary.entries).map Operator.symbol).foldr (insertOrdered id longerFirst) []

theorem resolveOperator_ok {registry : Registry} {fixity : Fixity} {symbol : String} {op : Operator}
    (h : registry.resolveOperator fixity symbol = .ok op) : op.symbol = symbol ∧ op.fixity = fixity := by
  unfold resolveOperator at h
  split at h
  · rename_i found
    obtain rfl := Except.ok.inj h
    refine ⟨Table.key_of_find? found, ?_⟩
    cases fixity
    · exact registry.fixity_unary _ (Table.mem_of_find? found)
    · exact registry.fixity_binary _ (Table.mem_of_find? found)
  · cases h

theorem pairwise_symbols (registry : Registry) : registry.symbols.Pairwise longerFirst := by
  unfold symbols
  generalize (registry.binary.entries ++ registry.unary.entries).map Operator.symbol = names
  induction names with
  | nil => exact .nil
  | cons s names ih =>
    have h : (insertOrdered id longerFirst s (names.foldr (insertOrdered id longerFirst) [])).Pairwise
        fun t u => longerFirst (id t) (id u) := pairwise_insertOrdered strictOrder_longerFirst s ih
    exact h

/-- The symbols are those of the operators of either fixity. -/
theorem mem_symbols {registry : Registry} {symbol : String} :
    symbol ∈ registry.symbols ↔ ∃ fixity, ∃ op ∈ (registry.operators fixity).entries, op.symbol = symbol := by
  have key : symbol ∈ registry.symbols ↔
      symbol ∈ (registry.binary.entries ++ registry.unary.entries).map Operator.symbol := by
    unfold symbols
    generalize (registry.binary.entries ++ registry.unary.entries).map Operator.symbol = names
    induction names with
    | nil => simp
    | cons s names ih => rw [List.foldr_cons, mem_insertOrdered_id strictOrder_longerFirst, ih, List.mem_cons]
  rw [key, List.map_append, List.mem_append, List.mem_map, List.mem_map]
  constructor
  · rintro (h | h)
    · exact ⟨.binary, h⟩
    · exact ⟨.unary, h⟩
  · rintro ⟨fixity, h⟩
    cases fixity
    · exact .inr h
    · exact .inl h

end Registry

end Formula
