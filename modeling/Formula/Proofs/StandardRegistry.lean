import Formula.Proofs.Outcome
import Formula.Settings

/-!
# The standard registry

A configuration passes its check if its precedences ascend as values (`Precedences.check_eq_ok`), and settings have
whole numbers for them, which need not ascend (`Settings.exists_levels`). The standard operators fall into groups of one
precedence each (`OperatorGroup`).

A registry that is built by adding operators and functions has the last one that was added of each name
(`Registry.find?_foldl_addOperator`, `Registry.find?_foldl_addFunction`), and nothing else. The standard operators and
functions have names of their own, so that the standard registry has all of them. Its policy on zero divisors may be
changed without a change to anything else (`Registry.setDivision_standard`).
-/

namespace Formula

/-! ## Configurations -/

theorem mustAscend_eq_ok {value next : Value} {fault : ConfigurationFault} :
    mustAscend value next fault = .ok () ↔ value.isLess? next = some true := by
  unfold mustAscend
  split <;> simp_all

/-- Precedences pass their check if and only if they ascend as values. -/
theorem Precedences.check_eq_ok {precedences : Precedences Value} : precedences.check = .ok () ↔
    precedences.additive.isLess? precedences.multiplicative = some true ∧
    precedences.multiplicative.isLess? precedences.power = some true ∧
    precedences.power.isLess? precedences.unary = some true := by
  constructor
  · intro h
    obtain ⟨_, ha, h⟩ := exists_of_bind_eq_ok h
    obtain ⟨_, hm, h⟩ := exists_of_bind_eq_ok h
    exact ⟨mustAscend_eq_ok.1 ha, mustAscend_eq_ok.1 hm, mustAscend_eq_ok.1 h⟩
  · rintro ⟨ha, hm, hp⟩
    rw [check, mustAscend_eq_ok.2 ha, mustAscend_eq_ok.2 hm, mustAscend_eq_ok.2 hp]
    rfl

theorem Configuration.check_eq_ok {configuration : Configuration} : configuration.check = .ok () ↔
    configuration.precedences.check = .ok () ∧ ∀ n ∈ configuration.cacheCapacity, 0 ≤ n := by
  unfold check
  cases configuration.precedences.check <;> cases configuration.cacheCapacity <;>
    simp [bind, Except.bind, pure, Except.pure]

/-! ## Whole precedences -/

theorem OperatorDraft.toInt_of_check {draft : OperatorDraft} {op : Operator} (h : draft.check = .ok op) :
    draft.precedence.toInt = .ok op.precedence := by
  unfold check at h
  split at h
  · cases h
  · split at h
    · split at h <;> cases h
      assumption
    · cases h

/-- The precedences ascend from sums over products and powers to signs. -/
structure Precedences.Ascend (levels : Precedences Int) : Prop where
  products : levels.additive < levels.multiplicative
  powers : levels.multiplicative < levels.power
  signs : levels.power < levels.unary

namespace Settings

variable {settings : Settings} {levels : Precedences Int}

theorem operators_eq (h : settings.precedences.HaveLevels levels) : settings.operators = levels.operators :=
  Except.ok.inj (settings.checked.symm.trans (standardOperators_of_haveLevels h))

/-- Standard operators that have passed their check have whole precedences. -/
theorem exists_levels (settings : Settings) :
    ∃ levels : Precedences Int, settings.precedences.HaveLevels levels ∧ settings.operators = levels.operators := by
  have hlevel : ∀ draft ∈ standardDrafts settings.precedences, ∃ level, draft.precedence.toInt = .ok level := by
    intro draft hd
    obtain ⟨op, -, hop⟩ := (exists_of_mapM_eq_ok settings.checked).1 draft hd
    exact ⟨op.precedence, OperatorDraft.toInt_of_check hop⟩
  simp only [standardDrafts, List.forall_mem_cons] at hlevel
  obtain ⟨⟨additive, ha⟩, -, ⟨multiplicative, hm⟩, -, ⟨power, hp⟩, ⟨unary, hu⟩, -⟩ := hlevel
  have hlevels : settings.precedences.HaveLevels ⟨additive, multiplicative, power, unary⟩ := ⟨ha, hm, hp, hu⟩
  exact ⟨_, hlevels, operators_eq hlevels⟩

/-- The precedences ascend as whole numbers, too. -/
def Ascends (settings : Settings) : Prop :=
  ∃ levels : Precedences Int, settings.precedences.HaveLevels levels ∧ levels.Ascend

end Settings

/-! ## Groups of operators -/

/-- The standard operators of one precedence. -/
inductive OperatorGroup where
  | sums
  | products
  | powers
  | signs

namespace OperatorGroup

def level {α : Type} : OperatorGroup → Precedences α → α
  | sums => Precedences.additive
  | products => Precedences.multiplicative
  | powers => Precedences.power
  | signs => Precedences.unary

def associativity : OperatorGroup → Associativity
  | sums | products => .left
  | powers | signs => .right

def fixity : OperatorGroup → Fixity
  | signs => .unary
  | _ => .binary

/-- The operator is one of the group, at the level of the group. -/
structure Has (group : OperatorGroup) (levels : Precedences Int) (op : Operator) : Prop where
  precedence : op.precedence = group.level levels
  associativity : op.associativity = group.associativity
  fixity : op.fixity = group.fixity

theorem exists_has {levels : Precedences Int} {op : Operator} (h : op ∈ levels.operators) :
    ∃ group : OperatorGroup, group.Has levels op := by
  simp only [Precedences.operators, List.mem_cons, List.not_mem_nil, or_false] at h
  rcases h with rfl | rfl | rfl | rfl | rfl | rfl | rfl
  · exact ⟨sums, rfl, rfl, rfl⟩
  · exact ⟨sums, rfl, rfl, rfl⟩
  · exact ⟨products, rfl, rfl, rfl⟩
  · exact ⟨products, rfl, rfl, rfl⟩
  · exact ⟨powers, rfl, rfl, rfl⟩
  · exact ⟨signs, rfl, rfl, rfl⟩
  · exact ⟨signs, rfl, rfl, rfl⟩

end OperatorGroup

namespace Registry

/-! ## Registries built up -/

variable {registry : Registry} {fixity : Fixity}

theorem find?_addOperator (registry : Registry) (op : Operator) (fixity : Fixity) (symbol : String) :
    ((registry.addOperator op).operators fixity).find? symbol =
      if op.fixity = fixity ∧ op.symbol = symbol then some op else (registry.operators fixity).find? symbol := by
  unfold addOperator
  split <;> rename_i h <;> cases fixity <;> simp [operators, h, Table.find?_insert]

theorem find?_addFunction (registry : Registry) (function : Function) (name : String) :
    (registry.addFunction function).functions.find? name =
      if function.name = name then some function else registry.functions.find? name :=
  Table.find?_insert registry.functions function name

theorem find?_foldl_addOperator (ops : List Operator) (registry : Registry) (fixity : Fixity) (symbol : String) :
    ((ops.foldl addOperator registry).operators fixity).find? symbol =
      (ops.reverse.find? fun op => op.fixity = fixity ∧ op.symbol = symbol).or
        ((registry.operators fixity).find? symbol) := by
  induction ops generalizing registry with
  | nil => rfl
  | cons op ops ih =>
    rw [List.foldl_cons, ih, find?_addOperator, List.reverse_cons, List.find?_append, Option.or_assoc]
    by_cases h : op.fixity = fixity ∧ op.symbol = symbol <;> simp [h]

theorem find?_foldl_addFunction (functions : List Function) (registry : Registry) (name : String) :
    (functions.foldl addFunction registry).functions.find? name =
      (functions.reverse.find? fun function => function.name = name).or (registry.functions.find? name) := by
  induction functions generalizing registry with
  | nil => rfl
  | cons function functions ih =>
    rw [List.foldl_cons, ih, find?_addFunction, List.reverse_cons, List.find?_append, Option.or_assoc]
    by_cases h : function.name = name <;> simp [h]

theorem operators_foldl_addFunction (functions : List Function) (registry : Registry) (fixity : Fixity) :
    (functions.foldl addFunction registry).operators fixity = registry.operators fixity := by
  induction functions generalizing registry with
  | nil => rfl
  | cons function functions ih =>
    rw [List.foldl_cons, ih]
    cases fixity <;> rfl

theorem functions_foldl_addOperator (ops : List Operator) (registry : Registry) :
    (ops.foldl addOperator registry).functions = registry.functions := by
  induction ops generalizing registry with
  | nil => rfl
  | cons op ops ih =>
    rw [List.foldl_cons, ih]
    unfold addOperator
    split <;> rfl

theorem mem_of_mem_addOperator {op other : Operator}
    (h : other ∈ ((registry.addOperator op).operators fixity).entries) :
    other = op ∨ other ∈ (registry.operators fixity).entries := by
  unfold addOperator at h
  split at h
  · cases fixity
    · exact Table.mem_of_mem_insert h
    · exact .inr h
  · cases fixity
    · exact .inr h
    · exact Table.mem_of_mem_insert h

theorem mem_of_mem_foldl_addOperator {ops : List Operator} {op : Operator}
    (h : op ∈ ((ops.foldl addOperator registry).operators fixity).entries) :
    op ∈ ops ∨ op ∈ (registry.operators fixity).entries := by
  induction ops generalizing registry with
  | nil => exact .inr h
  | cons first ops ih =>
    rcases ih h with h | h
    · exact .inl (List.mem_cons_of_mem first h)
    · rcases mem_of_mem_addOperator h with rfl | h
      · exact .inl List.mem_cons_self
      · exact .inr h

/-! ## The policy on zero divisors -/

theorem addOperator_setDivision (registry : Registry) (op : Operator) (raises : Bool) :
    (registry.addOperator op).setDivision raises = (registry.setDivision raises).addOperator op := by
  unfold addOperator
  split <;> rfl

theorem foldl_addOperator_setDivision (ops : List Operator) (registry : Registry) (raises : Bool) :
    (ops.foldl addOperator registry).setDivision raises = ops.foldl addOperator (registry.setDivision raises) := by
  induction ops generalizing registry with
  | nil => rfl
  | cons op ops ih => rw [List.foldl_cons, ih, addOperator_setDivision, List.foldl_cons]

theorem foldl_addFunction_setDivision (functions : List Function) (registry : Registry) (raises : Bool) :
    (functions.foldl addFunction registry).setDivision raises =
      functions.foldl addFunction (registry.setDivision raises) := by
  induction functions generalizing registry with
  | nil => rfl
  | cons function functions ih =>
    rw [List.foldl_cons, ih, List.foldl_cons]
    rfl

theorem setDivision_standard (settings : Settings) (raises next : Bool) :
    (Registry.standard settings raises).setDivision next = .standard settings next := by
  rw [standard, foldl_addFunction_setDivision, foldl_addOperator_setDivision]
  rfl

/-! ## Standard operators and functions -/

section Standard

variable {settings : Settings} {op other : Operator}

theorem find?_standardOperators (h : op ∈ settings.operators) (raises : Bool) :
    ((Registry.standard settings raises).operators op.fixity).find? op.symbol = some op := by
  rw [standard, operators_foldl_addFunction, find?_foldl_addOperator]
  obtain ⟨levels, -, hops⟩ := settings.exists_levels
  rw [hops] at h ⊢
  simp only [Precedences.operators, List.mem_cons, List.not_mem_nil, or_false] at h
  rcases h with rfl | rfl | rfl | rfl | rfl | rfl | rfl <;> simp [Precedences.operators]

theorem find?_standardFunctions (settings : Settings) {function : Function} (h : function ∈ standardFunctions)
    (raises : Bool) :
    (Registry.standard settings raises).functions.find? function.name = some function := by
  rw [standard, find?_foldl_addFunction]
  simp only [standardFunctions, List.mem_cons, List.not_mem_nil, or_false] at h
  rcases h with rfl | rfl | rfl | rfl | rfl | rfl | rfl | rfl | rfl | rfl | rfl <;> simp [standardFunctions]

theorem mem_standardOperators {fixity : Fixity} {raises : Bool}
    (h : op ∈ ((Registry.standard settings raises).operators fixity).entries) : op ∈ settings.operators := by
  rw [standard, operators_foldl_addFunction] at h
  rcases mem_of_mem_foldl_addOperator h with h | h
  · exact h
  · cases fixity <;> cases h

/-- A symbol of a standard operator is a single character. -/
theorem exists_symbol_eq (h : op ∈ settings.operators) :
    ∃ c ∈ ['+', '-', '*', '/', '^'], op.symbol.toList = [c] := by
  obtain ⟨levels, -, hops⟩ := settings.exists_levels
  simp only [hops, Precedences.operators, List.mem_cons, List.not_mem_nil, or_false] at h
  rcases h with rfl | rfl | rfl | rfl | rfl | rfl | rfl <;> simp

/-- Signs bind tighter than all operators of two operands. -/
theorem precedence_lt_of_unary (hs : settings.Ascends) (h : op ∈ settings.operators) (ho : other ∈ settings.operators)
    (hf : op.fixity = .binary) (hu : other.fixity = .unary) : op.precedence < other.precedence := by
  obtain ⟨levels, hlevels, ham, hmp, hpu⟩ := hs
  rw [Settings.operators_eq hlevels] at h ho
  obtain ⟨group, hgroup⟩ := OperatorGroup.exists_has h
  obtain ⟨group', hgroup'⟩ := OperatorGroup.exists_has ho
  rw [hgroup.fixity] at hf
  obtain rfl : group' = .signs := by
    rw [hgroup'.fixity] at hu
    cases group' <;> first | rfl | cases hu
  rw [hgroup.precedence, hgroup'.precedence]
  cases group with
  | signs => cases hf
  | _ => simp only [OperatorGroup.level]; omega

/-- Operators of two operands that bind equally tight are all left-associative, or none of them is. -/
theorem associativity_of_precedence_eq (hs : settings.Ascends) (h : op ∈ settings.operators)
    (ho : other ∈ settings.operators) (hp : op.precedence = other.precedence) :
    op.associativity = .left ↔ other.associativity = .left := by
  obtain ⟨levels, hlevels, ham, hmp, hpu⟩ := hs
  rw [Settings.operators_eq hlevels] at h ho
  obtain ⟨group, hgroup⟩ := OperatorGroup.exists_has h
  obtain ⟨group', hgroup'⟩ := OperatorGroup.exists_has ho
  rw [hgroup.precedence, hgroup'.precedence] at hp
  have hsame : group = group' := by
    cases group <;> cases group' <;> simp only [OperatorGroup.level] at hp <;> first | rfl | omega
  rw [hgroup.associativity, hgroup'.associativity, hsame]

end Standard

end Registry

end Formula
