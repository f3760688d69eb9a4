import Formula.Evaluation
import Formula.Proofs.Agreement
import Formula.Proofs.StandardRegistry

/-!
# Registries and their last definitions

Definitions are registered one after another, and each of them is checked first; one that is refused leaves the registry
as it was (`Registry.register`). Whatever is asked of a registry, the answer is what the last definition gives that says
something of it and was not refused, and without one it is the answer of the registry at the beginning
(`Registry.answer_registerAll`). So registries with the same last definitions agree on all names
(`Registry.agreesOn_registerAll`), and nothing else of the history matters (`Registry.determined_by_last`).
-/

namespace Formula

/-! ## Definitions that are registered -/

/-- An operator or a function before it is checked. -/
inductive Draft where
  | operator (draft : OperatorDraft)
  | function (draft : FunctionDraft)

/-- An operator or a function. -/
inductive Definition where
  | operator (op : Operator)
  | function (function : Function)

def Draft.check : Draft → Except Fault Definition
  | .operator draft => draft.check.map .operator
  | .function draft => draft.check.map .function

/-- The operator of a fixity and a symbol, if that is what is defined. -/
def Definition.operator? (fixity : Fixity) (symbol : String) : Definition → Option Operator
  | .operator op => if op.fixity = fixity ∧ op.symbol = symbol then some op else none
  | .function _ => none

/-- The function of a name, if that is what is defined. -/
def Definition.function? (name : String) : Definition → Option Function
  | .operator _ => none
  | .function defined => if defined.name = name then some defined else none

/-- What the last definition gives that gives something and is not refused. -/
def lastGiven? {α : Type} (given : Definition → Option α) (drafts : List Draft) : Option α :=
  drafts.reverse.findSome? fun draft => draft.check.toOption.bind given

@[simp] theorem lastGiven?_nil {α : Type} (given : Definition → Option α) : lastGiven? given [] = none := rfl

theorem lastGiven?_cons {α : Type} (given : Definition → Option α) (draft : Draft) (drafts : List Draft) :
    lastGiven? given (draft :: drafts) = (lastGiven? given drafts).or (draft.check.toOption.bind given) := by
  simp [lastGiven?, List.findSome?_append]

/-- The last operator of a fixity and a symbol that is not refused. -/
def lastOperator? (drafts : List Draft) (fixity : Fixity) (symbol : String) : Option Operator :=
  lastGiven? (Definition.operator? fixity symbol) drafts

/-- The last function of a name that is not refused. -/
def lastFunction? (drafts : List Draft) (name : String) : Option Function :=
  lastGiven? (Definition.function? name) drafts

namespace Registry

/-- Adds a definition, in place of the one of the same name. -/
def add (registry : Registry) : Definition → Registry
  | .operator op => registry.addOperator op
  | .function function => registry.addFunction function

/-- Checks a definition, and adds it if it is not refused. -/
def register (registry : Registry) (draft : Draft) : Except Fault Unit × Registry :=
  match draft.check with
  | .error fault => (.error fault, registry)
  | .ok definition => (.ok (), registry.add definition)

/-- Registers definitions one after another, whether some of them are refused or not. -/
def registerAll (registry : Registry) (drafts : List Draft) : Registry :=
  drafts.foldl (fun registry draft => (registry.register draft).2) registry

section

variable {registry other : Registry} {draft : Draft}

/-! ## One definition -/

theorem functions_addOperator (registry : Registry) (op : Operator) :
    (registry.addOperator op).functions = registry.functions := by
  unfold addOperator
  split <;> rfl

theorem divisionRaises_add (registry : Registry) (definition : Definition) :
    (registry.add definition).divisionRaises = registry.divisionRaises := by
  cases definition with
  | operator op =>
    rw [add, addOperator]
    split <;> rfl
  | function function => rfl

theorem find?_operators_add (registry : Registry) (definition : Definition) (fixity : Fixity) (symbol : String) :
    ((registry.add definition).operators fixity).find? symbol =
      (definition.operator? fixity symbol).or ((registry.operators fixity).find? symbol) := by
  cases definition with
  | operator op =>
    rw [add, find?_addOperator, Definition.operator?]
    split <;> simp
  | function function => cases fixity <;> rfl

theorem find?_functions_add (registry : Registry) (definition : Definition) (name : String) :
    (registry.add definition).functions.find? name =
      (definition.function? name).or (registry.functions.find? name) := by
  cases definition with
  | operator op => rw [add, functions_addOperator, Definition.function?, Option.none_or]
  | function function =>
    rw [add, find?_addFunction, Definition.function?]
    split <;> simp

/-- A definition that is refused changes nothing. -/
theorem register_of_error {fault : Fault} (h : (registry.register draft).1 = .error fault) :
    (registry.register draft).2 = registry := by
  unfold register at *
  split at h
  · rfl
  · cases h

theorem register_snd (registry : Registry) (draft : Draft) :
    (registry.register draft).2 = draft.check.toOption.elim registry registry.add := by
  unfold register
  cases draft.check <;> rfl

/-! ## Definitions one after another -/

/-- What a definition that is added gives, the last one of many gives, if it was not refused. -/
theorem answer_registerAll {α : Type} (answer : Registry → Option α) (given : Definition → Option α)
    (h : ∀ registry definition, answer (registry.add definition) = (given definition).or (answer registry))
    (registry : Registry) (drafts : List Draft) :
    answer (registry.registerAll drafts) = (lastGiven? given drafts).or (answer registry) := by
  induction drafts generalizing registry with
  | nil => rfl
  | cons draft drafts ih =>
    have hfirst : answer (registry.register draft).2 = (draft.check.toOption.bind given).or (answer registry) := by
      rw [register_snd]
      cases draft.check.toOption with
      | none => rfl
      | some definition => exact h registry definition
    rw [lastGiven?_cons, Option.or_assoc, ← hfirst]
    exact ih (registry.register draft).2

theorem find?_operators_registerAll (registry : Registry) (drafts : List Draft) (fixity : Fixity) (symbol : String) :
    ((registry.registerAll drafts).operators fixity).find? symbol =
      (lastOperator? drafts fixity symbol).or ((registry.operators fixity).find? symbol) :=
  answer_registerAll (fun registry => (registry.operators fixity).find? symbol) (Definition.operator? fixity symbol)
    (fun registry definition => find?_operators_add registry definition fixity symbol) registry drafts

theorem find?_functions_registerAll (registry : Registry) (drafts : List Draft) (name : String) :
    (registry.registerAll drafts).functions.find? name =
      (lastFunction? drafts name).or (registry.functions.find? name) :=
  answer_registerAll (fun registry => registry.functions.find? name) (Definition.function? name)
    (fun registry definition => find?_functions_add registry definition name) registry drafts

/-- No definition changes the policy on zero divisors. -/
theorem divisionRaises_registerAll (registry : Registry) (drafts : List Draft) :
    (registry.registerAll drafts).divisionRaises = registry.divisionRaises := by
  refine List.foldlRecOn (motive := fun next : Registry => next.divisionRaises = registry.divisionRaises) drafts _ rfl
    ?_
  intro next hnext draft _
  rw [register_snd]
  cases draft.check.toOption with
  | none => exact hnext
  | some definition => exact (divisionRaises_add next definition).trans hnext

/-- Registries with the same last definitions agree on all names. -/
theorem agreesOn_registerAll {start : Registry} {drafts others : List Draft}
    (ho : ∀ fixity symbol, lastOperator? drafts fixity symbol = lastOperator? others fixity symbol)
    (hf : ∀ name, lastFunction? drafts name = lastFunction? others name) :
    (start.registerAll drafts).AgreesOn (fun _ => True) (start.registerAll others) where
  operators symbol _ fixity := by rw [find?_operators_registerAll, find?_operators_registerAll, ho]
  functions name _ := by rw [find?_functions_registerAll, find?_functions_registerAll, hf]
  divisionRaises := by rw [divisionRaises_registerAll, divisionRaises_registerAll]

/-! ## What a registry looks like -/

/-- A symbol is found under itself, and it has characters, none of which is a blank, a bracket or a comma. -/
theorem symbol_of_find? {fixity : Fixity} {symbol : String} {op : Operator}
    (h : (registry.operators fixity).find? symbol = some op) :
    op.symbol = symbol ∧ op.fixity = fixity ∧ symbol ≠ "" ∧
      ∀ c ∈ symbol.toList, Text.isBlank c = false ∧ c ≠ '(' ∧ c ≠ ')' ∧ c ≠ ',' := by
  obtain ⟨rfl, hfixity⟩ := resolveOperator_ok (resolveOperator_eq_ok.2 h)
  obtain ⟨hne, hc⟩ := isSymbol_iff.1 op.admissible
  exact ⟨rfl, hfixity, fun he => hne (by rw [he]; rfl), hc⟩

theorem nodup_symbols (registry : Registry) : registry.symbols.Nodup := by
  refine registry.pairwise_symbols.imp fun h he => ?_
  rw [he] at h
  exact strictOrder_longerFirst.irrefl _ h

/-- **Only the last definitions matter.** Behind any definitions, of which some may be refused, a registry has the last
ones that were not, and what it had before of all other names. So if two histories agree on these, the registries have
the same symbols, find the same operators and functions, and read, rearrange and evaluate everything alike. In every
registry operators stand under their own fixity and symbol, the symbols are listed once each, longer ones first, and a
definition that is refused changes nothing. -/
theorem determined_by_last (start : Registry) (drafts others : List Draft)
    (ho : ∀ fixity symbol, lastOperator? drafts fixity symbol = lastOperator? others fixity symbol)
    (hf : ∀ name, lastFunction? drafts name = lastFunction? others name) :
    let registry := start.registerAll drafts
    let other := start.registerAll others
    (registry.symbols = other.symbols ∧
      (∀ fixity symbol, registry.resolveOperator fixity symbol = other.resolveOperator fixity symbol) ∧
      (∀ name, registry.resolveFunction name = other.resolveFunction name) ∧
      (∀ text, Infix.read registry text = Infix.read other text) ∧
      (∀ tokens, Postfix.ofInfix registry tokens = Postfix.ofInfix other tokens) ∧
      ∀ environment tokens, Evaluation.evaluate registry environment tokens =
        Evaluation.evaluate other environment tokens) ∧
    (∀ fixity symbol, (registry.operators fixity).find? symbol =
      (lastOperator? drafts fixity symbol).or ((start.operators fixity).find? symbol)) ∧
    (∀ name, registry.functions.find? name = (lastFunction? drafts name).or (start.functions.find? name)) ∧
    (∀ fixity symbol op, (registry.operators fixity).find? symbol = some op →
      op.symbol = symbol ∧ op.fixity = fixity ∧ symbol ≠ "" ∧
        ∀ c ∈ symbol.toList, Text.isBlank c = false ∧ c ≠ '(' ∧ c ≠ ')' ∧ c ≠ ',') ∧
    (registry.symbols.Pairwise longerFirst ∧ registry.symbols.Nodup ∧
      ∀ symbol, symbol ∈ registry.symbols ↔ ∃ fixity op, (registry.operators fixity).find? symbol = some op) ∧
    ∀ draft fault, (registry.register draft).1 = .error fault → (registry.register draft).2 = registry := by
  intro registry other
  have hagrees : registry.AgreesOn (fun _ => True) other := agreesOn_registerAll ho hf
  refine ⟨⟨hagrees.symbols_eq fun _ => trivial, fun fixity symbol => hagrees.resolveOperator_eq trivial fixity,
    fun name => hagrees.resolveFunction_eq trivial, fun text => hagrees.read_eq fun _ _ => trivial,
    fun tokens => hagrees.ofInfix_eq fun _ _ _ _ => trivial,
    fun environment tokens => hagrees.evaluate_eq environment fun _ _ _ _ => trivial⟩,
    find?_operators_registerAll start drafts, find?_functions_registerAll start drafts,
    fun fixity symbol op => symbol_of_find?, ⟨registry.pairwise_symbols, registry.nodup_symbols, fun symbol => ?_⟩,
    fun draft fault => register_of_error⟩
  simp only [mem_symbols_iff_find?, Option.isSome_iff_exists]

end

/-- A second sign for powers. -/
def powerSign (precedence : Int) : Draft := .operator ⟨"**", .int precedence, .right, .power, 2⟩

theorem check_powerSign (precedence : Int) : (powerSign precedence).check.toOption =
    some (.operator ⟨"**", .binary, precedence, .right, .power, by decide⟩) := by
  have hs : isSymbol "**" = true := by decide
  simp [powerSign, Draft.check, OperatorDraft.check, hs, Value.toInt, Except.map, Except.toOption]

/-- One history has a function that is refused, and the other one an operator that is refused and one that is defined
anew in the end; both of them give `max` another meaning. -/
theorem determined_by_last_powerSign :
    let smaller : Draft := .function ⟨"max", .min, 2⟩
    let drafts := [smaller, .function ⟨"max", .max, -1⟩, powerSign 3]
    let others := [powerSign 9, .operator ⟨"* *", .int 3, .left, .mul, 2⟩, smaller, powerSign 3]
    let registry := (Registry.standard .shipped true).registerAll drafts
    let other := (Registry.standard .shipped true).registerAll others
    (∀ fixity symbol, lastOperator? drafts fixity symbol = lastOperator? others fixity symbol) ∧
      (∀ name, lastFunction? drafts name = lastFunction? others name) ∧
      registry.symbols = ["**", "*", "+", "-", "/", "^"] ∧ other.symbols = registry.symbols ∧
      Infix.read registry "max(2, 3)**2" = Infix.read other "max(2, 3)**2" := by
  intro smaller drafts others registry other
  have hname : Text.isWord "max".toList = true := by decide
  have hsmaller : smaller.check.toOption = some (.function ⟨"max", 2, .min, hname⟩) := by
    simp only [smaller, Draft.check, FunctionDraft.check, dif_pos hname]
    rfl
  have harity : (Draft.function ⟨"max", .max, -1⟩).check.toOption = none := by
    simp only [Draft.check, FunctionDraft.check, dif_pos hname]
    rfl
  have hblank : (Draft.operator ⟨"* *", .int 3, .left, .mul, 2⟩).check.toOption = none := by
    have hs : ¬ isSymbol "* *" = true := by decide
    simp [Draft.check, OperatorDraft.check, hs, Except.map, Except.toOption]
  have ho : ∀ fixity symbol, lastOperator? drafts fixity symbol = lastOperator? others fixity symbol := by
    intro fixity symbol
    by_cases h : Fixity.binary = fixity ∧ "**" = symbol <;>
      simp [lastOperator?, drafts, others, lastGiven?_cons, hsmaller, harity, hblank, check_powerSign,
        Definition.operator?, h]
  have hf : ∀ name, lastFunction? drafts name = lastFunction? others name := by
    intro name
    simp [lastFunction?, drafts, others, lastGiven?_cons, hsmaller, harity, hblank, check_powerSign,
      Definition.function?]
  obtain ⟨⟨hsymbols, -, -, hread, -⟩, -⟩ :=
    determined_by_last (Registry.standard .shipped true) drafts others ho hf
  exact ⟨ho, hf, by decide +kernel, hsymbols.symm, hread _⟩

end Registry

end Formula
