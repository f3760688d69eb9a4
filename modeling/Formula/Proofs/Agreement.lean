import Formula.Evaluation
import Formula.Proofs.Conservation
import Formula.Proofs.HeadToken

/-!
# Registries that agree on the names of a text

A text asks its registry only for names that stand in it. So registries that agree on these names
(`Registry.AgreesOn`) read the text alike, rearrange its tokens alike and evaluate them alike
(`outcome_of_agreesOn`), whatever else they have: the symbols of two registries may be different lists, but they
have the same members that the text can go on with, in the same order (`Registry.AgreesOn.find?_symbols_eq`).
-/

namespace Formula

/-! ## Agreement -/

/-- The registries have the same operators and functions of the known names, and the same policy on zero divisors. -/
structure Registry.AgreesOn (known : String → Prop) (registry other : Registry) : Prop where
  operators : ∀ name, known name → ∀ fixity,
    (registry.operators fixity).find? name = (other.operators fixity).find? name
  functions : ∀ name, known name → registry.functions.find? name = other.functions.find? name
  divisionRaises : registry.divisionRaises = other.divisionRaises

theorem entryNamed?_id (names : List String) (name : String) :
    entryNamed? id names name = if name ∈ names then some name else none := by
  induction names with
  | nil => rfl
  | cons first names ih =>
    by_cases h : first = name
    · simp [entryNamed?, h]
    · have hne : ¬ name = first := fun he => h he.symm
      simpa [entryNamed?, h, hne] using ih

/-- The name by which a registry is asked for a token. -/
def Token.Kind.reference? : Token.Kind → Option String
  | .operator symbol _ => some symbol
  | .function name => some name
  | _ => none

/-- Lists of symbols with the same members, longer ones first, are the same. -/
theorem eq_of_pairwise_longerFirst {symbols others : List String} (h : symbols.Pairwise longerFirst)
    (h' : others.Pairwise longerFirst) (same : ∀ symbol, symbol ∈ symbols ↔ symbol ∈ others) : symbols = others := by
  have hentry : ∀ name, entryNamed? id symbols name = entryNamed? id others name := by
    intro name
    rw [entryNamed?_id, entryNamed?_id]
    simp only [same]
  exact eq_of_entryNamed?_eq strictOrder_longerFirst h h' hentry

theorem Registry.mem_symbols_iff_find? {registry : Registry} {symbol : String} :
    symbol ∈ registry.symbols ↔ ∃ fixity, ((registry.operators fixity).find? symbol).isSome = true := by
  rw [mem_symbols]
  refine exists_congr fun fixity => ?_
  simp [Table.find?, entryNamed?, List.find?_isSome]

namespace Registry.AgreesOn

variable {known : String → Prop} {registry other : Registry} (h : registry.AgreesOn known other)
include h

theorem resolveOperator_eq {name : String} (hk : known name) (fixity : Fixity) :
    registry.resolveOperator fixity name = other.resolveOperator fixity name := by
  simp only [Registry.resolveOperator, h.operators name hk]

theorem resolveFunction_eq {name : String} (hk : known name) :
    registry.resolveFunction name = other.resolveFunction name := by
  simp only [Registry.resolveFunction, h.functions name hk]

theorem mem_symbols {name : String} (hk : known name) : name ∈ registry.symbols ↔ name ∈ other.symbols := by
  simp only [mem_symbols_iff_find?, h.operators name hk]

/-- If all names are known, the symbols are the same. -/
theorem symbols_eq (hk : ∀ name, known name) : registry.symbols = other.symbols :=
  eq_of_pairwise_longerFirst registry.pairwise_symbols other.pairwise_symbols fun symbol => h.mem_symbols (hk symbol)

/-- Where only known symbols are asked for, the longest that fits is the same. -/
theorem find?_symbols_eq {p : String → Bool} (hp : ∀ symbol, p symbol = true → known symbol) :
    registry.symbols.find? p = other.symbols.find? p := by
  have hfilter : registry.symbols.filter p = other.symbols.filter p := by
    refine eq_of_pairwise_longerFirst (registry.pairwise_symbols.filter p) (other.pairwise_symbols.filter p) ?_
    intro symbol
    rw [List.mem_filter, List.mem_filter]
    exact and_congr_left fun hs => h.mem_symbols (hp symbol hs)
  rw [← List.head?_filter, hfilter, List.head?_filter]

/-! ## Reading -/

open Infix Text

theorem operatorKind_eq {name : String} (hk : known name) (before : Option Token.Kind) :
    operatorKind registry before name = operatorKind other before name := by
  simp only [operatorKind, h.resolveOperator_eq hk]

theorem wordKind_eq {word : String} (hk : known word) (before : Option Token.Kind) (behind : List Char) :
    wordKind registry registry.symbols before word behind = wordKind other other.symbols before word behind := by
  have hs : registry.symbols.contains word = other.symbols.contains word := by
    rw [Bool.eq_iff_iff, List.contains_iff_mem, List.contains_iff_mem, h.mem_symbols hk]
  simp only [wordKind, h.resolveFunction_eq hk, hs, h.operatorKind_eq hk]

theorem readToken_eq (before : Option Token.Kind) (position : Nat) {first : Char} {rest : List Char}
    (hk : ∀ name, name.toList <+: first :: rest → known name) :
    readToken registry registry.symbols before position first rest =
      readToken other other.symbols before position first rest := by
  have hword : known (String.ofList ((first :: rest).takeWhile isWordChar)) :=
    hk _ (by rw [String.toList_ofList]; exact List.takeWhile_prefix isWordChar)
  have hsymbol : ∀ symbol : String, symbol.toList.isPrefixOf (first :: rest) = true → known symbol :=
    fun symbol hp => hk symbol (List.isPrefixOf_iff_prefix.1 hp)
  have hfind := h.find?_symbols_eq hsymbol
  cases hf : other.symbols.find? fun symbol => symbol.toList.isPrefixOf (first :: rest) with
  | none => simp only [readToken, h.wordKind_eq hword, hfind, hf]
  | some symbol =>
    have hprefix := List.find?_some hf
    have hknown : known symbol := hsymbol symbol hprefix
    simp only [readToken, h.wordKind_eq hword, hfind, hf, h.operatorKind_eq hknown]

theorem readFrom_eq (before : Option Token.Kind) (position : Nat) {text : List Char}
    (hk : ∀ name, name.toList <:+: text → known name) :
    readFrom registry registry.symbols before position text = readFrom other other.symbols before position text := by
  have behind : ∀ {first : Char} {rest : List Char} (count : Nat),
      (∀ name, name.toList <:+: first :: rest → known name) →
      ∀ name, name.toList <:+: rest.drop count → known name := fun count hk name hn =>
    hk name ((hn.trans (List.drop_suffix count _).isInfix).trans (List.suffix_cons _ _).isInfix)
  fun_induction readFrom registry registry.symbols before position text with
  | case1 => rw [readFrom]
  | case2 before position first rest hb ih =>
    rw [readFrom, if_pos hb]
    exact ih (behind 0 hk)
  | case3 before position first rest hb fault hread =>
    rw [h.readToken_eq before position fun name hn => hk name hn.isInfix] at hread
    simp only [readFrom, if_neg hb, hread]
  | case4 before position first rest hb kind count hread fault hrest ih =>
    rw [h.readToken_eq before position fun name hn => hk name hn.isInfix] at hread
    simp only [readFrom, if_neg hb, hread, ← ih (behind _ hk), hrest]
  | case5 before position first rest hb kind count hread tokens hrest ih =>
    rw [h.readToken_eq before position fun name hn => hk name hn.isInfix] at hread
    simp only [readFrom, if_neg hb, hread, ← ih (behind _ hk), hrest]

theorem read_eq {text : String} (hk : ∀ name : String, name.toList <:+: text.toList → known name) :
    Infix.read registry text = Infix.read other text := by
  rw [Infix.read, Infix.read, h.readFrom_eq none 0 hk]

/-! ## Rearranging -/

open Postfix

/-- A step looks up the name of the token, or the name of the function that stands before a bracket. -/
theorem step_eq {state : State} {token : Token} (hp : ∀ kind ∈ state.previous, ∀ name ∈ kind.reference?, known name)
    (hk : ∀ name ∈ token.kind.reference?, known name) : state.step registry token = state.step other token := by
  have hplace : ∀ brackets, State.place registry state.previous state.pending brackets token =
      State.place other state.previous state.pending brackets token := by
    intro brackets
    obtain ⟨kind, position⟩ := token
    cases kind with
    | operator symbol arity => simp only [State.place, h.resolveOperator_eq (hk symbol rfl)]
    | openBracket =>
      simp only [State.place]
      split
      · rename_i name hprevious
        rw [h.resolveFunction_eq (hp _ hprevious name rfl)]
      · rfl
    | _ => rfl
  simp only [State.step, hplace]

theorem run_eq {state : State} {tokens : List Token}
    (hp : ∀ kind ∈ state.previous, ∀ name ∈ kind.reference?, known name)
    (hk : ∀ token ∈ tokens, ∀ name ∈ token.kind.reference?, known name) :
    state.run registry tokens = state.run other tokens := by
  induction tokens generalizing state with
  | nil => rfl
  | cons token tokens ih =>
    obtain ⟨htoken, hrest⟩ := List.forall_mem_cons.1 hk
    simp only [State.run, h.step_eq hp htoken]
    cases hstep : state.step other token with
    | error fault => rfl
    | ok result =>
      obtain ⟨out, next⟩ := result
      have hnext : next.previous = some token.kind := State.previous_of_step hstep
      have hrun : next.run registry tokens = next.run other tokens := by
        refine ih (fun kind hkind => ?_) hrest
        obtain rfl : token.kind = kind := Option.some.inj (hnext.symm.trans hkind)
        exact htoken
      simp only [bind, Except.bind, hrun]

theorem ofInfix_eq {tokens : List Token} (hk : ∀ token ∈ tokens, ∀ name ∈ token.kind.reference?, known name) :
    ofInfix registry tokens = ofInfix other tokens := by
  have hstart : ∀ kind ∈ State.start.previous, ∀ name ∈ kind.reference?, known name := fun kind hkind => nomatch hkind
  simp only [ofInfix, h.run_eq hstart hk]

/-! ## Evaluating -/

open Evaluation

theorem evaluationStep_eq (environment : Environment) (stack : List Operand) {token : Token}
    (hk : ∀ name ∈ token.kind.reference?, known name) :
    Evaluation.step registry environment stack token = Evaluation.step other environment stack token := by
  obtain ⟨kind, position⟩ := token
  cases kind with
  | operator symbol arity => simp only [Evaluation.step, h.resolveOperator_eq (hk symbol rfl), h.divisionRaises]
  | function name => simp only [Evaluation.step, h.resolveFunction_eq (hk name rfl), h.divisionRaises]
  | _ => rfl

theorem evaluate_eq (environment : Environment) {tokens : List Token}
    (hk : ∀ token ∈ tokens, ∀ name ∈ token.kind.reference?, known name) :
    evaluate registry environment tokens = evaluate other environment tokens := by
  have hfold : ∀ stack, tokens.foldlM (Evaluation.step registry environment) stack =
      tokens.foldlM (Evaluation.step other environment) stack := by
    induction tokens with
    | nil => exact fun _ => rfl
    | cons token tokens ih =>
      obtain ⟨htoken, hrest⟩ := List.forall_mem_cons.1 hk
      intro stack
      rw [List.foldlM_cons, List.foldlM_cons, h.evaluationStep_eq environment stack htoken]
      exact congrArg _ (funext (ih hrest))
  simp only [evaluate, hfold]

end Registry.AgreesOn

/-! ## Names in a text -/

namespace Infix

variable {registry : Registry}

theorem wordKind_reference {before : Option Token.Kind} {word : String} {behind : List Char} {kind : Token.Kind}
    (h : wordKind registry registry.symbols before word behind = .ok kind) : ∀ name ∈ kind.reference?, name = word := by
  unfold wordKind at h
  split at h
  · obtain ⟨function, -, h⟩ := exists_of_bind_eq_ok h
    cases h
    exact fun name hn => (Option.some.inj hn).symm
  · split at h
    · obtain ⟨op, -, rfl⟩ := operatorKind_eq_ok.1 h
      exact fun name hn => (Option.some.inj hn).symm
    · cases h
      exact fun name hn => nomatch hn

/-- The name of a token stands at the head of the text. -/
theorem HeadToken.reference_isPrefix {before : Option Token.Kind} {first : Char} {rest : List Char} {kind : Token.Kind}
    {count : Nat} (h : HeadToken registry before first rest kind count) :
    ∀ name ∈ kind.reference?, name.toList <+: first :: rest := by
  intro name hn
  cases h with
  | numeral | string => cases hn
  | word _ _ _ hk =>
    rw [wordKind_reference hk name hn, String.toList_ofList]
    exact List.takeWhile_prefix Text.isWordChar
  | structural _ _ _ hs =>
    unfold structural? at hs
    split at hs <;> cases hs <;> cases hn
  | symbol _ _ _ _ hf hk =>
    obtain ⟨op, -, rfl⟩ := operatorKind_eq_ok.1 hk
    obtain rfl := Option.some.inj hn
    have hprefix := List.find?_some hf
    exact List.isPrefixOf_iff_prefix.1 hprefix

/-- The names of all tokens stand in the text. -/
theorem reference_isInfix_of_readFrom {before : Option Token.Kind} {position : Nat} {text : List Char}
    {tokens : List Token} (h : readFrom registry registry.symbols before position text = .ok tokens) :
    ∀ token ∈ tokens, ∀ name ∈ token.kind.reference?, name.toList <:+: text := by
  refine readFrom_induct (P := fun _ _ text tokens =>
    ∀ token ∈ tokens, ∀ name ∈ token.kind.reference?, name.toList <:+: text) ?_ ?_ ?_ h
  · intro before position token ht
    cases ht
  · intro before position first rest tokens hb ih token ht name hn
    exact (ih token ht name hn).trans (List.suffix_cons first rest).isInfix
  · intro before position first rest kind count tokens hb hhead hrest ih
    refine List.forall_mem_cons.2 ⟨fun name hn => (hhead.reference_isPrefix name hn).isInfix, ?_⟩
    intro token ht name hn
    have hdrop : rest.drop (count - 1) <:+: first :: rest :=
      ((List.drop_suffix (count - 1) rest).trans (List.suffix_cons first rest)).isInfix
    exact (ih token ht name hn).trans hdrop

theorem reference_isInfix_of_read {text : String} {tokens : List Token} (h : read registry text = .ok tokens) :
    ∀ token ∈ tokens, ∀ name ∈ token.kind.reference?, name.toList <:+: text.toList := by
  rw [read] at h
  exact reference_isInfix_of_readFrom h

end Infix

/-! ## Texts -/

section Texts

variable {registry other : Registry} {text : String}

/-- The name stands somewhere in the text. -/
def Mentions (text name : String) : Prop := name.toList <:+: text.toList

instance : DecidableRel Mentions := fun _ _ => inferInstanceAs (Decidable (_ <:+: _))

theorem compile_of_agreesOn (h : registry.AgreesOn (Mentions text) other) :
    Postfix.compile registry text = Postfix.compile other text := by
  rw [Postfix.compile, Postfix.compile, h.read_eq fun _ hn => hn]
  cases ht : Infix.read other text with
  | error fault => rfl
  | ok tokens => exact h.ofInfix_eq (Infix.reference_isInfix_of_read ht)

/-- Registries that agree on the names in a text give it the same value, or the same fault. -/
theorem outcome_of_agreesOn (h : registry.AgreesOn (Mentions text) other) (environment : Evaluation.Environment) :
    Postfix.compile registry text >>= Evaluation.evaluate registry environment =
      Postfix.compile other text >>= Evaluation.evaluate other environment := by
  rw [compile_of_agreesOn h]
  cases hc : Postfix.compile other text with
  | error fault =>
    -- What would be done behind the fault is not compared.
    show Except.error fault = Except.error fault
    rfl
  | ok output =>
    obtain ⟨tokens, hread, hlist⟩ := exists_of_bind_eq_ok hc
    -- Only tokens of the text are evaluated, and those have its names.
    refine h.evaluate_eq environment fun token ht name hn => ?_
    have hs : token.kind.isStructural = false := by
      cases hk : token.kind with
      | openBracket | closeBracket | separator =>
        rw [hk] at hn
        cases hn
      | _ => rfl
    exact Infix.reference_isInfix_of_read hread token (Postfix.mem_of_ofInfix hlist ht hs) name hn

end Texts

end Formula
