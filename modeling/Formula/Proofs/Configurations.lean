import Formula.Proofs.CacheCoherence
import Formula.Proofs.PrecedenceOrder
import Formula.Proofs.WrittenForm

/-!
# Configured precedences

The check of a configuration compares its precedences as they stand, but the standard operators only keep the whole
numbers that the precedences become. So a configuration may pass the check and group texts otherwise than the shipped
one: `1.5` is greater than `1` and becomes `1`, and then products go no sooner than sums (`Registry.fractional`).

The standard registries of any two settings have the same names (`Registry.namesAs_standard`). They let the same
operators go first as long as their whole precedences keep sums, products and signs apart (`Precedences.SetApart`,
`Registry.ordersAs_standard`); powers may bind as loosely as products, because only products go from left to right.
Three texts tell when the whole precedences do not: `a+b*c`, `a*b^c` and `-a^b`.
-/

namespace Formula

/-! ## Whole precedences that suffice -/

/-- Products bind tighter than sums, powers not looser than products, and signs tighter than powers. -/
structure Precedences.SetApart (levels : Precedences Int) : Prop where
  products : levels.additive < levels.multiplicative
  powers : levels.multiplicative ≤ levels.power
  signs : levels.power < levels.unary

/-- The operators are one standard operator at different levels. -/
structure Operator.IsReset (levels others : Precedences Int) (op twin : Operator) : Prop where
  symbol : op.symbol = twin.symbol
  fixity : op.fixity = twin.fixity
  group : ∃ group : OperatorGroup, group.Has levels op ∧ group.Has others twin

section

variable {levels others : Precedences Int}

theorem Precedences.Ascend.setApart (h : levels.Ascend) : levels.SetApart := ⟨h.products, h.powers.le, h.signs⟩

theorem isReset_operators (levels others : Precedences Int) :
    List.Forall₂ (Operator.IsReset levels others) levels.operators others.operators := by
  have hreset : ∀ (group : OperatorGroup) {symbol callable admissible}, Operator.IsReset levels others
      ⟨symbol, group.fixity, group.level levels, group.associativity, callable, admissible⟩
      ⟨symbol, group.fixity, group.level others, group.associativity, callable, admissible⟩ :=
    fun group => ⟨rfl, rfl, group, ⟨rfl, rfl, rfl⟩, ⟨rfl, rfl, rfl⟩⟩
  exact .cons (hreset .sums) (.cons (hreset .sums) (.cons (hreset .products) (.cons (hreset .products)
    (.cons (hreset .powers) (.cons (hreset .signs) (.cons (hreset .signs) .nil))))))

/-- Which operator goes first is told by the groups. -/
theorem Operator.IsReset.goesFirst_eq {op twin inner innerTwin : Operator} (hop : op.IsReset levels others twin)
    (hinner : inner.IsReset levels others innerTwin) (h : levels.SetApart) (ho : others.SetApart)
    (hf : op.fixity = .binary) :
    Climbing.goesFirst (some inner) op = Climbing.goesFirst (some innerTwin) twin := by
  obtain ⟨group, hgroup, hgroup'⟩ := hop.group
  obtain ⟨group', hinner, hinner'⟩ := hinner.group
  obtain ⟨ham, hmp, hpu⟩ := h
  obtain ⟨ham', hmp', hpu'⟩ := ho
  rw [hgroup.fixity] at hf
  simp only [Climbing.goesFirst, Option.any_some, decide_eq_decide, hgroup.precedence, hgroup'.precedence,
    hinner.precedence, hinner'.precedence, hgroup.associativity, hgroup'.associativity]
  cases group with
  | signs => cases hf
  | _ => cases group' <;> simp [OperatorGroup.level, OperatorGroup.associativity] <;> omega

end

namespace Registry

theorem find?_standard (settings : Settings) (raises : Bool) (fixity : Fixity) (symbol : String) :
    ((Registry.standard settings raises).operators fixity).find? symbol =
      settings.operators.reverse.find? fun op => op.fixity = fixity ∧ op.symbol = symbol := by
  rw [standard, operators_foldl_addFunction, find?_foldl_addOperator]
  cases fixity <;> simp [operators, empty]

section

variable {settings others : Settings} {levels levels' : Precedences Int}

theorem isReset_find?_standard (h : settings.precedences.HaveLevels levels) (ho : others.precedences.HaveLevels levels')
    (raises strict : Bool) (fixity : Fixity) (symbol : String) :
    Option.Rel (Operator.IsReset levels levels') (((Registry.standard settings raises).operators fixity).find? symbol)
      (((Registry.standard others strict).operators fixity).find? symbol) := by
  rw [find?_standard, find?_standard, Settings.operators_eq h, Settings.operators_eq ho]
  apply forall₂_find? (List.rel_reverse (isReset_operators levels levels'))
  intro op twin h
  rw [h.fixity, h.symbol]

/-- The standard registries of all settings have the same names. -/
theorem namesAs_standard (settings others : Settings) (raises strict : Bool) :
    (Registry.standard settings raises).NamesAs (.standard others strict) where
  operators fixity symbol := by
    obtain ⟨levels, h, -⟩ := settings.exists_levels
    obtain ⟨levels', ho, -⟩ := others.exists_levels
    exact isSome_eq_of_rel (isReset_find?_standard h ho raises strict fixity symbol)
  functions name := by
    rw [standard, standard, find?_foldl_addFunction, find?_foldl_addFunction, functions_foldl_addOperator,
      functions_foldl_addOperator]
    rfl

theorem isReset_of_pairs (h : settings.precedences.HaveLevels levels) (ho : others.precedences.HaveLevels levels')
    {raises strict : Bool} {op twin : Operator}
    (hp : (Registry.standard settings raises).Pairs (.standard others strict) op twin) :
    op.IsReset levels levels' twin := by
  obtain ⟨fixity, symbol, hop, htwin⟩ := hp
  have hrel := isReset_find?_standard h ho raises strict fixity symbol
  rw [hop, htwin] at hrel
  cases hrel with
  | some hreset => exact hreset

/-- The standard registries of settings whose whole precedences are set apart let the same operators go first. -/
theorem ordersAs_standard (h : settings.precedences.HaveLevels levels) (ho : others.precedences.HaveLevels levels')
    (hl : levels.SetApart) (hl' : levels'.SetApart) (raises strict : Bool) :
    (Registry.standard settings raises).OrdersAs (.standard others strict) where
  toNamesAs := namesAs_standard settings others raises strict
  goesFirst hop hinner := (isReset_of_pairs h ho hop).goesFirst_eq (isReset_of_pairs h ho hinner) hl hl'

/-- If their whole precedences ascend, the registries rank alike besides. -/
theorem ranksAs_standard (h : settings.precedences.HaveLevels levels) (ho : others.precedences.HaveLevels levels')
    (hl : levels.Ascend) (hl' : levels'.Ascend) (raises strict : Bool) :
    (Registry.standard settings raises).RanksAs (.standard others strict) where
  operators fixity symbol := by
    apply map_eq_of_rel (isReset_find?_standard h ho raises strict fixity symbol)
    intro op twin hreset
    obtain ⟨group, hgroup, hgroup'⟩ := hreset.group
    rw [hgroup.associativity, hgroup'.associativity]
  functions := (namesAs_standard settings others raises strict).functions
  precedence := by
    intro op twin inner innerTwin hop hinner
    obtain ⟨group, hgroup, hgroup'⟩ := (isReset_of_pairs h ho hop).group
    obtain ⟨group', hinner, hinner'⟩ := (isReset_of_pairs h ho hinner).group
    obtain ⟨ham, hmp, hpu⟩ := hl
    obtain ⟨ham', hmp', hpu'⟩ := hl'
    rw [hgroup.precedence, hgroup'.precedence, hinner.precedence, hinner'.precedence]
    cases group <;> cases group' <;> simp only [OperatorGroup.level] <;> omega

end

end Registry

/-! ## Texts that tell which operator goes first -/

namespace Postfix

open State

variable {registry : Registry} {op op' : Operator} {first second left middle right : Token}

/-- Behind an operator that waits, an operator between two operands shows which of both goes first. -/
theorem complete_waiting (hm : middle.kind.isLeaf = true) (hr : right.kind.isLeaf = true)
    (h : registry.operatorOf? .binary second.kind = some op') (brackets : List Bracket)
    (previous : Option Token.Kind) :
    complete registry ⟨[.operator first op], brackets, previous⟩ [middle, second, right] =
      .ok (if Climbing.goesFirst (some op) op' then [middle, first, right, second]
        else [middle, right, second, first]) := by
  have hyields : yields op' (.operator first op) = Climbing.goesFirst (some op) op' := rfl
  have hleaf : complete registry ⟨[.operator first op], brackets, previous⟩ [middle, second, right] =
      (complete registry ⟨[.operator first op], noted brackets, some middle.kind⟩ [second, right]).map
        ([middle] ++ ·) :=
    complete_cons (step_leaf hm) _
  rw [hleaf]
  cases hg : Climbing.goesFirst (some op) op' with
  | true =>
    have hheld : ∀ entry ∈ [Pending.operator first op], yields op' entry = true := by simp [hyields, hg]
    have hstep : step registry ⟨[.operator first op], noted brackets, some middle.kind⟩ second =
        .ok ([first], ⟨[.operator second op'], noted (noted brackets), some second.kind⟩) :=
      step_binary h hheld List.takeWhile_nil
    rw [complete_cons hstep, complete_cons (step_leaf hr)]
    rfl
  | false =>
    have hwaits : [Pending.operator first op].takeWhile (yields op') = [] :=
      List.takeWhile_cons_of_neg (by rw [hyields, hg]; exact Bool.false_ne_true)
    have hstep : step registry ⟨[.operator first op], noted brackets, some middle.kind⟩ second =
        .ok ([], ⟨[.operator second op', .operator first op], noted (noted brackets), some second.kind⟩) :=
      step_binary h (List.forall_mem_nil _) hwaits
    rw [complete_cons hstep, complete_cons (step_leaf hr)]
    rfl

/-- Two operators between three operands. -/
theorem ofInfix_between (hl : left.kind.isLeaf = true) (hm : middle.kind.isLeaf = true) (hr : right.kind.isLeaf = true)
    (h : registry.operatorOf? .binary first.kind = some op) (h' : registry.operatorOf? .binary second.kind = some op') :
    ofInfix registry [left, first, middle, second, right] =
      .ok (left :: if Climbing.goesFirst (some op) op' then [middle, first, right, second]
        else [middle, right, second, first]) := by
  have hstep : step registry ⟨[], noted [], some left.kind⟩ first =
      .ok ([], ⟨[.operator first op], noted (noted []), some first.kind⟩) :=
    step_binary h (List.forall_mem_nil _) List.takeWhile_nil
  have hleaf : start.complete registry [left, first, middle, second, right] =
      (complete registry ⟨[], noted [], some left.kind⟩ [first, middle, second, right]).map ([left] ++ ·) :=
    complete_cons (step_leaf hl) _
  rw [← complete_start, hleaf, complete_cons hstep, complete_waiting hm hr h']
  rfl

/-- A sign before an operand, and an operator behind that. -/
theorem ofInfix_sign (hm : middle.kind.isLeaf = true) (hr : right.kind.isLeaf = true)
    (h : registry.operatorOf? .unary first.kind = some op) (h' : registry.operatorOf? .binary second.kind = some op') :
    ofInfix registry [first, middle, second, right] =
      .ok (if Climbing.goesFirst (some op) op' then [middle, first, right, second]
        else [middle, right, second, first]) := by
  rw [← complete_start, complete_cons (step_unary h)]
  exact congrArg (Except.map _) (complete_waiting hm hr h' _ _)

end Postfix

/-! ## Whole precedences that are needed -/

section

variable {settings : Settings} {levels : Precedences Int}

/-- All standard registries read alike, so that a text that is compiled only has to be rearranged. -/
theorem Postfix.compile_standard (settings : Settings) (raises : Bool) (text : String) (tokens : List Token)
    (h : Infix.read (.standard .shipped true) text = .ok tokens) :
    compile (.standard settings raises) text = ofInfix (.standard settings raises) tokens := by
  rw [compile, (Registry.namesAs_standard settings .shipped raises true).read_eq, h]
  rfl

/-- The texts `a+b*c`, `a*b^c` and `-a^b` have the tokens that they have under the shipped settings only if the whole
precedences are set apart. -/
theorem setApart_of_compile_eq {raises : Bool} (h : settings.precedences.HaveLevels levels)
    (hc : ∀ text, Postfix.compile (.standard settings raises) text = Postfix.compile (.standard .shipped true) text) :
    levels.SetApart := by
  have hop : ∀ op ∈ levels.operators, (Registry.standard settings raises).operatorOf? op.fixity
      (.operator op.symbol op.fixity.arity) = some op :=
    fun op ho => operatorOf?_standard raises (Settings.operators_eq h ▸ ho)
  simp only [Precedences.operators, List.forall_mem_cons] at hop
  obtain ⟨plus, -, times, -, hat, -, minus, -⟩ := hop
  have hsum := Postfix.compile_standard settings raises "a+b*c" [⟨.var "a", some 0⟩,
    ⟨.operator "+" 2, some 1⟩, ⟨.var "b", some 2⟩, ⟨.operator "*" 2, some 3⟩, ⟨.var "c", some 4⟩] (by decide +kernel)
  have hproduct := Postfix.compile_standard settings raises "a*b^c" [⟨.var "a", some 0⟩,
    ⟨.operator "*" 2, some 1⟩, ⟨.var "b", some 2⟩, ⟨.operator "^" 2, some 3⟩, ⟨.var "c", some 4⟩] (by decide +kernel)
  have hsign := Postfix.compile_standard settings raises "-a^b" [⟨.operator "-" 1, some 0⟩,
    ⟨.var "a", some 1⟩, ⟨.operator "^" 2, some 2⟩, ⟨.var "b", some 3⟩] (by decide +kernel)
  rw [hc, Postfix.ofInfix_between rfl rfl rfl plus times] at hsum
  rw [hc, Postfix.ofInfix_between rfl rfl rfl times hat] at hproduct
  rw [hc, Postfix.ofInfix_sign rfl rfl minus hat] at hsign
  -- Under the shipped settings the sign goes first, and no sum or product does.
  refine ⟨?_, ?_, ?_⟩
  · split at hsum
    · exact absurd hsum (by decide +kernel)
    · rename_i hg
      simp [Climbing.goesFirst] at hg
      omega
  · split at hproduct
    · exact absurd hproduct (by decide +kernel)
    · rename_i hg
      simp [Climbing.goesFirst] at hg
      omega
  · split at hsign
    · rename_i hg
      simpa [Climbing.goesFirst] using hg
    · exact absurd hsign (by decide +kernel)

end

/-! ## Sessions -/

/-- What a new session under a configuration makes of a text. -/
def Configuration.compile (configuration : Configuration) (text : String) : Except Fault (List Token) := do
  ((← Session.ofConfiguration configuration none none).compile text).1

section

variable {configuration : Configuration} {settings : Settings}

/-- The settings of a configuration are those that extend it. -/
theorem Configuration.settings_eq_ok : configuration.settings = .ok settings ↔
    settings.toConfiguration = configuration := by
  obtain ⟨own, operators, checked⟩ := settings
  constructor
  · intro h
    unfold Configuration.settings at h
    split at h
    · cases h
      rfl
    · cases h
  · rintro rfl
    unfold Configuration.settings
    split
    · rename_i found hfound
      obtain rfl := Except.ok.inj (hfound.symm.trans checked)
      rfl
    · rename_i fault hfault
      rw [checked] at hfault
      cases hfault

theorem Session.compile_start (text : String) (h : settings.check = .ok ()) :
    ((start settings none none).compile text).1 =
      Postfix.compile (.standard settings settings.divisionRaises) text := by
  have hcapacity := (Configuration.check_eq_ok.1 h).2
  obtain ⟨bindings, hstart⟩ := start_eq settings none
  rw [compile_fst (coherent_start settings none none) (takesEntries_start settings none none hcapacity) text, hstart]
  rfl

theorem Configuration.compile_eq (hs : configuration.settings = .ok settings) (h : configuration.check = .ok ())
    (text : String) :
    configuration.compile text = Postfix.compile (.standard settings settings.divisionRaises) text := by
  obtain rfl := settings_eq_ok.1 hs
  rw [← Session.compile_start text h, compile, Session.ofConfiguration, hs]
  rfl

theorem Configuration.exists_settings {levels : Precedences Int} (h : configuration.precedences.HaveLevels levels) :
    ∃ settings, configuration.settings = .ok settings :=
  ⟨⟨configuration, levels.operators, standardOperators_of_haveLevels h⟩, settings_eq_ok.2 rfl⟩

/-- Precedences that are whole numbers and pass the check ascend. -/
theorem Precedences.ascend_of_check {levels : Precedences Int} (h : (levels.map Value.int).check = .ok ()) :
    levels.Ascend := by
  obtain ⟨ha, hm, hp⟩ := check_eq_ok.1 h
  have hless : ∀ {m n : Int}, Value.isLess? (.int m) (.int n) = some true → m < n := fun h =>
    of_decide_eq_true (Option.some.inj h)
  exact ⟨hless ha, hless hm, hless hp⟩

/-- A configuration that passes the check is as good as the shipped one if and only if its whole precedences are set
apart. -/
theorem compile_eq_shipped_iff (hcheck : configuration.check = .ok ()) :
    (∀ text, configuration.compile text = ((Session.start .shipped none none).compile text).1) ↔
      ∃ levels, configuration.precedences.HaveLevels levels ∧ levels.SetApart := by
  have hshipped : Settings.shipped.precedences.HaveLevels ⟨1, 2, 3, 4⟩ := ⟨rfl, rfl, rfl, rfl⟩
  have hstart : ∀ text, ((Session.start .shipped none none).compile text).1 =
      Postfix.compile (.standard .shipped true) text := fun text => Session.compile_start text rfl
  simp only [hstart]
  constructor
  · intro h
    cases hs : configuration.settings with
    | error fault =>
      have herror : configuration.compile "a" = .error fault := by
        rw [Configuration.compile, Session.ofConfiguration, hs]
        rfl
      have hvariable : Postfix.compile (.standard .shipped true) "a" = .ok [⟨.var "a", some 0⟩] := by decide +kernel
      cases (herror.symm.trans (h "a")).trans hvariable
    | ok settings =>
      obtain ⟨levels, hlevels, -⟩ := settings.exists_levels
      have hc : ∀ text, Postfix.compile (.standard settings settings.divisionRaises) text =
          Postfix.compile (.standard .shipped true) text :=
        fun text => by rw [← Configuration.compile_eq hs hcheck, h]
      exact ⟨levels, Configuration.settings_eq_ok.1 hs ▸ hlevels, setApart_of_compile_eq hlevels hc⟩
  · rintro ⟨levels, hlevels, hapart⟩ text
    obtain ⟨settings, hs⟩ := Configuration.exists_settings hlevels
    obtain rfl := Configuration.settings_eq_ok.1 hs
    rw [Configuration.compile_eq hs hcheck]
    exact (Registry.ordersAs_standard hlevels hshipped hapart ⟨by decide, by decide, by decide⟩ _ _).compile_eq text

end

namespace Registry

/-- **Only the order of precedences matters.** Registries with the same operators and functions, whose precedences
compare alike, rearrange every list of tokens to the same output or the same fault. So a new session under a
configuration that passes the check compiles every text as it does under the shipped settings, if and only if the whole
numbers that the precedences become are set apart. Precedences that are whole numbers always are. -/
theorem only_order_matters (registry other : Registry) (configuration : Configuration) :
    (registry.RanksAs other → ∀ tokens, Postfix.ofInfix registry tokens = Postfix.ofInfix other tokens) ∧
    (configuration.check = .ok () →
      ((∀ text, configuration.compile text = ((Session.start .shipped none none).compile text).1) ↔
        ∃ levels, configuration.precedences.HaveLevels levels ∧ levels.SetApart) ∧
      ∀ levels : Precedences Int, configuration.precedences = levels.map .int →
        ∀ text, configuration.compile text = ((Session.start .shipped none none).compile text).1) := by
  refine ⟨fun h tokens => Postfix.ofInfix_eq_of_ordersAs h.ordersAs tokens, fun hcheck => ?_⟩
  have hiff := compile_eq_shipped_iff hcheck
  refine ⟨hiff, fun levels hwhole => hiff.2 ⟨levels, hwhole ▸ ⟨rfl, rfl, rfl, rfl⟩, ?_⟩⟩
  exact (Precedences.ascend_of_check (hwhole ▸ (Configuration.check_eq_ok.1 hcheck).1)).setApart

/-- Precedences far apart, one of them negative, that ascend like the shipped ones. -/
def stretched : Settings where
  precedences := ⟨.int (-7), .int 0, .int 30, .int 31⟩
  cacheCapacity := some 5
  divisionRaises := false
  operators := Precedences.operators ⟨-7, 0, 30, 31⟩
  checked := standardOperators_of_haveLevels ⟨rfl, rfl, rfl, rfl⟩

/-- Precedences that are no whole numbers. Powers come to bind as loosely as products, which does no harm. -/
def tied : Configuration := ⟨⟨.int 1, .float 2.25, .float 2.75, .float 4.5⟩, some 5, false⟩

theorem only_order_matters_stretched :
    stretched.check = .ok () ∧ (Registry.standard stretched false).RanksAs (.standard .shipped true) ∧
    (let tokens := [.operator "-" 1, .var "a", .operator "^" 2, .var "b", .operator "+" 2, .var "c"].map fun kind =>
      ⟨kind, none⟩
    Postfix.ofInfix (.standard stretched false) tokens = Postfix.ofInfix (.standard .shipped true) tokens) ∧
    ((stretched.compile "a+b*-c^d").toOption.map renderTokens = some "a b c -u d ^ * +") ∧
    tied.check = .ok () ∧ ((tied.compile "a*b^c").toOption.map renderTokens = some "a b c ^ *") := by
  have hlevels : stretched.precedences.HaveLevels ⟨-7, 0, 30, 31⟩ := ⟨rfl, rfl, rfl, rfl⟩
  have hshipped : Settings.shipped.precedences.HaveLevels ⟨1, 2, 3, 4⟩ := ⟨rfl, rfl, rfl, rfl⟩
  have hranks : (Registry.standard stretched false).RanksAs (.standard .shipped true) :=
    ranksAs_standard hlevels hshipped ⟨by decide, by decide, by decide⟩ ⟨by decide, by decide, by decide⟩ _ _
  have htied : ∃ levels, tied.precedences.HaveLevels levels ∧ levels.SetApart :=
    ⟨⟨1, 2, 2, 4⟩, ⟨rfl, by decide +kernel, by decide +kernel, by decide +kernel⟩, by decide, by decide, by decide⟩
  have hcheck : tied.check = .ok () := by decide +kernel
  obtain ⟨hsame, hstretched⟩ := only_order_matters (.standard stretched false) (.standard .shipped true)
    stretched.toConfiguration
  obtain ⟨-, htieds⟩ := only_order_matters (.standard stretched false) (.standard .shipped true) tied
  refine ⟨rfl, hranks, hsame hranks _, ?_, hcheck, ?_⟩
  · rw [(hstretched rfl).2 ⟨-7, 0, 30, 31⟩ rfl]
    decide +kernel
  · rw [(htieds hcheck).1.2 htied]
    decide +kernel

/-- A precedence between those of sums and powers that becomes the one of sums. -/
def fractional : Configuration := ⟨⟨.int 1, .float 1.5, .int 3, .int 4⟩, some 1000, true⟩

/-- The check accepts a configuration under which sums go before products. -/
theorem fractional_regroups :
    fractional.check = .ok () ∧
    (fractional.compile "2+3*4").toOption.map renderTokens = some "2 3 + 4 *" ∧
    ((Session.start .shipped none none).compile "2+3*4").1.toOption.map renderTokens = some "2 3 4 * +" ∧
    ¬ ∀ configuration : Configuration, configuration.check = .ok () → ∀ text,
      configuration.compile text = ((Session.start .shipped none none).compile text).1 := by
  have hcheck : fractional.check = .ok () := by decide +kernel
  have hsum : (fractional.compile "2+3*4").toOption.map renderTokens = some "2 3 + 4 *" := by decide +kernel
  have hproduct : ((Session.start .shipped none none).compile "2+3*4").1.toOption.map renderTokens =
      some "2 3 4 * +" := by decide +kernel
  refine ⟨hcheck, hsum, hproduct, fun hsame => ?_⟩
  rw [hsame fractional hcheck, hproduct] at hsum
  exact absurd hsum (by decide)

end Registry

end Formula
