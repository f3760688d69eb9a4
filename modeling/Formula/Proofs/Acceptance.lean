import Formula.Proofs.Containment
import Formula.Proofs.OpenBrackets

/-!
# Which lists are rearranged

A list of tokens is rearranged if and only if it is arranged (`Arranged`): a condition on the list alone, which says
what may stand in a bracket and where a separator may stand. Nothing is asked of the order of operands and operators.

The machine finds this out token by token. Behind tokens that it has taken in, what it knows of them
(`State.Describes`) decides whether it takes in the next one, which is a condition on the innermost open bracket
(`Admits`, `State.Describes.step_iff_admits`). An empty argument is found when the separator or the bracket behind it is
read, so that a list in which every token is admitted has no empty argument anywhere (`arranged_of_admits`).
-/

namespace Formula

/-- So many arguments stand in the bracket of a call. -/
def argumentCount (inside : List Token) : Nat := if inside = [] then 0 else (segments inside).length

/-- A token stands for an operator if its symbol is registered in the table that its arity tells. -/
theorem Registry.exists_operatorOf?_iff {registry : Registry} {kind : Token.Kind} {symbol : String} {arity : Int}
    (hk : kind = .operator symbol arity) :
    (∃ fixity op, registry.operatorOf? fixity kind = some op) ↔
      ((if arity = 1 then registry.unary else registry.binary).find? symbol).isSome = true := by
  have htable : (if arity = 1 then registry.unary else registry.binary) = registry.operators kind.fixity := by
    by_cases ha : arity = 1 <;> simp [hk, Token.Kind.fixity, Token.Kind.isUnary, Registry.operators, ha]
  rw [htable, Option.isSome_iff_exists]
  constructor
  · rintro ⟨fixity, op, h⟩
    obtain ⟨symbol', arity', hk', rfl, hr⟩ := Registry.operatorOf?_eq_some.1 h
    obtain ⟨rfl, -⟩ := Token.Kind.operator.inj (hk'.symm.trans hk)
    exact ⟨op, Registry.resolveOperator_eq_ok.1 hr⟩
  · rintro ⟨op, h⟩
    exact ⟨kind.fixity, op, Registry.operatorOf?_eq_some.2 ⟨symbol, arity, hk, rfl, Registry.resolveOperator_eq_ok.2 h⟩⟩

namespace Postfix

variable {registry : Registry}

/-! ## The condition -/

/-- The tokens may be rearranged. -/
structure Arranged (registry : Registry) (tokens : List Token) : Prop where
  known : ∀ token ∈ tokens, ∀ word shown name, token.kind ≠ .other word shown name
  operators : ∀ token ∈ tokens, ∀ symbol arity, token.kind = .operator symbol arity →
    ((if arity = 1 then registry.unary else registry.binary).find? symbol).isSome = true
  balanced : Balanced tokens
  /-- What is called is registered. -/
  functions : ∀ before called opening behind name, tokens = before ++ called :: opening :: behind →
    called.kind = .function name → opening.kind = .openBracket → (registry.functions.find? name).isSome = true
  /-- A bracket that belongs to no call is not empty. -/
  groups : ∀ before inside behind, Encloses tokens before inside behind → NotCalling (lastKind? before) → inside ≠ []
  /-- The innermost open bracket before a separator belongs to a call. -/
  separators : ∀ before separator behind, tokens = before ++ separator :: behind → separator.kind = .separator →
    ∃ outer opening inside name, before = outer ++ opening :: inside ∧ opening.kind = .openBracket ∧
      Balanced inside ∧ lastKind? outer = some (.function name)
  /-- Where there are separators, no argument is empty, and there are as many arguments as the function takes. -/
  calls : ∀ before inside behind name function, Encloses tokens before inside behind →
    lastKind? before = some (.function name) → registry.functions.find? name = some function →
    (1 < (segments inside).length → [] ∉ segments inside) ∧ argumentCount inside = function.arity

/-- The tokens in the bracket of a call may be closed. -/
def Fills (function : Function) (inside : List Token) : Prop :=
  (1 < (segments inside).length → (segments inside).getLast? ≠ some []) ∧ argumentCount inside = function.arity

/-- Behind these tokens the next one may be taken in. -/
inductive Admits (registry : Registry) (before : List Token) (token : Token) : Prop
  | leaf (h : token.kind.isLeaf = true)
  | function {name : String} (h : token.kind = .function name)
  | operator {fixity : Fixity} {op : Operator} (h : registry.operatorOf? fixity token.kind = some op)
  | opening (h : token.kind = .openBracket)
      (hf : ∀ name, lastKind? before = some (.function name) → (registry.functions.find? name).isSome = true)
  | separator {outer inside : List Token} {opening : Token} {name : String} (h : token.kind = .separator)
      (hb : before = outer ++ opening :: inside) (ho : opening.kind = .openBracket) (hi : Balanced inside)
      (hc : lastKind? outer = some (.function name)) (hs : (segments inside).getLast? ≠ some [])
  | closing {outer inside : List Token} {opening : Token} (h : token.kind = .closeBracket)
      (hb : before = outer ++ opening :: inside) (ho : opening.kind = .openBracket) (hi : Balanced inside)
      (hg : NotCalling (lastKind? outer) → inside ≠ [])
      (hc : ∀ name function, lastKind? outer = some (.function name) → registry.functions.find? name = some function →
        Fills function inside)

/-! ## Single tokens -/

section

variable {inside : List Token} {function : Function}

theorem Bracket.check_group : (Bracket.holding none inside).check = .ok () ↔ inside ≠ [] := by
  cases inside <;> simp [check, holding]

theorem Bracket.argumentCount_holding (call : Option Function) (inside : List Token) :
    (Bracket.holding call inside).argumentCount = Formula.argumentCount inside := by
  have hlength : 0 < (segments inside).length := List.length_pos_iff.2 (segmentsAt_ne_nil 0 inside)
  cases inside with
  | nil => rfl
  | cons token inside => simp [argumentCount, Formula.argumentCount, holding, Nat.sub_add_cancel hlength]

theorem Bracket.check_call : (Bracket.holding (some function) inside).check = .ok () ↔ Fills function inside := by
  have hcount := argumentCount_holding (some function) inside
  have hempty : (Bracket.holding (some function) inside).segmentEmpty = true ↔ (segments inside).getLast? = some [] :=
    decide_eq_true_iff
  have hseparators : 0 < (Bracket.holding (some function) inside).separators ↔ 1 < (segments inside).length :=
    Nat.sub_pos_iff_lt
  have hcall : (Bracket.holding (some function) inside).call = some function := rfl
  simp only [check, hcall, hcount, hempty, hseparators, Fills]
  split
  · rename_i h
    simp [h.1, h.2]
  · split
    · rename_i h
      simp [h]
    · rename_i hlast hequal
      simp only [true_iff]
      exact ⟨fun h he => hlast ⟨he, h⟩, not_not.1 hequal⟩

end

namespace State

variable {tokens out : List Token} {token : Token} {state next : State}

/-- A move takes in a token that is admitted. -/
theorem Describes.admits (h : state.Describes registry tokens) (hm : Move registry token state out next) :
    Admits registry tokens token := by
  have hu := h.unclosed
  cases hm with
  | leaf hl => exact .leaf hl
  | unary ho => exact .operator ho
  | binary ho => exact .operator ho
  | function hf => exact .function hf
  | opening ho hp => exact .opening ho fun name hn => absurd (h.previous.trans hn) (hp name)
  | calling ho hk hf =>
    refine .opening ho fun name hn => ?_
    obtain rfl := Token.Kind.function.inj (Option.some.inj (h.previous.trans hn))
    rw [hf]
    rfl
  | separator hs hh hcall he =>
    obtain ⟨before, inside, call, outer, rfl, rfl, rfl, ho, hi, -, hc, -⟩ := hu.innermost hh
    cases hc with
    | group => cases hcall
    | call hb hk hf =>
      exact .separator hs rfl ho hi (by rw [hb, lastKind?_concat, hk]) (of_decide_eq_false he)
  | closing hk ho hh hcall hc =>
    obtain ⟨before, inside, call, outer, rfl, rfl, rfl, ho, hi, -, ho', -⟩ := hu.innermost hh
    cases ho' with
    | group hg =>
      exact .closing hk rfl ho hi (fun _ => Bracket.check_group.1 hc) fun name _ hn => absurd hn (hg name)
    | call => cases hcall
  | called hk ho hk' hh hcall hc =>
    obtain ⟨before, inside, call, outer, rfl, rfl, rfl, ho, hi, -, ho', -⟩ := hu.innermost hh
    cases ho' with
    | group => cases hcall
    | call hb hkind hf =>
      have hlast := (congrArg lastKind? hb).trans (lastKind?_concat _ _)
      rw [hkind] at hlast
      refine .closing hk rfl ho hi (fun hg => absurd hlast (hg _)) fun name function hn hfind => ?_
      obtain rfl := Token.Kind.function.inj (Option.some.inj (hlast.symm.trans hn))
      obtain rfl := Option.some.inj (hf.symm.trans hfind)
      exact Bracket.check_call.1 hc

/-- A token that is admitted is taken in. -/
theorem Describes.exists_step (h : state.Describes registry tokens) (ha : Admits registry tokens token) :
    ∃ result, state.step registry token = .ok result := by
  obtain ⟨pending, brackets, previous⟩ := state
  have hu : Unclosed registry tokens pending brackets := h.unclosed
  cases ha with
  | leaf hl => exact ⟨_, step_leaf hl⟩
  | function hf => exact ⟨_, step_function hf⟩
  | @operator fixity op ho =>
    cases fixity with
    | unary => exact ⟨_, step_unary ho⟩
    | binary =>
      obtain ⟨held, rest, rfl, hh, hr⟩ := exists_held op pending
      exact ⟨_, step_binary ho hh hr⟩
  | opening ho hf =>
    by_cases hp : NotCalling previous
    · exact ⟨_, step_opening ho hp⟩
    · obtain ⟨name, rfl⟩ : ∃ name, previous = some (.function name) := by simpa [NotCalling] using hp
      obtain ⟨function, hfind⟩ := Option.isSome_iff_exists.1 (hf name h.previous.symm)
      exact ⟨_, step_calling ho hfind⟩
  | separator hs hb ho hi hc he =>
    cases brackets with
    | nil => exact absurd (hb ▸ hu.balanced.1) (not_balanced_of_innermost ho hi)
    | cons bracket brackets =>
      obtain ⟨before, opening, inside, held, below, call, outer, hb', rfl, rfl, rfl, ho', hi', -, hopens, hr⟩ :=
        hu.exists_innermost
      obtain ⟨rfl, rfl, rfl⟩ := eq_of_innermost ho hi ho' hi' (hb.symm.trans hb')
      cases hopens with
      | group hg => exact absurd hc (hg _)
      | call => exact ⟨_, step_separator hs (fun entry he => (hr entry he).1) rfl rfl (decide_eq_false he)⟩
  | closing hk hb ho hi hg hc =>
    cases brackets with
    | nil => exact absurd (hb ▸ hu.balanced.1) (not_balanced_of_innermost ho hi)
    | cons bracket brackets =>
      obtain ⟨before, opening, inside, held, below, call, outer, hb', rfl, rfl, rfl, ho', hi', -, hopens, hr⟩ :=
        hu.exists_innermost
      obtain ⟨rfl, rfl, rfl⟩ := eq_of_innermost ho hi ho' hi' (hb.symm.trans hb')
      have hheld : ∀ entry ∈ held, entry.isBracket = false := fun entry he => (hr entry he).1
      cases hopens with
      | group hp => exact ⟨_, step_closing hk hheld rfl rfl (Bracket.check_group.2 (hg hp))⟩
      | call hbefore hkind hf =>
        have hfills := hc _ _ (by rw [hbefore, lastKind?_concat, hkind]) hf
        exact ⟨_, step_called hk hheld rfl rfl (Bracket.check_call.2 hfills) (.function _)⟩

/-- **What is known of the tokens so far decides whether the next one is taken in.** -/
theorem Describes.step_iff_admits (h : state.Describes registry tokens) (hw : state.WellNested registry) :
    (∃ result, state.step registry token = .ok result) ↔ Admits registry tokens token :=
  ⟨fun ⟨_, hs⟩ => h.admits (hw.move hs), h.exists_step⟩

/-- Where the machine stops, all is let go if no bracket is open. -/
theorem Describes.finish_iff (h : state.Describes registry tokens) (hw : state.WellNested registry) :
    (∃ rest, state.finish = .ok rest) ↔ Balanced tokens := by
  obtain ⟨pending, brackets, previous⟩ := state
  have hu : Unclosed registry tokens pending brackets := h.unclosed
  constructor
  · rintro ⟨rest, hf⟩
    obtain rfl : brackets = [] := (finish_eq_ok hw hf).1
    exact hu.balanced.1
  · intro hb
    have hlength : brackets.length = 0 := by
      have := hu.depth_eq.symm.trans hb.closed
      omega
    obtain rfl := List.length_eq_zero_iff.1 hlength
    have hany : pending.any Pending.isBracket = false :=
      List.any_eq_false.2 fun entry he => by simp [(hu.balanced.2 entry he).1]
    exact ⟨pending.map Pending.token, by simp [finish, hany]⟩

/-- Every token of a run was admitted. -/
theorem admits_of_run {before behind : List Token}
    (h : start.run registry (before ++ token :: behind) = .ok (out, next)) : Admits registry before token := by
  obtain ⟨first, middle, more, hb, hr, -⟩ := exists_of_run_append h
  obtain ⟨given, behind, others, hs, -⟩ := exists_of_run_cons hr
  exact ((describes_run hb).step_iff_admits (wellNested_run hb)).1 ⟨_, hs⟩

end State

/-! ## Whole lists -/

section

variable {tokens before inside behind : List Token} {token opening : Token}

theorem Admits.of_separator (h : Admits registry (before ++ opening :: inside) token) (hk : token.kind = .separator)
    (ho : opening.kind = .openBracket) (hi : Balanced inside) : (segments inside).getLast? ≠ some [] := by
  obtain ⟨kind, position⟩ := token
  cases hk
  cases h with
  | separator _ hb ho' hi' _ hs =>
    obtain ⟨-, -, rfl⟩ := eq_of_innermost ho hi ho' hi' hb
    exact hs
  | leaf h | function h | operator h | opening h | closing h => cases h

theorem Admits.of_closing (h : Admits registry (before ++ opening :: inside) token) (hk : token.kind = .closeBracket)
    (ho : opening.kind = .openBracket) (hi : Balanced inside) :
    (NotCalling (lastKind? before) → inside ≠ []) ∧
      ∀ name function, lastKind? before = some (.function name) → registry.functions.find? name = some function →
        Fills function inside := by
  obtain ⟨kind, position⟩ := token
  cases hk
  cases h with
  | closing _ hb ho' hi' hg hc =>
    obtain ⟨rfl, -, rfl⟩ := eq_of_innermost ho hi ho' hi' hb
    exact ⟨hg, hc⟩
  | leaf h | function h | operator h | opening h | separator h => cases h

/-- An empty argument would have been found at the separator or the bracket behind it. -/
theorem not_mem_segments (hi : Balanced inside) (hlast : (segments inside).getLast? ≠ some [])
    (h : ∀ first separator more, inside = first ++ separator :: more → separator.kind = .separator → Balanced first →
      (segments first).getLast? ≠ some []) : [] ∉ segments inside := by
  intro hm
  obtain ⟨front, more, heq⟩ := List.append_of_mem hm
  cases more with
  | nil => exact hlast (by rw [heq, List.getLast?_concat])
  | cons segment more =>
    have hlength : front.length + 1 < (segmentsAt 0 inside).length := by
      have hsegments : segmentsAt 0 inside = _ := heq
      simp [hsegments]
    obtain ⟨first, separator, others, rfl, hs, hd, hf⟩ := exists_separator_of_lt hlength
    have hfirst : Balanced first := hi.of_isPrefix (List.prefix_append _ _) (by simpa using hd)
    have hcut : segments first = front ++ [[]] := by
      rw [segments, hf]
      exact (congrArg (List.take _) heq).trans (by simp [List.take_append])
    exact h first separator others rfl hs hfirst (by rw [hcut, List.getLast?_concat])

/-- A balanced list in which every token is admitted is arranged. -/
theorem arranged_of_admits (hb : Balanced tokens)
    (h : ∀ before token behind, tokens = before ++ token :: behind → Admits registry before token) :
    Arranged registry tokens where
  known := by
    rintro ⟨kind, position⟩ hm word shown name rfl
    obtain ⟨before, behind, heq⟩ := List.append_of_mem hm
    cases h _ _ _ heq with
    | leaf h | function h | operator h | opening h | separator h | closing h => cases h
  operators := by
    rintro ⟨kind, position⟩ hm symbol arity rfl
    obtain ⟨before, behind, heq⟩ := List.append_of_mem hm
    cases h _ _ _ heq with
    | operator h => exact (Registry.exists_operatorOf?_iff rfl).1 ⟨_, _, h⟩
    | leaf h | function h | opening h | separator h | closing h => cases h
  balanced := hb
  functions := by
    rintro before called ⟨kind, position⟩ behind name heq hk rfl
    cases h (before ++ [called]) _ behind (by rw [heq, List.append_assoc]; rfl) with
    | opening _ hf => exact hf name (by rw [lastKind?_concat, hk])
    | leaf h | function h | operator h | separator h | closing h => cases h
  groups := by
    rintro before inside behind ⟨opening, closing, ho, hc, hi, heq⟩ hg
    exact ((h (before ++ opening :: inside) closing behind (by simp [heq])).of_closing hc ho hi).1 hg
  separators := by
    rintro before ⟨kind, position⟩ behind heq rfl
    cases h _ _ _ heq with
    | separator _ hb ho hi hc _ => exact ⟨_, _, _, _, hb, ho, hi, hc⟩
    | leaf h | function h | operator h | opening h | closing h => cases h
  calls := by
    rintro before inside behind name function ⟨opening, closing, ho, hc, hi, heq⟩ hn hf
    have hfills := ((h (before ++ opening :: inside) closing behind (by simp [heq])).of_closing hc ho hi).2 _ _ hn hf
    -- The closing bracket speaks of the last argument only; each other one was judged at the separator behind it.
    refine ⟨fun hlength => not_mem_segments hi (hfills.1 hlength) ?_, hfills.2⟩
    rintro first separator more rfl hs hfirst
    have hsplit : tokens = (before ++ opening :: first) ++ separator :: (more ++ closing :: behind) := by simp [heq]
    exact (h _ _ _ hsplit).of_separator hs ho hfirst

/-- A bracket that is open before a token is closed behind it. -/
theorem exists_encloses (hb : Balanced (before ++ opening :: (inside ++ token :: behind)))
    (ho : opening.kind = .openBracket) (hi : Balanced inside) (ht : token.kind.nesting = 0) :
    ∃ more others, Balanced more ∧
      Encloses (before ++ opening :: (inside ++ token :: behind)) before (inside ++ token :: more) others := by
  have hdepth : depth behind < 0 := by
    have hbefore := hb.nonneg before (List.prefix_append _ _)
    have hall := hb.closed
    simp only [depth_append, depth_cons, ho, Token.Kind.nesting_openBracket, hi.closed, ht] at hall
    omega
  obtain ⟨more, closing, others, rfl, hc, hm⟩ := exists_closing hdepth
  refine ⟨more, others, hm, opening, closing, ho, hc, ?_, by simp⟩
  have htoken := hi.append ((balanced_singleton ht).append hm)
  simpa using htoken

/-- In an arranged list the machine admits every token. -/
theorem Arranged.admits {state : State} (h : Arranged registry (before ++ token :: behind))
    (hd : state.Describes registry before) : Admits registry before token := by
  have hmem : token ∈ before ++ token :: behind := by simp
  cases hk : token.kind with
  | number value => exact .leaf (by rw [hk]; rfl)
  | text quote content => exact .leaf (by rw [hk]; rfl)
  | var name => exact .leaf (by rw [hk]; rfl)
  | function name => exact .function hk
  | other word shown name => exact absurd hk (h.known token hmem word shown name)
  | operator symbol arity =>
    obtain ⟨fixity, op, ho⟩ := (Registry.exists_operatorOf?_iff hk).2 (h.operators token hmem symbol arity hk)
    exact .operator ho
  | openBracket =>
    refine .opening hk fun name hn => ?_
    obtain ⟨front, called, rfl, hcalled⟩ := exists_of_lastKind? hn
    exact h.functions front called token behind name (by simp) hcalled hk
  | separator =>
    obtain ⟨outer, opening, inside, name, rfl, ho, hi, hn⟩ := h.separators before token behind rfl hk
    refine .separator hk rfl ho hi hn ?_
    -- The condition on calls is one on the whole bracket, so the bracket that ends behind the separator is found first.
    obtain ⟨more, others, -, he⟩ := exists_encloses (by simpa using h.balanced) ho hi (by rw [hk]; rfl)
    obtain ⟨front, called, rfl, hcalled⟩ := exists_of_lastKind? hn
    obtain ⟨function, hf⟩ := Option.isSome_iff_exists.1
      (h.functions front called opening (inside ++ token :: behind) name (by simp) hcalled ho)
    have hcut : segments (inside ++ token :: more) = segments inside ++ segments more :=
      segmentsAt_append_separator inside (by rw [hi.closed]; rfl) hk
    have hfront := List.length_pos_iff.2 (segmentsAt_ne_nil 0 inside)
    have hmore := List.length_pos_iff.2 (segmentsAt_ne_nil 0 more)
    have hlength : 1 < (segments (inside ++ token :: more)).length := by
      rw [hcut, List.length_append]
      exact Nat.add_lt_add_of_lt_of_le hfront hmore
    have hsegments := (h.calls _ _ others name function (by simpa using he) hn hf).1 hlength
    intro hlast
    exact hsegments (hcut ▸ List.mem_append_left _ (List.mem_of_getLast? hlast))
  | closeBracket =>
    obtain ⟨pending, brackets, previous⟩ := state
    have hu : Unclosed registry before pending brackets := hd.unclosed
    cases brackets with
    | nil =>
      have hclosed := h.balanced.nonneg (before ++ [token]) ⟨behind, by simp⟩
      rw [depth_append, hu.balanced.1.closed, depth_cons, hk] at hclosed
      exact absurd hclosed (by decide)
    | cons bracket brackets =>
      obtain ⟨outer, opening, inside, -, -, -, -, rfl, -, -, -, ho, hi, -⟩ := hu.exists_innermost
      have he : Encloses (outer ++ opening :: inside ++ token :: behind) outer inside behind :=
        ⟨opening, token, ho, hk, hi, by simp⟩
      refine .closing hk rfl ho hi (h.groups _ _ _ he) fun name function hn hf => ?_
      obtain ⟨hsegments, hcount⟩ := h.calls _ _ _ name function he hn hf
      exact ⟨fun hlength hlast => hsegments hlength (List.mem_of_getLast? hlast), hcount⟩

/-- In an arranged list the machine takes in all tokens. -/
theorem Arranged.exists_run (h : Arranged registry (tokens ++ behind)) :
    ∃ out last, State.start.run registry tokens = .ok (out, last) := by
  induction tokens using List.reverseRecOn generalizing behind with
  | nil => exact ⟨[], .start, rfl⟩
  | append_singleton tokens token ih =>
    rw [List.append_assoc] at h
    obtain ⟨out, state, hr⟩ := ih h
    have hd := State.describes_run hr
    obtain ⟨⟨first, next⟩, hs⟩ := hd.exists_step (h.admits hd)
    exact ⟨out ++ first, next, State.run_append hr (State.run_singleton hs)⟩

end

/-- **A list is rearranged if and only if it is arranged; if it is not, the complaint is about its arrangement.** -/
theorem exists_ofInfix_iff_arranged (registry : Registry) (tokens : List Token) :
    ((∃ output, ofInfix registry tokens = .ok output) ↔ Arranged registry tokens) ∧
      FailsOnly Fault.isOfArrangement (ofInfix registry tokens) := by
  refine ⟨⟨?_, ?_⟩, arrangement_ofInfix registry tokens⟩
  · rintro ⟨output, h⟩
    obtain ⟨⟨out, last⟩, hr, h⟩ := exists_of_bind_eq_ok h
    obtain ⟨rest, hf, -⟩ := exists_of_bind_eq_ok h
    have hb := ((State.describes_run hr).finish_iff (State.wellNested_run hr)).1 ⟨rest, hf⟩
    refine arranged_of_admits hb ?_
    rintro before token behind rfl
    exact State.admits_of_run hr
  · intro h
    have hwhole : Arranged registry (tokens ++ []) := by rwa [List.append_nil]
    obtain ⟨out, last, hr⟩ := hwhole.exists_run
    obtain ⟨rest, hf⟩ := ((State.describes_run hr).finish_iff (State.wellNested_run hr)).2 h.balanced
    refine ⟨out ++ rest, ?_⟩
    simp only [ofInfix, hr, hf, bind, Except.bind, pure, Except.pure]

end Postfix

end Formula
