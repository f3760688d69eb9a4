import Formula.Proofs.MachineRun

/-!
# Nesting

Whatever tokens the machine takes in, the brackets that are open wait on its stack in the order in which they were
opened, and right below the bracket of a call waits the function that is called (`Nested`). So the stack has the shape
that a step needs, and what a step can do is one of nine moves (`State.Move`, `State.WellNested.step_iff_move`). Every
move keeps the shape (`State.Move.wellNested`), and what holds at the start and is kept by every move holds behind every
run (`State.run_start_induct`).
-/

namespace Formula.Postfix

variable {registry : Registry}

/-! ## Brackets on the stack -/

/-- The brackets on the stack are the open ones, the innermost one first. The function of a call waits right below its
bracket. -/
inductive Nested (registry : Registry) : List Pending → List (Option Function) → Prop
  | flat {held : List Pending} (hh : ∀ entry ∈ held, entry.isBracket = false) : Nested registry held []
  | group {held below : List Pending} {opening : Token} {calls : List (Option Function)}
      (hh : ∀ entry ∈ held, entry.isBracket = false) (ho : opening.kind = .openBracket)
      (hb : Nested registry below calls) : Nested registry (held ++ .bracket opening :: below) (none :: calls)
  | call {held below : List Pending} {opening called : Token} {name : String} {function : Function}
      {calls : List (Option Function)} (hh : ∀ entry ∈ held, entry.isBracket = false)
      (ho : opening.kind = .openBracket) (hk : called.kind = .function name)
      (hf : registry.functions.find? name = some function) (hb : Nested registry below calls) :
      Nested registry (held ++ .bracket opening :: .function called :: below) (some function :: calls)

theorem notCalling_closeBracket : NotCalling (some .closeBracket) := by
  intro name h
  cases h

namespace Nested

variable {pending held : List Pending} {entry : Pending} {call : Option Function} {calls : List (Option Function)}

/-- Operators and functions may come to wait. -/
theorem cons (h : Nested registry pending calls) (he : entry.isBracket = false) :
    Nested registry (entry :: pending) calls := by
  have hall : ∀ {held : List Pending}, (∀ e ∈ held, e.isBracket = false) → ∀ e ∈ entry :: held, e.isBracket = false :=
    fun hh => List.forall_mem_cons.2 ⟨he, hh⟩
  cases h with
  | flat hh => exact .flat (hall hh)
  | group hh ho hb => exact .group (hall hh) ho hb
  | call hh ho hk hf hb => exact .call (hall hh) ho hk hf hb

theorem exists_group (h : Nested registry pending (none :: calls)) :
    ∃ held opening below, pending = held ++ .bracket opening :: below ∧ (∀ e ∈ held, e.isBracket = false) ∧
      opening.kind = .openBracket ∧ Nested registry below calls := by
  cases h with
  | group hh ho hb => exact ⟨_, _, _, rfl, hh, ho, hb⟩

theorem exists_call {function : Function} (h : Nested registry pending (some function :: calls)) :
    ∃ held opening called name below, pending = held ++ .bracket opening :: .function called :: below ∧
      (∀ e ∈ held, e.isBracket = false) ∧ opening.kind = .openBracket ∧ called.kind = .function name ∧
      registry.functions.find? name = some function ∧ Nested registry below calls := by
  cases h with
  | call hh ho hk hf hb => exact ⟨_, _, _, _, _, rfl, hh, ho, hk, hf, hb⟩

/-- An open bracket waits on the stack. -/
theorem exists_bracket (h : Nested registry pending (call :: calls)) :
    ∃ held opening below, pending = held ++ .bracket opening :: below ∧ ∀ e ∈ held, e.isBracket = false := by
  cases call with
  | none =>
    obtain ⟨held, opening, below, hp, hh, -⟩ := h.exists_group
    exact ⟨held, opening, below, hp, hh⟩
  | some function =>
    obtain ⟨held, opening, called, name, below, hp, hh, -⟩ := h.exists_call
    exact ⟨held, opening, _, hp, hh⟩

/-- Operators and functions may be let go. -/
theorem of_cons (h : Nested registry (entry :: pending) calls) (he : entry.isBracket = false) :
    Nested registry pending calls := by
  have split : ∀ {held below : List Pending} {opening : Token},
      entry :: pending = held ++ .bracket opening :: below → (∀ e ∈ held, e.isBracket = false) →
      ∃ rest, pending = rest ++ .bracket opening :: below ∧ ∀ e ∈ rest, e.isBracket = false := by
    intro held below opening heq hh
    cases held with
    | nil =>
      obtain ⟨rfl, -⟩ := List.cons.inj heq
      cases he
    | cons first rest =>
      obtain ⟨-, rfl⟩ := List.cons.inj heq
      exact ⟨rest, rfl, (List.forall_mem_cons.1 hh).2⟩
  generalize heq : entry :: pending = whole at h
  cases h with
  | flat hh =>
    subst heq
    exact .flat (List.forall_mem_cons.1 hh).2
  | group hh ho hb =>
    obtain ⟨rest, rfl, hrest⟩ := split heq hh
    exact .group hrest ho hb
  | call hh ho hk hf hb =>
    obtain ⟨rest, rfl, hrest⟩ := split heq hh
    exact .call hrest ho hk hf hb

theorem of_append (h : Nested registry (held ++ pending) calls) (hh : ∀ e ∈ held, e.isBracket = false) :
    Nested registry pending calls := by
  induction held with
  | nil => exact h
  | cons entry held ih =>
    obtain ⟨he, hh⟩ := List.forall_mem_cons.1 hh
    exact ih (h.of_cons he) hh

theorem of_opening {opening : Token} (h : Nested registry (.bracket opening :: pending) (none :: calls)) :
    Nested registry pending calls := by
  obtain ⟨held, first, below, heq, hh, -, hb⟩ := h.exists_group
  cases held with
  | nil =>
    obtain ⟨-, rfl⟩ := List.cons.inj heq
    exact hb
  | cons entry held =>
    obtain ⟨rfl, -⟩ := List.cons.inj heq
    cases hh _ List.mem_cons_self

theorem of_calling {opening called : Token} {function : Function}
    (h : Nested registry (.bracket opening :: .function called :: pending) (some function :: calls)) :
    Nested registry pending calls := by
  obtain ⟨held, first, second, name, below, heq, hh, -, -, -, hb⟩ := h.exists_call
  cases held with
  | nil =>
    obtain ⟨-, -, rfl⟩ : _ ∧ _ ∧ pending = below := by simpa using heq
    exact hb
  | cons entry held =>
    obtain ⟨rfl, -⟩ := List.cons.inj heq
    cases hh _ List.mem_cons_self

/-- Where no bracket waits, none is open. -/
theorem eq_nil (h : Nested registry pending calls) (hp : ∀ e ∈ pending, e.isBracket = false) : calls = [] := by
  cases calls with
  | nil => rfl
  | cons call calls =>
    obtain ⟨held, opening, below, rfl, -⟩ := h.exists_bracket
    cases hp (.bracket opening) (by simp)

end Nested

namespace State

/-- The stack has the shape that the brackets and the token before ask for. -/
structure WellNested (registry : Registry) (state : State) : Prop where
  nested : Nested registry state.pending (state.brackets.map Bracket.call)
  /-- A function that has just been read waits on top of the stack. -/
  named : ∀ name, state.previous = some (.function name) →
    ∃ called below, state.pending = .function called :: below ∧ called.kind = .function name

theorem wellNested_start : start.WellNested registry where
  nested := .flat (List.forall_mem_nil _)
  named := by
    intro name h
    cases h

@[simp]
theorem map_call_noted (brackets : List Bracket) : (noted brackets).map Bracket.call = brackets.map Bracket.call := by
  cases brackets <;> rfl

/-! ## Moves -/

/-- What a step can do: the tokens that are let go, and the state behind it. -/
inductive Move (registry : Registry) (token : Token) : State → List Token → State → Prop
  | leaf {state : State} (h : token.kind.isLeaf = true) :
      Move registry token state [token] ⟨state.pending, noted state.brackets, some token.kind⟩
  | unary {state : State} {op : Operator} (h : registry.operatorOf? .unary token.kind = some op) :
      Move registry token state [] ⟨.operator token op :: state.pending, noted state.brackets, some token.kind⟩
  | binary {held pending : List Pending} {brackets : List Bracket} {previous : Option Token.Kind} {op : Operator}
      (h : registry.operatorOf? .binary token.kind = some op) (hh : ∀ entry ∈ held, yields op entry = true)
      (hp : pending.takeWhile (yields op) = []) :
      Move registry token ⟨held ++ pending, brackets, previous⟩ (held.map Pending.token)
        ⟨.operator token op :: pending, noted brackets, some token.kind⟩
  | function {state : State} {name : String} (h : token.kind = .function name) :
      Move registry token state [] ⟨.function token :: state.pending, noted state.brackets, some token.kind⟩
  | opening {state : State} (h : token.kind = .openBracket) (hp : NotCalling state.previous) :
      Move registry token state []
        ⟨.bracket token :: state.pending, .opened none :: noted state.brackets, some token.kind⟩
  | calling {pending : List Pending} {brackets : List Bracket} {called : Token} {name : String} {function : Function}
      (h : token.kind = .openBracket) (hk : called.kind = .function name)
      (hf : registry.functions.find? name = some function) :
      Move registry token ⟨.function called :: pending, brackets, some (.function name)⟩ []
        ⟨.bracket token :: .function called :: pending, .opened (some function) :: noted brackets, some token.kind⟩
  | separator {held pending : List Pending} {opening : Token} {bracket : Bracket} {outer : List Bracket}
      {previous : Option Token.Kind} {function : Function} (h : token.kind = .separator)
      (hh : ∀ entry ∈ held, entry.isBracket = false) (hcall : bracket.call = some function)
      (hs : bracket.segmentEmpty = false) :
      Move registry token ⟨held ++ .bracket opening :: pending, bracket :: outer, previous⟩ (held.map Pending.token)
        ⟨.bracket opening :: pending, bracket.separate :: outer, some token.kind⟩
  | closing {held pending : List Pending} {opening : Token} {bracket : Bracket} {outer : List Bracket}
      {previous : Option Token.Kind} (h : token.kind = .closeBracket) (ho : opening.kind = .openBracket)
      (hh : ∀ entry ∈ held, entry.isBracket = false) (hcall : bracket.call = none) (hc : bracket.check = .ok ()) :
      Move registry token ⟨held ++ .bracket opening :: pending, bracket :: outer, previous⟩ (held.map Pending.token)
        ⟨pending, outer, some token.kind⟩
  | called {held pending : List Pending} {opening called : Token} {name : String} {bracket : Bracket}
      {outer : List Bracket} {previous : Option Token.Kind} {function : Function} (h : token.kind = .closeBracket)
      (ho : opening.kind = .openBracket) (hk : called.kind = .function name)
      (hh : ∀ entry ∈ held, entry.isBracket = false) (hcall : bracket.call = some function)
      (hc : bracket.check = .ok ()) :
      Move registry token ⟨held ++ .bracket opening :: .function called :: pending, bracket :: outer, previous⟩
        (held.map Pending.token ++ [called]) ⟨pending, outer, some token.kind⟩

variable {state next last : State} {token : Token} {tokens out : List Token}

/-- Every move is a step. -/
theorem Move.step_eq (h : Move registry token state out next) : state.step registry token = .ok (out, next) := by
  cases h with
  | leaf h => exact step_leaf h
  | unary h => exact step_unary h
  | binary h hh hp => exact step_binary h hh hp
  | function h => exact step_function h
  | opening h hp => exact step_opening h hp
  | calling h hk hf => exact step_calling h hf
  | separator h hh hcall hs => exact step_separator h hh rfl hcall hs
  | closing h ho hh hcall hc => exact step_closing h hh rfl hcall hc
  | called h ho hk hh hcall hc => exact step_called h hh rfl hcall hc (.function _)

theorem Move.previous_eq (h : Move registry token state out next) : next.previous = some token.kind := by
  cases h <;> rfl

/-- The operators that go first before another one are on top of the stack. -/
theorem exists_held (op : Operator) (pending : List Pending) :
    ∃ held rest, pending = held ++ rest ∧ (∀ entry ∈ held, yields op entry = true) ∧
      rest.takeWhile (yields op) = [] := by
  induction pending with
  | nil => exact ⟨[], [], rfl, List.forall_mem_nil _, rfl⟩
  | cons entry pending ih =>
    cases hy : yields op entry with
    | true =>
      obtain ⟨held, rest, rfl, hh, hr⟩ := ih
      exact ⟨entry :: held, rest, rfl, List.forall_mem_cons.2 ⟨hy, hh⟩, hr⟩
    | false => exact ⟨[], entry :: pending, rfl, List.forall_mem_nil _, List.takeWhile_cons_of_neg (by simp [hy])⟩

theorem exists_place (h : state.step registry token = .ok (out, next)) :
    ∃ placed, place registry state.previous state.pending (marked state.brackets token.kind) token = .ok placed := by
  obtain ⟨placed, hplace, -⟩ := exists_of_bind_eq_ok h
  exact ⟨placed, hplace⟩

/-- The token that was taken in is the one before the next. -/
theorem previous_of_step (h : state.step registry token = .ok (out, next)) : next.previous = some token.kind := by
  obtain ⟨placed, -, h⟩ := exists_of_bind_eq_ok h
  cases h
  rfl

theorem move_operator {symbol : String} {arity : Int} (hk : token.kind = .operator symbol arity)
    (h : state.step registry token = .ok (out, next)) : Move registry token state out next := by
  obtain ⟨pending, brackets, previous⟩ := state
  obtain ⟨placed, hplace⟩ := exists_place h
  simp only [place, hk, marked] at hplace
  obtain ⟨op, hop, -⟩ := exists_of_bind_eq_ok hplace
  cases hf : (Token.Kind.operator symbol arity).fixity with
  | unary =>
    have ho : registry.operatorOf? .unary token.kind = some op :=
      Registry.operatorOf?_eq_some.2 ⟨symbol, arity, hk, hk ▸ hf, hf ▸ hop⟩
    rw [step_unary ho] at h
    cases h
    exact .unary ho
  | binary =>
    have ho : registry.operatorOf? .binary token.kind = some op :=
      Registry.operatorOf?_eq_some.2 ⟨symbol, arity, hk, hk ▸ hf, hf ▸ hop⟩
    obtain ⟨held, rest, rfl, hh, hr⟩ := exists_held op pending
    rw [step_binary ho hh hr] at h
    cases h
    exact .binary ho hh hr

/-- A bracket behind a function is the one of its call. -/
theorem WellNested.move_opening (hw : state.WellNested registry) (hk : token.kind = .openBracket)
    (h : state.step registry token = .ok (out, next)) : Move registry token state out next := by
  by_cases hp : NotCalling state.previous
  · rw [step_opening hk hp] at h
    cases h
    exact .opening hk hp
  · obtain ⟨name, hname⟩ : ∃ name, state.previous = some (.function name) := by simpa [NotCalling] using hp
    obtain ⟨called, below, hpending, hcalled⟩ := hw.named name hname
    obtain ⟨pending, brackets, previous⟩ := state
    obtain rfl : previous = some (.function name) := hname
    obtain rfl : pending = .function called :: below := hpending
    obtain ⟨placed, hplace⟩ := exists_place h
    simp only [place, hk, marked] at hplace
    obtain ⟨call, hcall, -⟩ := exists_of_bind_eq_ok hplace
    cases hf : registry.functions.find? name with
    | none =>
      rw [Registry.resolveFunction, hf] at hcall
      cases hcall
    | some function =>
      rw [step_calling hk hf] at h
      cases h
      exact .calling hk hcalled hf

theorem WellNested.move_separator (hw : state.WellNested registry) (hk : token.kind = .separator)
    (h : state.step registry token = .ok (out, next)) : Move registry token state out next := by
  obtain ⟨pending, brackets, previous⟩ := state
  obtain ⟨placed, hplace⟩ := exists_place h
  simp only [place, hk, marked] at hplace
  cases brackets with
  | nil => cases hplace
  | cons bracket outer =>
    obtain ⟨held, opening, below, hpending, hh⟩ := hw.nested.exists_bracket
    obtain rfl : pending = held ++ .bracket opening :: below := hpending
    cases hcall : bracket.call with
    | none => simp [hcall] at hplace
    | some function =>
      cases hs : bracket.segmentEmpty with
      | true => simp [hcall, hs] at hplace
      | false =>
        rw [step_separator hk hh rfl hcall hs] at h
        cases h
        exact .separator hk hh hcall hs

theorem WellNested.move_closing (hw : state.WellNested registry) (hk : token.kind = .closeBracket)
    (h : state.step registry token = .ok (out, next)) : Move registry token state out next := by
  obtain ⟨pending, brackets, previous⟩ := state
  obtain ⟨placed, hplace⟩ := exists_place h
  simp only [place, hk, marked] at hplace
  cases brackets with
  | nil => cases hplace
  | cons bracket outer =>
    obtain ⟨⟨⟩, hcheck, -⟩ := exists_of_bind_eq_ok hplace
    have hnested : Nested registry pending (bracket.call :: outer.map Bracket.call) := hw.nested
    cases hcall : bracket.call with
    | none =>
      obtain ⟨held, opening, below, rfl, hh, ho, -⟩ := (hcall ▸ hnested).exists_group
      rw [step_closing hk hh rfl hcall hcheck] at h
      cases h
      exact .closing hk ho hh hcall hcheck
    | some function =>
      obtain ⟨held, opening, called, name, below, rfl, hh, ho, hcalled, -, -⟩ := (hcall ▸ hnested).exists_call
      rw [step_called hk hh rfl hcall hcheck] at h
      cases h
      exact .called hk ho hcalled hh hcall hcheck

/-- In a state of the right shape every step is a move. -/
theorem WellNested.move (hw : state.WellNested registry) (h : state.step registry token = .ok (out, next)) :
    Move registry token state out next := by
  cases hk : token.kind with
  | number _ | text _ _ | var _ =>
    have hl : token.kind.isLeaf = true := by rw [hk]; rfl
    rw [step_leaf hl] at h
    cases h
    exact .leaf hl
  | operator symbol arity => exact move_operator hk h
  | function name =>
    rw [step_function hk] at h
    cases h
    exact .function hk
  | openBracket => exact hw.move_opening hk h
  | separator => exact hw.move_separator hk h
  | closeBracket => exact hw.move_closing hk h
  | other word shown name =>
    obtain ⟨placed, hplace⟩ := exists_place h
    simp only [place, hk] at hplace
    cases hplace

/-- In a state of the right shape, the steps are the moves. -/
theorem WellNested.step_iff_move (hw : state.WellNested registry) :
    state.step registry token = .ok (out, next) ↔ Move registry token state out next :=
  ⟨hw.move, Move.step_eq⟩

theorem wellNested_of_notCalling (h : Nested registry state.pending (state.brackets.map Bracket.call))
    (hp : NotCalling state.previous) : state.WellNested registry :=
  ⟨h, fun name he => absurd he (hp name)⟩

/-- An operator lets no bracket go. -/
theorem isBracket_of_yields {op : Operator} {held : List Pending} (h : ∀ entry ∈ held, yields op entry = true) :
    ∀ entry ∈ held, entry.isBracket = false := by
  intro entry he
  have hy := h entry he
  cases entry with
  | operator | function => rfl
  | bracket opening => cases hy

/-- Every move keeps the shape. -/
theorem Move.wellNested (h : Move registry token state out next) (hw : state.WellNested registry) :
    next.WellNested registry := by
  have hn := hw.nested
  cases h with
  | leaf h =>
    refine wellNested_of_notCalling (by simpa using hn) fun name he => ?_
    rw [Option.some.inj he] at h
    cases h
  | unary h => exact wellNested_of_notCalling (by simpa using hn.cons rfl) (notCalling_operator h)
  | binary h hh hp =>
    have hheld := hn.of_append (isBracket_of_yields hh)
    exact wellNested_of_notCalling (by simpa using hheld.cons rfl) (notCalling_operator h)
  | function h =>
    refine ⟨by simpa using hn.cons rfl, fun name he => ⟨token, _, rfl, ?_⟩⟩
    exact Option.some.inj he
  | opening h hp =>
    refine wellNested_of_notCalling ?_ (h ▸ notCalling_openBracket)
    simpa [Bracket.opened] using Nested.group (List.forall_mem_nil _) h hn
  | calling h hk hf =>
    refine wellNested_of_notCalling ?_ (h ▸ notCalling_openBracket)
    simpa [Bracket.opened] using Nested.call (List.forall_mem_nil _) h hk hf (hn.of_cons rfl)
  | separator h hh hcall hs =>
    refine wellNested_of_notCalling ?_ (h ▸ notCalling_separator)
    exact hn.of_append hh
  | closing h ho hh hcall hc =>
    refine wellNested_of_notCalling ?_ (h ▸ notCalling_closeBracket)
    rw [List.map_cons, hcall] at hn
    exact (hn.of_append hh).of_opening
  | called h ho hk hh hcall hc =>
    refine wellNested_of_notCalling ?_ (h ▸ notCalling_closeBracket)
    rw [List.map_cons, hcall] at hn
    exact (hn.of_append hh).of_calling

/-! ## Runs -/

theorem exists_of_run_cons (h : state.run registry (token :: tokens) = .ok (out, last)) :
    ∃ first next more, state.step registry token = .ok (first, next) ∧ next.run registry tokens = .ok (more, last) ∧
      out = first ++ more := by
  obtain ⟨⟨first, next⟩, hstep, h⟩ := exists_of_bind_eq_ok h
  obtain ⟨⟨more, last⟩, hrun, h⟩ := exists_of_bind_eq_ok h
  cases h
  exact ⟨first, next, more, hstep, hrun, rfl⟩

theorem exists_of_run_append {behind : List Token} (h : state.run registry (tokens ++ behind) = .ok (out, last)) :
    ∃ first middle more, state.run registry tokens = .ok (first, middle) ∧
      middle.run registry behind = .ok (more, last) ∧ out = first ++ more := by
  induction tokens generalizing state out with
  | nil => exact ⟨[], state, out, rfl, h, rfl⟩
  | cons token tokens ih =>
    obtain ⟨first, next, rest, hstep, hrun, rfl⟩ := exists_of_run_cons h
    obtain ⟨others, middle, more, hothers, hmore, rfl⟩ := ih hrun
    exact ⟨first ++ others, middle, more, run_cons hstep hothers, hmore, (List.append_assoc ..).symm⟩

/-- What every move keeps, every run keeps. The relation is between the tokens that were taken in, those that were let
go, and the state behind them. -/
theorem run_induct {R : List Token → List Token → State → Prop}
    (hmove : ∀ {done before token first state next}, state.WellNested registry → R done before state →
      Move registry token state first next → R (done ++ [token]) (before ++ first) next)
    {done before : List Token} (hw : state.WellNested registry) (hr : R done before state)
    (h : state.run registry tokens = .ok (out, last)) :
    last.WellNested registry ∧ R (done ++ tokens) (before ++ out) last := by
  induction tokens generalizing state done before out with
  | nil =>
    cases h
    exact ⟨hw, by simpa using hr⟩
  | cons token tokens ih =>
    obtain ⟨first, next, more, hstep, hrun, rfl⟩ := exists_of_run_cons h
    have hm := hw.step_iff_move.1 hstep
    simpa using ih (hm.wellNested hw) (hmove hw hr hm) hrun

/-- What holds at the start and is kept by every move holds behind every run. -/
theorem run_start_induct {R : List Token → List Token → State → Prop} (hstart : R [] [] start)
    (hmove : ∀ {done before token first state next}, state.WellNested registry → R done before state →
      Move registry token state first next → R (done ++ [token]) (before ++ first) next)
    (h : start.run registry tokens = .ok (out, last)) : last.WellNested registry ∧ R tokens out last :=
  run_induct hmove wellNested_start hstart h

theorem wellNested_run (h : start.run registry tokens = .ok (out, last)) : last.WellNested registry :=
  (run_start_induct (R := fun _ _ _ => True) trivial (fun _ _ _ => trivial) h).1

/-- Where no bracket waits at the end, all that waits is let go. -/
theorem finish_eq_ok (hw : state.WellNested registry) (h : state.finish = .ok out) :
    state.brackets = [] ∧ (∀ entry ∈ state.pending, entry.isBracket = false) ∧
      out = state.pending.map Pending.token := by
  unfold finish at h
  split at h
  · cases h
  · rename_i hany
    cases h
    have hinner : ∀ entry ∈ state.pending, entry.isBracket = false := by simpa using hany
    exact ⟨List.map_eq_nil_iff.1 (hw.nested.eq_nil hinner), hinner, rfl⟩

end State

end Formula.Postfix
