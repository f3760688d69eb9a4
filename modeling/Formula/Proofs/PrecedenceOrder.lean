import Formula.Proofs.Agreement
import Formula.Proofs.Climbing
import Formula.Proofs.Completion
import Mathlib.Data.List.Forall2

/-!
# The order of precedences

Rearranging asks for the precedences of two operators only to tell which of them goes first. So two registries that have
the same names and let the same operators go first (`Registry.OrdersAs`) rearrange every list of tokens alike,
well-formed or not. The two machines run in lockstep: the same tokens wait on both stacks, each operator beside the one
of its name in the other registry (`State.Pairs`). One step keeps that or fails on both sides with the same fault
(`State.Pairs.step`), and so does a run.

Precedences that compare alike let the same operators go first (`Registry.RanksAs.ordersAs`). Reading does not even ask
that much: for it the names are enough (`Registry.NamesAs.read_eq`).
-/

namespace Formula

/-! ## Two computations side by side -/

/-- Both fail with the same fault, or both succeed with related results. -/
inductive Parallel {ε α β : Type} (R : α → β → Prop) : Except ε α → Except ε β → Prop
  | error (fault : ε) : Parallel R (.error fault) (.error fault)
  | ok {a : α} {b : β} (h : R a b) : Parallel R (.ok a) (.ok b)

section

variable {ε α β γ δ : Type} {R : α → β → Prop} {S : γ → δ → Prop}

theorem Parallel.bind {first : Except ε α} {second : Except ε β} {f : α → Except ε γ} {g : β → Except ε δ}
    (h : Parallel R first second) (hfg : ∀ a b, R a b → Parallel S (f a) (g b)) :
    Parallel S (first >>= f) (second >>= g) := by
  cases h with
  | error fault => exact .error fault
  | ok h => exact hfg _ _ h

theorem Parallel.map {first : Except ε α} {second : Except ε β} {f : α → γ} {g : β → δ} (h : Parallel R first second)
    (hfg : ∀ a b, R a b → S (f a) (g b)) : Parallel S (first.map f) (second.map g) := by
  cases h with
  | error fault => exact .error fault
  | ok h => exact .ok (hfg _ _ h)

theorem Parallel.eq {first second : Except ε α} (h : Parallel Eq first second) : first = second := by
  cases h with
  | error fault => rfl
  | ok h => rw [h]

theorem Parallel.refl (outcome : Except ε α) : Parallel Eq outcome outcome := by
  cases outcome with
  | error fault => exact .error fault
  | ok a => exact .ok rfl

end

section

variable {α β : Type} {R : α → β → Prop} {p : α → Bool} {q : β → Bool} {xs : List α} {ys : List β}

theorem forall₂_takeWhile (h : List.Forall₂ R xs ys) (hpq : ∀ x y, R x y → p x = q y) :
    List.Forall₂ R (xs.takeWhile p) (ys.takeWhile q) := by
  induction h with
  | nil => exact .nil
  | @cons x y xs ys hxy _ ih =>
    simp only [List.takeWhile_cons, hpq x y hxy]
    cases q y with
    | true => exact .cons hxy ih
    | false => exact .nil

theorem forall₂_dropWhile (h : List.Forall₂ R xs ys) (hpq : ∀ x y, R x y → p x = q y) :
    List.Forall₂ R (xs.dropWhile p) (ys.dropWhile q) := by
  induction h with
  | nil => exact .nil
  | @cons x y xs ys hxy hrest ih =>
    simp only [List.dropWhile_cons, hpq x y hxy]
    cases q y with
    | true => exact ih
    | false => exact .cons hxy hrest

theorem map_eq_of_rel {γ : Type} {a : Option α} {b : Option β} {f : α → γ} {g : β → γ} (h : Option.Rel R a b)
    (hfg : ∀ x y, R x y → f x = g y) : a.map f = b.map g := by
  cases h with
  | none => rfl
  | some h => exact congrArg some (hfg _ _ h)

theorem isSome_eq_of_rel {a : Option α} {b : Option β} (h : Option.Rel R a b) : a.isSome = b.isSome := by
  cases h <;> rfl

/-- Two options whose contents have one image are both empty or both full. -/
theorem map_eq_cases {γ : Type} {a : Option α} {b : Option β} {f : α → γ} {g : β → γ} (h : a.map f = b.map g) :
    a = none ∧ b = none ∨ ∃ x y, a = some x ∧ b = some y ∧ f x = g y := by
  cases a with
  | none => exact .inl ⟨rfl, Option.map_eq_none_iff.1 h.symm⟩
  | some x =>
    obtain ⟨y, hy, hxy⟩ := Option.map_eq_some_iff.1 h.symm
    exact .inr ⟨x, y, rfl, hy, hxy.symm⟩

theorem forall₂_find? (h : List.Forall₂ R xs ys) (hpq : ∀ x y, R x y → p x = q y) :
    Option.Rel R (xs.find? p) (ys.find? q) := by
  induction h with
  | nil => exact .none
  | @cons x y xs ys hxy _ ih =>
    simp only [List.find?_cons, hpq x y hxy]
    cases q y with
    | true => exact .some hxy
    | false => exact ih

end

/-! ## Registries that rank alike -/

/-- The operators have one name and one fixity, each in its registry. -/
def Registry.Pairs (registry other : Registry) (op twin : Operator) : Prop :=
  ∃ fixity symbol, (registry.operators fixity).find? symbol = some op ∧
    (other.operators fixity).find? symbol = some twin

/-- The registries have the same operators and functions, but for what these compute, and of any two operators the same
one binds tighter. -/
structure Registry.RanksAs (registry other : Registry) : Prop where
  operators : ∀ fixity symbol, ((registry.operators fixity).find? symbol).map Operator.associativity =
    ((other.operators fixity).find? symbol).map Operator.associativity
  functions : ∀ name,
    (registry.functions.find? name).map Function.arity = (other.functions.find? name).map Function.arity
  precedence : ∀ {op twin inner innerTwin : Operator}, registry.Pairs other op twin →
    registry.Pairs other inner innerTwin → (op.precedence < inner.precedence ↔ twin.precedence < innerTwin.precedence)

/-- The registries have operators and functions of the same names. -/
structure Registry.NamesAs (registry other : Registry) : Prop where
  operators : ∀ fixity symbol, ((registry.operators fixity).find? symbol).isSome =
    ((other.operators fixity).find? symbol).isSome
  functions : ∀ name,
    (registry.functions.find? name).map Function.arity = (other.functions.find? name).map Function.arity

/-- Besides, an operator before another that stands between its operands goes first in one if and only if it does so in
the other. This is all that rearranging asks of precedences. -/
structure Registry.OrdersAs (registry other : Registry) : Prop extends registry.NamesAs other where
  goesFirst : ∀ {op twin inner innerTwin : Operator}, registry.Pairs other op twin →
    registry.Pairs other inner innerTwin → op.fixity = .binary →
      Climbing.goesFirst (some inner) op = Climbing.goesFirst (some innerTwin) twin

section

variable {registry other : Registry}

namespace Registry.NamesAs

variable (h : registry.NamesAs other)
include h

theorem resolveOperator (fixity : Fixity) (symbol : String) :
    Parallel (fun op twin => registry.Pairs other op twin ∧ op.fixity = fixity ∧ twin.fixity = fixity)
      (registry.resolveOperator fixity symbol) (other.resolveOperator fixity symbol) := by
  have hsome := h.operators fixity symbol
  unfold Registry.resolveOperator
  cases hop : (registry.operators fixity).find? symbol with
  | none =>
    rw [hop] at hsome
    rw [Option.not_isSome_iff_eq_none.1 (Bool.eq_false_iff.1 hsome.symm)]
    exact .error _
  | some op =>
    rw [hop] at hsome
    obtain ⟨twin, htwin⟩ := Option.isSome_iff_exists.1 hsome.symm
    rw [htwin]
    exact .ok ⟨⟨fixity, symbol, hop, htwin⟩, (resolveOperator_ok (resolveOperator_eq_ok.2 hop)).2,
      (resolveOperator_ok (resolveOperator_eq_ok.2 htwin)).2⟩

/-- Of the function of a name, both registries know the same arity. -/
theorem resolveFunction (name : String) :
    Parallel (fun function twin => function.name = twin.name ∧ function.arity = twin.arity)
      (registry.resolveFunction name) (other.resolveFunction name) := by
  unfold Registry.resolveFunction
  rcases map_eq_cases (h.functions name) with ⟨hf, htwin⟩ | ⟨function, twin, hf, htwin, harity⟩
  · rw [hf, htwin]
    exact .error _
  · rw [hf, htwin]
    exact .ok ⟨(Table.key_of_find? hf).trans (Table.key_of_find? htwin).symm, harity⟩

end Registry.NamesAs

/-- Registries that rank alike let the same operators go first. -/
theorem Registry.RanksAs.ordersAs (h : registry.RanksAs other) : registry.OrdersAs other where
  operators fixity symbol := by simpa using congrArg Option.isSome (h.operators fixity symbol)
  functions := h.functions
  goesFirst := by
    intro op twin inner innerTwin hp hi _
    have hlt := h.precedence hp hi
    have heq : inner.precedence = op.precedence ↔ innerTwin.precedence = twin.precedence := by
      have hgt := h.precedence hi hp
      omega
    have hassociativity : op.associativity = twin.associativity := by
      obtain ⟨fixity, symbol, hop, htwin⟩ := hp
      have hmap := h.operators fixity symbol
      rw [hop, htwin] at hmap
      exact Option.some.inj hmap
    simp only [Climbing.goesFirst, Option.any_some, decide_eq_decide]
    rw [hlt, heq, hassociativity]

end

namespace Postfix

/-! ## Machines in lockstep -/

/-- The same token waits on both stacks. -/
inductive Pending.Pairs (registry other : Registry) : Pending → Pending → Prop
  | operator (token : Token) {op twin : Operator} (h : registry.Pairs other op twin) :
      Pairs registry other (.operator token op) (.operator token twin)
  | function (token : Token) : Pairs registry other (.function token) (.function token)
  | bracket (token : Token) : Pairs registry other (.bracket token) (.bracket token)

/-- The same is noted of both brackets, and the functions that are called have one name and one arity. -/
structure Bracket.Pairs (bracket twin : Bracket) : Prop where
  call : bracket.call.map (fun function => (function.name, function.arity)) =
    twin.call.map fun function => (function.name, function.arity)
  separators : bracket.separators = twin.separators
  segmentEmpty : bracket.segmentEmpty = twin.segmentEmpty
  empty : bracket.empty = twin.empty

section

variable {registry other : Registry} {entry twin : Pending} {pending pending' : List Pending}
  {brackets brackets' : List Bracket} {bracket bracket' : Bracket}

theorem Pending.Pairs.isBracket_eq (h : Pending.Pairs registry other entry twin) :
    entry.isBracket = twin.isBracket := by
  cases h <;> rfl

theorem Pending.Pairs.token_eq (h : Pending.Pairs registry other entry twin) : entry.token = twin.token := by
  cases h <;> rfl

theorem map_token_eq (h : List.Forall₂ (Pending.Pairs registry other) pending pending') :
    pending.map Pending.token = pending'.map Pending.token := by
  induction h with
  | nil => rfl
  | cons hentry _ ih => simp only [List.map_cons, hentry.token_eq, ih]

theorem any_isBracket_eq (h : List.Forall₂ (Pending.Pairs registry other) pending pending') :
    pending.any Pending.isBracket = pending'.any Pending.isBracket := by
  induction h with
  | nil => rfl
  | cons hentry _ ih => simp only [List.any_cons, hentry.isBracket_eq, ih]

theorem pairs_inner (h : List.Forall₂ (Pending.Pairs registry other) pending pending') :
    List.Forall₂ (Pending.Pairs registry other) (State.inner pending) (State.inner pending') :=
  forall₂_takeWhile h fun _ _ hentry => by rw [hentry.isBracket_eq]

theorem pairs_fromBracket (h : List.Forall₂ (Pending.Pairs registry other) pending pending') :
    List.Forall₂ (Pending.Pairs registry other) (State.fromBracket pending) (State.fromBracket pending') :=
  forall₂_dropWhile h fun _ _ hentry => by rw [hentry.isBracket_eq]

/-- The one comparison of precedences has the same result on both sides. -/
theorem Pending.Pairs.yields_eq (h : registry.OrdersAs other) {op opTwin : Operator}
    (hop : registry.Pairs other op opTwin) (hf : op.fixity = .binary)
    (hentry : Pending.Pairs registry other entry twin) : State.yields op entry = State.yields opTwin twin := by
  cases hentry with
  | operator token htop => exact h.goesFirst hop htop hf
  | function | bracket => rfl

theorem Bracket.Pairs.mark (h : Bracket.Pairs bracket bracket') : Bracket.Pairs bracket.mark bracket'.mark :=
  ⟨h.call, h.separators, rfl, rfl⟩

theorem Bracket.Pairs.separate (h : Bracket.Pairs bracket bracket') :
    Bracket.Pairs bracket.separate bracket'.separate :=
  ⟨h.call, congrArg (· + 1) h.separators, rfl, h.empty⟩

theorem Bracket.Pairs.isSome_call (h : Bracket.Pairs bracket bracket') :
    bracket.call.isSome = bracket'.call.isSome := by
  simpa using congrArg Option.isSome h.call

theorem Bracket.Pairs.check_eq (h : Bracket.Pairs bracket bracket') : bracket.check = bracket'.check := by
  obtain ⟨hcall, hseparators, hsegment, hempty⟩ := h
  have hcount : bracket.argumentCount = bracket'.argumentCount := by
    simp only [Bracket.argumentCount, hseparators, hempty]
  unfold Bracket.check
  rcases map_eq_cases hcall with ⟨hc, hc'⟩ | ⟨function, twin, hc, hc', heq⟩
  · rw [hc, hc', hempty]
  · obtain ⟨hname, harity⟩ := Prod.mk.inj heq
    simp only [hc, hc', hname, harity, hcount, hsegment, hseparators]

theorem pairs_marked (h : List.Forall₂ Bracket.Pairs brackets brackets') (kind : Token.Kind) :
    List.Forall₂ Bracket.Pairs (State.marked brackets kind) (State.marked brackets' kind) := by
  have hnoted : List.Forall₂ Bracket.Pairs (noted brackets) (noted brackets') := by
    cases h with
    | nil => exact .nil
    | cons hbracket houter => exact .cons hbracket.mark houter
  cases kind with
  | closeBracket | separator => exact h
  | _ => exact hnoted

namespace State

/-- What is let go is the same, and what waits on is paired. -/
def Placed (registry other : Registry) (placed placed' : List Token × List Pending × List Bracket) : Prop :=
  placed.1 = placed'.1 ∧ List.Forall₂ (Pending.Pairs registry other) placed.2.1 placed'.2.1 ∧
    List.Forall₂ Bracket.Pairs placed.2.2 placed'.2.2

section

variable (h : registry.OrdersAs other) (hp : List.Forall₂ (Pending.Pairs registry other) pending pending')
  (hb : List.Forall₂ Bracket.Pairs brackets brackets') {token : Token}
include h hp hb

theorem placed_operator {symbol : String} {arity : Int} (hk : token.kind = .operator symbol arity)
    (previous : Option Token.Kind) :
    Parallel (Placed registry other) (place registry previous pending brackets token)
      (place other previous pending' brackets' token) := by
  simp only [place, hk]
  refine (h.resolveOperator _ symbol).bind ?_
  rintro op twin ⟨hop, hf, -⟩
  refine .ok ?_
  cases hu : (Token.Kind.operator symbol arity).isUnary with
  | true => exact ⟨rfl, .cons (.operator token hop) hp, hb⟩
  | false =>
    have hf : op.fixity = .binary := by rw [hf, Token.Kind.fixity, hu, if_neg Bool.false_ne_true]
    have hfirst : List.Forall₂ (Pending.Pairs registry other) (pending.takeWhile (yields op))
        (pending'.takeWhile (yields twin)) :=
      forall₂_takeWhile hp fun _ _ hentry => hentry.yields_eq h hop hf
    refine ⟨map_token_eq hfirst, .cons (.operator token hop) ?_, hb⟩
    simp only [Bool.false_eq_true, if_false, hfirst.length_eq]
    exact List.forall₂_drop _ hp

theorem placed_opening (hk : token.kind = .openBracket) (previous : Option Token.Kind) :
    Parallel (Placed registry other) (place registry previous pending brackets token)
      (place other previous pending' brackets' token) := by
  have hopened : ∀ {call call' : Option Function}, call.map (fun function => (function.name, function.arity)) =
      call'.map (fun function => (function.name, function.arity)) →
      Placed registry other ([], .bracket token :: pending, .opened call :: brackets)
        ([], .bracket token :: pending', .opened call' :: brackets') :=
    fun hcall => ⟨rfl, .cons (.bracket token) hp, .cons ⟨hcall, rfl, rfl, rfl⟩ hb⟩
  by_cases hc : NotCalling previous
  · rw [place_opening hk hc, place_opening hk hc]
    exact .ok (hopened rfl)
  · obtain ⟨name, rfl⟩ : ∃ name, previous = some (.function name) := by simpa [NotCalling] using hc
    rw [place_calling hk, place_calling hk]
    exact (h.resolveFunction name).map fun function twin hf => hopened (by simp [hf])

omit h in
theorem placed_separator (hk : token.kind = .separator) (previous : Option Token.Kind) :
    Parallel (Placed registry other) (place registry previous pending brackets token)
      (place other previous pending' brackets' token) := by
  simp only [place, hk]
  cases hb with
  | nil => exact .error _
  | @cons bracket bracket' outer outer' hbracket houter =>
    rcases map_eq_cases hbracket.call with ⟨hc, hc'⟩ | ⟨function, twin, hc, hc', heq⟩
    · simp only [hc, hc']
      exact .error _
    · simp only [hc, hc', hbracket.segmentEmpty, (Prod.mk.inj heq).1]
      split
      · exact .error _
      · exact .ok ⟨map_token_eq (pairs_inner hp), pairs_fromBracket hp, .cons hbracket.separate houter⟩

omit h in
theorem placed_closing (hk : token.kind = .closeBracket) (previous : Option Token.Kind) :
    Parallel (Placed registry other) (place registry previous pending brackets token)
      (place other previous pending' brackets' token) := by
  simp only [place, hk]
  cases hb with
  | nil => exact .error _
  | @cons bracket bracket' outer outer' hbracket houter =>
    simp only [hbracket.check_eq, hbracket.isSome_call]
    refine (Parallel.refl bracket'.check).bind fun _ _ _ => .ok ?_
    have hbelow : List.Forall₂ (Pending.Pairs registry other) (fromBracket pending).tail
        (fromBracket pending').tail := by
      simpa using List.forall₂_drop 1 (pairs_fromBracket hp)
    refine ⟨?_, List.forall₂_drop _ hbelow, houter⟩
    simp only [List.map_append, map_token_eq (pairs_inner hp), map_token_eq (List.forall₂_take _ hbelow)]

/-- A token is placed on both stacks alike. -/
theorem placed (previous : Option Token.Kind) (token : Token) :
    Parallel (Placed registry other) (place registry previous pending brackets token)
      (place other previous pending' brackets' token) := by
  cases hk : token.kind with
  | number | text | var =>
    have hleaf : token.kind.isLeaf = true := by rw [hk]; rfl
    rw [place_leaf hleaf, place_leaf hleaf]
    exact .ok ⟨rfl, hp, hb⟩
  | function name =>
    simp only [place, hk]
    exact .ok ⟨rfl, .cons (.function token) hp, hb⟩
  | operator symbol arity => exact placed_operator h hp hb hk previous
  | openBracket => exact placed_opening h hp hb hk previous
  | separator => exact placed_separator hp hb hk previous
  | closeBracket => exact placed_closing hp hb hk previous
  | other word shown name =>
    simp only [place, hk]
    exact .error _

end

/-- The same tokens wait, the same is noted of the brackets, and the token before is the same. -/
structure Pairs (registry other : Registry) (state twin : State) : Prop where
  pending : List.Forall₂ (Pending.Pairs registry other) state.pending twin.pending
  brackets : List.Forall₂ Bracket.Pairs state.brackets twin.brackets
  previous : state.previous = twin.previous

variable {state twin : State}

theorem pairs_start (registry other : Registry) : Pairs registry other start start := ⟨.nil, .nil, rfl⟩

/-- What a step or a run gives on both sides: the same tokens, and paired states. -/
def Gives (registry other : Registry) (given given' : List Token × State) : Prop :=
  given.1 = given'.1 ∧ Pairs registry other given.2 given'.2

/-- **A step keeps the machines in lockstep.** -/
theorem Pairs.step (h : registry.OrdersAs other) (hs : Pairs registry other state twin) (token : Token) :
    Parallel (Gives registry other) (state.step registry token) (twin.step other token) := by
  unfold State.step
  rw [hs.previous]
  refine (placed h hs.pending (pairs_marked hs.brackets token.kind) twin.previous token).bind ?_
  rintro ⟨out, pending, brackets⟩ ⟨out', pending', brackets'⟩ ⟨hout, hpending, hbrackets⟩
  exact .ok ⟨hout, hpending, hbrackets, rfl⟩

/-- Runs of the machines stay in lockstep. -/
theorem Pairs.run (h : registry.OrdersAs other) (hs : Pairs registry other state twin) (tokens : List Token) :
    Parallel (Gives registry other) (state.run registry tokens) (twin.run other tokens) := by
  induction tokens generalizing state twin with
  | nil => exact .ok ⟨rfl, hs⟩
  | cons token tokens ih =>
    refine (hs.step h token).bind ?_
    rintro ⟨out, next⟩ ⟨out', next'⟩ ⟨rfl, hnext⟩
    refine (ih hnext).bind ?_
    rintro ⟨more, last⟩ ⟨more', last'⟩ ⟨rfl, hlast⟩
    exact .ok ⟨rfl, hlast⟩

theorem Pairs.finish_eq (hs : Pairs registry other state twin) : state.finish = twin.finish := by
  unfold finish
  rw [any_isBracket_eq hs.pending, map_token_eq hs.pending]

end State

/-- Registries that let the same operators go first rearrange alike. -/
theorem ofInfix_eq_of_ordersAs (h : registry.OrdersAs other) (tokens : List Token) :
    ofInfix registry tokens = ofInfix other tokens := by
  apply Parallel.eq
  refine ((State.pairs_start registry other).run h tokens).bind ?_
  rintro ⟨out, last⟩ ⟨out', last'⟩ ⟨rfl, hlast⟩
  simp only [hlast.finish_eq]
  exact (Parallel.refl last'.finish).bind fun rest rest' hrest => .ok (by rw [hrest])

end

end Postfix

/-! ## Reading -/

namespace Registry.NamesAs

open Infix

variable {registry other : Registry} (h : registry.NamesAs other)
include h

theorem symbols_eq : registry.symbols = other.symbols := by
  apply eq_of_pairwise_longerFirst registry.pairwise_symbols other.pairwise_symbols
  intro symbol
  rw [mem_symbols_iff_find?, mem_symbols_iff_find?]
  exact exists_congr fun fixity => by rw [h.operators fixity symbol]

theorem operatorKind_eq (before : Option Token.Kind) (symbol : String) :
    operatorKind registry before symbol = operatorKind other before symbol := by
  apply Parallel.eq
  refine (h.resolveOperator _ symbol).bind ?_
  rintro op twin ⟨-, hop, htwin⟩
  exact .ok (by rw [hop, htwin])

theorem wordKind_eq (symbols : List String) (before : Option Token.Kind) (word : String) (behind : List Char) :
    wordKind registry symbols before word behind = wordKind other symbols before word behind := by
  have hcall : (registry.resolveFunction word >>= fun _ => .ok (Token.Kind.function word)) =
      other.resolveFunction word >>= fun _ => .ok (Token.Kind.function word) :=
    Parallel.eq ((h.resolveFunction word).bind fun _ _ _ => .ok rfl)
  unfold wordKind
  rw [h.operatorKind_eq]
  split
  · exact hcall
  · rfl

/-- Registries with the same names read alike. -/
theorem readFrom_eq (symbols : List String) (before : Option Token.Kind) (position : Nat) (text : List Char) :
    readFrom registry symbols before position text = readFrom other symbols before position text := by
  have htoken : ∀ before position first rest, readToken registry symbols before position first rest =
      readToken other symbols before position first rest := by
    intro before position first rest
    simp only [readToken, h.wordKind_eq, h.operatorKind_eq]
  fun_induction readFrom other symbols before position text with
  | case1 => rw [readFrom]
  | case2 before position first rest hb ih => rw [readFrom, if_pos hb, ih]
  | case3 before position first rest hb fault hread => simp only [readFrom, if_neg hb, htoken, hread]
  | case4 before position first rest hb kind count hread fault hrest ih =>
    simp only [readFrom, if_neg hb, htoken, hread, ih, hrest]
  | case5 before position first rest hb kind count hread tokens hrest ih =>
    simp only [readFrom, if_neg hb, htoken, hread, ih, hrest]

theorem read_eq (text : String) : Infix.read registry text = Infix.read other text := by
  rw [Infix.read, Infix.read, h.symbols_eq, h.readFrom_eq]

end Registry.NamesAs

theorem Registry.OrdersAs.compile_eq {registry other : Registry} (h : registry.OrdersAs other) (text : String) :
    Postfix.compile registry text = Postfix.compile other text := by
  rw [Postfix.compile, Postfix.compile, h.read_eq]
  exact congrArg _ (funext (Postfix.ofInfix_eq_of_ordersAs h))

end Formula
