import Formula.Postfix
import Formula.Proofs.Grammar

/-!
# Runs of the machine

What the machine that rearranges tokens does with a single token, over an arbitrary stack and for every kind of token
that it takes in (`State.step_leaf` and the lemmas behind it). A run is its steps one after another
(`State.run_append`); around the tokens of an expression or of arguments, brackets leave the stack below them as it was
(`State.run_brackets`, `State.run_call`).
-/

namespace Formula.Postfix

variable {registry : Registry}

/-! ## Single steps -/

/-- The brackets once a token stands in the innermost one. -/
def noted : List Bracket → List Bracket
  | [] => []
  | bracket :: outer => bracket.mark :: outer

@[simp]
theorem noted_noted (brackets : List Bracket) : noted (noted brackets) = noted brackets := by
  cases brackets <;> rfl

/-- The bracket of a call with so many arguments more. -/
def Bracket.filled (bracket : Bracket) : Nat → Bracket
  | 0 => bracket
  | count + 1 =>
    { bracket with separators := bracket.separators + count, segmentEmpty := false, empty := false }

theorem Bracket.call_filled (bracket : Bracket) (count : Nat) : (bracket.filled count).call = bracket.call := by
  cases count <;> rfl

theorem Bracket.filled_separate (bracket : Bracket) (count : Nat) :
    bracket.mark.separate.filled (count + 1) = bracket.filled (count + 2) := by
  simp only [filled, separate, mark, Nat.add_assoc, Nat.add_comm 1]

/-- The bracket of a call may be closed as soon as it has all arguments. -/
theorem Bracket.check_filled (function : Function) :
    ((Bracket.opened (some function)).filled function.arity).check = .ok () := by
  cases h : function.arity <;> simp [filled, opened, check, argumentCount, h]

/-- No bracket follows the name of a function here. -/
def NotCalling (previous : Option Token.Kind) : Prop := ∀ name, previous ≠ some (.function name)

theorem notCalling_operator {fixity : Fixity} {kind : Token.Kind} {op : Operator}
    (h : registry.operatorOf? fixity kind = some op) : NotCalling (some kind) := by
  intro name hk
  cases Option.some.inj hk
  cases h

theorem notCalling_leaf {kind : Token.Kind} (h : kind.isLeaf = true) : NotCalling (some kind) := by
  intro name hn
  rw [Option.some.inj hn] at h
  cases h

theorem notCalling_none : NotCalling none := by
  intro name h
  cases h

theorem notCalling_openBracket : NotCalling (some .openBracket) := by
  intro name h
  cases h

theorem notCalling_separator : NotCalling (some .separator) := by
  intro name h
  cases h

namespace State

theorem step_leaf {state : State} {token : Token} (h : token.kind.isLeaf = true) :
    state.step registry token = .ok ([token], ⟨state.pending, noted state.brackets, some token.kind⟩) := by
  obtain ⟨kind, position⟩ := token
  cases kind with
  | number _ | text _ _ | var _ => rfl
  | _ => cases h

theorem fixity_eq_unary {kind : Token.Kind} : kind.fixity = .unary ↔ kind.isUnary = true := by
  unfold Token.Kind.fixity
  split <;> simp_all

theorem step_unary {state : State} {token : Token} {op : Operator}
    (h : registry.operatorOf? .unary token.kind = some op) :
    state.step registry token =
      .ok ([], ⟨.operator token op :: state.pending, noted state.brackets, some token.kind⟩) := by
  obtain ⟨kind, position⟩ := token
  obtain ⟨symbol, arity, rfl, hf, hr⟩ := Registry.operatorOf?_eq_some.mp h
  have hu := fixity_eq_unary.mp hf
  simp only [step, place, hf, hr, hu, if_true]
  rfl

theorem step_binary {pending held : List Pending} {brackets : List Bracket} {previous : Option Token.Kind}
    {token : Token} {op : Operator} (h : registry.operatorOf? .binary token.kind = some op)
    (hh : ∀ entry ∈ held, yields op entry = true) (hp : pending.takeWhile (yields op) = []) :
    step registry ⟨held ++ pending, brackets, previous⟩ token =
      .ok (held.map Pending.token, ⟨.operator token op :: pending, noted brackets, some token.kind⟩) := by
  obtain ⟨kind, position⟩ := token
  obtain ⟨symbol, arity, rfl, hf, hr⟩ := Registry.operatorOf?_eq_some.mp h
  have hu : (Token.Kind.operator symbol arity).isUnary = false := by
    rw [Bool.eq_false_iff, Ne, ← fixity_eq_unary, hf]
    decide
  have hfirst : (held ++ pending).takeWhile (yields op) = held := by
    rw [List.takeWhile_append_of_pos hh, hp, List.append_nil]
  simp only [step, place, hf, hr, hu, Bool.false_eq_true, if_false]
  show Except.ok (((held ++ pending).takeWhile (yields op)).map Pending.token, _) = _
  rw [hfirst, List.drop_left]
  rfl

theorem step_function {state : State} {token : Token} {name : String} (h : token.kind = .function name) :
    state.step registry token =
      .ok ([], ⟨.function token :: state.pending, noted state.brackets, some token.kind⟩) := by
  obtain ⟨kind, position⟩ := token
  cases h
  rfl

theorem step_opening {state : State} {token : Token} (h : token.kind = .openBracket) (hp : NotCalling state.previous) :
    state.step registry token =
      .ok ([], ⟨.bracket token :: state.pending, .opened none :: noted state.brackets, some token.kind⟩) := by
  obtain ⟨kind, position⟩ := token
  cases h
  obtain ⟨pending, brackets, previous⟩ := state
  cases previous with
  | none => rfl
  | some kind =>
    cases kind with
    | function name => exact absurd rfl (hp name)
    | _ => rfl

/-- Behind the name of a function, a bracket belongs to the call. -/
theorem step_calling {pending : List Pending} {brackets : List Bracket} {token : Token} {name : String}
    {function : Function} (h : token.kind = .openBracket) (hf : registry.functions.find? name = some function) :
    step registry ⟨pending, brackets, some (.function name)⟩ token =
      .ok ([], ⟨.bracket token :: pending, .opened (some function) :: noted brackets, some token.kind⟩) := by
  obtain ⟨kind, position⟩ := token
  cases h
  simp only [step, place, Registry.resolveFunction_eq_ok.mpr hf]
  rfl

theorem inner_held {held : List Pending} (hh : ∀ entry ∈ held, entry.isBracket = false) (pending : List Pending) :
    inner (held ++ pending) = held ++ inner pending :=
  List.takeWhile_append_of_pos (by simpa using hh)

theorem fromBracket_held {held : List Pending} (hh : ∀ entry ∈ held, entry.isBracket = false)
    (pending : List Pending) : fromBracket (held ++ pending) = fromBracket pending :=
  List.dropWhile_append_of_pos (by simpa using hh)

theorem inner_append {held pending : List Pending} {entry : Pending} (hh : ∀ entry ∈ held, entry.isBracket = false)
    (he : entry.isBracket = true) : inner (held ++ entry :: pending) = held := by
  rw [inner_held hh, inner, List.takeWhile_cons_of_neg (by simp [he]), List.append_nil]

theorem fromBracket_append {held pending : List Pending} {entry : Pending}
    (hh : ∀ entry ∈ held, entry.isBracket = false) (he : entry.isBracket = true) :
    fromBracket (held ++ entry :: pending) = entry :: pending := by
  rw [fromBracket_held hh, fromBracket, List.dropWhile_cons_of_neg (by simp [he])]

section

variable {held pending : List Pending} {entry : Pending} {bracket : Bracket} {outer : List Bracket}
  {previous : Option Token.Kind} {token : Token}

theorem step_separator {function : Function} (h : token.kind = .separator)
    (hh : ∀ entry ∈ held, entry.isBracket = false) (he : entry.isBracket = true)
    (hcall : bracket.call = some function) (hs : bracket.segmentEmpty = false) :
    step registry ⟨held ++ entry :: pending, bracket :: outer, previous⟩ token =
      .ok (held.map Pending.token, ⟨entry :: pending, bracket.separate :: outer, some token.kind⟩) := by
  obtain ⟨kind, position⟩ := token
  cases h
  simp only [step, place, marked, hcall, hs, inner_append hh he, fromBracket_append hh he, Bool.false_eq_true, if_false]
  rfl

/-- A closing bracket takes the innermost bracket off the stack, if the note on it is in order. -/
theorem step_closing_of_none {below : List Pending} (h : token.kind = .closeBracket)
    (hp : fromBracket pending = entry :: below) (hcall : bracket.call = none) :
    step registry ⟨pending, bracket :: outer, previous⟩ token =
      bracket.check.map fun _ => ((inner pending).map Pending.token, ⟨below, outer, some token.kind⟩) := by
  obtain ⟨kind, position⟩ := token
  cases h
  simp only [step, place, marked, hp, hcall]
  cases bracket.check <;> simp [bind, Except.bind, pure, Except.pure, Except.map]

/-- The bracket of a call lets the function go that waits below it. -/
theorem step_closing_of_some {below : List Pending} {name : Pending} {function : Function}
    (h : token.kind = .closeBracket) (hp : fromBracket pending = entry :: name :: below)
    (hcall : bracket.call = some function) :
    step registry ⟨pending, bracket :: outer, previous⟩ token =
      bracket.check.map fun _ =>
        ((inner pending).map Pending.token ++ [name.token], ⟨below, outer, some token.kind⟩) := by
  obtain ⟨kind, position⟩ := token
  cases h
  simp only [step, place, marked, hp, hcall]
  cases bracket.check <;> simp [bind, Except.bind, pure, Except.pure, Except.map]

theorem step_closing (h : token.kind = .closeBracket) (hh : ∀ entry ∈ held, entry.isBracket = false)
    (he : entry.isBracket = true) (hcall : bracket.call = none) (hc : bracket.check = .ok ()) :
    step registry ⟨held ++ entry :: pending, bracket :: outer, previous⟩ token =
      .ok (held.map Pending.token, ⟨pending, outer, some token.kind⟩) := by
  rw [step_closing_of_none h (fromBracket_append hh he) hcall, hc, inner_append hh he]
  rfl

theorem step_called {function : Function} (h : token.kind = .closeBracket)
    (hh : ∀ entry ∈ held, entry.isBracket = false) (he : entry.isBracket = true)
    (hcall : bracket.call = some function) (hc : bracket.check = .ok ()) (name : Pending) :
    step registry ⟨held ++ entry :: name :: pending, bracket :: outer, previous⟩ token =
      .ok (held.map Pending.token ++ [name.token], ⟨pending, outer, some token.kind⟩) := by
  rw [step_closing_of_some h (fromBracket_append hh he) hcall, hc, inner_append hh he]
  rfl

end

/-! ## Runs -/

theorem run_cons {state next last : State} {token : Token} {tokens out more : List Token}
    (h : state.step registry token = .ok (out, next)) (ht : next.run registry tokens = .ok (more, last)) :
    state.run registry (token :: tokens) = .ok (out ++ more, last) := by
  simp only [run, h, bind, Except.bind, ht]
  rfl

/-- A token that only comes to wait. -/
theorem run_cons_of_nil {state next last : State} {token : Token} {tokens out : List Token}
    (h : state.step registry token = .ok ([], next)) (ht : next.run registry tokens = .ok (out, last)) :
    state.run registry (token :: tokens) = .ok (out, last) :=
  run_cons h ht

theorem run_singleton {state next : State} {token : Token} {out : List Token}
    (h : state.step registry token = .ok (out, next)) : state.run registry [token] = .ok (out, next) := by
  have hr : next.run registry [] = .ok ([], next) := rfl
  simpa using run_cons h hr

theorem run_append {state middle last : State} {tokens behind out more : List Token}
    (h : state.run registry tokens = .ok (out, middle)) (hb : middle.run registry behind = .ok (more, last)) :
    state.run registry (tokens ++ behind) = .ok (out ++ more, last) := by
  induction tokens generalizing state out with
  | nil => cases h; exact hb
  | cons token tokens ih =>
    simp only [run] at h
    obtain ⟨⟨first, next⟩, hstep, h⟩ := exists_of_bind_eq_ok h
    obtain ⟨⟨others, last'⟩, hrun, h⟩ := exists_of_bind_eq_ok h
    cases h
    rw [List.append_assoc]
    exact run_cons hstep (ih hrun)

section

variable {pending held : List Pending} {brackets : List Bracket} {previous last : Option Token.Kind}
  {opening closing token : Token} {tokens out : List Token}

/-- Brackets around tokens that are an expression. -/
theorem run_brackets (ho : opening.kind = .openBracket) (hc : closing.kind = .closeBracket) (hp : NotCalling previous)
    (h : run registry ⟨.bracket opening :: pending, .opened none :: noted brackets, some .openBracket⟩ tokens =
      .ok (out, ⟨held ++ .bracket opening :: pending, noted (.opened none :: noted brackets), last⟩))
    (hh : ∀ entry ∈ held, entry.isBracket = false) :
    run registry ⟨pending, brackets, previous⟩ (opening :: (tokens ++ [closing])) =
      .ok (out ++ held.map Pending.token, ⟨pending, noted brackets, some closing.kind⟩) := by
  have hclose : step registry ⟨held ++ .bracket opening :: pending, noted (.opened none :: noted brackets), last⟩
      closing = .ok (held.map Pending.token, ⟨pending, noted brackets, some closing.kind⟩) :=
    step_closing hc hh rfl rfl rfl
  exact run_cons_of_nil (step_opening ho hp) (run_append (ho ▸ h) (run_singleton hclose))

/-- The name of a function and brackets around tokens that are its arguments. -/
theorem run_call {name : String} {function : Function} {bracket : Bracket} (hk : token.kind = .function name)
    (hf : registry.functions.find? name = some function) (ho : opening.kind = .openBracket)
    (hc : closing.kind = .closeBracket) (hcall : bracket.call = some function) (hcheck : bracket.check = .ok ())
    (h : run registry
        ⟨.bracket opening :: .function token :: pending, .opened (some function) :: noted brackets, some .openBracket⟩
        tokens =
      .ok (out, ⟨held ++ .bracket opening :: .function token :: pending, bracket :: noted brackets, last⟩))
    (hh : ∀ entry ∈ held, entry.isBracket = false) :
    run registry ⟨pending, brackets, previous⟩ (token :: opening :: (tokens ++ [closing])) =
      .ok (out ++ (held.map Pending.token ++ [token]), ⟨pending, noted brackets, some closing.kind⟩) := by
  have hopen : step registry ⟨.function token :: pending, noted brackets, some token.kind⟩ opening =
      .ok ([], ⟨.bracket opening :: .function token :: pending, .opened (some function) :: noted brackets,
        some opening.kind⟩) := by
    rw [hk, step_calling ho hf, noted_noted]
  have hclose : step registry ⟨held ++ .bracket opening :: .function token :: pending, bracket :: noted brackets, last⟩
      closing = .ok (held.map Pending.token ++ [token], ⟨pending, noted brackets, some closing.kind⟩) :=
    step_called hc hh rfl hcall hcheck (.function token)
  exact run_cons_of_nil (step_function hk) (run_cons_of_nil hopen (run_append (ho ▸ h) (run_singleton hclose)))

end

/-! ## What a bracket holds -/

/-- Over this stack, the tokens have this output, the end of which is held back. -/
def Delivers (registry : Registry) (pending : List Pending) (tokens output : List Token) : Prop :=
  ∀ brackets previous, NotCalling previous → ∃ out held last,
    run registry ⟨pending, brackets, previous⟩ tokens = .ok (out, ⟨held ++ pending, noted brackets, last⟩) ∧
    out ++ held.map Pending.token = output ∧ ∀ entry ∈ held, entry.isBracket = false

/-- In the bracket of a call, the tokens of so many arguments have this output, the end of which is held back. -/
def Supplies (registry : Registry) (pending : List Pending) (opening : Token) (count : Nat)
    (tokens output : List Token) : Prop :=
  ∀ bracket outer previous, bracket.call.isSome = true → NotCalling previous → ∃ out held last,
    run registry ⟨.bracket opening :: pending, bracket :: outer, previous⟩ tokens =
      .ok (out, ⟨held ++ .bracket opening :: pending, bracket.filled count :: outer, last⟩) ∧
    out ++ held.map Pending.token = output ∧ ∀ entry ∈ held, entry.isBracket = false

section

variable {pending : List Pending} {brackets : List Bracket} {previous : Option Token.Kind}
  {opening closing token separator : Token} {tokens behind output others : List Token} {count : Nat}

theorem Delivers.enclosed (h : Delivers registry (.bracket opening :: pending) tokens output)
    (ho : opening.kind = .openBracket) (hc : closing.kind = .closeBracket) (hp : NotCalling previous) :
    run registry ⟨pending, brackets, previous⟩ (opening :: (tokens ++ [closing])) =
      .ok (output, ⟨pending, noted brackets, some closing.kind⟩) := by
  obtain ⟨out, held, last, hrun, rfl, hinner⟩ := h (.opened none :: noted brackets) _ notCalling_openBracket
  exact run_brackets ho hc hp hrun hinner

theorem Supplies.call {name : String} {function : Function}
    (h : Supplies registry (.function token :: pending) opening function.arity tokens output)
    (hk : token.kind = .function name) (hf : registry.functions.find? name = some function)
    (ho : opening.kind = .openBracket) (hc : closing.kind = .closeBracket) :
    run registry ⟨pending, brackets, previous⟩ (token :: opening :: (tokens ++ [closing])) =
      .ok (output ++ [token], ⟨pending, noted brackets, some closing.kind⟩) := by
  obtain ⟨out, held, last, hrun, rfl, hinner⟩ :=
    h (.opened (some function)) (noted brackets) _ rfl notCalling_openBracket
  rw [List.append_assoc]
  exact run_call hk hf ho hc (Bracket.call_filled _ _) (Bracket.check_filled function) hrun hinner

theorem Supplies.none : Supplies registry pending opening 0 [] [] := by
  intro bracket outer previous _ _
  exact ⟨[], [], previous, rfl, rfl, by simp⟩

theorem Supplies.one (h : Delivers registry (.bracket opening :: pending) tokens output) :
    Supplies registry pending opening 1 tokens output := by
  intro bracket outer previous _ hp
  exact h (bracket :: outer) previous hp

theorem Supplies.separated (hs : separator.kind = .separator)
    (h : Delivers registry (.bracket opening :: pending) tokens output)
    (ht : Supplies registry pending opening (count + 1) behind others) :
    Supplies registry pending opening (count + 2) (tokens ++ separator :: behind) (output ++ others) := by
  intro bracket outer previous hcall hp
  obtain ⟨function, hf⟩ := Option.isSome_iff_exists.mp hcall
  obtain ⟨out₁, held₁, last₁, hrun₁, rfl, hinner₁⟩ := h (bracket :: outer) previous hp
  have hstep : step registry ⟨held₁ ++ .bracket opening :: pending, bracket.mark :: outer, last₁⟩ separator =
      .ok (held₁.map Pending.token, ⟨.bracket opening :: pending, bracket.mark.separate :: outer,
        some separator.kind⟩) :=
    step_separator hs hinner₁ rfl hf rfl
  obtain ⟨out₂, held₂, last₂, hrun₂, rfl, hinner₂⟩ :=
    ht bracket.mark.separate outer (some separator.kind) hcall (hs ▸ notCalling_separator)
  -- The separator counts as one argument of the bracket, so that one fewer is left to fill it with.
  rw [Bracket.filled_separate] at hrun₂
  refine ⟨out₁ ++ (held₁.map Pending.token ++ out₂), held₂, last₂, ?_, by simp, hinner₂⟩
  exact run_append hrun₁ (run_cons hstep hrun₂)

end

end State

end Formula.Postfix
