import Formula.Proofs.Nesting

/-!
# What the machine gives

From a state on, the machine gives what it lets go for the tokens, and then what is left (`State.complete`); from the
start this is the list in postfix order. It looks at the part that a token plays and at nothing else. So other tokens of
the same kinds, or operands in the place of operands, are rearranged in the same way, and where the machine fails, it
fails with the same fault (`ofInfix_map`). Of the token before, it only looks at the name of a function
(`State.complete_congr`).
-/

namespace Formula

/-- Tokens of these kinds play the same part in a list: the kinds are equal, or both are operands. -/
def Token.Kind.PlaysAs (kind part : Token.Kind) : Prop := kind = part ∨ kind.isLeaf = true ∧ part.isLeaf = true

namespace Postfix

variable {registry : Registry}

/-- The entry with another token. -/
def Pending.map (f : Token → Token) : Pending → Pending
  | .operator token op => .operator (f token) op
  | .function token => .function (f token)
  | .bracket token => .bracket (f token)

section

variable (f : Token → Token) (entry : Pending)

@[simp]
theorem Pending.token_map : (entry.map f).token = f entry.token := by
  cases entry <;> rfl

@[simp]
theorem Pending.isBracket_map : (entry.map f).isBracket = entry.isBracket := by
  cases entry <;> rfl

@[simp]
theorem State.yields_map (op : Operator) : yields op (entry.map f) = yields op entry := by
  cases entry <;> rfl

theorem Pending.map_operator (token : Token) (op : Operator) :
    Pending.map f (.operator token op) = .operator (f token) op := rfl

end

theorem Pending.map_id : Pending.map id = id := by
  funext entry
  cases entry <;> rfl

namespace State

/-- What the machine gives from a state on. -/
def complete (registry : Registry) (state : State) (tokens : List Token) : Except Fault (List Token) := do
  let (out, last) ← state.run registry tokens
  let rest ← last.finish
  return out ++ rest

theorem complete_start (tokens : List Token) : start.complete registry tokens = ofInfix registry tokens := rfl

variable {state next : State} {token : Token} {tokens behind out : List Token} {f : Token → Token}
  {pending : List Pending} {brackets : List Bracket} {previous other : Option Token.Kind} {fault : Fault}

theorem complete_nil (state : State) : state.complete registry [] = state.finish := by
  cases hf : state.finish <;> simp [complete, run, hf, bind, Except.bind, pure, Except.pure]

/-- A step, and what the machine gives from there on. -/
theorem complete_cons (h : state.step registry token = .ok (out, next)) (tokens : List Token) :
    state.complete registry (token :: tokens) = (next.complete registry tokens).map (out ++ ·) := by
  simp only [complete, run, h, bind, Except.bind]
  cases next.run registry tokens with
  | error fault => rfl
  | ok result =>
    obtain ⟨more, last⟩ := result
    simp only [pure, Except.pure]
    cases last.finish <;> simp [Except.map]

theorem complete_cons_error (h : state.step registry token = .error fault) (tokens : List Token) :
    state.complete registry (token :: tokens) = .error fault := by
  simp only [complete, run, h, bind, Except.bind]

/-- A run, and what the machine gives from there on. -/
theorem complete_append (h : state.run registry tokens = .ok (out, next)) (behind : List Token) :
    state.complete registry (tokens ++ behind) = (next.complete registry behind).map (out ++ ·) := by
  induction tokens generalizing state out with
  | nil =>
    cases h
    cases hb : next.complete registry behind <;> simp [hb, Except.map]
  | cons token tokens ih =>
    obtain ⟨first, middle, more, hs, hr, rfl⟩ := exists_of_run_cons h
    rw [List.cons_append, complete_cons hs, ih hr]
    cases next.complete registry behind <;> simp [Except.map]

theorem complete_append_error (h : state.run registry tokens = .error fault) (behind : List Token) :
    state.complete registry (tokens ++ behind) = .error fault := by
  induction tokens generalizing state with
  | nil => cases h
  | cons token tokens ih =>
    rw [List.cons_append]
    cases hs : state.step registry token with
    | error other =>
      simp only [run, hs, bind, Except.bind] at h
      rw [complete_cons_error hs]
      exact congrArg Except.error (Except.error.inj h)
    | ok result =>
      obtain ⟨first, middle⟩ := result
      have hr : middle.run registry tokens = .error fault := by
        cases hr : middle.run registry tokens with
        | error other => simpa [run, hs, hr, bind, Except.bind] using h
        | ok result => simp [run, hs, hr, bind, Except.bind, pure, Except.pure] at h
      rw [complete_cons hs, ih hr]
      rfl

/-! ## Other tokens in the same places -/

theorem place_leaf (h : token.kind.isLeaf = true) :
    place registry previous pending brackets token = .ok ([token], pending, brackets) := by
  obtain ⟨kind, position⟩ := token
  cases kind with
  | number | text | var => rfl
  | operator | function | openBracket | closeBracket | separator | other => cases h

theorem inner_map : inner (pending.map (Pending.map f)) = (inner pending).map (Pending.map f) := by
  simp [inner, List.takeWhile_map, Function.comp_def]

theorem fromBracket_map : fromBracket (pending.map (Pending.map f)) = (fromBracket pending).map (Pending.map f) := by
  simp [fromBracket, List.dropWhile_map, Function.comp_def]

theorem place_opening (h : token.kind = .openBracket) (hp : NotCalling previous) :
    place registry previous pending brackets token = .ok ([], .bracket token :: pending, .opened none :: brackets) := by
  simp only [place, h]
  split
  · exact absurd rfl (hp _)
  · rfl

theorem place_calling {name : String} (h : token.kind = .openBracket) :
    place registry (some (.function name)) pending brackets token =
      (registry.resolveFunction name).map fun function =>
        ([], .bracket token :: pending, .opened (some function) :: brackets) := by
  simp only [place, h]
  cases registry.resolveFunction name <;> rfl

/-- What is let go and what waits on, for other tokens in the same places. -/
def renamed (f : Token → Token) :
    List Token × List Pending × List Bracket → List Token × List Pending × List Bracket
  | (out, pending, brackets) => (out.map f, pending.map (Pending.map f), brackets)

/-- A token of the same kind is placed in the same way. -/
theorem place_map (ht : (f token).kind = token.kind)
    (hp : ∀ name, other = some (.function name) ↔ previous = some (.function name)) :
    place registry other (pending.map (Pending.map f)) brackets (f token) =
      (place registry previous pending brackets token).map (renamed f) := by
  cases hk : token.kind with
  | number | text | var | function | other => simp [place, ht, hk, Except.map, renamed, Pending.map]
  | openBracket =>
    by_cases hn : NotCalling previous
    · have ho : NotCalling other := fun name he => hn name ((hp name).1 he)
      rw [place_opening (ht.trans hk) ho, place_opening hk hn]
      rfl
    · obtain ⟨name, rfl⟩ : ∃ name, previous = some (.function name) := by simpa [NotCalling] using hn
      obtain rfl := (hp name).2 rfl
      rw [place_calling (ht.trans hk), place_calling hk]
      cases registry.resolveFunction name <;> rfl
  | separator =>
    simp only [place, ht, hk]
    cases brackets with
    | nil => rfl
    | cons bracket outer =>
      cases hcall : bracket.call with
      | none => simp [hcall, Except.map]
      | some function =>
        cases hs : bracket.segmentEmpty <;> simp [hcall, hs, Except.map, renamed, inner_map, fromBracket_map]
  | closeBracket =>
    simp only [place, ht, hk]
    cases brackets with
    | nil => rfl
    | cons bracket outer =>
      cases hc : bracket.check with
      | error fault => simp [hc, bind, Except.bind, Except.map]
      | ok =>
        simp [hc, bind, Except.bind, pure, Except.pure, Except.map, renamed, inner_map, fromBracket_map,
          Function.comp_def]
  | operator symbol arity =>
    simp only [place, ht, hk]
    cases registry.resolveOperator (Token.Kind.operator symbol arity).fixity symbol with
    | error fault => rfl
    | ok op =>
      cases hu : (Token.Kind.operator symbol arity).isUnary <;>
        simp [bind, Except.bind, pure, Except.pure, Except.map, renamed, List.takeWhile_map, Function.comp_def,
          Pending.map_operator]

/-- A token that plays the same part is taken in in the same way. -/
theorem step_map (ht : (f token).kind.PlaysAs token.kind)
    (hp : ∀ name, other = some (.function name) ↔ previous = some (.function name)) :
    step registry ⟨pending.map (Pending.map f), brackets, other⟩ (f token) =
      (step registry ⟨pending, brackets, previous⟩ token).map fun (out, next) =>
        (out.map f, ⟨next.pending.map (Pending.map f), next.brackets, some (f token).kind⟩) := by
  rcases ht with ht | ⟨hl, hl'⟩
  · simp only [step, place_map ht hp, ht]
    cases place registry previous pending (marked brackets token.kind) token <;> rfl
  · rw [step_leaf hl, step_leaf hl']
    rfl

theorem playsAs_function_iff {kind part : Token.Kind} (h : kind.PlaysAs part) (name : String) :
    some kind = some (.function name) ↔ some part = some (.function name) := by
  rcases h with rfl | ⟨hk, hp⟩
  · rfl
  · exact iff_of_false (notCalling_leaf hk name) (notCalling_leaf hp name)

/-- Tokens that play the same parts, read behind a token that calls the same, are rearranged in the same way. -/
theorem complete_map (ht : ∀ token ∈ tokens, (f token).kind.PlaysAs token.kind)
    (hp : ∀ name, other = some (.function name) ↔ previous = some (.function name)) :
    complete registry ⟨pending.map (Pending.map f), brackets, other⟩ (tokens.map f) =
      (complete registry ⟨pending, brackets, previous⟩ tokens).map (List.map f) := by
  induction tokens generalizing pending brackets previous other with
  | nil =>
    rw [List.map_nil, complete_nil, complete_nil]
    cases hb : pending.any Pending.isBracket <;> simp [finish, hb, List.any_map, Function.comp_def, Except.map]
  | cons token tokens ih =>
    obtain ⟨htoken, ht⟩ := List.forall_mem_cons.1 ht
    have hstep : step registry ⟨pending.map (Pending.map f), brackets, other⟩ (f token) = _ := step_map htoken hp
    cases hs : step registry ⟨pending, brackets, previous⟩ token with
    | error fault =>
      rw [hs] at hstep
      rw [List.map_cons, complete_cons_error hs, complete_cons_error hstep]
      rfl
    | ok result =>
      obtain ⟨out, next⟩ := result
      have hprevious : ∀ name, some (f token).kind = some (.function name) ↔ next.previous = some (.function name) := by
        rw [previous_of_step hs]
        exact playsAs_function_iff htoken
      have hnext : complete registry ⟨next.pending.map _, next.brackets, _⟩ (tokens.map f) = _ := ih ht hprevious
      rw [hs] at hstep
      rw [List.map_cons, complete_cons hs, complete_cons hstep, hnext]
      cases next.complete registry tokens <;> simp [Except.map]

/-- Of the token before, the machine only looks at the name of a function. -/
theorem complete_congr (hp : ∀ name, other = some (.function name) ↔ previous = some (.function name)) :
    complete registry ⟨pending, brackets, other⟩ tokens = complete registry ⟨pending, brackets, previous⟩ tokens := by
  have h : complete registry ⟨pending.map (Pending.map id), brackets, other⟩ (tokens.map id) = _ :=
    complete_map (fun _ _ => .inl rfl) hp
  rwa [Pending.map_id, List.map_id, List.map_id, List.map_id_fun, Except.map_id] at h

end State

/-- **Tokens that play the same parts are rearranged in the same way**, and refused with the same fault. -/
theorem ofInfix_map {f : Token → Token} {tokens : List Token}
    (h : ∀ token ∈ tokens, (f token).kind.PlaysAs token.kind) :
    ofInfix registry (tokens.map f) = (ofInfix registry tokens).map (List.map f) := by
  have hstart : State.complete registry ⟨List.map (Pending.map f) [], [], none⟩ (tokens.map f) = _ :=
    State.complete_map h fun _ => Iff.rfl
  exact hstart

end Postfix

end Formula
