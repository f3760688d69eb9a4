import Formula.Proofs.Completion
import Formula.Proofs.Conservation
import Formula.Proofs.OpenBrackets
import Formula.Proofs.Placement

/-!
# Operands in a context

A bracket around tokens that are rearranged alone, and a call whose arguments are, stand in a list as one operand
(`Operand`): whatever stands before and behind, well-formed or not, is rearranged as if a single token stood there, with
the output of the part in its place (`ofInfix_context`). For the machine goes through such a part over any stack and
leaves the stack as it was (`Operand.run`).

Hence brackets around an operand make no difference, and neither do brackets around all that stands between the signs
that end it (`Redundant`).
-/

namespace Formula

/-- The tokens with a list in the place of each occurrence of the token. -/
def substitute (token : Token) (part tokens : List Token) : List Token :=
  tokens.flatMap fun other => if other = token then part else [other]

theorem substitute_of_not_mem {token : Token} {tokens : List Token} (part : List Token) (h : token ∉ tokens) :
    substitute token part tokens = tokens := by
  induction tokens with
  | nil => rfl
  | cons other tokens ih =>
    rw [List.mem_cons, not_or] at h
    rw [substitute, List.flatMap_cons, if_neg (Ne.symm h.1)]
    exact congrArg (other :: ·) (ih h.2)

theorem substitute_append_cons {token : Token} {before behind : List Token} (part : List Token) (hb : token ∉ before)
    (hr : token ∉ behind) : substitute token part (before ++ token :: behind) = before ++ (part ++ behind) := by
  have hbefore : before.flatMap (fun other => if other = token then part else [other]) = before :=
    substitute_of_not_mem part hb
  have hbehind : behind.flatMap (fun other => if other = token then part else [other]) = behind :=
    substitute_of_not_mem part hr
  rw [substitute, List.flatMap_append, List.flatMap_cons, if_pos rfl, hbefore, hbehind]

theorem Token.shift_zero : Token.shift 0 = id := by
  funext token
  obtain ⟨kind, position⟩ := token
  cases position <;> simp [shift]

namespace Postfix

open scoped List

variable {registry : Registry}

/-! ## Parts that stand as operands -/

/-- So many parts with separators between two, each of which is rearranged alone, and their outputs in one list. -/
inductive Arguments (registry : Registry) : Nat → List Token → List Token → Prop
  | none : Arguments registry 0 [] []
  | one {tokens output : List Token} (hne : tokens ≠ []) (h : ofInfix registry tokens = .ok output) :
      Arguments registry 1 tokens output
  | more {count : Nat} {tokens output behind others : List Token} {separator : Token} (hne : tokens ≠ [])
      (h : ofInfix registry tokens = .ok output) (hs : separator.kind = .separator)
      (ha : Arguments registry (count + 1) behind others) :
      Arguments registry (count + 2) (tokens ++ separator :: behind) (output ++ others)

/-- Behind a token of this kind, the part stands as one operand and has this output. -/
inductive Operand (registry : Registry) (previous : Option Token.Kind) : List Token → List Token → Prop
  | leaf {token : Token} (h : token.kind.isLeaf = true) : Operand registry previous [token] [token]
  | enclosed {tokens output : List Token} {opening closing : Token} (hp : NotCalling previous)
      (ho : opening.kind = .openBracket) (hne : tokens ≠ []) (h : ofInfix registry tokens = .ok output)
      (hc : closing.kind = .closeBracket) : Operand registry previous (opening :: (tokens ++ [closing])) output
  | call {tokens output : List Token} {called opening closing : Token} {name : String} {function : Function}
      (hk : called.kind = .function name) (hf : registry.functions.find? name = some function)
      (ho : opening.kind = .openBracket) (h : Arguments registry function.arity tokens output)
      (hc : closing.kind = .closeBracket) :
      Operand registry previous (called :: opening :: (tokens ++ [closing])) (output ++ [called])

section

variable {before part other behind tokens output : List Token} {opening closing : Token} {count : Nat}
  {previous : Option Token.Kind} {pending : List Pending}

theorem delivers_of_ofInfix (h : ofInfix registry tokens = .ok output) (hne : tokens ≠ [])
    (hg : Guarded none pending) : State.Delivers registry pending tokens output := by
  have hdelivers := State.delivers_of_ofInfix h hne 0 hg
  rwa [Token.shift_zero, List.map_id, List.map_id] at hdelivers

/-- In the bracket of a call, the machine goes through the arguments one after another. -/
theorem Arguments.supplies (h : Arguments registry count tokens output) (opening : Token) (pending : List Pending) :
    State.Supplies registry pending opening count tokens output := by
  have hg := guarded_bracket Option.none opening pending
  induction h with
  | none => exact .none
  | one hne h => exact .one (delivers_of_ofInfix h hne hg)
  | more hne h hs _ ih => exact .separated hs (delivers_of_ofInfix h hne hg) ih

/-- The machine goes through an operand over any stack, and leaves the stack as it was. -/
theorem Operand.run (h : Operand registry previous part output) (pending : List Pending) (brackets : List Bracket) :
    ∃ last, NotCalling last ∧
      State.run registry ⟨pending, brackets, previous⟩ part = .ok (output, ⟨pending, noted brackets, last⟩) := by
  cases h with
  | leaf h => exact ⟨_, notCalling_leaf h, State.run_singleton (State.step_leaf h)⟩
  | @enclosed tokens output opening closing hp ho hne h hc =>
    have hdelivers := delivers_of_ofInfix h hne (guarded_bracket none opening pending)
    exact ⟨_, hc ▸ notCalling_closeBracket, hdelivers.enclosed ho hc hp⟩
  | @call tokens output called opening closing name function hk hf ho h hc =>
    have hsupplies := h.supplies opening (.function called :: pending)
    exact ⟨_, hc ▸ notCalling_closeBracket, hsupplies.call hk hf ho hc⟩

/-- Behind an operand, the machine goes on as behind any token that calls nothing. -/
theorem Operand.complete (h : Operand registry previous part output) (pending : List Pending) (brackets : List Bracket)
    (behind : List Token) :
    State.complete registry ⟨pending, brackets, previous⟩ (part ++ behind) =
      (State.complete registry ⟨pending, noted brackets, none⟩ behind).map (output ++ ·) := by
  obtain ⟨last, hlast, hrun⟩ := h.run pending brackets
  rw [State.complete_append hrun, State.complete_congr fun name => iff_of_false (hlast name) (notCalling_none name)]

/-- A list is refused for its beginning whatever follows, or the machine goes on from what its beginning leaves. -/
theorem ofInfix_append_cases (registry : Registry) (before : List Token) :
    (∃ fault, ∀ behind, ofInfix registry (before ++ behind) = .error fault) ∨
    ∃ out pending brackets, State.start.run registry before = .ok (out, ⟨pending, brackets, lastKind? before⟩) ∧
      ∀ behind, ofInfix registry (before ++ behind) =
        (State.complete registry ⟨pending, brackets, lastKind? before⟩ behind).map (out ++ ·) := by
  cases hrun : State.start.run registry before with
  | error fault => exact .inl ⟨fault, State.complete_append_error hrun⟩
  | ok result =>
    obtain ⟨out, pending, brackets, previous⟩ := result
    obtain rfl : previous = lastKind? before := (State.describes_run hrun).previous
    exact .inr ⟨out, pending, brackets, rfl, State.complete_append hrun⟩

/-- Parts that stand as operands may be put in each other's place. -/
theorem Operand.exchange (h : Operand registry (lastKind? before) part output)
    (h' : Operand registry (lastKind? before) other output) (behind : List Token) :
    ofInfix registry (before ++ (part ++ behind)) = ofInfix registry (before ++ (other ++ behind)) := by
  rcases ofInfix_append_cases registry before with ⟨fault, hbefore⟩ | ⟨out, pending, brackets, -, hbefore⟩
  · rw [hbefore, hbefore]
  · rw [hbefore, hbefore, h.complete, h'.complete]

/-- An operand that occurs once in a list occurs once in the output. -/
theorem not_mem_of_ofInfix {x : Token} {out more : List Token}
    (h : ofInfix registry (before ++ x :: behind) = .ok (out ++ x :: more)) (hx : x.kind.isStructural = false)
    (hb : x ∉ before) (hr : x ∉ behind) : x ∉ out ∧ x ∉ more := by
  have hlasting : ∀ front rest : List Token, lasting (front ++ x :: rest) ~ x :: lasting (front ++ rest) := by
    intro front rest
    have hmiddle : lasting (x :: (front ++ rest)) = x :: lasting (front ++ rest) :=
      List.filter_cons_of_pos (by simp [hx])
    exact hmiddle ▸ List.perm_middle.filter _
  have hperm : lasting (out ++ more) ~ lasting (before ++ behind) :=
    (((hlasting out more).symm.trans (perm_of_ofInfix h)).trans (hlasting before behind)).cons_inv
  have hnot : x ∉ lasting (out ++ more) := by
    rw [hperm.mem_iff, mem_lasting, List.mem_append]
    exact fun hm => hm.1.elim hb hr
  rw [mem_lasting, List.mem_append] at hnot
  exact ⟨fun hm => hnot ⟨.inl hm, hx⟩, fun hm => hnot ⟨.inr hm, hx⟩⟩

/-- A part that stands as an operand is rearranged as a token in its place, but for its output. -/
theorem Operand.ofInfix_eq {x : Token} (h : Operand registry (lastKind? before) part output)
    (hx : x.kind.isLeaf = true) (hb : x ∉ before) (hr : x ∉ behind) :
    ofInfix registry (before ++ (part ++ behind)) =
      (ofInfix registry (before ++ x :: behind)).map (substitute x output) := by
  rcases ofInfix_append_cases registry before with ⟨fault, hbefore⟩ | ⟨out, pending, brackets, -, hbefore⟩
  · rw [hbefore, hbefore]
    rfl
  · have hleaf : Operand registry (lastKind? before) [x] [x] := .leaf hx
    have hone : State.complete registry ⟨pending, brackets, lastKind? before⟩ (x :: behind) = _ :=
      hleaf.complete pending brackets behind
    have hwhole := hbefore (x :: behind)
    rw [hone] at hwhole
    rw [hbefore, h.complete, hwhole]
    cases hmore : State.complete registry ⟨pending, noted brackets, none⟩ behind with
    | error fault => rfl
    | ok more =>
      rw [hmore] at hwhole
      obtain ⟨hout, hrest⟩ := not_mem_of_ofInfix hwhole (isStructural_of_isLeaf hx) hb hr
      exact congrArg Except.ok (substitute_append_cons output hout hrest).symm

end

/-! ## Brackets that make no difference -/

section

variable {before part behind tokens output out : List Token} {opening closing token : Token}
  {previous other : Option Token.Kind} {held pending : List Pending} {brackets : List Bracket} {state : State}

/-- Behind this token, or at the start, a new expression begins. -/
def StartsExpression (previous : Option Token.Kind) : Prop :=
  previous = none ∨ previous = some .openBracket ∨ previous = some .separator

/-- With these tokens an expression ends. -/
def EndsExpression (behind : List Token) : Prop :=
  ∀ token ∈ behind.head?, token.kind = .closeBracket ∨ token.kind = .separator

/-- Brackets around the part are redundant there. -/
inductive Redundant (registry : Registry) (opening closing : Token) (before part behind : List Token) : Prop
  /-- The part is one operand. -/
  | operand {output : List Token} (hp : NotCalling (lastKind? before))
      (h : Operand registry (lastKind? before) part output)
  /-- The part is all that stands in a bracket, in an argument or in the list. -/
  | expression {output : List Token} (hb : StartsExpression (lastKind? before)) (hne : part ≠ [])
      (h : ofInfix registry part = .ok output) (he : EndsExpression behind)
  /-- The list is an expression, and has the same tree with the brackets as without them. -/
  | tree {tree : Tree Token} (h : Climbing.read registry (before ++ (part ++ behind)) = some tree)
      (hb : Climbing.read registry (before ++ (opening :: (part ++ [closing]) ++ behind)) = some tree)

/-- An operand is rearranged alone. -/
theorem Operand.ofInfix_self (h : Operand registry previous part output) : ofInfix registry part = .ok output := by
  have hstart : Operand registry none part output := by
    cases h with
    | leaf h => exact .leaf h
    | enclosed hp ho hne h hc => exact .enclosed notCalling_none ho hne h hc
    | call hk hf ho h hc => exact .call hk hf ho h hc
  have hcomplete : State.start.complete registry (part ++ []) = _ := hstart.complete [] [] []
  rw [List.append_nil, State.complete_start] at hcomplete
  exact hcomplete.trans (by simp [State.complete_nil, State.finish, Except.map])

theorem Operand.ne_nil (h : Operand registry previous part output) : part ≠ [] := by
  cases h <;> exact List.cons_ne_nil _ _

/-- Where an expression begins, no operator of two operands takes from the stack. -/
theorem guarded_of_startsExpression (h : State.start.run registry before = .ok (out, state))
    (hb : StartsExpression (lastKind? before)) : Guarded none state.pending := by
  rcases List.eq_nil_or_concat before with rfl | ⟨front, token, rfl⟩
  · cases h
    exact guarded_nil none
  · rw [List.concat_eq_append] at h hb
    have hk : token.kind = .openBracket ∨ token.kind = .separator := by simpa [StartsExpression] using hb
    obtain ⟨first, middle, more, hm, hr, -⟩ := State.exists_of_run_append h
    obtain ⟨given, next, others, hs, hnil, -⟩ := State.exists_of_run_cons hr
    cases hnil
    obtain ⟨kind, position⟩ := token
    cases (State.wellNested_run hm).move hs with
    | opening | calling | separator => exact guarded_bracket none _ _
    | leaf ht | unary ht | binary ht | function ht | closing ht | called ht =>
      rcases hk with rfl | rfl <;> cases ht

/-- A sign that ends an expression lets go what is held back above the innermost bracket. -/
theorem State.step_held (hh : ∀ entry ∈ held, entry.isBracket = false)
    (ht : token.kind = .closeBracket ∨ token.kind = .separator) :
    step registry ⟨held ++ pending, brackets, other⟩ token =
      (step registry ⟨pending, brackets, previous⟩ token).map fun (out, next) =>
        (held.map Pending.token ++ out, next) := by
  obtain ⟨kind, position⟩ := token
  rcases ht with rfl | rfl
  · cases brackets with
    | nil => rfl
    | cons bracket outer =>
      simp only [step, place, marked, inner_held hh, fromBracket_held hh]
      cases bracket.check <;> simp [bind, Except.bind, pure, Except.pure, Except.map]
  · cases brackets with
    | nil => rfl
    | cons bracket outer =>
      simp only [step, place, marked, inner_held hh, fromBracket_held hh]
      cases bracket.call with
      | none => rfl
      | some function =>
        cases bracket.segmentEmpty <;> simp [bind, Except.bind, pure, Except.pure, Except.map]

/-- Where an expression ends, what is held back above the innermost bracket is let go first. -/
theorem State.complete_held (hh : ∀ entry ∈ held, entry.isBracket = false) (he : EndsExpression behind) :
    complete registry ⟨held ++ pending, brackets, other⟩ behind =
      (complete registry ⟨pending, brackets, previous⟩ behind).map (held.map Pending.token ++ ·) := by
  cases behind with
  | nil =>
    have hany : (held ++ pending).any Pending.isBracket = pending.any Pending.isBracket := by
      rw [List.any_append, List.any_eq_false.2 fun entry hm => by simp [hh entry hm], Bool.false_or]
    rw [complete_nil, complete_nil, finish, finish, hany]
    cases pending.any Pending.isBracket <;> simp [Except.map]
  | cons token behind =>
    have hstep : step registry ⟨held ++ pending, brackets, other⟩ token =
        (step registry ⟨pending, brackets, previous⟩ token).map _ := step_held hh (he token rfl)
    cases hs : step registry ⟨pending, brackets, previous⟩ token with
    | error fault =>
      rw [hs] at hstep
      rw [complete_cons_error hs, complete_cons_error hstep]
      rfl
    | ok result =>
      obtain ⟨first, next⟩ := result
      rw [hs] at hstep
      rw [complete_cons hs, complete_cons hstep]
      cases next.complete registry behind <;> simp [Except.map]

/-- **Redundant brackets make no difference.** -/
theorem Redundant.ofInfix_eq (h : Redundant registry opening closing before part behind)
    (ho : opening.kind = .openBracket) (hc : closing.kind = .closeBracket) :
    ofInfix registry (before ++ (opening :: (part ++ [closing]) ++ behind)) =
      ofInfix registry (before ++ (part ++ behind)) := by
  cases h with
  | operand hp h => exact Operand.exchange (.enclosed hp ho h.ne_nil h.ofInfix_self hc) h behind
  | tree h hb => rw [ofInfix_of_read hb, ofInfix_of_read h]
  | @expression output hb hne h he =>
    have hp : NotCalling (lastKind? before) := by
      rcases hb with hb | hb | hb
      · exact hb ▸ notCalling_none
      · exact hb ▸ notCalling_openBracket
      · exact hb ▸ notCalling_separator
    have henclosed : Operand registry (lastKind? before) (opening :: (part ++ [closing])) output :=
      .enclosed hp ho hne h hc
    rcases ofInfix_append_cases registry before with ⟨fault, hbefore⟩ | ⟨out, pending, brackets, hrun, hbefore⟩
    · rw [hbefore, hbefore]
    · have hg := guarded_of_startsExpression hrun hb
      obtain ⟨first, held, last, hpart, rfl, hinner⟩ := delivers_of_ofInfix h hne hg brackets (lastKind? before) hp
      -- With the brackets all of the part is let go at once; without them its end is let go by what follows.
      rw [hbefore, hbefore, henclosed.complete, State.complete_append hpart, State.complete_held hinner he]
      cases State.complete registry ⟨pending, noted brackets, none⟩ behind <;> simp [Except.map]

end

/-- **Operands are rearranged independently of what stands around them.** With a part that stands as an operand, a list
is rearranged, or refused with the same fault, as with a token that occurs nowhere else in its place, and the output of
the part stands where this token would. Redundant brackets make no difference. -/
theorem ofInfix_context (registry : Registry) (before part behind : List Token) :
    (∀ x output, Operand registry (lastKind? before) part output → x.kind.isLeaf = true → x ∉ before → x ∉ behind →
      ofInfix registry (before ++ (part ++ behind)) =
        (ofInfix registry (before ++ x :: behind)).map (substitute x output)) ∧
    ∀ opening closing, opening.kind = .openBracket → closing.kind = .closeBracket →
      Redundant registry opening closing before part behind →
      ofInfix registry (before ++ (opening :: (part ++ [closing]) ++ behind)) =
        ofInfix registry (before ++ (part ++ behind)) :=
  ⟨fun _ _ h hx hb hr => h.ofInfix_eq hx hb hr, fun _ _ ho hc h => h.ofInfix_eq ho hc⟩

/-- Tokens that were not read from a text. -/
def bare (kinds : List Token.Kind) : List Token := kinds.map fun kind => ⟨kind, none⟩

/-- The call `max(3, (4))` in the middle of `2 2 * … 5`, which is no expression. -/
theorem ofInfix_context_bare :
    let before := bare [.number 2, .number 2, .operator "*" 2]
    let behind := bare [.number 5]
    let call := bare [.function "max", .openBracket, .number 3, .separator, .openBracket, .number 4, .closeBracket,
      .closeBracket]
    ofInfix loose (before ++ (call ++ behind)) =
        .ok (bare [.number 2, .number 2, .number 3, .number 4, .function "max", .number 5, .operator "*" 2]) ∧
      ofInfix loose (before ++ (⟨.openBracket, none⟩ :: (call ++ [⟨.closeBracket, none⟩]) ++ behind)) =
        ofInfix loose (before ++ (call ++ behind)) := by
  intro before behind call
  have hmax : loose.functions.find? "max" = some ⟨"max", 2, .max, rfl⟩ := rfl
  have hthree : ofInfix loose (bare [.number 3]) = .ok (bare [.number 3]) := rfl
  have hfour : ofInfix loose (bare [.openBracket, .number 4, .closeBracket]) = .ok (bare [.number 4]) := rfl
  have hseparator : (⟨.separator, none⟩ : Token).kind = .separator := rfl
  have harguments := Arguments.more (List.cons_ne_nil _ _) hthree hseparator (.one (List.cons_ne_nil _ _) hfour)
  have hcall : Operand loose (lastKind? before) call _ := .call rfl hmax rfl harguments rfl
  have hbefore : NotCalling (lastKind? before) := fun name h => nomatch h
  obtain ⟨hsubstitute, hredundant⟩ := ofInfix_context loose before call behind
  refine ⟨?_, hredundant _ _ rfl rfl (.operand hbefore hcall)⟩
  rw [hsubstitute ⟨.var "x", none⟩ _ hcall rfl (by decide) (by decide)]
  rfl

end Postfix

end Formula
