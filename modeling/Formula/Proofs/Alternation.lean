import Formula.Proofs.Adjacency
import Formula.Proofs.Weight
import Formula.Settings

/-!
# Lists that have a value

Neither reading a text nor rearranging its tokens sees to it that operands and operators alternate. What evaluation
finds out is the number of operands. So operands that are missing make up for operands that stand directly behind
others, and a list of tokens may have a value although it is no expression of the grammar (`value_of_postfix_order`).

Where no operand stands directly behind another, operands may only be missing. Each one that is missing lowers the
weight of the tokens, and as long as none is, the tokens that were taken in are the beginning of an expression
(`State.Move.goesOn`, `State.Tracks`). A list that has a value has weight one, so it is an expression
(`phrase_iff_alternates`).
-/

namespace Formula

namespace Postfix

open Infix

variable {registry : Registry}

/-! ## Beginnings of expressions -/

section

variable {token : Token} {op : Operator} {tokens operand behind : List Token}

/-- With an operand behind them, the tokens are an expression. -/
def Awaits (registry : Registry) (tokens : List Token) : Prop :=
  ∀ operand, Phrase registry .operand operand → Phrase registry .expression (tokens ++ operand)

theorem phrase_of_operand (h : Phrase registry .operand operand) : Phrase registry .expression operand := by
  simpa using Phrase.expression h .nothing

theorem awaits_nil : Awaits registry [] := fun _ h => phrase_of_operand h

theorem Awaits.sign (h : Awaits registry tokens) (ho : registry.operatorOf? .unary token.kind = some op) :
    Awaits registry (tokens ++ [token]) := by
  intro operand hoperand
  rw [List.append_assoc]
  exact h _ (.sign ho hoperand)

/-- An expression goes on with an operator and an operand. -/
theorem phrase_extend {part : Part} (h : Phrase registry part tokens) (hp : part = .expression ∨ part = .tail)
    (ho : registry.operatorOf? .binary token.kind = some op) (hoperand : Phrase registry .operand operand) :
    Phrase registry part (tokens ++ token :: operand) := by
  induction h with
  | expression first _ _ ih =>
    rw [List.append_assoc]
    exact .expression first (ih (.inr rfl))
  | nothing => exact .more ho (phrase_of_operand hoperand)
  | more h _ ih => exact .more h (ih (.inl rfl))
  | leaf | sign | brackets | call | noArgument | argument | separated => rcases hp with hp | hp <;> cases hp

theorem awaits_operator (h : Phrase registry .expression tokens)
    (ho : registry.operatorOf? .binary token.kind = some op) : Awaits registry (tokens ++ [token]) := by
  intro operand hoperand
  rw [List.append_assoc]
  exact phrase_extend h (.inl rfl) ho hoperand

/-- So many arguments with a separator behind each. -/
inductive Leading (registry : Registry) : Nat → List Token → Prop
  | none : Leading registry 0 []
  | more {count : Nat} {separator : Token} {before tokens : List Token} (h : Leading registry count before)
      (he : Phrase registry .expression tokens) (hs : separator.kind = .separator) :
      Leading registry (count + 1) (before ++ (tokens ++ [separator]))

theorem Leading.arguments {count others : Nat} (h : Leading registry count tokens)
    (hb : Phrase registry (.arguments (others + 1)) behind) :
    Phrase registry (.arguments (count + others + 1)) (tokens ++ behind) := by
  induction h generalizing others behind with
  | none => simpa using hb
  | @more count separator before tokens _ he hs ih =>
    have hmore := ih (.separated he hs hb)
    rw [List.append_assoc, List.append_assoc, List.singleton_append]
    rwa [Nat.add_right_comm count 1 others]

end

/-- What stands before the innermost segment, for the open brackets. -/
inductive Frames (registry : Registry) : List Bracket → List Token → Prop
  | outermost : Frames registry [] []
  | group {bracket : Bracket} {outer : List Bracket} {done tokens : List Token} {opening : Token}
      (hf : Frames registry outer done) (ha : Awaits registry tokens) (ho : opening.kind = .openBracket)
      (hc : bracket.call = none) : Frames registry (bracket :: outer) (done ++ (tokens ++ [opening]))
  | call {bracket : Bracket} {outer : List Bracket} {done tokens arguments : List Token} {called opening : Token}
      {name : String} {function : Function} (hf : Frames registry outer done) (ha : Awaits registry tokens)
      (hk : called.kind = .function name) (hfind : registry.functions.find? name = some function)
      (ho : opening.kind = .openBracket) (hc : bracket.call = some function)
      (hl : Leading registry bracket.separators arguments) :
      Frames registry (bracket :: outer) (done ++ (tokens ++ called :: opening :: arguments))

theorem Frames.noted {brackets : List Bracket} {done : List Token} (h : Frames registry brackets done) :
    Frames registry (noted brackets) done := by
  cases h with
  | outermost => exact .outermost
  | group hf ha ho hc => exact .group hf ha ho hc
  | call hf ha hk hfind ho hc hl => exact .call hf ha hk hfind ho hc hl

/-- What the innermost segment is so far, by its last token. -/
def Stage (registry : Registry) (previous : Option Token.Kind) (tokens : List Token) : Prop :=
  match previous with
  | none | some .openBracket | some .separator => tokens = []
  | some (.operator _ _) => Awaits registry tokens
  | some (.function name) =>
    ∃ before called, tokens = before ++ [called] ∧ called.kind = .function name ∧ Awaits registry before
  | some _ => Phrase registry .expression tokens

section

variable {previous : Option Token.Kind} {kind : Token.Kind} {tokens : List Token}

theorem Stage.awaits (h : Stage registry previous tokens) (he : expectsOperand previous = true) :
    Awaits registry tokens := by
  cases previous with
  | none =>
    obtain rfl : tokens = [] := h
    exact awaits_nil
  | some kind =>
    cases kind with
    | operator => exact h
    | openBracket | separator =>
      obtain rfl : tokens = [] := h
      exact awaits_nil
    | _ => cases he

theorem Stage.phrase (h : Stage registry previous tokens) (he : expectsOperand previous = false)
    (hn : NotCalling previous) : Phrase registry .expression tokens := by
  cases previous with
  | none => cases he
  | some kind =>
    cases kind with
    | operator | openBracket | separator => cases he
    | function name => exact absurd rfl (hn name)
    | _ => exact h

theorem stage_of_phrase (h : Phrase registry .expression tokens) (he : kind.endsOperand = true) :
    Stage registry (some kind) tokens := by
  cases kind with
  | operator | function | openBracket | separator => cases he
  | _ => exact h

end

/-- The tokens that were taken in are the beginning of an expression. -/
def Begins (registry : Registry) (brackets : List Bracket) (previous : Option Token.Kind) (done : List Token) : Prop :=
  ∃ before tokens, done = before ++ tokens ∧ Frames registry brackets before ∧ Stage registry previous tokens

namespace Begins

variable {brackets outer : List Bracket} {bracket : Bracket} {previous : Option Token.Kind} {done : List Token}
  {token : Token} {op : Operator}

theorem leaf (h : Begins registry brackets previous done) (he : expectsOperand previous = true)
    (hl : token.kind.isLeaf = true) : Begins registry (noted brackets) (some token.kind) (done ++ [token]) := by
  obtain ⟨before, tokens, rfl, hf, hs⟩ := h
  exact ⟨before, tokens ++ [token], by simp, hf.noted,
    stage_of_phrase (hs.awaits he _ (.leaf hl)) (endsOperand_of_isLeaf hl)⟩

theorem stage_operator {fixity : Fixity} {tokens : List Token} (h : registry.operatorOf? fixity token.kind = some op)
    (ha : Awaits registry tokens) : Stage registry (some token.kind) tokens := by
  obtain ⟨symbol, arity, hk, -⟩ := Registry.operatorOf?_eq_some.1 h
  rw [hk]
  exact ha

theorem unary (h : Begins registry brackets previous done) (he : expectsOperand previous = true)
    (ho : registry.operatorOf? .unary token.kind = some op) :
    Begins registry (noted brackets) (some token.kind) (done ++ [token]) := by
  obtain ⟨before, tokens, rfl, hf, hs⟩ := h
  exact ⟨before, tokens ++ [token], by simp, hf.noted, stage_operator ho ((hs.awaits he).sign ho)⟩

theorem binary (h : Begins registry brackets previous done) (he : expectsOperand previous = false)
    (hn : NotCalling previous) (ho : registry.operatorOf? .binary token.kind = some op) :
    Begins registry (noted brackets) (some token.kind) (done ++ [token]) := by
  obtain ⟨before, tokens, rfl, hf, hs⟩ := h
  exact ⟨before, tokens ++ [token], by simp, hf.noted, stage_operator ho (awaits_operator (hs.phrase he hn) ho)⟩

theorem function {name : String} (h : Begins registry brackets previous done) (he : expectsOperand previous = true)
    (hk : token.kind = .function name) : Begins registry (noted brackets) (some token.kind) (done ++ [token]) := by
  obtain ⟨before, tokens, rfl, hf, hs⟩ := h
  rw [hk]
  exact ⟨before, tokens ++ [token], by simp, hf.noted, tokens, token, rfl, hk, hs.awaits he⟩

theorem opening (h : Begins registry brackets previous done) (he : expectsOperand previous = true)
    (hk : token.kind = .openBracket) :
    Begins registry (.opened none :: noted brackets) (some token.kind) (done ++ [token]) := by
  obtain ⟨before, tokens, rfl, hf, hs⟩ := h
  rw [hk]
  exact ⟨before ++ (tokens ++ [token]), [], by simp, .group hf.noted (hs.awaits he) hk rfl, rfl⟩

theorem calling {name : String} {function : Function} (h : Begins registry brackets (some (.function name)) done)
    (hf : registry.functions.find? name = some function) (hk : token.kind = .openBracket) :
    Begins registry (.opened (some function) :: noted brackets) (some token.kind) (done ++ [token]) := by
  obtain ⟨before, tokens, rfl, hframes, front, called, rfl, hcalled, ha⟩ := h
  rw [hk]
  exact ⟨before ++ (front ++ [called, token]), [], by simp, .call hframes.noted ha hcalled hf hk rfl .none, rfl⟩

theorem separator (h : Begins registry (bracket :: outer) previous done) (he : expectsOperand previous = false)
    (hn : NotCalling previous) {function : Function} (hc : bracket.call = some function)
    (hk : token.kind = .separator) :
    Begins registry (bracket.separate :: outer) (some token.kind) (done ++ [token]) := by
  obtain ⟨before, tokens, rfl, hframes, hs⟩ := h
  rw [hk]
  cases hframes with
  | group hf ha ho hnone =>
    rw [hc] at hnone
    cases hnone
  | call hf ha hcalled hfind ho hcall hl =>
    exact ⟨_, [], by simp, .call hf ha hcalled hfind ho hcall (hl.more (hs.phrase he hn) hk), rfl⟩

theorem closing (h : Begins registry (bracket :: outer) previous done) (he : expectsOperand previous = false)
    (hn : NotCalling previous) (hc : bracket.call = none) (hk : token.kind = .closeBracket) :
    Begins registry outer (some token.kind) (done ++ [token]) := by
  obtain ⟨before, tokens, rfl, hframes, hs⟩ := h
  rw [hk]
  cases hframes with
  | call hf ha hcalled hfind ho hcall hl =>
    rw [hc] at hcall
    cases hcall
  | @group _ _ before front opening hf ha ho hnone =>
    exact ⟨before, front ++ opening :: (tokens ++ [token]), by simp, hf, ha _ (.brackets ho (hs.phrase he hn) hk)⟩

/-- A call is closed behind its last argument, or right behind its bracket. -/
theorem called (h : Begins registry (bracket :: outer) previous done) {function : Function}
    (hc : bracket.call = some function) (hk : token.kind = .closeBracket)
    (ha : (expectsOperand previous = false ∧ NotCalling previous ∧ bracket.separators + 1 = function.arity) ∨
      previous = some .openBracket ∧ bracket.separators = 0 ∧ function.arity = 0) :
    Begins registry outer (some token.kind) (done ++ [token]) := by
  obtain ⟨before, tokens, rfl, hframes, hs⟩ := h
  rw [hk]
  cases hframes with
  | group hf hawaits ho hnone =>
    rw [hc] at hnone
    cases hnone
  | @call _ _ before front arguments called opening name function' hf hawaits hcalled hfind ho hcall hl =>
    obtain rfl : function = function' := Option.some.inj (hc.symm.trans hcall)
    have harguments : Phrase registry (.arguments function.arity) (arguments ++ tokens) := by
      rcases ha with ⟨he, hn, hcount⟩ | ⟨rfl, hzero, hnone⟩
      · rw [← hcount]
        exact hl.arguments (.argument (hs.phrase he hn))
      · obtain rfl : tokens = [] := hs
        rw [hzero] at hl
        cases hl
        rw [hnone]
        exact .noArgument
    exact ⟨before, front ++ called :: opening :: (arguments ++ tokens ++ [token]), by simp, hf,
      hawaits _ (.call hcalled hfind ho harguments hk)⟩

end Begins

/-! ## Weights that nothing is missing from -/

/-- The weight of the innermost segment, if no operand is missing in it. -/
def stageWeight (registry : Registry) : Option Token.Kind → Int
  | none => 0
  | some kind =>
    match kind with
    | .function _ => registry.weight kind
    | .operator _ _ | .openBracket | .separator => 0
    | _ => 1

@[simp]
theorem stageWeight_function (name : String) :
    stageWeight registry (some (.function name)) = registry.weight (.function name) := rfl

@[simp]
theorem stageWeight_openBracket : stageWeight registry (some .openBracket) = 0 := rfl

@[simp]
theorem stageWeight_closeBracket : stageWeight registry (some .closeBracket) = 1 := rfl

@[simp]
theorem stageWeight_separator : stageWeight registry (some .separator) = 0 := rfl

theorem stageWeight_of_expects {previous : Option Token.Kind} (h : expectsOperand previous = true) :
    stageWeight registry previous = 0 := by
  cases previous with
  | none => rfl
  | some kind =>
    cases kind with
    | operator | openBracket | separator => rfl
    | _ => cases h

theorem stageWeight_of_complete {previous : Option Token.Kind} (h : expectsOperand previous = false)
    (hn : NotCalling previous) : stageWeight registry previous = 1 := by
  cases previous with
  | none => cases h
  | some kind =>
    cases kind with
    | operator | openBracket | separator => cases h
    | function name => exact absurd rfl (hn name)
    | _ => rfl

/-- A segment that goes on with no opening bracket for a call has weight one at most, and then it is complete. -/
theorem stageWeight_le (registry : Registry) {previous : Option Token.Kind} (hn : NotCalling previous) :
    stageWeight registry previous ≤ 1 ∧ (stageWeight registry previous = 1 → expectsOperand previous = false) := by
  cases he : expectsOperand previous with
  | true =>
    rw [stageWeight_of_expects he]
    exact ⟨by decide, fun h => by cases h⟩
  | false =>
    rw [stageWeight_of_complete he hn]
    exact ⟨Int.le_refl 1, fun _ => rfl⟩

theorem stageWeight_leaf {kind : Token.Kind} (h : kind.isLeaf = true) : stageWeight registry (some kind) = 1 := by
  cases kind with
  | number | text | var => rfl
  | _ => cases h

theorem stageWeight_operator {fixity : Fixity} {kind : Token.Kind} {op : Operator}
    (h : registry.operatorOf? fixity kind = some op) : stageWeight registry (some kind) = 0 := by
  obtain ⟨symbol, arity, rfl, -⟩ := Registry.operatorOf?_eq_some.1 h
  rfl

/-- The weight of what stands in a bracket before its innermost segment, with the function that is called. Every
separator stands behind an argument. -/
def Bracket.weight (bracket : Bracket) : Int :=
  bracket.call.elim 0 fun function => 1 - function.arity + bracket.separators

def bracketsWeight : List Bracket → Int
  | [] => 0
  | bracket :: brackets => bracket.weight + bracketsWeight brackets

@[simp]
theorem bracketsWeight_nil : bracketsWeight [] = 0 := rfl

@[simp]
theorem bracketsWeight_cons (bracket : Bracket) (brackets : List Bracket) :
    bracketsWeight (bracket :: brackets) = bracket.weight + bracketsWeight brackets := rfl

@[simp]
theorem bracketsWeight_noted (brackets : List Bracket) : bracketsWeight (noted brackets) = bracketsWeight brackets := by
  cases brackets <;> rfl

theorem Bracket.weight_of_none {bracket : Bracket} (h : bracket.call = none) : bracket.weight = 0 := by
  rw [weight, h, Option.elim_none]

theorem Bracket.weight_of_call {bracket : Bracket} {function : Function} (h : bracket.call = some function) :
    bracket.weight = 1 - function.arity + bracket.separators := by
  rw [weight, h, Option.elim_some]

/-- A call may be closed if there is nothing in its bracket and it takes no argument, or if it has all arguments. -/
theorem Bracket.arity_of_check {bracket : Bracket} {function : Function} (hcall : bracket.call = some function)
    (h : bracket.check = .ok ()) :
    bracket.empty = true ∧ function.arity = 0 ∨ bracket.separators + 1 = function.arity := by
  rw [check, hcall] at h
  dsimp only at h
  split at h
  · cases h
  · split at h
    · cases h
    · rename_i hn
      rw [ne_eq, Classical.not_not, argumentCount] at hn
      cases he : bracket.empty with
      | true => exact .inl ⟨rfl, by simpa [he] using hn.symm⟩
      | false => exact .inr (by simpa [he] using hn)

theorem Bracket.weight_separate {bracket : Bracket} {function : Function} (h : bracket.call = some function) :
    bracket.separate.weight = bracket.weight + 1 := by
  simp only [weight, separate, h, Option.elim_some]
  omega

namespace State

/-- The weight of the tokens that were taken in, if no operand is missing among them. -/
def fullWeight (registry : Registry) (state : State) : Int :=
  bracketsWeight state.brackets + stageWeight registry state.previous

/-- Only the innermost bracket may have nothing in it, and only right behind the bracket. -/
structure Fresh (state : State) : Prop where
  innermost : ∀ bracket ∈ state.brackets.head?, bracket.empty = true →
    bracket = .opened bracket.call ∧ state.previous = some .openBracket
  outer : ∀ bracket ∈ state.brackets.tail, bracket.empty = false

variable {state next last : State} {token : Token} {tokens out done : List Token}

theorem fresh_of_forall (h : ∀ bracket ∈ state.brackets, bracket.empty = false) : state.Fresh where
  innermost := by
    intro bracket hb he
    rw [h bracket (List.mem_of_mem_head? hb)] at he
    cases he
  outer := fun bracket hb => h bracket (List.mem_of_mem_tail hb)

theorem Fresh.empty_noted (h : state.Fresh) : ∀ bracket ∈ noted state.brackets, bracket.empty = false := by
  have houter := h.outer
  cases hb : state.brackets with
  | nil => exact List.forall_mem_nil _
  | cons bracket outer =>
    rw [hb] at houter
    exact List.forall_mem_cons.2 ⟨rfl, houter⟩

theorem Fresh.opened {pending : List Pending} (h : state.Fresh) (call : Option Function) :
    Fresh ⟨pending, .opened call :: noted state.brackets, some .openBracket⟩ where
  innermost := by
    intro bracket hb _
    obtain rfl : Bracket.opened call = bracket := by simpa using hb
    exact ⟨rfl, rfl⟩
  outer := h.empty_noted

/-- Every move keeps that. -/
theorem Move.fresh (h : Move registry token state out next) (hs : state.Fresh) : next.Fresh := by
  cases h with
  | leaf | unary | function | binary => exact fresh_of_forall hs.empty_noted
  | opening h hp => exact h ▸ hs.opened none
  | @calling _ _ _ _ function h => exact h ▸ hs.opened (some function)
  | @separator _ _ _ bracket outer _ _ _ _ _ hsegment =>
    refine fresh_of_forall (List.forall_mem_cons.2 ⟨?_, hs.outer⟩)
    cases he : bracket.empty with
    | false => exact he
    | true =>
      obtain ⟨hopened, -⟩ := hs.innermost bracket rfl he
      rw [hopened] at hsegment
      cases hsegment
  | closing | called => exact fresh_of_forall hs.outer

/-- Behind every move the weight can only have fallen short, and if it has not then the beginning of an expression goes
on. -/
theorem Move.goesOn (h : Move registry token state out next) (hf : Follows state.previous token.kind)
    (hs : state.Fresh) :
    state.fullWeight registry + registry.weight token.kind ≤ next.fullWeight registry ∧
      (state.fullWeight registry + registry.weight token.kind = next.fullWeight registry →
        ∀ done, Begins registry state.brackets state.previous done →
          Begins registry next.brackets next.previous (done ++ [token])) := by
  cases h with
  | leaf h =>
    have hn := hf.notCalling fun hk => by rw [hk] at h; cases h
    have he := hf.expects (startsOperand_of_isLeaf h) hn
    refine ⟨?_, fun _ done hb => hb.leaf he h⟩
    simp only [fullWeight, bracketsWeight_noted, stageWeight_of_expects he, Registry.weight_leaf h, stageWeight_leaf h]
    omega
  | unary h =>
    have he := hf.expects_unary h
    refine ⟨?_, fun _ done hb => hb.unary he h⟩
    simp only [fullWeight, bracketsWeight_noted, stageWeight_of_expects he, Registry.weight_operator h,
      stageWeight_operator h, Fixity.arity]
    omega
  | binary h hh hp =>
    have he := hf.not_expects_binary h
    have hn := hf.notCalling fun hk => by rw [hk] at h; cases h
    refine ⟨?_, fun _ done hb => hb.binary he hn h⟩
    simp only [fullWeight, bracketsWeight_noted, stageWeight_of_complete he hn, Registry.weight_operator h,
      stageWeight_operator h, Fixity.arity]
    omega
  | function h =>
    have hn := hf.notCalling fun hk => by rw [hk] at h; cases h
    have he := hf.expects (by rw [h]; rfl) hn
    refine ⟨?_, fun _ done hb => hb.function he h⟩
    simp only [fullWeight, bracketsWeight_noted, stageWeight_of_expects he, h, stageWeight_function]
    omega
  | opening h hp =>
    have he := hf.expects (by rw [h]; rfl) hp
    refine ⟨?_, fun _ done hb => hb.opening he h⟩
    simp only [fullWeight, bracketsWeight_cons, bracketsWeight_noted, stageWeight_of_expects he, h,
      stageWeight_openBracket, Registry.weight_openBracket,
      Bracket.weight_of_none (rfl : (Bracket.opened none).call = none)]
    omega
  | @calling _ _ _ name function h hk hfind =>
    refine ⟨?_, fun _ done hb => hb.calling hfind h⟩
    have hopened : (Bracket.opened (some function)).weight = registry.weight (.function name) := by
      rw [Bracket.weight_of_call rfl, Registry.weight_function rfl hfind]
      exact Int.add_zero _
    simp only [fullWeight, bracketsWeight_cons, bracketsWeight_noted, h, stageWeight_openBracket, stageWeight_function,
      Registry.weight_openBracket, hopened]
    omega
  -- an operand can only be missing where a segment ends: before a separator and before a closing bracket
  | @separator _ _ _ _ _ previous _ h hh hcall hsegment =>
    have hn : NotCalling previous := hf.notCalling fun hk => by rw [hk] at h; cases h
    obtain ⟨hle, hcomplete⟩ := stageWeight_le registry hn
    simp only [fullWeight, bracketsWeight_cons, Bracket.weight_separate hcall, h, stageWeight_separator,
      Registry.weight_separator]
    exact ⟨by omega, fun heq done hb => h ▸ hb.separator (hcomplete (by omega)) hn hcall h⟩
  | @closing _ _ _ _ _ previous h ho hh hcall hc =>
    have hn : NotCalling previous := hf.notCalling fun hk => by rw [hk] at h; cases h
    obtain ⟨hle, hcomplete⟩ := stageWeight_le registry hn
    simp only [fullWeight, bracketsWeight_cons, Bracket.weight_of_none hcall, h, stageWeight_closeBracket,
      Registry.weight_closeBracket]
    exact ⟨by omega, fun heq done hb => h ▸ hb.closing (hcomplete (by omega)) hn hcall h⟩
  | @called _ _ _ _ _ bracket _ previous _ h ho hk hh hcall hc =>
    have hn : NotCalling previous := hf.notCalling fun hk => by rw [hk] at h; cases h
    obtain ⟨hle, hcomplete⟩ := stageWeight_le registry hn
    simp only [fullWeight, bracketsWeight_cons, Bracket.weight_of_call hcall, h, stageWeight_closeBracket,
      Registry.weight_closeBracket]
    rcases Bracket.arity_of_check hcall hc with ⟨hempty, harity⟩ | harity
    · obtain ⟨hopened, rfl⟩ : bracket = .opened bracket.call ∧ previous = some .openBracket :=
        hs.innermost bracket rfl hempty
      have hzero : bracket.separators = 0 := congrArg Bracket.separators hopened
      rw [stageWeight_openBracket]
      exact ⟨by omega, fun _ done hb => h ▸ hb.called hcall h (.inr ⟨rfl, hzero, harity⟩)⟩
    · exact ⟨by omega, fun heq done hb => h ▸ hb.called hcall h (.inl ⟨hcomplete (by omega), hn, harity⟩)⟩

/-! ## Runs -/

/-- Nothing but operands can be missing among the tokens that were taken in, and if none is then they are the
beginning of an expression. -/
structure Tracks (registry : Registry) (done : List Token) (state : State) : Prop where
  fresh : state.Fresh
  totalWeight_le : registry.totalWeight done ≤ state.fullWeight registry
  begins : registry.totalWeight done = state.fullWeight registry →
    Begins registry state.brackets state.previous done

theorem tracks_start : start.Tracks registry [] where
  fresh := fresh_of_forall (List.forall_mem_nil _)
  totalWeight_le := Int.le_refl 0
  begins := fun _ => ⟨[], [], rfl, .outermost, rfl⟩

theorem Tracks.move (h : state.Tracks registry done) (hf : Follows state.previous token.kind)
    (hm : Move registry token state out next) : next.Tracks registry (done ++ [token]) := by
  obtain ⟨hle, hgoes⟩ := hm.goesOn hf h.fresh
  have hweight : registry.totalWeight (done ++ [token]) = registry.totalWeight done + registry.weight token.kind := by
    simp
  have hdone := h.totalWeight_le
  refine ⟨hm.fresh h.fresh, by omega, fun heq => hgoes (by omega) done (h.begins (by omega))⟩

theorem Tracks.run (h : state.Tracks registry done) (hw : state.WellNested registry)
    (hs : Succession state.previous tokens) (hrun : state.run registry tokens = .ok (out, last)) :
    last.Tracks registry (done ++ tokens) ∧ NotCalling last.previous := by
  induction tokens generalizing state done out with
  | nil =>
    cases hrun
    exact ⟨by rwa [List.append_nil], hs⟩
  | cons token tokens ih =>
    obtain ⟨first, next, more, hstep, hmore, rfl⟩ := exists_of_run_cons hrun
    have hm := hw.move hstep
    have hnext := ih (h.move hs.1 hm) (hm.wellNested hw) (hm.previous_eq ▸ hs.2) hmore
    rwa [List.append_assoc, List.singleton_append] at hnext

end State

/-- Tokens that may follow each other are an expression, if they are rearranged and have weight one. -/
theorem phrase_of_totalWeight {tokens output : List Token} (h : ofInfix registry tokens = .ok output)
    (hs : Succession none tokens) (hw : registry.totalWeight tokens = 1) : Phrase registry .expression tokens := by
  obtain ⟨⟨out, last⟩, hrun, h⟩ := exists_of_bind_eq_ok h
  obtain ⟨rest, hfinish, -⟩ := exists_of_bind_eq_ok h
  obtain ⟨hclosed, -, -⟩ := State.finish_eq_ok (State.wellNested_run hrun) hfinish
  obtain ⟨htracks, hn⟩ := State.tracks_start.run State.wellNested_start hs hrun
  obtain ⟨hle, hcomplete⟩ := stageWeight_le registry hn
  have hfull : last.fullWeight registry = stageWeight registry last.previous := by
    rw [State.fullWeight, hclosed, bracketsWeight_nil, Int.zero_add]
  have htotal := htracks.totalWeight_le
  rw [List.nil_append] at htracks htotal
  obtain ⟨before, segment, rfl, hframes, hstage⟩ := htracks.begins (by omega)
  rw [hclosed] at hframes
  cases hframes
  exact hstage.phrase (hcomplete (by omega)) hn

end Postfix

namespace Evaluation

/-- **A text that has a value is an expression if and only if no operand stands directly behind another in it.** -/
theorem phrase_iff_alternates (registry : Registry) (environment : Environment) (text : String) (tokens : List Token)
    (x : Float) (hread : Infix.read registry text = .ok tokens)
    (h : Postfix.ofInfix registry tokens >>= evaluate registry environment = .ok x) :
    Phrase registry .expression tokens ↔ Alternates tokens := by
  refine ⟨Phrase.alternates, fun ha => ?_⟩
  obtain ⟨output, hlist, hevaluate⟩ := exists_of_bind_eq_ok h
  have hweight : registry.totalWeight tokens = 1 := by
    rw [← Postfix.totalWeight_of_ofInfix hlist, totalWeight_of_evaluate hevaluate]
  refine Postfix.phrase_of_totalWeight hlist (Infix.succession_of_readFrom hread ?_ ha ?_) hweight
  · intro name hn
    cases hn
  · intro token _ _ previous hp
    cases hp

/-- The tokens of `max(-2, x)*4`. -/
def product : List Token :=
  [⟨.function "max", some 0⟩, ⟨.openBracket, some 3⟩, ⟨.operator "-" 1, some 4⟩, ⟨.number 2.0, some 5⟩,
    ⟨.separator, some 6⟩, ⟨.var "x", some 8⟩, ⟨.closeBracket, some 9⟩, ⟨.operator "*" 2, some 10⟩,
    ⟨.number 4.0, some 11⟩]

theorem phrase_iff_alternates_product :
    Infix.read (.standard .shipped true) "max(-2, x)*4" = .ok product ∧
    Postfix.ofInfix (.standard .shipped true) product >>= evaluate (.standard .shipped true) (fun _ => some (.int 3)) =
      .ok 12.0 ∧
    Alternates product ∧ Phrase (.standard .shipped true) .expression product := by
  have hread : Infix.read (.standard .shipped true) "max(-2, x)*4" = .ok product :=
    eq_ok_of_toOption (by decide +kernel)
  have h : Postfix.ofInfix (.standard .shipped true) product >>=
      evaluate (.standard .shipped true) (fun _ => some (.int 3)) = .ok 12.0 :=
    eq_ok_of_toOption (by decide +kernel)
  have ha : Alternates product := by decide
  exact ⟨hread, h, ha, (phrase_iff_alternates _ _ _ _ _ hread h).2 ha⟩

/-- An operator behind both of its operands: the operand that is missing makes up for the one that stands directly
behind another. -/
theorem value_of_postfix_order :
    ∃ tokens, Infix.read (.standard .shipped true) "2 3 +" = .ok tokens ∧
      Postfix.ofInfix (.standard .shipped true) tokens >>= evaluate (.standard .shipped true) (fun _ => none) =
        .ok 5.0 ∧
      ¬ Phrase (.standard .shipped true) .expression tokens := by
  have hread : Infix.read (.standard .shipped true) "2 3 +" = .ok
      [⟨.number 2.0, some 0⟩, ⟨.number 3.0, some 2⟩, ⟨.operator "+" 2, some 4⟩] :=
    eq_ok_of_toOption (by decide +kernel)
  refine ⟨_, hread, eq_ok_of_toOption (by decide +kernel), fun h => ?_⟩
  exact absurd h.alternates (by decide)

end Evaluation

end Formula
