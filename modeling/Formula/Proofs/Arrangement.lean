import Formula.Proofs.Climbing
import Formula.Proofs.MachineRun

/-!
# The machine simulates precedence climbing

While the recursive reader reads an expression behind a waiting operator, the machine that rearranges tokens runs over
the same tokens on top of an arbitrary stack (`takes_readExpression`). What it lets go and what it holds back make up
the postorder of the tree that is read (`Holds`); all that it holds back is let go by the operator that follows; and
nothing below is touched, since the reader stops before the machine would let the waiting operator go (`Guarded`). Hence
the machine gives the postorder of the tree for every expression of the grammar, over every registry
(`ofInfix_postorder`).
-/

namespace Formula.Postfix

open Climbing

variable {registry : Registry}

/-! ## The simulation -/

/-- Before an operator that the waiting one lets through, nothing on the stack goes first. -/
def Guarded (waiting : Option Operator) (pending : List Pending) : Prop :=
  ∀ op, goesFirst waiting op = false → pending.takeWhile (State.yields op) = []

theorem guarded_operator (token : Token) (op : Operator) (pending : List Pending) :
    Guarded (some op) (.operator token op :: pending) := by
  intro next h
  exact List.takeWhile_cons_of_neg (by simpa [goesFirst, State.yields] using h)

theorem guarded_bracket (waiting : Option Operator) (token : Token) (pending : List Pending) :
    Guarded waiting (.bracket token :: pending) := by
  intro next _
  exact List.takeWhile_cons_of_neg (by simp [State.yields])

theorem guarded_nil (waiting : Option Operator) : Guarded waiting [] := fun _ _ => rfl

/-- What has been let go and what is held back make up the postorder of the tree, and the operator that follows lets go
all that is held back. -/
structure Holds (registry : Registry) (rest out : List Token) (held : List Pending) (tree : Tree Token) : Prop where
  postorder : out ++ held.map Pending.token = tree.postorder
  inner : ∀ entry ∈ held, entry.isBracket = false
  yields : ∀ token ∈ rest.head?, ∀ op, registry.operatorOf? .binary token.kind = some op →
    ∀ entry ∈ held, State.yields op entry = true

theorem Holds.of_eq {rest out : List Token} {tree : Tree Token} (h : out = tree.postorder) :
    Holds registry rest out [] tree where
  postorder := by simpa using h
  inner := by simp
  yields := by simp

/-- An operator holds what its last operand holds, and itself. -/
theorem Holds.operator {rest out before : List Token} {held : List Pending} (token : Token) {op : Operator}
    {operand : Tree Token} {others : List (Tree Token)} (h : Holds registry rest out held operand)
    (hs : Stops registry (some op) rest) (hb : before = others.flatMap Tree.postorder) :
    Holds registry rest (before ++ out) (held ++ [.operator token op]) (.node token (others ++ [operand])) where
  postorder := by
    simp only [List.map_append, List.map_cons, List.map_nil, Pending.token, Tree.postorder_node, List.flatMap_append,
      List.flatMap_cons, List.flatMap_nil, List.append_nil, hb, ← h.postorder, List.append_assoc]
  inner := by
    intro entry he
    rcases List.mem_append.mp he with he | he
    · exact h.inner entry he
    · obtain rfl := List.mem_singleton.mp he
      rfl
  yields := by
    intro next hn op' ho entry he
    rcases List.mem_append.mp he with he | he
    · exact h.yields next hn op' ho entry he
    · obtain rfl := List.mem_singleton.mp he
      simpa [goesFirst, State.yields] using hs next hn op' ho

/-- Over this stack, the machine takes in the tokens of the tree when the rest follows. -/
def Takes (registry : Registry) (pending : List Pending) (tokens rest : List Token) (tree : Tree Token) : Prop :=
  ∀ brackets previous, NotCalling previous → ∃ out held last,
    State.run registry ⟨pending, brackets, previous⟩ tokens =
      .ok (out, ⟨held ++ pending, noted brackets, last⟩) ∧
    Holds registry rest out held tree

/-- Behind the tokens of the left tree, the machine takes in the tokens that complete the tree when the rest follows. -/
def TakesBehind (registry : Registry) (pending : List Pending) (left : Tree Token) (tokens rest : List Token)
    (tree : Tree Token) : Prop :=
  ∀ out held brackets previous, Holds registry (tokens ++ rest) out held left → ∃ out' held' last,
    State.run registry ⟨held ++ pending, noted brackets, previous⟩ tokens =
      .ok (out', ⟨held' ++ pending, noted brackets, last⟩) ∧
    Holds registry rest (out ++ out') held' tree

/-- In the bracket of a call, the machine takes in the tokens of so many arguments. -/
def TakesArguments (registry : Registry) (pending : List Pending) (opening : Token) (count : Nat) (tokens : List Token)
    (trees : List (Tree Token)) : Prop :=
  ∀ bracket outer previous, bracket.call.isSome = true → NotCalling previous → ∃ out held last,
    State.run registry ⟨.bracket opening :: pending, bracket :: outer, previous⟩ tokens =
      .ok (out, ⟨held ++ .bracket opening :: pending, bracket.filled count :: outer, last⟩) ∧
    out ++ held.map Pending.token = trees.flatMap Tree.postorder ∧ ∀ entry ∈ held, entry.isBracket = false

section

variable {pending : List Pending} {token opening closing : Token} {tokens behind rest : List Token} {op : Operator}
  {left right tree operand : Tree Token} {trees : List (Tree Token)}

theorem Takes.leaf (h : token.kind.isLeaf = true) : Takes registry pending [token] rest (.node token []) := by
  intro brackets previous _
  exact ⟨[token], [], some token.kind, State.run_singleton (State.step_leaf h), .of_eq (by simp)⟩

/-- A sign waits until its operand is complete. -/
theorem Takes.sign (ho : registry.operatorOf? .unary token.kind = some op)
    (h : Takes registry (.operator token op :: pending) tokens rest operand) (hs : Stops registry (some op) rest) :
    Takes registry pending (token :: tokens) rest (.node token [operand]) := by
  intro brackets previous _
  obtain ⟨out, held, last, hrun, hholds⟩ := h (noted brackets) _ (notCalling_operator ho)
  have hnode := hholds.operator token hs List.flatMap_nil.symm
  refine ⟨out, held ++ [.operator token op], last, ?_, by simpa using hnode⟩
  exact State.run_cons_of_nil (State.step_unary ho) (by simpa using hrun)

theorem Takes.delivers (h : Takes registry pending tokens rest tree) :
    State.Delivers registry pending tokens tree.postorder := by
  intro brackets previous hp
  obtain ⟨out, held, last, hrun, hholds⟩ := h brackets previous hp
  exact ⟨out, held, last, hrun, hholds.postorder, hholds.inner⟩

theorem Takes.brackets (ho : opening.kind = .openBracket) (hc : closing.kind = .closeBracket)
    (h : Takes registry (.bracket opening :: pending) tokens behind tree) :
    Takes registry pending (opening :: (tokens ++ [closing])) rest tree := by
  intro brackets previous hp
  exact ⟨_, [], _, h.delivers.enclosed ho hc hp, .of_eq rfl⟩

theorem Takes.call {name : String} {function : Function} (hk : token.kind = .function name)
    (hf : registry.functions.find? name = some function) (ho : opening.kind = .openBracket)
    (hc : closing.kind = .closeBracket)
    (h : TakesArguments registry (.function token :: pending) opening function.arity tokens trees) :
    Takes registry pending (token :: opening :: (tokens ++ [closing])) rest (.node token trees) := by
  intro brackets previous _
  have hsupplies : State.Supplies registry (.function token :: pending) opening function.arity tokens _ := h
  exact ⟨_, [], _, hsupplies.call hk hf ho hc, .of_eq (Tree.postorder_node ..).symm⟩

theorem Takes.expression (h : Takes registry pending tokens (behind ++ rest) left)
    (ht : TakesBehind registry pending left behind rest tree) :
    Takes registry pending (tokens ++ behind) rest tree := by
  intro brackets previous hp
  obtain ⟨out, held, last, hrun, hholds⟩ := h brackets previous hp
  obtain ⟨out', held', last', hrun', hholds'⟩ := ht out held brackets last hholds
  exact ⟨out ++ out', held', last', State.run_append hrun hrun', hholds'⟩

theorem TakesBehind.nothing : TakesBehind registry pending left [] rest left := by
  intro out held brackets previous hl
  exact ⟨[], held, previous, rfl, by simpa using hl⟩

/-- An operator of two operands lets go all that its left operand holds, and nothing below it. -/
theorem TakesBehind.more (ho : registry.operatorOf? .binary token.kind = some op)
    (hp : pending.takeWhile (State.yields op) = [])
    (h : Takes registry (.operator token op :: pending) tokens (behind ++ rest) right)
    (hs : Stops registry (some op) (behind ++ rest))
    (ht : TakesBehind registry pending (.node token [left, right]) behind rest tree) :
    TakesBehind registry pending left (token :: (tokens ++ behind)) rest tree := by
  intro out held brackets previous hl
  have hstep : State.step registry ⟨held ++ pending, noted brackets, previous⟩ token =
      .ok (held.map Pending.token, ⟨.operator token op :: pending, noted brackets, some token.kind⟩) := by
    rw [State.step_binary ho (hl.yields token rfl op ho) hp, noted_noted]
  obtain ⟨out₁, held₁, last₁, hrun₁, hholds₁⟩ := h (noted brackets) _ (notCalling_operator ho)
  have hleft : out ++ held.map Pending.token = [left].flatMap Tree.postorder := by simpa using hl.postorder
  have hnode := hholds₁.operator token hs hleft
  obtain ⟨out₂, held₂, last₂, hrun₂, hholds₂⟩ := ht _ _ brackets last₁ hnode
  refine ⟨held.map Pending.token ++ (out₁ ++ out₂), held₂, last₂, ?_, by simpa using hholds₂⟩
  exact State.run_cons hstep (State.run_append (by simpa using hrun₁) (by simpa using hrun₂))

theorem TakesArguments.none : TakesArguments registry pending opening 0 [] [] := State.Supplies.none

theorem TakesArguments.one (h : Takes registry (.bracket opening :: pending) tokens rest tree) :
    TakesArguments registry pending opening 1 tokens [tree] := by
  rw [TakesArguments, List.flatMap_singleton]
  exact State.Supplies.one h.delivers

theorem TakesArguments.separated {separator : Token} {count : Nat} (hs : separator.kind = .separator)
    (h : Takes registry (.bracket opening :: pending) tokens rest tree)
    (ht : TakesArguments registry pending opening (count + 1) behind trees) :
    TakesArguments registry pending opening (count + 2) (tokens ++ separator :: behind) (tree :: trees) :=
  State.Supplies.separated hs h.delivers ht

end

/-! ## What is read is taken in -/

mutual

/-- Behind a waiting operator the machine takes in an expression as the reader reads it. -/
theorem takes_readExpression {waiting : Option Operator} {tokens : List Token} {tree : Tree Token} {count : Nat}
    (h : readExpression registry waiting tokens = some (tree, count)) {pending : List Pending}
    (hg : Guarded waiting pending) : Takes registry pending (tokens.take count) (tokens.drop count) tree := by
  rw [readExpression] at h
  obtain ⟨⟨left, few⟩, hread, h⟩ := Option.bind_eq_some_iff.mp h
  obtain ⟨⟨whole, more⟩, htail, h⟩ := Option.bind_eq_some_iff.mp h
  cases h
  have hoperand := takes_readOperand hread pending
  have hbehind := takesBehind_readTail htail hg
  -- The tokens behind the operand are its rest, of which the tail takes in the first ones.
  rw [← List.take_append_drop more (tokens.drop few)] at hoperand
  rw [List.take_add, ← List.drop_drop]
  exact hoperand.expression hbehind
termination_by (tokens.length, 2)
decreasing_by
  · exact Prod.Lex.right _ (by omega)
  · exact Prod.Lex.right' _ (by simp) (by omega)

/-- The machine takes in the operators behind a left operand. -/
theorem takesBehind_readTail {waiting : Option Operator} {left : Tree Token} {tokens : List Token} {tree : Tree Token}
    {count : Nat} (h : readTail registry waiting left tokens = some (tree, count)) {pending : List Pending}
    (hg : Guarded waiting pending) :
    TakesBehind registry pending left (tokens.take count) (tokens.drop count) tree := by
  by_cases hs : Stops registry waiting tokens
  · rw [readTail_of_stops hs] at h
    cases h
    exact .nothing
  · obtain ⟨token, rest, op, rfl, ho, hw⟩ := exists_of_not_stops hs
    rw [readTail_cons ho hw] at h
    obtain ⟨⟨right, few⟩, hread, h⟩ := Option.bind_eq_some_iff.mp h
    obtain ⟨⟨whole, more⟩, htail, h⟩ := Option.bind_eq_some_iff.mp h
    cases h
    have hright := takes_readExpression hread (guarded_operator token op pending)
    -- Where the right operand ends, its operator goes first before the one that follows.
    have hstops := readExpression_stops hread
    rw [← List.take_append_drop more (rest.drop few)] at hright hstops
    rw [List.take_succ_cons, List.drop_succ_cons, List.take_add, ← List.drop_drop]
    exact .more ho (hg op hw) hright hstops (takesBehind_readTail htail hg)
termination_by (tokens.length, 0)

/-- The machine takes in an operand over any stack. -/
theorem takes_readOperand {tokens : List Token} {tree : Tree Token} {count : Nat}
    (h : readOperand registry tokens = some (tree, count)) (pending : List Pending) :
    Takes registry pending (tokens.take count) (tokens.drop count) tree := by
  cases tokens with
  | nil => rw [readOperand] at h; cases h
  | cons token rest =>
    rw [readOperand] at h
    cases hk : token.kind with
    | number _ | text _ _ | var _ =>
      simp only [hk] at h
      cases h
      exact .leaf (by rw [hk]; rfl)
    | operator symbol arity =>
      simp only [hk] at h
      obtain ⟨op, ho, h⟩ := Option.bind_eq_some_iff.mp h
      obtain ⟨⟨operand, few⟩, hread, h⟩ := Option.bind_eq_some_iff.mp h
      cases h
      rw [← hk] at ho
      rw [List.take_succ_cons, List.drop_succ_cons]
      exact .sign ho (takes_readExpression hread (guarded_operator token op pending)) (readExpression_stops hread)
    | openBracket =>
      simp only [hk] at h
      obtain ⟨⟨inner, few⟩, hread, h⟩ := Option.bind_eq_some_iff.mp h
      dsimp only at h
      split at h
      · rename_i hc
        obtain ⟨closing, behind, hdrop, hc⟩ := startsWith_eq_true hc
        cases h
        rw [List.take_succ_cons, List.take_add, hdrop]
        exact .brackets hk hc (takes_readExpression hread (guarded_bracket none token pending))
      · cases h
    | function name =>
      simp only [hk] at h
      obtain ⟨function, hf, h⟩ := Option.bind_eq_some_iff.mp h
      split at h
      · rename_i hs
        obtain ⟨opening, inner, rfl, ho⟩ := startsWith_eq_true hs
        obtain ⟨⟨children, few⟩, hread, h⟩ := Option.bind_eq_some_iff.mp h
        dsimp only at h
        split at h
        · rename_i hc
          obtain ⟨closing, behind, hdrop, hc⟩ := startsWith_eq_true hc
          cases h
          have harguments := takes_readArguments hread (.function token :: pending) opening
          rw [List.drop_one, List.tail_cons] at hdrop harguments
          rw [List.take_succ_cons, List.take_succ_cons, List.take_add, hdrop]
          exact .call hk hf ho hc harguments
        · cases h
      · cases h
    | closeBracket | separator | other _ =>
      simp only [hk] at h
      cases h
termination_by (tokens.length, 1)

/-- In the bracket of a call, the machine takes in the arguments as the reader reads them. -/
theorem takes_readArguments {arity : Nat} {tokens : List Token} {trees : List (Tree Token)} {count : Nat}
    (h : readArguments registry arity tokens = some (trees, count)) (pending : List Pending) (opening : Token) :
    TakesArguments registry pending opening arity (tokens.take count) trees := by
  match arity with
  | 0 =>
    rw [readArguments] at h
    cases h
    exact .none
  | 1 =>
    rw [readArguments] at h
    obtain ⟨⟨tree, few⟩, hread, h⟩ := Option.bind_eq_some_iff.mp h
    cases h
    exact .one (takes_readExpression hread (guarded_bracket none opening pending))
  | others + 2 =>
    rw [readArguments] at h
    obtain ⟨⟨tree, few⟩, hread, h⟩ := Option.bind_eq_some_iff.mp h
    dsimp only at h
    split at h
    · rename_i hs
      obtain ⟨separator, behind, hdrop, hs⟩ := startsWith_eq_true hs
      obtain ⟨⟨rest, more⟩, hmore, h⟩ := Option.bind_eq_some_iff.mp h
      cases h
      have hothers := takes_readArguments hmore pending opening
      rw [hdrop, List.drop_one, List.tail_cons] at hothers
      have hinside : tokens.take (few + 1 + more) = tokens.take few ++ separator :: behind.take more := by
        rw [Nat.add_assoc, Nat.add_comm 1, List.take_add, hdrop, List.take_succ_cons]
      rw [hinside]
      exact .separated hs (takes_readExpression hread (guarded_bracket none opening pending)) hothers
    · cases h
termination_by (tokens.length, arity + 3)
decreasing_by
  · exact Prod.Lex.right _ (by omega)
  · exact Prod.Lex.right' _ (by simp only [List.length_drop]; omega) (by omega)
  · exact Prod.Lex.right _ (by omega)

end

/-- What is taken in from the start on is rearranged. -/
theorem ofInfix_of_takes {tokens : List Token} {tree : Tree Token} (h : Takes registry [] tokens [] tree) :
    ofInfix registry tokens = .ok tree.postorder := by
  obtain ⟨out, held, last, hrun, hholds⟩ := h [] none notCalling_none
  have hfinish : State.finish ⟨held ++ [], noted [], last⟩ = .ok (held.map Pending.token) := by
    rw [List.append_nil, State.finish, if_neg]
    simpa using hholds.inner
  rw [ofInfix, State.start, hrun]
  simp only [bind, Except.bind, hfinish, ← hholds.postorder]
  rfl

theorem ofInfix_of_read {tokens : List Token} {tree : Tree Token} (h : read registry tokens = some tree) :
    ofInfix registry tokens = .ok tree.postorder := by
  obtain ⟨⟨whole, count⟩, hread, h⟩ := Option.bind_eq_some_iff.mp h
  dsimp only at h
  split at h
  · rename_i hc
    cases h
    have htakes := takes_readExpression hread (guarded_nil none)
    rw [hc, List.take_length, List.drop_length] at htakes
    exact ofInfix_of_takes htakes
  · cases h

/-- **The machine simulates precedence climbing**: over every registry, every expression has a tree, and the machine
gives its postorder. -/
theorem ofInfix_postorder (registry : Registry) (tokens : List Token) (h : Phrase registry .expression tokens) :
    ∃ tree, read registry tokens = some tree ∧ ofInfix registry tokens = .ok tree.postorder := by
  obtain ⟨tree, hread⟩ := exists_tree h
  exact ⟨tree, hread, ofInfix_of_read hread⟩

/-- A registry with a sign that binds more loosely than its operators between operands, which bind equally tight to
different sides. -/
def loose : Registry :=
  (((Registry.empty true).addOperator ⟨"!", .unary, 0, .right, .neg, rfl⟩).addOperator
    ⟨"*", .binary, 2, .left, .mul, rfl⟩).addOperator ⟨"^", .binary, 2, .right, .power, rfl⟩ |>.addFunction
    ⟨"max", 2, .max, rfl⟩

/-- The tokens of `2 * !max(3, 4) ^ 5`. -/
def looseTokens : List Token :=
  [.number 2, .operator "*" 2, .operator "!" 1, .function "max", .openBracket, .number 3, .separator, .number 4,
    .closeBracket, .operator "^" 2, .number 5].map fun kind => ⟨kind, none⟩

theorem ofInfix_postorder_loose :
    Phrase loose .expression looseTokens ∧
      ∃ tree, read loose looseTokens = some tree ∧ ofInfix loose looseTokens = .ok tree.postorder ∧
        tree.postorder.map Token.kind =
          [.number 2, .number 3, .number 4, .function "max", .number 5, .operator "^" 2, .operator "!" 1,
            .operator "*" 2] := by
  have hmax : loose.functions.find? "max" = some ⟨"max", 2, .max, rfl⟩ := rfl
  have htimes : loose.operatorOf? .binary (.operator "*" 2) = some ⟨"*", .binary, 2, .left, .mul, rfl⟩ := rfl
  have hpower : loose.operatorOf? .binary (.operator "^" 2) = some ⟨"^", .binary, 2, .right, .power, rfl⟩ := rfl
  have hsign : loose.operatorOf? .unary (.operator "!" 1) = some ⟨"!", .unary, 0, .right, .neg, rfl⟩ := rfl
  have number : ∀ x, Phrase loose .operand [⟨.number x, none⟩] := fun x => .leaf rfl
  have alone : ∀ x, Phrase loose .expression [⟨.number x, none⟩] := fun x => .expression (number x) .nothing
  have arguments : Phrase loose (.arguments 2) ((looseTokens.drop 5).take 3) :=
    .separated (alone 3) rfl (.argument (alone 4))
  have call : Phrase loose .operand ((looseTokens.drop 3).take 6) := .call rfl hmax rfl arguments rfl
  have power : Phrase loose .tail (looseTokens.drop 9) := .more hpower (alone 5)
  have phrase : Phrase loose .expression looseTokens :=
    .expression (number 2) (.more htimes (.expression (.sign hsign call) power))
  obtain ⟨tree, hread, hpost⟩ := ofInfix_postorder loose looseTokens phrase
  have order : (ofInfix loose looseTokens).map (List.map Token.kind) =
      .ok [.number 2, .number 3, .number 4, .function "max", .number 5, .operator "^" 2, .operator "!" 1,
        .operator "*" 2] := rfl
  rw [hpost] at order
  exact ⟨phrase, tree, hread, hpost, Except.ok.inj order⟩

end Formula.Postfix
