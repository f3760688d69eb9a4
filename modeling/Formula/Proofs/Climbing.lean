import Formula.Proofs.Grammar
import Formula.Proofs.Tree

/-!
# Reading trees by precedence climbing

A recursive reader of infix lists. It knows the operator that waits for a right operand, if there is one
(`Climbing.readExpression`): behind an operand it goes on with the next operator of two operands unless the waiting one
goes first, and reads the right operand of that operator in the same way. Inside brackets and in the arguments of calls
no operator waits. Every reader gives the number of tokens that it has read beside the tree.

The reader reads every expression of the grammar to its end (`Climbing.exists_tree`). Reading behind a waiting operator
may stop early, but only before a tail whose operator has to wait (`Climbing.readExpression_phrase`).
-/

namespace Formula.Climbing

/-- The waiting operator takes the operand before an operator of two operands: it binds tighter, or as tight and the
operator is left-associative. -/
def goesFirst (waiting : Option Operator) (op : Operator) : Bool :=
  waiting.any fun top =>
    decide (op.precedence < top.precedence ∨ top.precedence = op.precedence ∧ op.associativity = .left)

/-- The first token is of the given kind. -/
def startsWith (kind : Token.Kind) (tokens : List Token) : Bool := tokens.head?.any fun token => token.kind = kind

theorem startsWith_eq_true {kind : Token.Kind} {tokens : List Token} (h : startsWith kind tokens = true) :
    ∃ token rest, tokens = token :: rest ∧ token.kind = kind := by
  cases tokens with
  | nil => cases h
  | cons token rest => exact ⟨token, rest, rfl, by simpa [startsWith] using h⟩

mutual

/-- Reads an operand and, as long as the waiting operator does not go first, the operators behind it. -/
def readExpression (registry : Registry) (waiting : Option Operator) (tokens : List Token) :
    Option (Tree Token × Nat) := do
  let (left, count) ← readOperand registry tokens
  let (tree, more) ← readTail registry waiting left (tokens.drop count)
  return (tree, count + more)
termination_by (tokens.length, 2)
decreasing_by
  · exact Prod.Lex.right _ (by omega)
  · exact Prod.Lex.right' _ (by simp) (by omega)

/-- Reads the operators behind the left operand, each with its right operand. -/
def readTail (registry : Registry) (waiting : Option Operator) (left : Tree Token) :
    List Token → Option (Tree Token × Nat)
  | [] => some (left, 0)
  | token :: rest =>
    match registry.operatorOf? .binary token.kind with
    | none => some (left, 0)
    | some op =>
      if goesFirst waiting op then some (left, 0)
      else do
        let (right, count) ← readExpression registry (some op) rest
        let (tree, more) ← readTail registry waiting (.node token [left, right]) (rest.drop count)
        return (tree, count + more + 1)
termination_by tokens => (tokens.length, 0)

/-- Reads a number, a string, a variable, an expression in brackets or a call, or an operator of one operand and what
it is applied to. -/
def readOperand (registry : Registry) : List Token → Option (Tree Token × Nat)
  | [] => none
  | token :: rest =>
    match token.kind with
    | .number _ | .text _ _ | .var _ => some (.node token [], 1)
    | .operator _ _ => do
      let op ← registry.operatorOf? .unary token.kind
      let (operand, count) ← readExpression registry (some op) rest
      return (.node token [operand], count + 1)
    | .openBracket => do
      let (tree, count) ← readExpression registry none rest
      if startsWith .closeBracket (rest.drop count) then return (tree, count + 2) else none
    | .function name => do
      let function ← registry.functions.find? name
      if startsWith .openBracket rest then
        let (children, count) ← readArguments registry function.arity (rest.drop 1)
        if startsWith .closeBracket ((rest.drop 1).drop count) then return (.node token children, count + 3) else none
      else none
    | .closeBracket | .separator | .other _ _ _ => none
termination_by tokens => (tokens.length, 1)

/-- Reads so many expressions with separators between them. -/
def readArguments (registry : Registry) (count : Nat) (tokens : List Token) : Option (List (Tree Token) × Nat) :=
  match count with
  | 0 => some ([], 0)
  | 1 => do
    let (tree, count) ← readExpression registry none tokens
    return ([tree], count)
  | others + 2 => do
    let (tree, count) ← readExpression registry none tokens
    if startsWith .separator (tokens.drop count) then
      let (trees, more) ← readArguments registry (others + 1) ((tokens.drop count).drop 1)
      return (tree :: trees, count + 1 + more)
    else none
termination_by (tokens.length, count + 3)
decreasing_by
  · exact Prod.Lex.right _ (by omega)
  · exact Prod.Lex.right _ (by omega)
  · exact Prod.Lex.right' _ (by simp only [List.length_drop]; omega) (by omega)

end

/-- The tree of a list that is one expression from its start to its end. -/
def read (registry : Registry) (tokens : List Token) : Option (Tree Token) := do
  let (tree, count) ← readExpression registry none tokens
  if count = tokens.length then return tree else none

/-! ## Every expression is read to its end -/

variable {registry : Registry}

/-- No operator of two operands follows, or one before which the waiting one goes first. -/
def Stops (registry : Registry) (waiting : Option Operator) (tokens : List Token) : Prop :=
  ∀ token ∈ tokens.head?, ∀ op, registry.operatorOf? .binary token.kind = some op → goesFirst waiting op = true

theorem Stops.of_none {tokens : List Token} (h : Stops registry none tokens) (waiting : Option Operator) :
    Stops registry waiting tokens := by
  intro token ht op ho
  exact absurd (h token ht op ho) (by simp [goesFirst])

theorem stops_nil (waiting : Option Operator) : Stops registry waiting [] := by
  intro token ht
  simp at ht

theorem stops_cons {waiting : Option Operator} {token : Token} {tokens : List Token}
    (h : registry.operatorOf? .binary token.kind = none) : Stops registry waiting (token :: tokens) := by
  intro first hf op ho
  obtain rfl : token = first := by simpa using hf
  rw [h] at ho
  cases ho

theorem exists_of_not_stops {waiting : Option Operator} {tokens : List Token} (h : ¬ Stops registry waiting tokens) :
    ∃ token rest op, tokens = token :: rest ∧ registry.operatorOf? .binary token.kind = some op ∧
      goesFirst waiting op = false := by
  cases tokens with
  | nil => exact absurd (stops_nil waiting) h
  | cons token rest =>
    simp only [Stops, List.head?_cons, Option.mem_some_iff, forall_eq'] at h
    obtain ⟨op, h⟩ := Classical.not_forall.mp h
    obtain ⟨ho, hw⟩ := Classical.not_imp.mp h
    exact ⟨token, rest, op, rfl, ho, by simpa using hw⟩

theorem operatorOf?_of_kind {fixity : Fixity} {token : Token}
    (h : token.kind = .closeBracket ∨ token.kind = .separator) : registry.operatorOf? fixity token.kind = none := by
  rcases h with h | h <;> rw [h] <;> rfl

/-- A tail before which nothing waits is empty. -/
theorem eq_nil_of_stops {tokens rest : List Token} (h : Phrase registry .tail tokens)
    (hs : Stops registry none (tokens ++ rest)) : tokens = [] := by
  cases h with
  | nothing => rfl
  | more ho _ => exact absurd (hs _ (by simp) _ ho) (by simp [goesFirst])

theorem readTail_of_stops {waiting : Option Operator} {left : Tree Token} {tokens : List Token}
    (h : Stops registry waiting tokens) : readTail registry waiting left tokens = some (left, 0) := by
  cases tokens with
  | nil => rw [readTail]
  | cons token rest =>
    rw [readTail]
    cases ho : registry.operatorOf? .binary token.kind with
    | none => rfl
    | some op => simp only [h token (by simp) op ho, if_true]

theorem readTail_cons {waiting : Option Operator} {left : Tree Token} {token : Token} {tokens : List Token}
    {op : Operator} (h : registry.operatorOf? .binary token.kind = some op) (hw : goesFirst waiting op = false) :
    readTail registry waiting left (token :: tokens) = do
      let (right, count) ← readExpression registry (some op) tokens
      let (tree, more) ← readTail registry waiting (.node token [left, right]) (tokens.drop count)
      return (tree, count + more + 1) := by
  rw [readTail]
  simp only [h, hw, Bool.false_eq_true, if_false]

/-- The reader goes on until it has to stop. -/
theorem readTail_stops {waiting : Option Operator} {left : Tree Token} {tokens : List Token} {tree : Tree Token}
    {count : Nat} (h : readTail registry waiting left tokens = some (tree, count)) :
    Stops registry waiting (tokens.drop count) := by
  by_cases hs : Stops registry waiting tokens
  · rw [readTail_of_stops hs] at h
    cases h
    exact hs
  · obtain ⟨token, rest, op, rfl, ho, hw⟩ := exists_of_not_stops hs
    rw [readTail_cons ho hw] at h
    obtain ⟨⟨right, few⟩, -, h⟩ := Option.bind_eq_some_iff.mp h
    obtain ⟨⟨whole, more⟩, htail, h⟩ := Option.bind_eq_some_iff.mp h
    cases h
    rw [List.drop_succ_cons, ← List.drop_drop]
    exact readTail_stops htail
termination_by tokens.length

theorem readExpression_stops {waiting : Option Operator} {tokens : List Token} {tree : Tree Token} {count : Nat}
    (h : readExpression registry waiting tokens = some (tree, count)) :
    Stops registry waiting (tokens.drop count) := by
  rw [readExpression] at h
  obtain ⟨⟨left, few⟩, -, h⟩ := Option.bind_eq_some_iff.mp h
  obtain ⟨⟨whole, more⟩, htail, h⟩ := Option.bind_eq_some_iff.mp h
  cases h
  rw [← List.drop_drop]
  exact readTail_stops htail

theorem readOperand_sign {token : Token} {tokens : List Token} {op : Operator}
    (h : registry.operatorOf? .unary token.kind = some op) :
    readOperand registry (token :: tokens) = do
      let (operand, count) ← readExpression registry (some op) tokens
      return (.node token [operand], count + 1) := by
  rw [readOperand]
  cases hk : token.kind with
  | operator symbol arity => rw [hk] at h; simp only [h]; rfl
  | _ => rw [hk] at h; cases h

theorem readOperand_brackets {opening closing : Token} {tokens rest : List Token} {tree : Tree Token}
    (ho : opening.kind = .openBracket) (hc : closing.kind = .closeBracket)
    (h : readExpression registry none (tokens ++ closing :: rest) = some (tree, tokens.length)) :
    readOperand registry (opening :: (tokens ++ closing :: rest)) = some (tree, tokens.length + 2) := by
  rw [readOperand]
  simp only [ho, h, Option.bind_eq_bind, Option.bind_some, List.drop_left, startsWith, List.head?_cons,
    Option.any_some, hc, decide_true, if_true]
  rfl

theorem readOperand_call {token opening closing : Token} {name : String} {function : Function}
    {tokens rest : List Token} {trees : List (Tree Token)} (hk : token.kind = .function name)
    (hf : registry.functions.find? name = some function) (ho : opening.kind = .openBracket)
    (hc : closing.kind = .closeBracket)
    (h : readArguments registry function.arity (tokens ++ closing :: rest) = some (trees, tokens.length)) :
    readOperand registry (token :: opening :: (tokens ++ closing :: rest)) =
      some (.node token trees, tokens.length + 3) := by
  rw [readOperand]
  simp only [hk, hf, Option.bind_eq_bind, Option.bind_some, startsWith, List.head?_cons, Option.any_some, ho,
    decide_true, if_true, List.drop_one, List.tail_cons, h, List.drop_left, hc]
  rfl

theorem readArguments_separated {count : Nat} {separator : Token} {tokens rest : List Token} {tree : Tree Token}
    {trees : List (Tree Token)} {more : Nat} (hs : separator.kind = .separator)
    (h : readExpression registry none (tokens ++ separator :: rest) = some (tree, tokens.length))
    (ht : readArguments registry (count + 1) rest = some (trees, more)) :
    readArguments registry (count + 2) (tokens ++ separator :: rest) =
      some (tree :: trees, tokens.length + 1 + more) := by
  rw [readArguments]
  simp only [h, Option.bind_eq_bind, Option.bind_some, List.drop_left, startsWith, List.head?_cons, Option.any_some, hs,
    decide_true, if_true, List.drop_one, List.tail_cons, ht]
  rfl

mutual

/-- An expression is read up to a tail before which the waiting operator goes first. -/
theorem readExpression_phrase {tokens : List Token} (h : Phrase registry .expression tokens)
    (waiting : Option Operator) {rest : List Token} (hr : Stops registry none rest) :
    ∃ tree front behind, tokens = front ++ behind ∧ Phrase registry .tail behind ∧
      Stops registry waiting (behind ++ rest) ∧
      readExpression registry waiting (tokens ++ rest) = some (tree, front.length) := by
  cases h with
  | @expression first others operand tail =>
    obtain ⟨left, front, behind, he, hb, hread⟩ := readOperand_phrase operand tail hr
    obtain ⟨tree, middle, last, rfl, hl, hs, hmore⟩ := readTail_phrase hb waiting left hr
    refine ⟨tree, front ++ middle, last, by simpa using he, hl, hs, ?_⟩
    have hdrop : (first ++ others ++ rest).drop front.length = middle ++ last ++ rest := by simp [he]
    rw [readExpression, hread]
    simp only [Option.bind_eq_bind, Option.bind_some, hdrop, hmore, List.length_append]
    rfl
termination_by (tokens.length, 2)
decreasing_by
  · subst_vars
    exact Prod.Lex.right _ (by omega)
  · have hlength := congrArg List.length he
    subst_vars
    exact Prod.Lex.right' _ (by simp only [List.length_append] at *; omega) (by omega)

/-- A tail is read up to a tail before which the waiting operator goes first. -/
theorem readTail_phrase {tokens : List Token} (h : Phrase registry .tail tokens) (waiting : Option Operator)
    (left : Tree Token) {rest : List Token} (hr : Stops registry none rest) :
    ∃ tree front behind, tokens = front ++ behind ∧ Phrase registry .tail behind ∧
      Stops registry waiting (behind ++ rest) ∧
      readTail registry waiting left (tokens ++ rest) = some (tree, front.length) := by
  cases h with
  | nothing => exact ⟨left, [], [], rfl, .nothing, hr.of_none waiting, readTail_of_stops (hr.of_none waiting)⟩
  | @more token op others ho expression =>
    cases hw : goesFirst waiting op with
    | true =>
      have hs : Stops registry waiting (token :: others ++ rest) := by
        intro first hf op' ho'
        obtain rfl : token = first := by simpa using hf
        rw [ho] at ho'
        obtain rfl := Option.some.inj ho'
        exact hw
      exact ⟨left, [], token :: others, rfl, .more ho expression, hs, readTail_of_stops hs⟩
    | false =>
      obtain ⟨right, front, behind, rfl, hb, -, hread⟩ := readExpression_phrase expression (some op) hr
      obtain ⟨tree, middle, last, rfl, hl, hs, hmore⟩ := readTail_phrase hb waiting (.node token [left, right]) hr
      refine ⟨tree, token :: (front ++ middle), last, by simp, hl, hs, ?_⟩
      have hdrop : (front ++ (middle ++ last) ++ rest).drop front.length = middle ++ last ++ rest := by simp
      rw [List.cons_append, readTail_cons ho hw, hread]
      simp only [Option.bind_eq_bind, Option.bind_some, hdrop, hmore, List.length_append, List.length_cons]
      rfl
termination_by (tokens.length, 0)

/-- An operand is read together with what belongs to it in the tail behind it. -/
theorem readOperand_phrase {tokens others : List Token} (h : Phrase registry .operand tokens)
    (ht : Phrase registry .tail others) {rest : List Token} (hr : Stops registry none rest) :
    ∃ tree front behind, tokens ++ others = front ++ behind ∧ Phrase registry .tail behind ∧
      readOperand registry (tokens ++ others ++ rest) = some (tree, front.length) := by
  cases h with
  | @leaf token hk =>
    refine ⟨.node token [], [token], others, rfl, ht, ?_⟩
    rw [List.singleton_append, List.cons_append, readOperand]
    cases hkind : token.kind <;> simp_all [Token.Kind.isLeaf]
  | @sign token op inner ho operand =>
    -- The operand of the sign and the tail are an expression, of which a loose sign takes more than the operand.
    obtain ⟨tree, front, behind, he, hb, -, hread⟩ := readExpression_phrase (.expression operand ht) (some op) hr
    refine ⟨.node token [tree], token :: front, behind, by simp [he], hb, ?_⟩
    rw [List.cons_append, List.cons_append, readOperand_sign ho, hread]
    rfl
  | @brackets opening closing inner hopen expression hclose =>
    have hs : Stops registry none (closing :: (others ++ rest)) := stops_cons (operatorOf?_of_kind (.inl hclose))
    obtain ⟨tree, front, behind, rfl, hb, hstop, hread⟩ := readExpression_phrase expression none hs
    obtain rfl := eq_nil_of_stops hb hstop
    rw [List.append_nil] at hread
    refine ⟨tree, opening :: (front ++ [closing]), others, by simp, ht, ?_⟩
    simpa using readOperand_brackets hopen hclose hread
  | @call token opening closing name function inner hk hf hopen arguments hclose =>
    have hs : Stops registry none (closing :: (others ++ rest)) := stops_cons (operatorOf?_of_kind (.inl hclose))
    obtain ⟨trees, hread⟩ := readArguments_phrase arguments hs
    refine ⟨.node token trees, token :: opening :: (inner ++ [closing]), others, by simp, ht, ?_⟩
    simpa using readOperand_call hk hf hopen hclose hread
termination_by ((tokens ++ others).length, 1)

/-- Arguments are read to their end. -/
theorem readArguments_phrase {count : Nat} {tokens : List Token} (h : Phrase registry (.arguments count) tokens)
    {rest : List Token} (hr : Stops registry none rest) :
    ∃ trees, readArguments registry count (tokens ++ rest) = some (trees, tokens.length) := by
  cases h with
  | noArgument => exact ⟨[], by rw [readArguments]; rfl⟩
  | argument expression =>
    obtain ⟨tree, front, behind, rfl, hb, hstop, hread⟩ := readExpression_phrase expression none hr
    obtain rfl := eq_nil_of_stops hb hstop
    rw [List.append_nil] at hread ⊢
    exact ⟨[tree], by rw [readArguments, hread]; rfl⟩
  | @separated others separator first behind expression hsep arguments =>
    have hs : Stops registry none (separator :: (behind ++ rest)) := stops_cons (operatorOf?_of_kind (.inr hsep))
    obtain ⟨trees, hmore⟩ := readArguments_phrase arguments hr
    obtain ⟨tree, front, last, rfl, hb, hstop, hread⟩ := readExpression_phrase expression none hs
    obtain rfl := eq_nil_of_stops hb hstop
    rw [List.append_nil] at hread ⊢
    refine ⟨tree :: trees, ?_⟩
    rw [List.append_assoc, List.cons_append, readArguments_separated hsep hread hmore]
    simp only [List.length_append, List.length_cons, Nat.add_assoc, Nat.add_comm 1]
termination_by (tokens.length, count + 3)

end

/-- Every expression has a tree. -/
theorem exists_tree {tokens : List Token} (h : Phrase registry .expression tokens) :
    ∃ tree, read registry tokens = some tree := by
  obtain ⟨tree, front, behind, rfl, hb, hs, hread⟩ := readExpression_phrase h none (stops_nil none)
  obtain rfl := eq_nil_of_stops hb hs
  rw [List.append_nil, List.append_nil] at hread
  refine ⟨tree, ?_⟩
  rw [List.append_nil, read, hread]
  simp only [Option.bind_eq_bind, Option.bind_some, if_true]
  rfl

end Formula.Climbing
