import Formula.Proofs.Climbing

/-!
# Spans

A span is a stretch of tokens that the climbing reader takes in as one tree (`Climbing.Spans`), wherever nothing waits
that keeps it from the outermost operator of the span, and no operator follows that would take the last operand away.
Signs, brackets and calls make spans without an outermost operator, which may stand anywhere (`ReadsOperand.spans`), and
an operator makes a span of two spans that need no brackets beside it (`Spans.binary`).
-/

namespace Formula

/-- Beside an operator, an operand on the given side with this outermost operator needs brackets: it binds more loosely,
or as tight and the operator takes the operand on the other side first. -/
def Operator.NeedsBrackets (op : Operator) (side : Associativity) (inner : Operator) : Prop :=
  inner.precedence < op.precedence ∨ inner.precedence = op.precedence ∧ op.associativity ≠ side

instance (op : Operator) (side : Associativity) (inner : Operator) : Decidable (op.NeedsBrackets side inner) :=
  inferInstanceAs (Decidable (_ ∨ _))

namespace Climbing

variable {registry : Registry}

/-- Any tokens may follow what is read as an operand. -/
def ReadsOperand (registry : Registry) (tokens : List Token) (tree : Tree Token) : Prop :=
  ∀ rest, readOperand registry (tokens ++ rest) = some (tree, tokens.length)

/-- The tokens are read as the tree, and reading goes on behind them. -/
def Spans (registry : Registry) (outermost : Option Operator) (tokens : List Token) (tree : Tree Token) : Prop :=
  ∀ waiting rest, (∀ op ∈ outermost, goesFirst waiting op = false ∧ Stops registry (some op) rest) →
    readExpression registry waiting (tokens ++ rest) =
      (readTail registry waiting tree rest).map fun (whole, more) => (whole, tokens.length + more)

/-- The tokens are read as so many arguments. -/
def ReadsArguments (registry : Registry) (tokens : List Token) (trees : List (Tree Token)) : Prop :=
  ∀ rest, Stops registry none rest →
    readArguments registry trees.length (tokens ++ rest) = some (trees, tokens.length)

theorem ReadsOperand.spans {tokens : List Token} {tree : Tree Token} (h : ReadsOperand registry tokens tree) :
    Spans registry none tokens tree := by
  intro waiting rest _
  rw [readExpression, h rest]
  simp only [Option.bind_eq_bind, Option.bind_some, List.drop_left]
  cases readTail registry waiting tree rest <;> rfl

section

variable {outermost : Option Operator} {tokens : List Token} {tree : Tree Token}

/-- Where nothing waits and no operator follows, a span is read as a whole. -/
theorem Spans.readExpression_eq (h : Spans registry outermost tokens tree) {rest : List Token}
    (hr : Stops registry none rest) : readExpression registry none (tokens ++ rest) = some (tree, tokens.length) := by
  rw [h none rest fun op _ => ⟨rfl, hr.of_none (some op)⟩, readTail_of_stops hr]
  rfl

theorem Spans.read_eq (h : Spans registry outermost tokens tree) : read registry tokens = some tree := by
  have hread := h.readExpression_eq (stops_nil none)
  rw [List.append_nil] at hread
  rw [read, hread]
  simp only [Option.bind_eq_bind, Option.bind_some, if_true]
  rfl

theorem readsOperand_leaf {token : Token} (h : token.kind.isLeaf = true) :
    ReadsOperand registry [token] (.node token []) := by
  intro rest
  rw [List.singleton_append, readOperand]
  cases hk : token.kind <;> simp_all [Token.Kind.isLeaf]

theorem Spans.brackets {opening closing : Token} (ho : opening.kind = .openBracket) (hc : closing.kind = .closeBracket)
    (h : Spans registry outermost tokens tree) : ReadsOperand registry (opening :: (tokens ++ [closing])) tree := by
  intro rest
  have hread := h.readExpression_eq (stops_cons (operatorOf?_of_kind (.inl hc)) : Stops registry none (closing :: rest))
  simpa using readOperand_brackets ho hc hread

/-- A sign that goes first before every operator takes the whole span. -/
theorem Spans.sign {token : Token} {op : Operator} (ho : registry.operatorOf? .unary token.kind = some op)
    (hs : ∀ rest, Stops registry (some op) rest) (h : Spans registry none tokens tree) :
    ReadsOperand registry (token :: tokens) (.node token [tree]) := by
  intro rest
  have hread := h (some op) rest fun other hm => absurd hm (Option.not_mem_none other)
  rw [readTail_of_stops (hs rest)] at hread
  rw [List.cons_append, readOperand_sign ho, hread]
  rfl

theorem ReadsArguments.call {token opening closing : Token} {function : Function} {trees : List (Tree Token)}
    {name : String} (hk : token.kind = .function name) (hf : registry.functions.find? name = some function)
    (ho : opening.kind = .openBracket) (hc : closing.kind = .closeBracket) (ha : trees.length = function.arity)
    (h : ReadsArguments registry tokens trees) :
    ReadsOperand registry (token :: opening :: (tokens ++ [closing])) (.node token trees) := by
  intro rest
  have hread := h (closing :: rest) (stops_cons (operatorOf?_of_kind (.inl hc)))
  rw [ha] at hread
  simpa using readOperand_call hk hf ho hc hread

theorem Spans.argument (h : Spans registry outermost tokens tree) : ReadsArguments registry tokens [tree] := by
  intro rest hr
  rw [List.length_singleton, readArguments, h.readExpression_eq hr]
  rfl

theorem Spans.separated {separator : Token} {behind : List Token} {trees : List (Tree Token)}
    (h : Spans registry outermost tokens tree) (hs : separator.kind = .separator) (hne : trees ≠ [])
    (ht : ReadsArguments registry behind trees) :
    ReadsArguments registry (tokens ++ separator :: behind) (tree :: trees) := by
  intro rest hr
  obtain ⟨next, others, rfl⟩ := List.exists_cons_of_ne_nil hne
  have hread := h.readExpression_eq
    (stops_cons (operatorOf?_of_kind (.inr hs)) : Stops registry none (separator :: (behind ++ rest)))
  rw [List.append_assoc, List.cons_append]
  rw [List.length_cons, List.length_cons, readArguments_separated hs hread (ht rest hr)]
  simp only [List.length_append, List.length_cons, Nat.add_assoc, Nat.add_comm 1]

end

/-! ## Operators between spans -/

section

variable {waiting : Option Operator} {op inner next : Operator}

theorem goesFirst_some {top op : Operator} :
    goesFirst (some top) op = true ↔
      op.precedence < top.precedence ∨ top.precedence = op.precedence ∧ op.associativity = .left := by
  simp [goesFirst]

/-- The left operand ends before the operator. -/
theorem goesFirst_left (h : ¬ op.NeedsBrackets .left inner) : goesFirst (some inner) op = true := by
  simp only [Operator.NeedsBrackets, not_or, not_and, ne_eq, Classical.not_not] at h
  rw [goesFirst_some]
  rcases Int.lt_or_eq_of_le (Int.not_lt.1 h.1) with hp | hp
  · exact .inl hp
  · exact .inr ⟨hp.symm, h.2 hp.symm⟩

/-- What lets the operator through lets the operators of its left operand through. -/
theorem not_goesFirst_left (h : ¬ op.NeedsBrackets .left inner) (hw : goesFirst waiting op = false) :
    goesFirst waiting inner = false := by
  cases waiting with
  | none => rfl
  | some top =>
    have hfirst := goesFirst_some.1 (goesFirst_left h)
    rw [Bool.eq_false_iff, Ne, goesFirst_some] at hw ⊢
    intro hi
    apply hw
    rcases hfirst with hp | ⟨hp, hl⟩
    · rcases hi with hi | ⟨hi, -⟩
      · exact .inl (by omega)
      · exact .inl (by omega)
    · rcases hi with hi | ⟨hi, -⟩
      · exact .inl (by omega)
      · exact .inr ⟨by omega, hl⟩

/-- The operator lets the operators of its right operand through. -/
theorem not_goesFirst_right (h : ¬ op.NeedsBrackets .right inner)
    (ha : inner.precedence = op.precedence → (inner.associativity = .left ↔ op.associativity = .left)) :
    goesFirst (some op) inner = false := by
  simp only [Operator.NeedsBrackets, not_or, not_and, ne_eq, Classical.not_not] at h
  rw [Bool.eq_false_iff, Ne, goesFirst_some]
  rintro (hp | ⟨hp, hl⟩)
  · exact h.1 hp
  · rw [ha hp.symm, h.2 hp.symm] at hl
    cases hl

/-- What follows the operator follows the operators of its right operand. -/
theorem goesFirst_right (h : ¬ op.NeedsBrackets .right inner) (hn : goesFirst (some op) next = true) :
    goesFirst (some inner) next = true := by
  simp only [Operator.NeedsBrackets, not_or] at h
  have hle := Int.not_lt.1 h.1
  rw [goesFirst_some] at hn ⊢
  rcases hn with hn | ⟨hn, hl⟩
  · exact .inl (by omega)
  · rcases Int.lt_or_eq_of_le hle with hp | hp
    · exact .inl (by omega)
    · exact .inr ⟨by omega, hl⟩

end

/-- **An operator between two spans** that need no brackets makes a span. -/
theorem Spans.binary {token : Token} {op : Operator} {l r : Option Operator} {before behind : List Token}
    {left right : Tree Token} (ho : registry.operatorOf? .binary token.kind = some op)
    (hl : ∀ inner ∈ l, ¬ op.NeedsBrackets .left inner) (hr : ∀ inner ∈ r, ¬ op.NeedsBrackets .right inner)
    (ha : ∀ inner ∈ r, inner.precedence = op.precedence → (inner.associativity = .left ↔ op.associativity = .left))
    (first : Spans registry l before left) (second : Spans registry r behind right) :
    Spans registry (some op) (before ++ token :: behind) (.node token [left, right]) := by
  intro waiting rest h
  obtain ⟨hw, hstop⟩ := h op rfl
  -- Reading the left operand stops at the operator, and the right operand is read behind it as the waiting one.
  have hfirst := first waiting (token :: behind ++ rest) fun inner hi => by
    refine ⟨not_goesFirst_left (hl inner hi) hw, fun next hn op' ho' => ?_⟩
    obtain rfl : token = next := by simpa using hn
    rw [ho] at ho'
    obtain rfl := Option.some.inj ho'
    exact goesFirst_left (hl inner hi)
  have hsecond := second (some op) rest fun inner hi =>
    ⟨not_goesFirst_right (hr inner hi) (ha inner hi),
      fun next hn op' ho' => goesFirst_right (hr inner hi) (hstop next hn op' ho')⟩
  rw [readTail_of_stops hstop] at hsecond
  rw [List.append_assoc, hfirst, List.cons_append, readTail_cons ho hw, hsecond]
  simp only [Option.map_some, Option.bind_eq_bind, Option.bind_some, Nat.add_zero, List.drop_left]
  cases readTail registry waiting (.node token [left, right]) rest with
  | none => rfl
  | some result =>
    have hlength : behind.length + result.2 + 1 + before.length = (before ++ token :: behind).length + result.2 := by
      rw [List.length_append, List.length_cons]
      omega
    rw [Option.map_some, ← hlength, Nat.add_comm _ before.length]
    rfl

end Climbing

end Formula
