import Formula.Proofs.Lexemes
import Formula.Proofs.Spans

/-!
# Written forms

A tree of numerals, variables, standard operators and calls of standard functions may be written in many ways
(`Writes`): there may be brackets around every part of it and blanks between any two tokens, only not behind the name of
a function. Brackets may be left out except around an operator of two operands that stands behind a sign, or beside
another operator where it needs them (`Operator.NeedsBrackets`).

Every text that writes a tree is read as tokens that the climbing reader takes in as that tree (`Writes.isRead`), if
the precedences of the standard operators ascend as they must.
-/

namespace Formula

open Text

/-! ## Texts that write trees -/

/-- What a text writes. -/
inductive Written where
  /-- An expression, and its outermost operator if that is one of two operands outside all brackets. -/
  | expression (outermost : Option Operator) (tree : Tree Token.Kind)
  /-- The arguments of a call. -/
  | arguments (trees : List (Tree Token.Kind))

/-- The text writes the tree or the arguments. -/
inductive Writes (settings : Settings) : Written → List Char → Prop
  | numeral (form : Numeral.Form) :
      Writes settings (.expression none (.node (.number form.value) [])) form.text
  | var {name : String} (h : isWord name.toList = true) :
      Writes settings (.expression none (.node (.var name) [])) name.toList
  | sign {op : Operator} {tree : Tree Token.Kind} {text : List Char} (ho : op ∈ settings.operators)
      (hf : op.fixity = .unary) (operand : Writes settings (.expression none tree) text) :
      Writes settings (.expression none (.node (.operator op.symbol 1) [tree])) (op.symbol.toList ++ text)
  | binary {op : Operator} {l r : Option Operator} {left right : Tree Token.Kind} {first second : List Char}
      (ho : op ∈ settings.operators) (hf : op.fixity = .binary)
      (hl : ∀ inner ∈ l, ¬ op.NeedsBrackets .left inner) (hr : ∀ inner ∈ r, ¬ op.NeedsBrackets .right inner)
      (before : Writes settings (.expression l left) first) (behind : Writes settings (.expression r right) second) :
      Writes settings (.expression (some op) (.node (.operator op.symbol 2) [left, right]))
        (first ++ (op.symbol.toList ++ second))
  | call {function : Function} {trees : List (Tree Token.Kind)} {text : List Char} (hf : function ∈ standardFunctions)
      (ha : trees.length = function.arity) (arguments : Writes settings (.arguments trees) text) :
      Writes settings (.expression none (.node (.function function.name) trees))
        (function.name.toList ++ '(' :: (text ++ [')']))
  | brackets {outermost : Option Operator} {tree : Tree Token.Kind} {text : List Char}
      (h : Writes settings (.expression outermost tree) text) :
      Writes settings (.expression none tree) ('(' :: (text ++ [')']))
  | spaced {outermost : Option Operator} {tree : Tree Token.Kind} {text before behind : List Char}
      (h : Writes settings (.expression outermost tree) text) (hb : before.all isBlank = true)
      (hb' : behind.all isBlank = true) : Writes settings (.expression outermost tree) (before ++ (text ++ behind))
  | argument {outermost : Option Operator} {tree : Tree Token.Kind} {text : List Char}
      (h : Writes settings (.expression outermost tree) text) : Writes settings (.arguments [tree]) text
  | separated {outermost : Option Operator} {tree : Tree Token.Kind} {trees : List (Tree Token.Kind)}
      {text others : List Char} (h : Writes settings (.expression outermost tree) text)
      (arguments : Writes settings (.arguments trees) others) :
      Writes settings (.arguments (tree :: trees)) (text ++ ',' :: others)

namespace Writes

variable {settings : Settings}

/-- An operator of two operands outside all brackets is a standard one. -/
theorem outermost_mem {outermost : Option Operator} {tree : Tree Token.Kind} {text : List Char}
    (h : Writes settings (.expression outermost tree) text) :
    ∀ op ∈ outermost, op ∈ settings.operators ∧ op.fixity = .binary := by
  generalize hw : Written.expression outermost tree = written at h
  induction h generalizing outermost tree with
  | binary ho hf =>
    cases hw
    intro op hm
    obtain rfl := Option.some.inj hm
    exact ⟨ho, hf⟩
  | spaced _ _ _ ih =>
    cases hw
    exact ih rfl
  | numeral | var | sign | call | brackets | argument | separated =>
    cases hw
    all_goals exact fun op hm => absurd hm (Option.not_mem_none op)

theorem trees_ne {trees : List (Tree Token.Kind)} {text : List Char} (h : Writes settings (.arguments trees) text) :
    trees ≠ [] := by
  cases h <;> exact List.cons_ne_nil _ _

end Writes

/-! ## The standard registry and the climbing reader -/

section Standard

variable {settings : Settings} {raises : Bool} {op : Operator}

theorem operatorOf?_standard (raises : Bool) (h : op ∈ settings.operators) :
    (Registry.standard settings raises).operatorOf? op.fixity (.operator op.symbol op.fixity.arity) = some op := by
  refine Registry.operatorOf?_eq_some.2 ⟨op.symbol, op.fixity.arity, rfl, ?_, ?_⟩
  · cases op.fixity <;> rfl
  · exact Registry.resolveOperator_eq_ok.2 (Registry.find?_standardOperators h raises)

theorem mem_of_operatorOf?_standard {fixity : Fixity} {kind : Token.Kind}
    (h : (Registry.standard settings raises).operatorOf? fixity kind = some op) :
    op ∈ settings.operators ∧ op.fixity = fixity := by
  obtain ⟨symbol, arity, -, -, hr⟩ := Registry.operatorOf?_eq_some.1 h
  exact ⟨Registry.mem_standardOperators (Table.mem_of_find? (Registry.resolveOperator_eq_ok.1 hr)),
    (Registry.resolveOperator_ok hr).2⟩

/-- Signs go first before all that may follow their operands. -/
theorem stops_sign (hs : settings.Ascends) (h : op ∈ settings.operators) (hf : op.fixity = .unary)
    (rest : List Token) : Climbing.Stops (.standard settings raises) (some op) rest := by
  intro token _ next hn
  obtain ⟨hm, hb⟩ := mem_of_operatorOf?_standard hn
  exact Climbing.goesFirst_some.2 (.inl (Registry.precedence_lt_of_unary hs hm h hb hf))

theorem arity?_operator (raises : Bool) (h : op ∈ settings.operators) :
    (Registry.standard settings raises).arity? (.operator op.symbol op.fixity.arity) = some op.fixity.arity := by
  have hf : (Token.Kind.operator op.symbol op.fixity.arity).fixity = op.fixity := by cases op.fixity <;> rfl
  rw [Registry.arity?, hf, Registry.find?_standardOperators h raises]
  rfl

end Standard

/-! ## Reading what is written -/

section Reading

variable (settings : Settings) (raises : Bool)

/-- The nodes of what is written have as many children as they take operands. -/
def Written.Fits : Written → Prop
  | .expression _ tree => tree.Fits (.standard settings raises)
  | .arguments trees => ∀ tree ∈ trees, tree.Fits (.standard settings raises)

/-- Wherever an operand is expected, and before a text that ends it, the text is read as tokens that span what it
writes. No operand is expected behind them. -/
def Written.IsRead (text : List Char) : Written → Prop
  | .expression outermost tree =>
    ∀ before position rest, Infix.expectsOperand before = true → Ends rest →
      ∃ tokens spanned last, Infix.expectsOperand (some last) = false ∧
        Infix.ReadsAs (.standard settings raises) before position text rest tokens (some last) ∧
        spanned.map Token.kind = tree ∧ Climbing.Spans (.standard settings raises) outermost tokens spanned
  | .arguments trees =>
    ∀ before position rest, Infix.expectsOperand before = true → Ends rest →
      ∃ tokens spanned last,
        Infix.ReadsAs (.standard settings raises) before position text rest tokens last ∧
        spanned.map (Tree.map Token.kind) = trees ∧ Climbing.ReadsArguments (.standard settings raises) tokens spanned

variable {settings}

theorem Writes.fits {written : Written} {text : List Char} (h : Writes settings written text) :
    written.Fits settings raises := by
  induction h with
  | numeral form => exact .node rfl (List.forall_mem_nil _)
  | var h => exact .node rfl (List.forall_mem_nil _)
  | sign ho hf _ ih =>
    have ha := arity?_operator raises ho
    rw [hf] at ha
    exact .node ha (List.forall_mem_singleton.2 ih)
  | binary ho hf _ _ _ _ ihl ihr =>
    have ha := arity?_operator raises ho
    rw [hf] at ha
    exact .node ha (List.forall_mem_cons.2 ⟨ihl, List.forall_mem_singleton.2 ihr⟩)
  | call hf ha _ ih =>
    refine .node ?_ ih
    rw [Registry.arity?, Registry.find?_standardFunctions settings hf raises, ha]
    rfl
  | brackets _ ih => exact ih
  | spaced _ _ _ ih => exact ih
  | argument _ ih => exact List.forall_mem_singleton.2 ih
  | separated _ _ ih ihs => exact List.forall_mem_cons.2 ⟨ih, ihs⟩

/-! One lemma for every way to write an expression. -/

section Forms

variable {raises} {outermost : Option Operator} {tree : Tree Token.Kind} {text : List Char}

theorem isRead_leaf {kind : Token.Kind} (hl : kind.isLeaf = true) (he : Infix.expectsOperand (some kind) = false)
    (h : ∀ before position rest, Ends rest →
      Infix.ReadsAs (.standard settings raises) before position text rest [⟨kind, some (position : Int)⟩] (some kind)) :
    (Written.expression none (.node kind [])).IsRead settings raises text := by
  intro before position rest _ hr
  exact ⟨_, .node ⟨kind, some (position : Int)⟩ [], kind, he, h before position rest hr, by simp,
    (Climbing.readsOperand_leaf hl).spans⟩

theorem isRead_sign {op : Operator} (hs : settings.Ascends) (ho : op ∈ settings.operators)
    (hf : op.fixity = .unary) (ih : (Written.expression none tree).IsRead settings raises text) :
    (Written.expression none (.node (.operator op.symbol 1) [tree])).IsRead settings raises
      (op.symbol.toList ++ text) := by
  intro before position rest hb hr
  have hsign := Infix.readsAs_operator raises ho before (by rw [hb, hf]; rfl) position (text ++ rest)
  have hop := operatorOf?_standard raises ho
  rw [hf] at hsign hop
  obtain ⟨tokens, spanned, last, hl, hread, rfl, hspan⟩ :=
    ih (some (.operator op.symbol 1)) (position + op.symbol.toList.length) rest rfl hr
  refine ⟨_, .node ⟨.operator op.symbol 1, some (position : Int)⟩ [spanned], last, hl, hsign.append hread, by simp, ?_⟩
  exact (hspan.sign hop (stops_sign hs ho hf)).spans

/-- Behind the operator an operand is expected again, and the symbol ends the left operand. -/
theorem isRead_binary {op : Operator} {l r : Option Operator} {left right : Tree Token.Kind} {first second : List Char}
    (ho : op ∈ settings.operators) (hf : op.fixity = .binary)
    (hl : ∀ inner ∈ l, ¬ op.NeedsBrackets .left inner) (hr : ∀ inner ∈ r, ¬ op.NeedsBrackets .right inner)
    (ha : ∀ inner ∈ r, inner.precedence = op.precedence → (inner.associativity = .left ↔ op.associativity = .left))
    (ihl : (Written.expression l left).IsRead settings raises first)
    (ihr : (Written.expression r right).IsRead settings raises second) :
    (Written.expression (some op) (.node (.operator op.symbol 2) [left, right])).IsRead settings raises
      (first ++ (op.symbol.toList ++ second)) := by
  intro before position rest hb hrest
  have hop := operatorOf?_standard raises ho
  rw [hf] at hop
  obtain ⟨tokens, leftSpan, middle, hm, hread, rfl, hspan⟩ :=
    ihl before position (op.symbol.toList ++ second ++ rest) hb
      (by rw [List.append_assoc]; exact Infix.ends_operator ho (second ++ rest))
  have hsymbol := Infix.readsAs_operator raises ho (some middle) (by rw [hm, hf]; rfl) (position + first.length)
    (second ++ rest)
  rw [hf] at hsymbol
  obtain ⟨others, rightSpan, last, hlast, hread', rfl, hspan'⟩ :=
    ihr (some (.operator op.symbol 2)) (position + first.length + op.symbol.toList.length) rest rfl hrest
  refine ⟨_, .node _ [leftSpan, rightSpan], last, hlast, hread.append (hsymbol.append hread'), ?_,
    hspan.binary hop hl hr ha hspan'⟩
  simp [Fixity.arity]

theorem isRead_brackets (ih : (Written.expression outermost tree).IsRead settings raises text) :
    (Written.expression none tree).IsRead settings raises ('(' :: (text ++ [')'])) := by
  intro before position rest hb hr
  obtain ⟨tokens, spanned, last, -, hread, rfl, hspan⟩ :=
    ih (some .openBracket) (position + 1) (')' :: rest) rfl (ends_cons rfl (by decide) (by decide))
  have hopen : Infix.ReadsAs (.standard settings raises) before position ['('] (text ++ [')'] ++ rest) _ _ :=
    Infix.readsAs_structural rfl _
  have hclose : Infix.ReadsAs (.standard settings raises) (some last) (position + 1 + text.length) [')'] rest _ _ :=
    Infix.readsAs_structural rfl _
  refine ⟨_, spanned, .closeBracket, rfl, hopen.append (hread.append hclose), rfl, ?_⟩
  exact (hspan.brackets rfl rfl).spans

theorem isRead_call {function : Function} {trees : List (Tree Token.Kind)} (hf : function ∈ standardFunctions)
    (hn : trees.length = function.arity) (ih : (Written.arguments trees).IsRead settings raises text) :
    (Written.expression none (.node (.function function.name) trees)).IsRead settings raises
      (function.name.toList ++ '(' :: (text ++ [')'])) := by
  intro before position rest hb hr
  have hfind := Registry.find?_standardFunctions settings hf raises
  obtain ⟨tokens, spanned, last, hread, rfl, harguments⟩ :=
    ih (some .openBracket) (position + function.name.toList.length + 1) (')' :: rest) rfl
      (ends_cons rfl (by decide) (by decide))
  have hname := Infix.readsAs_function before position hfind (text ++ [')'] ++ rest)
  have hopen : Infix.ReadsAs (.standard settings raises) (some (.function function.name))
      (position + function.name.toList.length) ['('] (text ++ [')'] ++ rest) _ _ :=
    Infix.readsAs_structural rfl _
  have hclose : Infix.ReadsAs (.standard settings raises) last
      (position + function.name.toList.length + 1 + text.length) [')'] rest _ _ :=
    Infix.readsAs_structural rfl _
  rw [List.length_map] at hn
  refine ⟨_, .node _ spanned, .closeBracket, rfl, hname.append (hopen.append (hread.append hclose)), ?_,
    (harguments.call rfl hfind rfl rfl hn).spans⟩
  simp

theorem isRead_spaced {blanks behind : List Char} (hb : blanks.all isBlank = true) (hb' : behind.all isBlank = true)
    (ih : (Written.expression outermost tree).IsRead settings raises text) :
    (Written.expression outermost tree).IsRead settings raises (blanks ++ (text ++ behind)) := by
  intro before position rest he hr
  obtain ⟨tokens, spanned, last, hl, hread, htree, hspan⟩ :=
    ih before (position + blanks.length) (behind ++ rest) he (ends_blanks hb' hr)
  have hfirst := Infix.readsAs_blanks (.standard settings raises) before position hb (text ++ behind ++ rest)
  have hlast := Infix.readsAs_blanks (.standard settings raises) (some last)
    (position + blanks.length + text.length) hb' rest
  refine ⟨tokens, spanned, last, hl, ?_, htree, hspan⟩
  simpa using hfirst.append (hread.append hlast)

theorem isRead_argument (ih : (Written.expression outermost tree).IsRead settings raises text) :
    (Written.arguments [tree]).IsRead settings raises text := by
  intro before position rest hb hr
  obtain ⟨tokens, spanned, last, -, hread, rfl, hspan⟩ := ih before position rest hb hr
  exact ⟨tokens, [spanned], some last, hread, rfl, hspan.argument⟩

theorem isRead_separated {trees : List (Tree Token.Kind)} {others : List Char} (hne : trees ≠ [])
    (ih : (Written.expression outermost tree).IsRead settings raises text)
    (ihs : (Written.arguments trees).IsRead settings raises others) :
    (Written.arguments (tree :: trees)).IsRead settings raises (text ++ ',' :: others) := by
  intro before position rest hb hr
  obtain ⟨tokens, spanned, last, -, hread, rfl, hspan⟩ :=
    ih before position (',' :: others ++ rest) hb (ends_cons rfl (by decide) (by decide))
  obtain ⟨more, spans, last', hread', rfl, harguments⟩ :=
    ihs (some .separator) (position + text.length + 1) rest rfl hr
  have hseparator : Infix.ReadsAs (.standard settings raises) (some last) (position + text.length) [',']
      (others ++ rest) _ _ := Infix.readsAs_structural rfl _
  refine ⟨_, spanned :: spans, last', hread.append (hseparator.append hread'), rfl, ?_⟩
  exact hspan.separated rfl (by simpa using hne) harguments

end Forms

/-- **What is written is read.** -/
theorem Writes.isRead (hs : settings.Ascends) {written : Written} {text : List Char}
    (h : Writes settings written text) : written.IsRead settings raises text := by
  induction h with
  | numeral form => exact isRead_leaf rfl rfl fun _ _ _ hr => Infix.readsAs_numeral form hr
  | var h => exact isRead_leaf rfl rfl fun _ _ _ hr => Infix.readsAs_var h (Infix.not_mem_symbols_of_isWord h) hr
  | sign ho hf _ ih => exact isRead_sign hs ho hf ih
  | binary ho hf hl hr before behind ihl ihr =>
    refine isRead_binary ho hf hl hr (fun inner hi => ?_) ihl ihr
    obtain ⟨hm, hb⟩ := behind.outermost_mem inner hi
    exact Registry.associativity_of_precedence_eq hs hm ho
  | call hf ha _ ih => exact isRead_call hf ha ih
  | brackets _ ih => exact isRead_brackets ih
  | spaced _ hb hb' ih => exact isRead_spaced hb hb' ih
  | argument _ ih => exact isRead_argument ih
  | separated _ arguments ih ihs => exact isRead_separated arguments.trees_ne ih ihs

end Reading

end Formula
