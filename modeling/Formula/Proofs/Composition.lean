import Formula.Proofs.CacheCoherence
import Formula.Proofs.Placement
import Formula.Proofs.TreeEvaluation
import Mathlib.Data.List.Forall2

/-!
# Composing texts

Texts that have values may be put together as texts: two of them in brackets around the symbol of an operator
(`joined`), or any number of them as the arguments of a function (`called`). The tokens of the whole are those of its
parts and then the operator or the function, and its value is what the callable gives for the values of the parts
(`Session.execute_composed`). Nothing is asked of the parts but that they have values: they need not be expressions
of the grammar.

What is kept of a part is the tree that its tokens list (`Postfix.Lists`).
-/

namespace Formula

open Text

/-- Two texts in brackets and a symbol between them. -/
def joined (symbol left right : String) : String := "(" ++ left ++ ") " ++ symbol ++ " (" ++ right ++ ")"

/-- The call of a function on texts. -/
def called (name : String) (texts : List String) : String := name ++ "(" ++ ", ".intercalate texts ++ ")"

/-! ## Tokens -/

namespace Postfix

variable {registry : Registry}

/-- The tokens of the text list the tree when they are rearranged. -/
def Lists (registry : Registry) (text : String) (tree : Tree Token.Kind) : Prop :=
  ∃ tokens listed, Infix.read registry text = .ok tokens ∧ ofInfix registry tokens = .ok (Tree.postorder listed) ∧
    listed.map Token.kind = tree

theorem Lists.compile_eq {text : String} {tree : Tree Token.Kind} (h : Lists registry text tree) :
    ∃ tokens, compile registry text = .ok tokens ∧ tokens.map Token.kind = tree.postorder := by
  obtain ⟨tokens, listed, hread, hlist, rfl⟩ := h
  refine ⟨listed.postorder, ?_, (Tree.postorder_map Token.kind listed).symm⟩
  rw [compile, hread]
  exact hlist

/-- In a bracket, the text is read as tokens that the machine takes in as the tree. -/
theorem Lists.placed {text : String} {tree : Tree Token.Kind} (h : Lists registry text tree)
    (before : Option Token.Kind) (hb : Infix.expectsOperand before = true) (position : Nat) {tail : List Char}
    (ht : Infix.Delimits tail) :
    ∃ tokens placed last, Infix.ReadsAs registry before position text.toList tail tokens last ∧
      placed.map Token.kind = tree ∧
      ∀ opening pending, Takes registry (.bracket opening :: pending) tokens [] placed := by
  obtain ⟨tokens, listed, hread, hlist, rfl⟩ := h
  obtain ⟨last, hplaced⟩ := Infix.readsAs_of_readFrom hread hb.symm position ht
  rw [Nat.zero_add] at hplaced
  refine ⟨_, listed.map (Token.shift position), last, hplaced, ?_, takes_of_ofInfix hlist position⟩
  rw [Tree.map_map]
  rfl

/-- In brackets, the text is read anywhere, as tokens that the machine takes in over any stack. -/
theorem Lists.bracketed {text : String} {tree : Tree Token.Kind} (h : Lists registry text tree)
    (before : Option Token.Kind) (position : Nat) (tail : List Char) :
    ∃ tokens placed, Infix.ReadsAs registry before position ('(' :: (text.toList ++ [')'])) tail tokens
        (some .closeBracket) ∧
      placed.map Token.kind = tree ∧ ∀ pending rest, Takes registry pending tokens rest placed := by
  obtain ⟨tokens, placed, last, hread, htree, htakes⟩ :=
    h.placed (some .openBracket) rfl (position + 1) (Infix.delimits_closing tail)
  have hopen : Infix.ReadsAs registry before position ['('] (text.toList ++ [')'] ++ tail) _ _ :=
    Infix.readsAs_structural rfl _
  have hclose : Infix.ReadsAs registry last (position + 1 + text.toList.length) [')'] tail _ _ :=
    Infix.readsAs_structural rfl _
  exact ⟨_, placed, hopen.append (hread.append hclose), htree, fun pending rest => (htakes _ pending).brackets rfl rfl⟩

/-- An operator between two operands that are taken in over any stack. -/
theorem Takes.between {token : Token} {op : Operator} {before behind : List Token} {left right : Tree Token}
    (ho : registry.operatorOf? .binary token.kind = some op) (hl : ∀ rest, Takes registry [] before rest left)
    (hr : ∀ pending, Takes registry pending behind [] right) :
    Takes registry [] (before ++ token :: behind) [] (.node token [left, right]) := by
  have hbehind : TakesBehind registry [] left (token :: (behind ++ [])) [] (.node token [left, right]) :=
    .more ho rfl (hr _) (Climbing.stops_nil _) .nothing
  rw [List.append_nil] at hbehind
  exact (hl _).expression hbehind

theorem Lists.joined {op : Operator} {left right : String} {first second : Tree Token.Kind}
    (ho : registry.binary.find? op.symbol = some op) (hs : Infix.StandsAlone registry op.symbol)
    (hl : Lists registry left first) (hr : Lists registry right second) :
    Lists registry (joined op.symbol left right) (.node (.operator op.symbol 2) [first, second]) := by
  have blank : ∀ before position rest, Infix.ReadsAs registry before position [' '] rest [] before :=
    fun before position rest => Infix.readsAs_blanks registry before position rfl rest
  obtain ⟨tokens, leftTree, hfirst, rfl, htakes⟩ := hl.bracketed none 0
    ([' '] ++ (op.symbol.toList ++ ([' '] ++ ('(' :: (right.toList ++ [')']) ++ []))))
  have hsymbol := hs.readsAs (some .closeBracket) rfl (0 + ('(' :: (left.toList ++ [')']) ++ [' ']).length)
    (Infix.delimits_blank rfl : Infix.Delimits ([' '] ++ ('(' :: (right.toList ++ [')']) ++ [])))
  generalize hk : Token.mk (.operator op.symbol 2) _ = token at hsymbol
  obtain ⟨others, rightTree, hsecond, rfl, htakes'⟩ := hr.bracketed (some (.operator op.symbol 2))
    (0 + ('(' :: (left.toList ++ [')']) ++ [' '] ++ op.symbol.toList ++ [' ']).length) []
  have hwhole := (((hfirst.append (blank _ _ _)).append hsymbol).append (blank _ _ _)).append hsecond
  have htext : (Formula.joined op.symbol left right).toList = '(' :: (left.toList ++ [')']) ++ [' '] ++
      op.symbol.toList ++ [' '] ++ ('(' :: (right.toList ++ [')'])) := by
    simp [Formula.joined]
  rw [← htext] at hwhole
  have hop : registry.operatorOf? .binary token.kind = some op := hk ▸ ho
  refine ⟨tokens ++ token :: others, .node token [leftTree, rightTree], ?_, ?_, ?_⟩
  · simpa using hwhole.read_eq
  · exact ofInfix_of_takes (.between hop (htakes []) fun pending => htakes' pending [])
  · simp [← hk]

theorem exists_arguments {texts : List String} {trees : List (Tree Token.Kind)}
    (h : List.Forall₂ (Lists registry) texts trees) (hne : texts ≠ []) (before : Option Token.Kind)
    (hb : Infix.expectsOperand before = true) (position : Nat) {tail : List Char} (ht : Infix.Delimits tail) :
    ∃ tokens placed last,
      Infix.ReadsAs registry before position (", ".intercalate texts).toList tail tokens last ∧
      placed.map (Tree.map Token.kind) = trees ∧
      ∀ opening pending, TakesArguments registry pending opening texts.length tokens placed := by
  induction h generalizing before position with
  | nil => exact absurd rfl hne
  | @cons text tree texts trees htext hrest ih =>
    cases texts with
    | nil =>
      cases hrest
      obtain ⟨tokens, placed, last, hread, rfl, htakes⟩ := htext.placed before hb position ht
      rw [String.intercalate_singleton]
      exact ⟨tokens, [placed], last, hread, rfl, fun opening pending => .one (htakes opening pending)⟩
    | cons next texts =>
      obtain ⟨tokens, placed, last, hread, rfl, htakes⟩ := htext.placed before hb position
        (Infix.delimits_separator ([' '] ++ ((", ".intercalate (next :: texts)).toList ++ tail)))
      have hseparator : Infix.ReadsAs registry last (position + text.toList.length) [',']
          ([' '] ++ ((", ".intercalate (next :: texts)).toList ++ tail)) _ _ :=
        Infix.readsAs_structural rfl _
      have hblank := Infix.readsAs_blanks registry (some .separator) (position + (text.toList ++ [',']).length)
        (rfl : [' '].all isBlank = true) ((", ".intercalate (next :: texts)).toList ++ tail)
      obtain ⟨others, placed', last', hread', rfl, htakes'⟩ :=
        ih (List.cons_ne_nil _ _) (some .separator) rfl (position + (text.toList ++ [','] ++ [' ']).length)
      have hwhole := ((hread.append hseparator).append hblank).append hread'
      have htexts : (", ".intercalate (text :: next :: texts)).toList =
          text.toList ++ [','] ++ [' '] ++ (", ".intercalate (next :: texts)).toList := by
        simp [String.intercalate_cons_cons]
      refine ⟨_, placed :: placed', last', htexts ▸ hwhole, rfl, fun opening pending => ?_⟩
      rw [List.append_nil, List.append_assoc, List.singleton_append]
      exact .separated rfl (htakes opening pending) (htakes' opening pending)

theorem Lists.called {function : Function} {texts : List String} {trees : List (Tree Token.Kind)}
    (hf : registry.functions.find? function.name = some function) (hn : texts.length = function.arity)
    (hne : texts ≠ []) (h : List.Forall₂ (Lists registry) texts trees) :
    Lists registry (called function.name texts) (.node (.function function.name) trees) := by
  obtain ⟨tokens, placed, last, hread, rfl, htakes⟩ := exists_arguments h hne (some .openBracket) rfl
    (0 + (function.name.toList ++ ['(']).length) (Infix.delimits_closing [])
  have hname := Infix.readsAs_function none 0 hf ((", ".intercalate texts).toList ++ ([')'] ++ []))
  have hopen : Infix.ReadsAs registry (some (.function function.name)) (0 + function.name.toList.length) ['(']
      ((", ".intercalate texts).toList ++ ([')'] ++ [])) _ _ := Infix.readsAs_structural rfl _
  have hclose : Infix.ReadsAs registry last
      (0 + (function.name.toList ++ ['('] ++ (", ".intercalate texts).toList).length) [')'] [] _ _ :=
    Infix.readsAs_structural rfl _
  have hwhole := ((hname.append hopen).append hread).append hclose
  have htext : (Formula.called function.name texts).toList =
      function.name.toList ++ ['('] ++ (", ".intercalate texts).toList ++ [')'] := by
    simp [Formula.called]
  rw [← htext] at hwhole
  refine ⟨_, .node ⟨.function function.name, some 0⟩ placed, hwhole.read_eq, ?_, by simp⟩
  refine ofInfix_of_takes ?_
  rw [List.append_assoc, List.append_assoc, List.singleton_append, List.singleton_append]
  exact .call rfl hf rfl rfl (hn ▸ htakes _ _)

theorem exists_parts {texts : List String} {trees : List (Tree Token.Kind)}
    (h : List.Forall₂ (Lists registry) texts trees) :
    ∃ parts, List.Forall₂ (fun text tokens => compile registry text = .ok tokens) texts parts ∧
      parts.flatMap (List.map Token.kind) = trees.flatMap Tree.postorder := by
  induction h with
  | nil => exact ⟨[], .nil, rfl⟩
  | cons hl _ ih =>
    obtain ⟨tokens, hcompile, hkinds⟩ := hl.compile_eq
    obtain ⟨parts, hparts, hrest⟩ := ih
    exact ⟨tokens :: parts, .cons hcompile hparts, by rw [List.flatMap_cons, List.flatMap_cons, hkinds, hrest]⟩

end Postfix

/-! ## Values -/

theorem Registry.arity?_binary {registry : Registry} {op : Operator} (h : registry.binary.find? op.symbol = some op) :
    registry.arity? (.operator op.symbol 2) = some 2 := by
  have hb := registry.fixity_binary op (Table.mem_of_find? h)
  show (registry.binary.find? op.symbol).map _ = _
  rw [h, Option.map_some, hb]
  rfl

namespace Evaluation

variable {registry : Registry} {environment : Environment}

/-- A text whose tokens list a fitting tree has the value of the tree. -/
theorem evaluate_of_lists {text : String} {tree : Tree Token.Kind} (h : Postfix.Lists registry text tree)
    (hf : tree.Fits registry) :
    Postfix.compile registry text >>= evaluate registry environment = tree.evaluate registry environment := by
  obtain ⟨tokens, listed, hread, hlist, rfl⟩ := h
  rw [Postfix.compile, hread]
  show Postfix.ofInfix registry tokens >>= _ = _
  rw [hlist]
  exact evaluate_postorder_of_fits hf

/-- The tokens of a text that has a value list a fitting tree of that value. -/
theorem exists_lists {text : String} {x : Float}
    (h : Postfix.compile registry text >>= evaluate registry environment = .ok x) :
    ∃ tree, Postfix.Lists registry text tree ∧ tree.Fits registry ∧
      tree.value registry environment = .ok (.number x) := by
  obtain ⟨output, hcompile, hevaluate⟩ := exists_of_bind_eq_ok h
  obtain ⟨tokens, hread, hlist⟩ := exists_of_bind_eq_ok hcompile
  obtain ⟨listed, hf, rfl⟩ := exists_tree_of_evaluate hevaluate
  refine ⟨listed.map Token.kind, ⟨tokens, listed, hread, hlist, rfl⟩, hf, ?_⟩
  rw [evaluate_postorder_of_fits hf] at hevaluate
  obtain ⟨operand, hv, hevaluate⟩ := exists_of_bind_eq_ok hevaluate
  cases operand with
  | number y =>
    cases hevaluate
    exact hv
  | text content => cases hevaluate

theorem exists_trees {texts : List String} {values : List Float}
    (h : List.Forall₂ (fun text x => Postfix.compile registry text >>= evaluate registry environment = .ok x)
      texts values) :
    ∃ trees, List.Forall₂ (Postfix.Lists registry) texts trees ∧ (∀ tree ∈ trees, tree.Fits registry) ∧
      trees.mapM (Tree.value registry environment) = .ok (values.map .number) := by
  induction h with
  | nil => exact ⟨[], .nil, List.forall_mem_nil _, rfl⟩
  | cons htext _ ih =>
    obtain ⟨tree, hl, hf, hv⟩ := exists_lists htext
    obtain ⟨trees, hls, hfs, hvs⟩ := ih
    refine ⟨tree :: trees, .cons hl hls, List.forall_mem_cons.2 ⟨hf, hfs⟩, ?_⟩
    rw [List.mapM_cons, hv, hvs]
    rfl

theorem evaluate_of_value {tree : Tree Token.Kind} {outcome : Except Fault Float}
    (h : tree.value registry environment = outcome.map .number) : tree.evaluate registry environment = outcome := by
  rw [Tree.evaluate, h]
  cases outcome <;> rfl

theorem value_node {kind : Token.Kind} {children : List (Tree Token.Kind)} {operands : List Operand}
    (h : children.mapM (Tree.value registry environment) = .ok operands) :
    (Tree.node kind children).value registry environment = ofNode registry environment kind operands := by
  rw [Tree.value, h]
  rfl

theorem evaluate_operator {op : Operator} {left right : Tree Token.Kind} {x y : Float}
    (ho : registry.binary.find? op.symbol = some op) (hl : left.value registry environment = .ok (.number x))
    (hr : right.value registry environment = .ok (.number y)) :
    (Tree.node (.operator op.symbol 2) [left, right]).evaluate registry environment =
      invoke registry.divisionRaises op.symbol op.callable [.float x, .float y] := by
  have hop : registry.resolveOperator .binary op.symbol = .ok op := Registry.resolveOperator_eq_ok.2 ho
  have hchildren : [left, right].mapM (Tree.value registry environment) = .ok [.number x, .number y] := by
    rw [List.mapM_cons, List.mapM_cons, hl, hr]
    rfl
  have hfixity : (Token.Kind.operator op.symbol 2).fixity = .binary := rfl
  refine evaluate_of_value ((value_node hchildren).trans ?_)
  simp only [ofNode, hfixity, hop]
  rfl

theorem evaluate_function {function : Function} {trees : List (Tree Token.Kind)} {values : List Float}
    (hf : registry.functions.find? function.name = some function)
    (hv : trees.mapM (Tree.value registry environment) = .ok (values.map .number)) :
    (Tree.node (.function function.name) trees).evaluate registry environment =
      invoke registry.divisionRaises function.name function.callable (values.map .float) := by
  have hvalues : (values.map Operand.number).map Operand.toValue = values.map Value.float := by simp [Operand.toValue]
  refine evaluate_of_value ((value_node hv).trans ?_)
  simp only [ofNode, Registry.resolveFunction_eq_ok.2 hf, hvalues]
  rfl

end Evaluation

namespace Session

/-- **Texts compose.** In every session that comes from a new one, two texts that have values, in brackets around a
symbol that is read between blanks, have the value that the callable of the operator gives for theirs, and the tokens
of both and then the operator. The call of a function on texts that have values has the value that the callable of
the function gives for theirs, and the tokens of all of them and then the function. -/
theorem execute_composed (settings : Settings) (capacity : Option Int) (raises : Option Bool)
    (h : ∀ n ∈ capacity.or settings.cacheCapacity, 0 ≤ n) (commands : List Command) :
    let session := ((start settings capacity raises).run commands).2
    (∀ op, session.registry.binary.find? op.symbol = some op → Infix.StandsAlone session.registry op.symbol →
      ∀ left right x y, (session.execute left).1 = .ok x → (session.execute right).1 = .ok y →
        (session.execute (joined op.symbol left right)).1 =
          Evaluation.invoke session.registry.divisionRaises op.symbol op.callable [.float x, .float y] ∧
        ∃ first second whole, (session.compile left).1 = .ok first ∧ (session.compile right).1 = .ok second ∧
          (session.compile (joined op.symbol left right)).1 = .ok whole ∧
          whole.map Token.kind = first.map Token.kind ++ second.map Token.kind ++ [.operator op.symbol 2]) ∧
    ∀ function, session.registry.functions.find? function.name = some function → 1 ≤ function.arity →
      ∀ texts values, texts.length = function.arity →
        List.Forall₂ (fun text x => (session.execute text).1 = .ok x) texts values →
        (session.execute (called function.name texts)).1 =
          Evaluation.invoke session.registry.divisionRaises function.name function.callable (values.map .float) ∧
        ∃ parts whole, List.Forall₂ (fun text tokens => (session.compile text).1 = .ok tokens) texts parts ∧
          (session.compile (called function.name texts)).1 = .ok whole ∧
          whole.map Token.kind = parts.flatMap (List.map Token.kind) ++ [.function function.name] := by
  intro session
  obtain ⟨hs, ht⟩ := coherent_run_start settings capacity raises h commands
  have hexecute : ∀ text, (session.execute text).1 = _ := execute_fst hs ht
  have hcompile : ∀ text, (session.compile text).1 = _ := compile_fst hs ht
  simp only [hexecute, hcompile]
  refine ⟨fun op ho hsymbol left right x y hl hr => ?_, fun function hf hpos texts values hn htexts => ?_⟩
  · obtain ⟨first, hfirst, hfit, hx⟩ := Evaluation.exists_lists hl
    obtain ⟨second, hsecond, hfit', hy⟩ := Evaluation.exists_lists hr
    have hwhole := hfirst.joined ho hsymbol hsecond
    have harity : session.registry.arity? (.operator op.symbol 2) = some [first, second].length :=
      Registry.arity?_binary ho
    refine ⟨?_, ?_⟩
    · rw [Evaluation.evaluate_of_lists hwhole
        (.node harity (List.forall_mem_cons.2 ⟨hfit, List.forall_mem_singleton.2 hfit'⟩))]
      exact Evaluation.evaluate_operator ho hx hy
    · obtain ⟨a, ha, hka⟩ := hfirst.compile_eq
      obtain ⟨b, hb, hkb⟩ := hsecond.compile_eq
      obtain ⟨c, hc, hkc⟩ := hwhole.compile_eq
      exact ⟨a, b, c, ha, hb, hc, by rw [hkc, hka, hkb]; simp⟩
  · obtain ⟨trees, hlists, hfits, hvalues⟩ := Evaluation.exists_trees htexts
    have hne : texts ≠ [] := by
      rintro rfl
      rw [List.length_nil] at hn
      omega
    have hwhole := Postfix.Lists.called hf hn hne hlists
    have harity : session.registry.arity? (.function function.name) = some trees.length := by
      rw [Registry.arity?, hf, Option.map_some, ← hn, hlists.length_eq]
    refine ⟨?_, ?_⟩
    · rw [Evaluation.evaluate_of_lists hwhole (.node harity hfits)]
      exact Evaluation.evaluate_function hf hvalues
    · obtain ⟨parts, hparts, hkinds⟩ := Postfix.exists_parts hlists
      obtain ⟨whole, hc, hkc⟩ := hwhole.compile_eq
      exact ⟨parts, whole, hparts, hc, by rw [hkc, Tree.postorder_node, hkinds]⟩

/-- A word becomes an operator of two operands. -/
def wordy : List Command := [.setVariable "x" (.int 4), .addOperator ⟨"less", .int 1, .left, .sub, 2⟩]

/-- A text need not be an expression of the grammar to be a part of another text. -/
theorem execute_composed_wordy :
    (∀ n ∈ (some 1).or Settings.shipped.cacheCapacity, 0 ≤ n) ∧
    let session := ((start .shipped (some 1) none).run wordy).2
    Infix.StandsAlone session.registry "less" ∧
    (session.execute "2 3 +").1 = .ok 5.0 ∧ (session.execute "-x").1 = .ok (-4.0) ∧
    (session.execute "(2 3 +) less (-x)").1 = .ok 9.0 ∧
    (∃ whole, (session.compile "(2 3 +) less (-x)").1 = .ok whole ∧ whole.map Token.kind =
      [.number 2.0, .number 3.0, .operator "+" 2, .var "x", .operator "-" 1, .operator "less" 2]) ∧
    (session.execute "max(2 3 +, -x)").1 = .ok 5.0 ∧
    ∃ whole, (session.compile "max(2 3 +, -x)").1 = .ok whole ∧ whole.map Token.kind =
      [.number 2.0, .number 3.0, .operator "+" 2, .var "x", .operator "-" 1, .function "max"] := by
  have one : ∀ n ∈ (some 1).or Settings.shipped.cacheCapacity, 0 ≤ n := by simp
  obtain ⟨hoperator, hfunction⟩ := execute_composed .shipped (some 1) none one wordy
  generalize hsession : ((start .shipped (some 1) none).run wordy).2 = session at hoperator hfunction
  have hless : Infix.StandsAlone session.registry "less" := eq_ok_of_toOption (by subst hsession; decide +kernel)
  have hleft : (session.execute "2 3 +").1 = .ok 5.0 := eq_ok_of_toOption (by subst hsession; decide +kernel)
  have hright : (session.execute "-x").1 = .ok (-4.0) := eq_ok_of_toOption (by subst hsession; decide +kernel)
  have hfirst : (session.compile "2 3 +").1.map (List.map Token.kind) =
      .ok [.number 2.0, .number 3.0, .operator "+" 2] := eq_ok_of_toOption (by subst hsession; decide +kernel)
  have hsecond : (session.compile "-x").1.map (List.map Token.kind) = .ok [.var "x", .operator "-" 1] :=
    eq_ok_of_toOption (by subst hsession; decide +kernel)
  obtain ⟨hjoined, first, second, whole, hf, hs, hwhole, hkinds⟩ :=
    hoperator ⟨"less", .binary, 1, .left, .sub, rfl⟩ (by subst hsession; rfl) hless _ _ _ _ hleft hright
  obtain ⟨hcalled, parts, whole', hparts, hwhole', hkinds'⟩ :=
    hfunction ⟨"max", 2, .max, rfl⟩ (by subst hsession; rfl) (by decide) ["2 3 +", "-x"] [5.0, -4.0] rfl
      (.cons hleft (.cons hright .nil))
  obtain _ | ⟨hf', _ | ⟨hs', _ | _⟩⟩ := hparts
  obtain rfl := Except.ok.inj (hf.symm.trans hf')
  obtain rfl := Except.ok.inj (hs.symm.trans hs')
  rw [hf] at hfirst
  rw [hs] at hsecond
  have hfirst : first.map Token.kind = _ := Except.ok.inj hfirst
  have hsecond : second.map Token.kind = _ := Except.ok.inj hsecond
  refine ⟨one, hless, hleft, hright, hjoined.trans ?_, ⟨whole, hwhole, ?_⟩, hcalled.trans ?_, whole', hwhole', ?_⟩
  · exact eq_ok_of_toOption (by subst hsession; decide +kernel)
  · rw [hkinds, hfirst, hsecond]
    rfl
  · exact eq_ok_of_toOption (by subst hsession; decide +kernel)
  · rw [hkinds', List.flatMap_cons, List.flatMap_singleton, hfirst, hsecond]
    rfl

end Session

end Formula
