import Formula.Proofs.Arrangement
import Formula.Proofs.HeadToken
import Formula.Proofs.Nesting

/-!
# Texts in the middle of others

A text that is read keeps its tokens when it stands in the middle of another text, only that their offsets are
shifted (`Token.shift`, `Infix.readsAs_of_readFrom`), and a symbol that is read between blanks is read there wherever
an operator of two operands may stand (`Infix.StandsAlone.readsAs`). Tokens that are rearranged from the start are
rearranged in the same way inside a bracket (`Postfix.takes_of_ofInfix`): whatever the machine does from its start
on, it does over a stack with a bracket on top (`Postfix.State.Move.embed`), without touching that stack.
-/

namespace Formula

/-- The token at another place of a text. -/
def Token.shift (offset : Nat) (token : Token) : Token :=
  { token with position := token.position.map (· + (offset : Int)) }

namespace Infix

variable {registry : Registry} {before other : Option Token.Kind} {position : Nat} {text tail : List Char}
  {tokens : List Token}

/-- **A text that is read is read in the middle of another text** as the same tokens at other offsets, if the token
before it makes the same difference to an operator and the text behind it ends every token. -/
theorem readsAs_of_readFrom (h : readFrom registry registry.symbols before position text = .ok tokens)
    (he : expectsOperand before = expectsOperand other) (offset : Nat) (ht : Delimits tail) :
    ∃ last, ReadsAs registry other (position + offset) text tail (tokens.map (Token.shift offset)) last := by
  refine readFrom_induct (P := fun before position text tokens => ∀ other,
    expectsOperand before = expectsOperand other →
    ∃ last, ReadsAs registry other (position + offset) text tail (tokens.map (Token.shift offset)) last)
    ?_ ?_ ?_ h other he
  · intro before position other he
    exact ⟨other, readsAs_blanks registry other (position + offset) rfl tail⟩
  · intro before position first rest tokens hb ih other he
    obtain ⟨last, hread⟩ := ih other he
    rw [Nat.add_right_comm] at hread
    have hblanks : [first].all Text.isBlank = true := by simpa using hb
    exact ⟨last, (readsAs_blanks registry other (position + offset) hblanks (rest ++ tail)).append hread⟩
  · intro before position first rest kind count tokens hb hhead _ ih other he
    obtain ⟨last, hread⟩ := ih (some kind) rfl
    obtain ⟨hpos, hle⟩ := hhead.count_le
    have hlength : (rest.take (count - 1)).length + 1 = count := by
      rw [List.length_take]
      omega
    have hfirst : ReadsAs registry other (position + offset) (first :: rest.take (count - 1))
        (rest.drop (count - 1) ++ tail) [Token.shift offset ⟨kind, some (position : Int)⟩] (some kind) := by
      refine readsAs_of_readToken hb ?_
      rw [← List.append_assoc, List.take_append_drop, hlength]
      exact readToken_eq_ok.2 ((hhead.congr he).append ht)
    have hposition : position + count + offset = position + offset + (first :: rest.take (count - 1)).length := by
      rw [List.length_cons, hlength]
      omega
    rw [hposition] at hread
    refine ⟨last, ?_⟩
    simpa using hfirst.append hread

/-! ## Symbols between blanks -/

/-- Between blanks, the symbol is read as one operator of two operands. -/
def StandsAlone (registry : Registry) (symbol : String) : Prop :=
  (read registry ("1 " ++ symbol ++ " 1")).map (List.map Token.kind) =
    .ok [.number 1.0, .operator symbol 2, .number 1.0]

theorem StandsAlone.headToken {symbol : String} {first : Char} {others : List Char} (h : StandsAlone registry symbol)
    (hs : symbol.toList = first :: others) (hb : Text.isBlank first = false) :
    ∃ before, expectsOperand before = false ∧
      HeadToken registry before first (others ++ [' ', '1']) (.operator symbol 2) symbol.length := by
  let one : Numeral.Form := ⟨['1'], none, none, rfl, rfl, by simp⟩
  have htext : ("1 " ++ symbol ++ " 1").toList = one.text ++ [' '] ++ (first :: (others ++ [' ', '1'])) := by
    rw [String.toList_append, String.toList_append, hs]
    rfl
  have hnumeral : ReadsAs registry none 0 one.text ([' '] ++ (first :: (others ++ [' ', '1']))) _ _ :=
    readsAs_numeral one (Text.ends_blank rfl)
  have hread := hnumeral.append (readsAs_blanks registry _ _ rfl _)
  rw [ReadsAs, ← htext] at hread
  rw [StandsAlone, read, hread] at h
  cases hrest : readFrom registry registry.symbols (some (.number one.value)) (0 + (one.text ++ [' ']).length)
      (first :: (others ++ [' ', '1'])) with
  | error fault =>
    rw [hrest] at h
    cases h
  | ok tokens =>
    obtain ⟨kind, count, behind, hhead, rfl⟩ := exists_headToken hb hrest
    rw [hrest] at h
    obtain ⟨-, rfl, -⟩ : _ ∧ kind = .operator symbol 2 ∧ _ := by simpa [prepend, Except.map] using h
    obtain ⟨-, hcount, -⟩ := hhead.operator
    exact ⟨_, rfl, hcount ▸ hhead⟩

/-- A symbol that is read between blanks is read wherever an operator of two operands may stand. -/
theorem StandsAlone.readsAs {op : Operator} (h : StandsAlone registry op.symbol) (before : Option Token.Kind)
    (he : expectsOperand before = false) (position : Nat) (ht : Delimits tail) :
    ReadsAs registry before position op.symbol.toList tail [⟨.operator op.symbol 2, some (position : Int)⟩]
      (some (.operator op.symbol 2)) := by
  have hadmissible := isSymbol_iff.1 op.admissible
  cases hs : op.symbol.toList with
  | nil => exact absurd hs hadmissible.1
  | cons first others =>
    have hb : Text.isBlank first = false := (hadmissible.2 first (by rw [hs]; exact List.mem_cons_self)).1
    obtain ⟨other, ho, hhead⟩ := h.headToken hs hb
    have hread : readToken registry registry.symbols before position first (others ++ [' ', '1']) =
        .ok (.operator op.symbol 2, op.symbol.length) := readToken_eq_ok.2 (hhead.congr (ho.trans he.symm))
    have hlength : op.symbol.length = others.length + 1 := by rw [← String.length_toList, hs, List.length_cons]
    have hquote := hhead.operator.1
    have hblank : Delimits [' ', '1'] := delimits_blank rfl
    refine readsAs_of_readToken hb ?_
    rw [ht.readToken_append hquote, ← hblank.readToken_append hquote, hread, hlength]

end Infix

namespace Postfix

open Climbing

/-! ## Runs over a stack -/

/-- The entry at another place of a text. -/
def Pending.shift (offset : Nat) : Pending → Pending
  | .operator token op => .operator (token.shift offset) op
  | .function token => .function (token.shift offset)
  | .bracket token => .bracket (token.shift offset)

@[simp]
theorem Pending.token_shift (offset : Nat) (entry : Pending) :
    (entry.shift offset).token = entry.token.shift offset := by
  cases entry <;> rfl

@[simp]
theorem Pending.isBracket_shift (offset : Nat) (entry : Pending) :
    (entry.shift offset).isBracket = entry.isBracket := by
  cases entry <;> rfl

@[simp]
theorem yields_shift (op : Operator) (offset : Nat) (entry : Pending) :
    State.yields op (entry.shift offset) = State.yields op entry := by
  cases entry <;> rfl

namespace State

variable {registry : Registry} {token : Token} {tokens out : List Token} {state next last : State}
  {below : List Pending} {outer : List Bracket} {previous : Option Token.Kind}

/-- The state at another place of a text, over other entries and inside other brackets. -/
def embed (state : State) (offset : Nat) (below : List Pending) (outer : List Bracket) : State :=
  ⟨state.pending.map (Pending.shift offset) ++ below, state.brackets ++ outer, state.previous⟩

theorem noted_append {brackets : List Bracket} (h : brackets = [] ∨ noted outer = outer) :
    noted (brackets ++ outer) = noted brackets ++ noted outer := by
  cases brackets with
  | nil => rfl
  | cons bracket brackets =>
    rcases h with h | h
    · cases h
    · rw [h]
      rfl

theorem takeWhile_shift_append {op : Operator} {pending : List Pending} (offset : Nat)
    (h : pending.takeWhile (yields op) = []) (hb : Guarded none below) :
    (pending.map (Pending.shift offset) ++ below).takeWhile (yields op) = [] := by
  cases pending with
  | nil => exact hb op rfl
  | cons entry pending =>
    have hy : ¬ yields op entry = true := by simpa [List.takeWhile_cons] using h
    exact List.takeWhile_cons_of_neg (by simpa using hy)

/-- A move goes on over any stack that no operator takes from. -/
theorem Move.embed (h : Move registry token state out next) (offset : Nat) (hb : Guarded none below)
    (outer : List Bracket) (ho : state.brackets = [] ∨ noted outer = outer)
    (hp : ∀ name, previous = some (.function name) ↔ state.previous = some (.function name)) :
    Move registry (token.shift offset) { state.embed offset below outer with previous := previous }
      (out.map (Token.shift offset)) (next.embed offset below (noted outer)) := by
  have hheld : ∀ held : List Pending, (held.map Pending.token).map (Token.shift offset) =
      (held.map (Pending.shift offset)).map Pending.token := by simp
  have hclosed : ∀ {bracket : Bracket} {brackets : List Bracket},
      bracket :: brackets = [] ∨ noted outer = outer → noted outer = outer :=
    fun h => h.resolve_left (List.cons_ne_nil _ _)
  cases h with
  | leaf h =>
    simp only [State.embed, ← noted_append ho]
    exact .leaf h
  | unary h =>
    simp only [State.embed, ← noted_append ho]
    exact .unary h
  | binary h hh hpending =>
    simp only [State.embed, ← noted_append ho, List.map_append, List.append_assoc, hheld]
    exact .binary h (by simpa using hh) (takeWhile_shift_append offset hpending hb)
  | function h =>
    simp only [State.embed, ← noted_append ho]
    exact .function h
  | opening h hprevious =>
    simp only [State.embed, List.cons_append, ← noted_append ho]
    exact .opening h fun name hn => hprevious name ((hp name).1 hn)
  | @calling pending brackets called name function h hk hf =>
    obtain rfl : previous = some (.function name) := (hp name).2 rfl
    simp only [State.embed, List.cons_append, List.map_cons, ← noted_append ho]
    exact .calling h hk hf
  | separator h hh hcall hs =>
    simp only [State.embed, List.map_append, List.append_assoc, hheld, List.cons_append, List.map_cons, hclosed ho]
    exact .separator h (by simpa using hh) hcall hs
  | closing h ho' hh hcall hc =>
    simp only [State.embed, List.map_append, List.append_assoc, hheld, List.cons_append, List.map_cons, hclosed ho]
    exact .closing h ho' (by simpa using hh) hcall hc
  | called h ho' hk hh hcall hc =>
    simp only [State.embed, List.map_append, List.append_assoc, hheld, List.cons_append, List.map_cons, hclosed ho]
    exact .called h ho' hk (by simpa using hh) hcall hc

theorem run_embed (hw : state.WellNested registry) (h : state.run registry tokens = .ok (out, last)) (offset : Nat)
    (hb : Guarded none below) (ho : noted outer = outer) :
    (state.embed offset below outer).run registry (tokens.map (Token.shift offset)) =
      .ok (out.map (Token.shift offset), last.embed offset below outer) := by
  induction tokens generalizing state out with
  | nil =>
    cases h
    rfl
  | cons token tokens ih =>
    obtain ⟨first, next, more, hstep, hrun, rfl⟩ := exists_of_run_cons h
    have hm := hw.move hstep
    have hembed := (hm.embed offset hb outer (.inr ho) fun _ => Iff.rfl).step_eq
    rw [ho] at hembed
    rw [List.map_append]
    exact run_cons hembed (ih (hm.wellNested hw) hrun)

/-- A run from the start goes on in the same way over a stack. Its first token is noted in the innermost bracket
there. -/
theorem run_start_embed (h : start.run registry tokens = .ok (out, last)) (hne : tokens ≠ []) (offset : Nat)
    (hb : Guarded none below) (outer : List Bracket) (hp : NotCalling previous) :
    run registry ⟨below, outer, previous⟩ (tokens.map (Token.shift offset)) =
      .ok (out.map (Token.shift offset), last.embed offset below (noted outer)) := by
  obtain ⟨token, tokens, rfl⟩ := List.exists_cons_of_ne_nil hne
  obtain ⟨first, next, more, hstep, hrun, rfl⟩ := exists_of_run_cons h
  have hm := wellNested_start.move hstep
  have hprevious : ∀ name, previous = some (.function name) ↔ start.previous = some (.function name) :=
    fun name => ⟨fun he => absurd he (hp name), fun he => nomatch he⟩
  have hfirst := (hm.embed offset hb outer (.inl rfl) hprevious).step_eq
  rw [List.map_append]
  exact run_cons hfirst (run_embed (hm.wellNested wellNested_start) hrun offset hb (noted_noted outer))

end State

/-- Tokens that are rearranged from the start have the same output over a stack. -/
theorem State.delivers_of_ofInfix {registry : Registry} {tokens output : List Token}
    (h : ofInfix registry tokens = .ok output) (hne : tokens ≠ []) (offset : Nat) {below : List Pending}
    (hb : Guarded none below) :
    Delivers registry below (tokens.map (Token.shift offset)) (output.map (Token.shift offset)) := by
  obtain ⟨⟨out, last⟩, hrun, h⟩ := exists_of_bind_eq_ok h
  obtain ⟨rest, hfinish, h⟩ := exists_of_bind_eq_ok h
  obtain rfl : out ++ rest = output := Except.ok.inj h
  obtain ⟨hclosed, hinner, rfl⟩ := finish_eq_ok (wellNested_run hrun) hfinish
  intro brackets previous hp
  have hembed := run_start_embed hrun hne offset hb brackets hp
  rw [embed, hclosed, List.nil_append] at hembed
  exact ⟨_, last.pending.map (Pending.shift offset), last.previous, hembed, by simp, by simpa using hinner⟩

/-- **Tokens that are rearranged from the start are rearranged in a bracket** as they are there. -/
theorem takes_of_ofInfix {registry : Registry} {tokens : List Token} {tree : Tree Token}
    (h : ofInfix registry tokens = .ok tree.postorder) (offset : Nat) (opening : Token) (pending : List Pending) :
    Takes registry (.bracket opening :: pending) (tokens.map (Token.shift offset)) []
      (tree.map (Token.shift offset)) := by
  have hne : tokens ≠ [] := by
    rintro rfl
    have hnil : ofInfix registry [] = .ok [] := rfl
    obtain ⟨label, children⟩ := tree
    rw [hnil, Tree.postorder_node] at h
    exact absurd (Except.ok.inj h) (by simp)
  intro brackets previous hp
  obtain ⟨out, held, last, hrun, hpost, hinner⟩ :=
    State.delivers_of_ofInfix h hne offset (guarded_bracket none opening pending) brackets previous hp
  exact ⟨out, held, last, hrun, by rw [hpost, Tree.postorder_map], hinner, by simp⟩

end Postfix

end Formula
