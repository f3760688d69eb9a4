import Formula.Proofs.Operands
import Formula.Proofs.Reordering
import Mathlib.Data.List.Forall2

/-!
# The stack and the notes on its brackets

At every point of a run, the notes correspond to the brackets on the stack, one to one and in order (`Corresponds`). A
note tells of the tokens that were read since its bracket, and a function is noted just if the token before the bracket
is the name of one; then this very token waits right below the bracket (`IsNoteOn`). So a closing bracket always finds
an opening one on the stack, and below that of a call the function to be let go (`notes_correspond`).

Which token it is that waits cannot be told from the token alone, since a list may hold it twice. It is told from the
stack: below a bracket waits what was waiting when the bracket was opened, since nothing that is read before the bracket
is closed gets at it (`State.rests_run`, `LeavesStack.of_innermost`).
-/

namespace Formula.Postfix

variable {registry : Registry}

/-! ## Brackets on the stack -/

/-- The brackets on a stack, each with what waits below it. -/
def openings : List Pending → List (Token × List Pending)
  | [] => []
  | .bracket opening :: below => (opening, below) :: openings below
  | .operator _ _ :: below | .function _ :: below => openings below

section

variable {held pending below : List Pending} {opening : Token}

theorem openings_held (hh : ∀ entry ∈ held, entry.isBracket = false) (pending : List Pending) :
    openings (held ++ pending) = openings pending := by
  induction held with
  | nil => rfl
  | cons entry held ih =>
    obtain ⟨he, hheld⟩ := List.forall_mem_cons.1 hh
    cases entry with
    | operator token op => exact ih hheld
    | function token => exact ih hheld
    | bracket token => cases he

/-- The innermost bracket on the stack is met first. -/
theorem fromBracket_of_openings {more : List (Token × List Pending)}
    (h : openings pending = (opening, below) :: more) : State.fromBracket pending = .bracket opening :: below := by
  induction pending with
  | nil => cases h
  | cons entry pending ih =>
    cases entry with
    | operator token op => exact ih h
    | function token => exact ih h
    | bracket token =>
      cases h
      rfl

end

/-! ## What waits below a bracket -/

/-- The stack ends with this base, and so many brackets wait over it. -/
def Rests (base : List Pending) (level : Int) (pending : List Pending) : Prop :=
  ∃ held, pending = held ++ base ∧ (held.countP Pending.isBracket : Int) = level

section

variable {base held pending below : List Pending} {entry : Pending} {opening other : Token} {level : Int}

theorem Rests.cons (h : Rests base level pending) (he : entry.isBracket = false) :
    Rests base level (entry :: pending) := by
  obtain ⟨held, rfl, hc⟩ := h
  exact ⟨entry :: held, rfl, by rwa [List.countP_cons_of_neg (by simp [he])]⟩

theorem Rests.bracket (h : Rests base level pending) : Rests base (level + 1) (.bracket other :: pending) := by
  obtain ⟨held, rfl, rfl⟩ := h
  refine ⟨.bracket other :: held, rfl, ?_⟩
  rw [List.countP_cons_of_pos rfl]
  rfl

/-- The entry on top of the stack is above the base, if the base starts with a bracket and the entry is none. -/
theorem Rests.of_cons (h : Rests (.bracket opening :: below) level (entry :: pending)) (he : entry.isBracket = false) :
    Rests (.bracket opening :: below) level pending := by
  obtain ⟨held, heq, hc⟩ := h
  cases held with
  | nil =>
    obtain ⟨rfl, -⟩ := List.cons.inj heq
    cases he
  | cons first held =>
    obtain ⟨rfl, rfl⟩ := List.cons.inj heq
    exact ⟨held, rfl, by rwa [List.countP_cons_of_neg (by simp [he])] at hc⟩

theorem Rests.of_append (h : Rests (.bracket opening :: below) level (held ++ pending))
    (hh : ∀ entry ∈ held, entry.isBracket = false) : Rests (.bracket opening :: below) level pending := by
  induction held with
  | nil => exact h
  | cons entry held ih =>
    obtain ⟨he, hh⟩ := List.forall_mem_cons.1 hh
    exact ih (h.of_cons he) hh

/-- The bracket on top of the stack is above the base, if any is. -/
theorem Rests.of_bracket (h : Rests base level (.bracket other :: pending)) (hl : 0 < level) :
    Rests base (level - 1) pending := by
  obtain ⟨held, heq, hc⟩ := h
  cases held with
  | nil =>
    rw [← hc] at hl
    exact absurd hl (Int.lt_irrefl 0)
  | cons first held =>
    obtain ⟨rfl, rfl⟩ := List.cons.inj heq
    rw [List.countP_cons_of_pos rfl] at hc
    exact ⟨held, rfl, by omega⟩

end

namespace State

variable {state next last : State} {token opening : Token} {tokens out : List Token} {below : List Pending}
  {level : Int}

/-- A move leaves a bracket and what waits below it alone, unless it closes this bracket. -/
theorem Move.rests (hm : Move registry token state out next)
    (h : Rests (.bracket opening :: below) level state.pending) (hl : 0 ≤ level + token.kind.nesting) :
    Rests (.bracket opening :: below) (level + token.kind.nesting) next.pending := by
  have hcompact : Compact [token] → level + token.kind.nesting = level := by
    intro hc
    have hclosed := hc.balanced.closed
    rw [depth_cons, depth_nil] at hclosed
    omega
  cases hm with
  | leaf hk =>
    rw [hcompact (compact_leaf hk)]
    exact h
  | unary ho =>
    rw [hcompact (compact_operator ho)]
    exact h.cons rfl
  | binary ho hh hp =>
    rw [hcompact (compact_operator ho)]
    exact (h.of_append (isBracket_of_yields hh)).cons rfl
  | function hk =>
    rw [hcompact (compact_function hk)]
    exact h.cons rfl
  | opening hk hp =>
    rw [hk]
    exact h.bracket
  | calling hk hf hr =>
    rw [hk]
    exact h.bracket
  | separator hk hh hcall hs =>
    rw [hk, Token.Kind.nesting_separator, Int.add_zero]
    exact h.of_append hh
  | closing hk ho hh hcall hc =>
    rw [hk, Token.Kind.nesting_closeBracket] at hl ⊢
    exact (h.of_append hh).of_bracket (by omega)
  | called hk ho hf hh hcall hc =>
    rw [hk, Token.Kind.nesting_closeBracket] at hl ⊢
    exact ((h.of_append hh).of_bracket (by omega)).of_cons rfl

/-- A run leaves a bracket and what waits below it alone, as long as the bracket is not closed. -/
theorem rests_run (hw : state.WellNested registry) (hr : state.run registry tokens = .ok (out, last))
    (h : Rests (.bracket opening :: below) level state.pending)
    (hl : ∀ before, before <+: tokens → 0 ≤ level + depth before) :
    Rests (.bracket opening :: below) (level + depth tokens) last.pending := by
  induction tokens generalizing state level out with
  | nil =>
    cases hr
    simpa using h
  | cons token tokens ih =>
    obtain ⟨first, next, more, hs, hrest, rfl⟩ := exists_of_run_cons hr
    have hm := hw.move hs
    have htoken : 0 ≤ level + token.kind.nesting := by
      simpa using hl [token] (List.prefix_append [token] tokens)
    rw [depth_cons, ← Int.add_assoc]
    refine ih (hm.wellNested hw) hrest (hm.rests h htoken) fun before hp => ?_
    rw [Int.add_assoc, ← depth_cons]
    exact hl (token :: before) ((List.prefix_cons_inj token).2 hp)

theorem pending_of_opening (hw : state.WellNested registry) (hs : state.step registry token = .ok (out, next))
    (hk : token.kind = .openBracket) : next.pending = .bracket token :: state.pending := by
  obtain ⟨kind, position⟩ := token
  cases hk
  cases hw.move hs with
  | opening | calling => rfl
  | leaf h | unary h | binary h | function h | separator h | closing h | called h => cases h

end State

/-- Behind these tokens, this is the stack. -/
def LeavesStack (registry : Registry) (tokens : List Token) (pending : List Pending) : Prop :=
  ∃ out state, State.start.run registry tokens = .ok (out, state) ∧ state.pending = pending

section

variable {before inside front : List Token} {opening called : Token} {held below : List Pending} {name : String}

/-- Below the innermost open bracket waits what was waiting when it was opened. -/
theorem LeavesStack.of_innermost (h : LeavesStack registry (before ++ opening :: inside)
      (held ++ .bracket opening :: below)) (ho : opening.kind = .openBracket) (hi : Balanced inside)
    (hh : ∀ entry ∈ held, entry.isBracket = false) : LeavesStack registry before below := by
  obtain ⟨out, last, hr, hpending⟩ := h
  obtain ⟨first, middle, more, hm, hmore, rfl⟩ := State.exists_of_run_append hr
  obtain ⟨given, next, others, hs, hothers, rfl⟩ := State.exists_of_run_cons hmore
  have hw := State.wellNested_run hm
  have hnext := State.pending_of_opening hw hs ho
  have hbase : Rests (.bracket opening :: middle.pending) 0 next.pending := ⟨[], hnext, rfl⟩
  obtain ⟨held', heq, hcount⟩ := State.rests_run ((hw.move hs).wellNested hw) hothers hbase fun before hp => by
    simpa using hi.nonneg before hp
  rw [hi.closed, Int.add_zero] at hcount
  have hh' : ∀ entry ∈ held', entry.isBracket = false := by
    simpa using List.countP_eq_zero.1 (Int.ofNat_eq_zero.1 hcount)
  -- Over either bracket waits no other one, so they are the same.
  obtain ⟨-, -, rfl⟩ := eq_of_bracket hh hh' (hpending.symm.trans heq)
  exact ⟨first, middle, hm, rfl⟩

/-- Below the name of a function that has just been read waits what was waiting before it. -/
theorem LeavesStack.of_function {entry : Pending} (h : LeavesStack registry (front ++ [called]) (entry :: below))
    (hk : called.kind = .function name) : LeavesStack registry front below := by
  obtain ⟨out, last, hr, hpending⟩ := h
  obtain ⟨first, middle, more, hm, hmore, rfl⟩ := State.exists_of_run_append hr
  obtain ⟨given, next, others, hs, hnil, rfl⟩ := State.exists_of_run_cons hmore
  rw [State.step_function hk] at hs
  cases hs
  cases hnil
  exact ⟨first, middle, hm, (List.cons.inj hpending).2⟩

end

/-! ## Notes -/

/-- Where these tokens were read, this is the note on a bracket that waits over these entries; the tokens are those
before the bracket, the bracket and those behind it. -/
structure IsNoteOn (registry : Registry) (read : List Token) (opening : Token) (below : List Pending)
    (bracket : Bracket) (before inside : List Token) : Prop where
  read_eq : read = before ++ opening :: inside
  kind_opening : opening.kind = .openBracket
  /-- The bracket is open. -/
  keepsOpen : KeepsOpen inside
  /-- Below the bracket waits what was waiting when it was opened. -/
  leavesStack : LeavesStack registry before below
  /-- A function is noted if and only if the token before the bracket is the name of one. -/
  isSome_call_iff : bracket.call.isSome = true ↔ ∃ name, lastKind? before = some (.function name)
  /-- This token waits right below the bracket, over what was waiting before it, and the function is the one that is
  registered under its name. -/
  called : ∀ function, bracket.call = some function → ∃ front called name others, before = front ++ [called] ∧
    called.kind = .function name ∧ registry.resolveFunction name = .ok function ∧
    below = .function called :: others ∧ LeavesStack registry front others
  /-- All else in the note is told from the tokens behind the bracket. -/
  note_eq : bracket = .holding bracket.call inside

/-- Where these tokens were read, the notes correspond to the brackets on the stack. -/
structure Corresponds (registry : Registry) (read : List Token) (pending : List Pending) (brackets : List Bracket) :
    Prop where
  /-- What waits is a bracket if and only if its token is one. -/
  isBracket_iff : ∀ entry ∈ pending, entry.isBracket = true ↔ entry.token.kind = .openBracket
  /-- There is one note on each bracket, in the same order. -/
  notes : List.Forall₂ (fun place bracket => ∃ before inside,
    IsNoteOn registry read place.1 place.2 bracket before inside) (openings pending) brackets

section

variable {read before inside others : List Token} {opening other : Token} {below pending : List Pending}
  {bracket : Bracket} {brackets : List Bracket} {call : Option Function}

/-- The note on a bracket that belongs to this call or to none. -/
theorem Opens.isNoteOn (h : Opens registry before below call) (ho : opening.kind = .openBracket)
    (hb : LeavesStack registry before below) (hi : KeepsOpen inside) :
    IsNoteOn registry (before ++ opening :: inside) opening below (.holding call inside) before inside where
  read_eq := rfl
  kind_opening := ho
  keepsOpen := hi
  leavesStack := hb
  isSome_call_iff := by
    cases h with
    | group hg => exact iff_of_false Bool.false_ne_true fun ⟨name, hn⟩ => hg name hn
    | @call front called name function below hf hk hr =>
      refine iff_of_true rfl ⟨name, ?_⟩
      rw [hf, lastKind?_concat, hk]
  called := by
    intro function hcall
    cases h with
    | group => cases hcall
    | @call front called name other below hf hk hr =>
      obtain rfl : other = function := Option.some.inj hcall
      exact ⟨front, called, name, below, hf, hk, Registry.resolveFunction_eq_ok.2 hr, rfl, (hf ▸ hb).of_function hk⟩
  note_eq := rfl

/-- A bracket is marked for one that is opened in it, and for nothing that stands in that one. -/
theorem IsNoteOn.append (h : IsNoteOn registry read opening below bracket before inside)
    (ho : other.kind = .openBracket) (hk : KeepsOpen others) :
    IsNoteOn registry (read ++ other :: others) opening below bracket.mark before (inside ++ other :: others) where
  read_eq := by rw [h.read_eq, List.append_assoc, List.cons_append]
  kind_opening := h.kind_opening
  keepsOpen := h.keepsOpen.append (hk.cons_opening ho)
  leavesStack := h.leavesStack
  isSome_call_iff := h.isSome_call_iff
  called := h.called
  note_eq := by
    have hone : segmentsAt (depth inside) (other :: (others ++ [])) = _ :=
      KeepsOpen.segmentsAt_opening ho hk (List.forall_mem_nil _) h.keepsOpen.depth_nonneg
    rw [List.append_nil] at hone
    rw [Bracket.holding_append_of_segmentsAt hone (List.cons_ne_nil _ _)]
    exact congrArg Bracket.mark h.note_eq

/-- All open brackets but the innermost one have a bracket in them. -/
theorem Unclosed.noted_eq (h : Unclosed registry read pending brackets) :
    noted brackets = brackets.map Bracket.mark := by
  induction h with
  | outside => rfl
  | within _ _ _ _ _ ih =>
    rw [noted, List.map_cons, ih, List.map_map]
    rfl

/-- On each bracket on the stack there is a note. -/
theorem Unclosed.notes (h : Unclosed registry read pending brackets) (hs : LeavesStack registry read pending) :
    List.Forall₂ (fun place bracket => ∃ before inside, IsNoteOn registry read place.1 place.2 bracket before inside)
      (openings pending) brackets := by
  -- By induction on the open brackets; the stack below the innermost one is that of the tokens before it.
  induction h with
  | outside ht hh =>
    have hnone := openings_held (fun entry he => (hh entry he).1) []
    rw [List.append_nil] at hnone
    rw [hnone]
    exact .nil
  | @within before inside opening held pending call outer hu ho hc hi hh ih =>
    have hheld : ∀ entry ∈ held, entry.isBracket = false := fun entry he => (hh entry he).1
    have hbelow := hs.of_innermost ho hi hheld
    rw [openings_held hheld, hu.noted_eq]
    refine .cons ⟨before, inside, hc.isNoteOn ho hbelow hi.nonneg⟩ (List.forall₂_map_right_iff.2 ?_)
    refine (ih hbelow).imp fun _ _ ⟨before', inside', hnote⟩ => ?_
    exact ⟨before', inside' ++ opening :: inside, hnote.append ho hi.nonneg⟩

theorem Unclosed.kind_of_mem (h : Unclosed registry read pending brackets) (hm : .bracket opening ∈ pending) :
    opening.kind = .openBracket := by
  induction h with
  | outside ht hh => cases (hh _ hm).1
  | within hu ho hc hi hh ih =>
    rcases List.mem_append.1 hm with hm | hm
    · cases (hh _ hm).1
    · rcases List.mem_cons.1 hm with heq | hm
      · cases heq
        exact ho
      · exact ih hm

end

/-! ## Every point of a run -/

/-- Behind a run, the notes correspond to the stack. -/
theorem corresponds_run {read out : List Token} {state : State} (h : State.start.run registry read = .ok (out, state)) :
    Corresponds registry read state.pending state.brackets where
  isBracket_iff := by
    have hu := (State.describes_run h).unclosed
    have hw := (State.passes_run h).waits
    intro entry he
    cases entry with
    | bracket opening => exact iff_of_true rfl (hu.kind_of_mem he)
    | operator token op | function token =>
      refine iff_of_false Bool.false_ne_true fun hk => ?_
      have hplain := (hw _ he rfl).2
      rw [hk] at hplain
      cases hplain
  notes := (State.describes_run h).unclosed.notes ⟨out, state, h, rfl⟩

/-- Entries that are no brackets may be let go. -/
theorem Corresponds.of_append {read : List Token} {held pending : List Pending} {brackets : List Bracket}
    (h : Corresponds registry read (held ++ pending) brackets) (hh : ∀ entry ∈ held, entry.isBracket = false) :
    Corresponds registry read pending brackets where
  isBracket_iff entry he := h.isBracket_iff entry (List.mem_append_right held he)
  notes := openings_held hh pending ▸ h.notes

/-- **At every point of a run, the notes correspond to the brackets on the stack**, also while other entries are let go.
So a closing bracket finds an opening one on the stack, the one that its note is on, and if a function is noted, right
below it the name that stands before that bracket, which is let go last. -/
theorem notes_correspond (registry : Registry) (read rest out : List Token) (state : State)
    (h : State.start.run registry read = .ok (out, state)) :
    ofInfix registry (read ++ rest) = (state.complete registry rest).map (out ++ ·) ∧
      (∀ held waiting, state.pending = held ++ waiting → (∀ entry ∈ held, entry.isBracket = false) →
        Corresponds registry read waiting state.brackets) ∧
      ∀ closing bracket outer, closing.kind = .closeBracket → state.brackets = bracket :: outer →
        ∃ opening below before inside, State.fromBracket state.pending = .bracket opening :: below ∧
          IsNoteOn registry read opening below bracket before inside ∧
          (bracket.call = none → state.step registry closing = bracket.check.map fun _ =>
            ((State.inner state.pending).map Pending.token, ⟨below, outer, some closing.kind⟩)) ∧
          ∀ function, bracket.call = some function → ∃ called others, before.getLast? = some called ∧
            below = .function called :: others ∧ state.step registry closing = bracket.check.map fun _ =>
              ((State.inner state.pending).map Pending.token ++ [called], ⟨others, outer, some closing.kind⟩) := by
  have hc := corresponds_run h
  refine ⟨State.complete_append h rest, fun held waiting hpending hh => (hpending ▸ hc).of_append hh, ?_⟩
  obtain ⟨pending, brackets, previous⟩ := state
  rintro closing bracket outer hk rfl
  obtain ⟨⟨opening, below⟩, more, ⟨before, inside, hnote⟩, -, hopenings⟩ := List.forall₂_cons_right_iff.1 hc.notes
  have hfrom := fromBracket_of_openings hopenings
  refine ⟨opening, below, before, inside, hfrom, hnote, State.step_closing_of_none hk hfrom, ?_⟩
  intro function hcall
  obtain ⟨front, called, name, others, rfl, -, -, rfl, -⟩ := hnote.called function hcall
  exact ⟨called, others, List.getLast?_concat, rfl, State.step_closing_of_some hk hfrom hcall⟩

/-- The tokens of `max max(3, (4) * 5 ^ 6`, of which the first `max` has no bracket and the last bracket is open. -/
def openCallTokens : List Token :=
  bare [.function "max", .function "max", .openBracket, .number 3, .separator, .openBracket, .number 4, .closeBracket,
    .operator "*" 2, .number 5, .operator "^" 2, .number 6]

/-- A closing bracket lets the second `max` go, behind the operators that wait above it, and the first one stays. -/
theorem notes_correspond_openCall :
    ∃ out state bracket opening below, State.start.run loose openCallTokens = .ok (out, state) ∧
      state.brackets = [bracket] ∧ bracket.separators = 1 ∧
      Corresponds loose openCallTokens state.pending [bracket] ∧
      State.fromBracket state.pending = .bracket opening :: .function ⟨.function "max", none⟩ :: below ∧
      below = [.function ⟨.function "max", none⟩] ∧
      state.step loose ⟨.closeBracket, none⟩ =
        .ok (bare [.operator "^" 2, .operator "*" 2, .function "max"], ⟨below, [], some .closeBracket⟩) := by
  have hr : State.start.run loose openCallTokens = .ok (_, _) := rfl
  obtain ⟨-, hwaiting, hclosing⟩ := notes_correspond loose openCallTokens [] _ _ hr
  obtain ⟨opening, below, before, inside, hfrom, -, -, hcall⟩ := hclosing ⟨.closeBracket, none⟩ _ _ rfl rfl
  obtain ⟨called, others, -, rfl, hstep⟩ := hcall _ rfl
  have hc := hwaiting [] _ rfl (List.forall_mem_nil _)
  cases hfrom
  exact ⟨_, _, _, _, _, hr, rfl, rfl, hc, rfl, rfl, hstep⟩

end Formula.Postfix
