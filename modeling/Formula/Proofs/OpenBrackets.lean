import Formula.Proofs.Bracketing
import Formula.Proofs.Nesting

/-!
# What the machine knows of open brackets

Behind every run from the start, the stack and the notes on open brackets tell what was read (`State.describes_run`).
Each open bracket is the innermost one of a beginning of the tokens, with balanced tokens behind it (`Unclosed`). What
is noted of it are its segments so far (`Bracket.holding`), and whether a function is called: that is so if the token
before it is the name of one, and then this token waits right below the bracket. What waits above a bracket was read
behind it, and what waits below it was waiting when it was opened.

The nine moves of the machine keep this, one lemma for each way to change the stack.
-/

namespace Formula

/-- The kind of the last token. -/
def lastKind? (tokens : List Token) : Option Token.Kind := tokens.getLast?.map Token.kind

@[simp]
theorem lastKind?_concat (front : List Token) (token : Token) : lastKind? (front ++ [token]) = some token.kind := by
  rw [lastKind?, List.getLast?_concat, Option.map_some]

theorem lastKind?_cons (token : Token) (tokens : List Token) :
    lastKind? (token :: tokens) = (lastKind? tokens).or (some token.kind) := by
  rw [lastKind?, lastKind?, List.getLast?_cons]
  cases tokens.getLast? <;> rfl

theorem exists_of_lastKind? {tokens : List Token} {kind : Token.Kind} (h : lastKind? tokens = some kind) :
    ∃ front last, tokens = front ++ [last] ∧ last.kind = kind := by
  obtain ⟨last, hlast, hk⟩ := Option.map_eq_some_iff.1 h
  obtain ⟨front, rfl⟩ := List.getLast?_eq_some_iff.1 hlast
  exact ⟨front, last, rfl, hk⟩

namespace Postfix

variable {registry : Registry}

/-! ## Notes on a bracket -/

/-- What is to be known of an open bracket in which these tokens stand. -/
def Bracket.holding (call : Option Function) (inside : List Token) : Bracket where
  call := call
  separators := (segments inside).length - 1
  segmentEmpty := decide ((segments inside).getLast? = some [])
  empty := inside.isEmpty

section

variable {call : Option Function} {inside item : List Token} {separator : Token}

/-- What has no separators of its own where it stands is noted like a single token. -/
theorem Bracket.holding_append_of_segmentsAt (h : segmentsAt (depth inside) item = [item]) (hne : item ≠ []) :
    Bracket.holding call (inside ++ item) = (Bracket.holding call inside).mark := by
  obtain ⟨front, last, hf, hl⟩ : ∃ front last, segments inside = front ++ [last] ∧
      segments (inside ++ item) = front ++ [last ++ item] :=
    exists_segmentsAt_append inside (by rwa [Int.zero_add])
  simp [holding, mark, hf, hl, hne]

theorem Bracket.holding_append (hi : Balanced inside) (h : Compact item) :
    Bracket.holding call (inside ++ item) = (Bracket.holding call inside).mark := by
  refine holding_append_of_segmentsAt ?_ h.ne_nil
  rw [hi.closed]
  exact h.segments_eq

theorem Bracket.holding_separator (hi : Balanced inside) (hs : separator.kind = .separator) (hne : inside ≠ []) :
    Bracket.holding call (inside ++ [separator]) = (Bracket.holding call inside).separate := by
  have hsegments : segments (inside ++ [separator]) = segments inside ++ [[]] :=
    segmentsAt_append_separator inside (by rw [hi.closed]; rfl) hs
  have hlength : 0 < (segments inside).length := List.length_pos_iff.2 (segmentsAt_ne_nil 0 inside)
  have hempty : (inside ++ [separator]).isEmpty = inside.isEmpty := by
    rw [List.isEmpty_eq_false_iff.2 hne]
    exact List.isEmpty_eq_false_iff.2 (by simp)
  simp only [holding, separate, hsegments, hempty, List.length_append, List.length_singleton, Nat.add_sub_cancel,
    Nat.sub_add_cancel hlength, List.getLast?_concat, decide_true]

theorem Bracket.ne_nil_of_holding (h : (Bracket.holding call inside).segmentEmpty = false) : inside ≠ [] := by
  rintro rfl
  cases h

end

/-! ## Open brackets -/

/-- What waits was read among these tokens, and is no bracket. -/
def ReadIn (tokens : List Token) (held : List Pending) : Prop :=
  ∀ entry ∈ held, entry.isBracket = false ∧ entry.token ∈ tokens

/-- A bracket that is opened behind the tokens, over the stack, belongs to this call or to none. -/
inductive Opens (registry : Registry) (before : List Token) : List Pending → Option Function → Prop
  | group {pending : List Pending} (h : NotCalling (lastKind? before)) : Opens registry before pending none
  | call {front : List Token} {called : Token} {name : String} {function : Function} {below : List Pending}
      (hb : before = front ++ [called]) (hk : called.kind = .function name)
      (hf : registry.functions.find? name = some function) :
      Opens registry before (.function called :: below) (some function)

/-- The brackets that the tokens leave open, the innermost one first, as the stack and the notes tell them. -/
inductive Unclosed (registry : Registry) : List Token → List Pending → List Bracket → Prop
  | outside {tokens : List Token} {held : List Pending} (ht : Balanced tokens) (hh : ReadIn tokens held) :
      Unclosed registry tokens held []
  | within {before inside : List Token} {opening : Token} {held pending : List Pending} {call : Option Function}
      {outer : List Bracket} (hu : Unclosed registry before pending outer) (ho : opening.kind = .openBracket)
      (hc : Opens registry before pending call) (hi : Balanced inside) (hh : ReadIn inside held) :
      Unclosed registry (before ++ opening :: inside) (held ++ .bracket opening :: pending)
        (.holding call inside :: noted outer)

section

variable {tokens inside item : List Token} {token opening closing separator : Token} {entry : Pending}
  {held pending : List Pending} {bracket : Bracket} {brackets : List Bracket}

theorem ReadIn.append (h : ReadIn tokens held) (behind : List Token) : ReadIn (tokens ++ behind) held :=
  fun entry he => ⟨(h entry he).1, List.mem_append_left behind (h entry he).2⟩

theorem ReadIn.cons (h : ReadIn tokens held) (he : entry.isBracket = false) (ht : entry.token ∈ tokens) :
    ReadIn tokens (entry :: held) :=
  List.forall_mem_cons.2 ⟨⟨he, ht⟩, h⟩

/-- The bracket on top of others on the stack tells the stack apart. -/
theorem eq_of_bracket {held' pending' : List Pending} {opening' : Token} (hh : ∀ e ∈ held, e.isBracket = false)
    (hh' : ∀ e ∈ held', e.isBracket = false)
    (h : held ++ .bracket opening :: pending = held' ++ .bracket opening' :: pending') :
    held = held' ∧ opening = opening' ∧ pending = pending' := by
  have hinner := congrArg State.inner h
  rw [State.inner_append hh rfl, State.inner_append hh' rfl] at hinner
  subst hinner
  simpa using h

namespace Unclosed

/-- Nothing waits above the innermost bracket. -/
theorem bare {before : List Token} {call : Option Function} {outer : List Bracket}
    (hu : Unclosed registry before pending outer) (ho : opening.kind = .openBracket)
    (hc : Opens registry before pending call) (hi : Balanced inside) :
    Unclosed registry (before ++ opening :: inside) (.bracket opening :: pending)
      (.holding call inside :: noted outer) := by
  rw [← List.nil_append (.bracket opening :: pending)]
  exact .within hu ho hc hi (List.forall_mem_nil _)

/-- What waits was read. -/
theorem mem (h : Unclosed registry tokens pending brackets) (he : entry ∈ pending) : entry.token ∈ tokens := by
  induction h with
  | outside ht hh => exact (hh entry he).2
  | within hu ho hc hi hh ih =>
    rw [List.mem_append, List.mem_cons] at he ⊢
    rcases he with he | rfl | he
    · exact .inr (.inr (hh entry he).2)
    · exact .inr (.inl rfl)
    · exact .inl (ih he)

/-- There are as many brackets as the tokens leave open. -/
theorem depth_eq (h : Unclosed registry tokens pending brackets) : depth tokens = brackets.length := by
  induction h with
  | outside ht => exact ht.closed
  | @within before inside opening held pending call outer hu ho hc hi hh ih =>
    have hlength : (noted outer).length = outer.length := by cases outer <;> rfl
    rw [depth_append, depth_cons, hi.closed, ih, ho, List.length_cons, hlength]
    simp

/-- Where no bracket is open, the tokens are balanced and no bracket waits. -/
theorem balanced (h : Unclosed registry tokens pending []) : Balanced tokens ∧ ReadIn tokens pending := by
  cases h with
  | outside ht hh => exact ⟨ht, hh⟩

/-- The innermost bracket on the stack is the innermost one that is open. -/
theorem exists_innermost (h : Unclosed registry tokens pending (bracket :: brackets)) :
    ∃ before opening inside held below call outer, tokens = before ++ opening :: inside ∧
      pending = held ++ .bracket opening :: below ∧ bracket = .holding call inside ∧ brackets = noted outer ∧
      opening.kind = .openBracket ∧ Balanced inside ∧ Unclosed registry before below outer ∧
      Opens registry before below call ∧ ReadIn inside held := by
  cases h with
  | within hu ho hc hi hh => exact ⟨_, _, _, _, _, _, _, rfl, rfl, rfl, rfl, ho, hi, hu, hc, hh⟩

theorem innermost (h : Unclosed registry tokens (held ++ .bracket opening :: pending) (bracket :: brackets))
    (hh : ∀ entry ∈ held, entry.isBracket = false) :
    ∃ before inside call outer, tokens = before ++ opening :: inside ∧ bracket = .holding call inside ∧
      brackets = noted outer ∧ opening.kind = .openBracket ∧ Balanced inside ∧
      Unclosed registry before pending outer ∧ Opens registry before pending call ∧ ReadIn inside held := by
  obtain ⟨before, other, inside, held', below, call, outer, rfl, hp, rfl, rfl, ho, hi, hu, hc, hh'⟩ :=
    h.exists_innermost
  obtain ⟨rfl, rfl, rfl⟩ := eq_of_bracket hh (fun entry he => (hh' entry he).1) hp
  exact ⟨before, inside, call, outer, rfl, rfl, rfl, ho, hi, hu, hc, hh'⟩

/-! ### Changes of the stack -/

/-- A single token or a closed bracket is noted in the innermost bracket. -/
theorem append (h : Unclosed registry tokens pending brackets) (hi : Compact item) :
    Unclosed registry (tokens ++ item) pending (noted brackets) := by
  cases h with
  | outside ht hh => exact .outside (ht.append hi.balanced) (hh.append item)
  | within hu ho hc hb hh =>
    rw [List.append_assoc, List.cons_append, noted, ← Bracket.holding_append hb hi]
    exact .within hu ho hc (hb.append hi.balanced) (hh.append item)

/-- A token comes to wait. -/
theorem wait (h : Unclosed registry tokens pending brackets) (hi : Compact [token]) (he : entry.isBracket = false)
    (ht : entry.token = token) : Unclosed registry (tokens ++ [token]) (entry :: pending) (noted brackets) := by
  have hmem : ∀ tokens : List Token, entry.token ∈ tokens ++ [token] := by simp [ht]
  cases h with
  | outside hb hh => exact .outside (hb.append hi.balanced) ((hh.append _).cons he (hmem _))
  | within hu ho hc hb hh =>
    rw [List.append_assoc, List.cons_append, noted, ← Bracket.holding_append hb hi, ← List.cons_append]
    exact .within hu ho hc (hb.append hi.balanced) ((hh.append _).cons he (hmem _))

/-- What waits above the innermost bracket may be let go. -/
theorem release (h : Unclosed registry tokens (held ++ pending) brackets) (hh : ∀ e ∈ held, e.isBracket = false) :
    Unclosed registry tokens pending brackets := by
  cases brackets with
  | nil =>
    obtain ⟨ht, hr⟩ := h.balanced
    exact .outside ht fun entry he => hr entry (List.mem_append_right held he)
  | cons bracket brackets =>
    obtain ⟨before, opening, inside, held', below, call, outer, rfl, hp, rfl, rfl, ho, hi, hu, hc, hr⟩ :=
      h.exists_innermost
    rcases List.append_eq_append_iff.1 hp with ⟨rest, rfl, rfl⟩ | ⟨rest, rfl, hb⟩
    · exact .within hu ho hc hi fun entry he => hr entry (List.mem_append_right held he)
    · cases rest with
      | nil =>
        obtain rfl : pending = .bracket opening :: below := hb.symm
        exact .bare hu ho hc hi
      | cons first rest =>
        obtain ⟨rfl, -⟩ := List.cons.inj hb
        cases hh (.bracket opening) (by simp)

/-- A separator lets all go that waits above the bracket. -/
theorem separate (h : Unclosed registry tokens (held ++ .bracket opening :: pending) (bracket :: brackets))
    (hh : ∀ entry ∈ held, entry.isBracket = false) (hs : separator.kind = .separator)
    (he : bracket.segmentEmpty = false) :
    Unclosed registry (tokens ++ [separator]) (.bracket opening :: pending) (bracket.separate :: brackets) := by
  obtain ⟨before, inside, call, outer, rfl, rfl, rfl, ho, hi, hu, hc, -⟩ := h.innermost hh
  rw [← Bracket.holding_separator hi hs (Bracket.ne_nil_of_holding he), List.append_assoc, List.cons_append]
  have hflat : separator.kind.nesting = 0 := by rw [hs]; rfl
  exact .bare hu ho hc (hi.append (balanced_singleton hflat))

/-- The innermost bracket is closed. -/
theorem close (h : Unclosed registry tokens (held ++ .bracket opening :: pending) (bracket :: brackets))
    (hh : ∀ entry ∈ held, entry.isBracket = false) (hc : closing.kind = .closeBracket) :
    Unclosed registry (tokens ++ [closing]) pending brackets := by
  obtain ⟨before, inside, call, outer, rfl, rfl, rfl, ho, hi, hu, -⟩ := h.innermost hh
  rw [List.append_assoc, List.cons_append]
  exact hu.append (hi.compact ho hc)

end Unclosed

end

/-! ## Runs -/

namespace State

/-- The stack and the notes are those of the tokens that were read. -/
structure Describes (registry : Registry) (tokens : List Token) (state : State) : Prop where
  unclosed : Unclosed registry tokens state.pending state.brackets
  previous : state.previous = lastKind? tokens
  /-- A function that has just been read waits on top of the stack. -/
  named : ∀ front called name, tokens = front ++ [called] → called.kind = .function name →
    ∃ below, state.pending = .function called :: below

variable {tokens out : List Token} {token : Token} {state next last : State}

theorem describes_start : start.Describes registry [] where
  unclosed := .outside balanced_nil (List.forall_mem_nil _)
  previous := rfl
  named := by
    intro front called name h
    exact absurd h.symm (by simp)

/-- A token that is no function leaves none on top of the stack. -/
theorem describes_of_unclosed (h : Unclosed registry (tokens ++ [token]) state.pending state.brackets)
    (hp : state.previous = some token.kind) (hk : NotCalling (some token.kind)) :
    state.Describes registry (tokens ++ [token]) where
  unclosed := h
  previous := by rw [hp, lastKind?_concat]
  named := by
    intro front called name heq hname
    obtain ⟨-, rfl⟩ : tokens = front ∧ token = called := by simpa using heq
    exact absurd (congrArg some hname) (hk name)

theorem compact_leaf (h : token.kind.isLeaf = true) : Compact [token] := by
  obtain ⟨kind, position⟩ := token
  cases kind with
  | number | text | var => exact compact_singleton rfl fun hs => nomatch hs
  | operator | function | openBracket | closeBracket | separator | other => cases h

theorem compact_operator {fixity : Fixity} {op : Operator} (h : registry.operatorOf? fixity token.kind = some op) :
    Compact [token] := by
  obtain ⟨symbol, arity, hk, -⟩ := Registry.operatorOf?_eq_some.1 h
  exact compact_singleton (by rw [hk]; rfl) (by rw [hk]; exact fun hs => nomatch hs)

theorem compact_function {name : String} (h : token.kind = .function name) : Compact [token] :=
  compact_singleton (by rw [h]; rfl) (by rw [h]; exact fun hs => nomatch hs)

/-- Every move keeps the description. -/
theorem Describes.move (h : state.Describes registry tokens) (hm : Move registry token state out next) :
    next.Describes registry (tokens ++ [token]) := by
  have hu := h.unclosed
  cases hm with
  | leaf hl => exact describes_of_unclosed (hu.append (compact_leaf hl)) rfl (notCalling_leaf hl)
  | unary ho => exact describes_of_unclosed (hu.wait (compact_operator ho) rfl rfl) rfl (notCalling_operator ho)
  | binary ho hh hp =>
    have hheld := hu.release (isBracket_of_yields hh)
    exact describes_of_unclosed (hheld.wait (compact_operator ho) rfl rfl) rfl (notCalling_operator ho)
  | function hf =>
    refine ⟨hu.wait (compact_function hf) rfl rfl, (lastKind?_concat tokens token).symm, ?_⟩
    intro front called name heq hname
    obtain ⟨-, rfl⟩ : tokens = front ∧ token = called := by simpa using heq
    exact ⟨state.pending, rfl⟩
  | opening ho hp =>
    refine describes_of_unclosed ?_ rfl (ho ▸ notCalling_openBracket)
    exact .bare hu ho (.group (h.previous ▸ hp)) balanced_nil
  | calling ho hk hf =>
    refine describes_of_unclosed ?_ rfl (ho ▸ notCalling_openBracket)
    obtain ⟨front, called, rfl, hcalled⟩ := exists_of_lastKind? h.previous.symm
    obtain ⟨below, hbelow⟩ := h.named front called _ rfl hcalled
    obtain ⟨hfunction, rfl⟩ := List.cons.inj hbelow
    obtain rfl := Pending.function.inj hfunction
    exact .bare hu ho (.call rfl hcalled hf) balanced_nil
  | separator hs hh hcall he =>
    exact describes_of_unclosed (hu.separate hh hs he) rfl (hs ▸ notCalling_separator)
  | closing hk ho hh hcall hc =>
    exact describes_of_unclosed (hu.close hh hk) rfl (hk ▸ notCalling_closeBracket)
  | @called held pending opening called name bracket outer previous function hk ho hf hh hcall hc =>
    have hclosed : Unclosed registry (tokens ++ [token]) ([.function called] ++ pending) outer := hu.close hh hk
    refine describes_of_unclosed (hclosed.release ?_) rfl (hk ▸ notCalling_closeBracket)
    intro entry he
    rw [List.mem_singleton.1 he]
    rfl

/-- **Behind a run from the start, the stack and the notes are those of the tokens that were read.** -/
theorem describes_run (h : start.run registry tokens = .ok (out, last)) : last.Describes registry tokens :=
  (run_start_induct (R := fun done _ state => state.Describes registry done) describes_start
    (fun _ hr hm => hr.move hm) h).2

end State

end Postfix

end Formula
