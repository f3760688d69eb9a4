import Formula.Proofs.Acceptance
import Formula.Proofs.Arrangement
import Formula.Proofs.Completion
import Formula.Proofs.Conservation
import Mathlib.Data.List.Nodup

/-!
# The order of the output

Equal tokens are told apart by the number of tokens before them, as `List.zipIdx` counts it. Rearranging gives the
tokens that are neither brackets nor separators, each as often as it occurs, in an order in which the operands stand as
they stood, and in which a function that is called stands behind what its bracket holds and before all that follows the
bracket (`Reorders`, `exists_reorders`).

On a list without repetition these are facts on tokens: the operands pass the machine and nothing else does
(`State.Passes`), and at the bracket that ends a call everything in the bracket has been let go or waits above the
function (`exists_of_call`). A list with repetition is rearranged like its tokens with their numbers
(`ofInfix_numbered`).
-/

namespace Formula.Postfix

open scoped List

variable {registry : Registry}

/-! ## Operands pass -/

/-- What waits beside brackets is neither an operand nor a sign that gets lost. -/
def Waits (held : List Pending) : Prop :=
  ∀ entry ∈ held, entry.isBracket = false → entry.token.kind.isLeaf = false ∧ entry.token.kind.isStructural = false

section

variable {held pending : List Pending} {entry : Pending}

theorem Waits.cons (h : Waits pending)
    (he : entry.isBracket = false → entry.token.kind.isLeaf = false ∧ entry.token.kind.isStructural = false) :
    Waits (entry :: pending) :=
  List.forall_mem_cons.2 ⟨he, h⟩

theorem Waits.of_append (h : Waits (held ++ pending)) : Waits pending :=
  fun entry he => h entry (List.mem_append_right held he)

theorem Waits.mem_held (h : Waits (held ++ pending)) (hh : ∀ entry ∈ held, entry.isBracket = false) :
    ∀ token ∈ held.map Pending.token, token.kind.isLeaf = false ∧ token.kind.isStructural = false := by
  intro token ht
  obtain ⟨entry, he, rfl⟩ := List.mem_map.1 ht
  exact h entry (List.mem_append_left pending he) (hh entry he)

end

namespace State

/-- Of the tokens that were taken in, the operands were let go in their order; what waits is no operand. -/
structure Passes (tokens out : List Token) (state : State) : Prop where
  leaves : out.filter (·.kind.isLeaf) = tokens.filter (·.kind.isLeaf)
  plain : ∀ token ∈ out, token.kind.isStructural = false
  waits : Waits state.pending

variable {tokens out first : List Token} {token : Token} {state next last : State}

theorem passes_start : start.Passes [] [] where
  leaves := rfl
  plain := List.forall_mem_nil _
  waits := List.forall_mem_nil _

/-- A token that is no operand lets only such tokens go. -/
theorem Passes.append (h : state.Passes tokens out) (ht : token.kind.isLeaf = false)
    (hf : ∀ t ∈ first, t.kind.isLeaf = false ∧ t.kind.isStructural = false) (hw : Waits next.pending) :
    next.Passes (tokens ++ [token]) (out ++ first) where
  leaves := by
    have hfirst : first.filter (·.kind.isLeaf) = [] := List.filter_eq_nil_iff.2 fun t hm => by simp [(hf t hm).1]
    rw [List.filter_append, List.filter_append, hfirst, h.leaves, List.filter_cons_of_neg (by simp [ht])]
    rfl
  plain := by
    intro t hm
    rcases List.mem_append.1 hm with hm | hm
    · exact h.plain t hm
    · exact (hf t hm).2
  waits := hw

theorem isLeaf_operator {fixity : Fixity} {op : Operator} (h : registry.operatorOf? fixity token.kind = some op) :
    token.kind.isLeaf = false ∧ token.kind.isStructural = false := by
  obtain ⟨symbol, arity, hk, -⟩ := Registry.operatorOf?_eq_some.1 h
  rw [hk]
  exact ⟨rfl, rfl⟩

theorem isLeaf_function {name : String} (h : token.kind = .function name) :
    token.kind.isLeaf = false ∧ token.kind.isStructural = false := by
  rw [h]
  exact ⟨rfl, rfl⟩

/-- Every move lets operands pass. -/
theorem Passes.move (h : state.Passes tokens out) (hm : Move registry token state first next) :
    next.Passes (tokens ++ [token]) (out ++ first) := by
  have hw := h.waits
  have hnone : ∀ t ∈ ([] : List Token), t.kind.isLeaf = false ∧ t.kind.isStructural = false := List.forall_mem_nil _
  cases hm with
  | leaf hl =>
    refine ⟨?_, ?_, hw⟩
    · rw [List.filter_append, List.filter_append, h.leaves]
    · intro t ht
      rcases List.mem_append.1 ht with ht | ht
      · exact h.plain t ht
      · obtain rfl := List.mem_singleton.1 ht
        exact isStructural_of_isLeaf hl
  | unary ho =>
    have htoken := isLeaf_operator ho
    exact h.append htoken.1 hnone (hw.cons fun _ => htoken)
  | binary ho hh hp =>
    have htoken := isLeaf_operator ho
    exact h.append htoken.1 (hw.mem_held (isBracket_of_yields hh)) (hw.of_append.cons fun _ => htoken)
  | function hf =>
    have htoken := isLeaf_function hf
    exact h.append htoken.1 hnone (hw.cons fun _ => htoken)
  | opening ho hp => exact h.append (by rw [ho]; rfl) hnone (hw.cons fun hb => nomatch hb)
  | calling ho hk hf => exact h.append (by rw [ho]; rfl) hnone (hw.cons fun hb => nomatch hb)
  | separator hs hh => exact h.append (by rw [hs]; rfl) (hw.mem_held hh) hw.of_append
  | closing hk ho hh => exact h.append (by rw [hk]; rfl) (hw.mem_held hh) fun e he => hw.of_append e (.tail _ he)
  | called hk ho hf hh =>
    refine h.append (by rw [hk]; rfl) ?_ fun e he => hw.of_append e (.tail _ (.tail _ he))
    intro t ht
    rcases List.mem_append.1 ht with ht | ht
    · exact hw.mem_held hh t ht
    · obtain rfl := List.mem_singleton.1 ht
      exact isLeaf_function hf

theorem passes_run (h : start.run registry tokens = .ok (out, last)) : last.Passes tokens out :=
  (run_start_induct (R := fun done before state => state.Passes done before) passes_start
    (fun _ hr hm => hr.move hm) h).2

end State

/-- Rearranging keeps the operands in their order, and no bracket or separator is left. -/
theorem leaves_of_ofInfix {tokens output : List Token} (h : ofInfix registry tokens = .ok output) :
    output.filter (·.kind.isLeaf) = tokens.filter (·.kind.isLeaf) ∧
      ∀ token ∈ output, token.kind.isStructural = false := by
  obtain ⟨⟨out, last⟩, hrun, h⟩ := exists_of_bind_eq_ok h
  obtain ⟨rest, hfinish, h⟩ := exists_of_bind_eq_ok h
  obtain rfl : out ++ rest = output := Except.ok.inj h
  obtain ⟨-, hinner, rfl⟩ := State.finish_eq_ok (State.wellNested_run hrun) hfinish
  have hp := State.passes_run hrun
  have hrest : ∀ token ∈ last.pending.map Pending.token,
      token.kind.isLeaf = false ∧ token.kind.isStructural = false := by
    have hw : Waits (last.pending ++ []) := by simpa using hp.waits
    exact hw.mem_held hinner
  constructor
  · have hleaves : (last.pending.map Pending.token).filter (·.kind.isLeaf) = [] :=
      List.filter_eq_nil_iff.2 fun token ht => by simp [(hrest token ht).1]
    rw [List.filter_append, hp.leaves, hleaves, List.append_nil]
  · intro token ht
    rcases List.mem_append.1 ht with ht | ht
    · exact hp.plain token ht
    · exact (hrest token ht).2

/-- Rearranging gives the tokens that it was given, without brackets and separators. -/
theorem perm_lasting_of_ofInfix {tokens output : List Token} (h : ofInfix registry tokens = .ok output) :
    output ~ lasting tokens := by
  have hplain : lasting output = output :=
    List.filter_eq_self.2 fun token ht => by simp [(leaves_of_ofInfix h).2 token ht]
  exact hplain ▸ perm_of_ofInfix h

/-! ## Calls -/

section

variable {tokens output front inside behind : List Token} {token called opening closing : Token} {name : String}

/-- What was read, but for brackets and separators, has been let go or waits. -/
theorem State.mem_passed_iff {out : List Token} {last : State} (h : start.run registry tokens = .ok (out, last))
    (hs : token.kind.isStructural = false) :
    token ∈ out ++ last.pending.map Pending.token ↔ token ∈ tokens := by
  have hmem : token ∈ lasting (out ++ last.pending.map Pending.token) ↔ token ∈ lasting tokens :=
    (State.perm_run h).mem_iff
  rwa [mem_lasting, mem_lasting, and_iff_left hs, and_iff_left hs] at hmem

/-- At the bracket that ends a call, all that was read in it has been let go or waits above the function, and the
bracket is judged by the function that its name stands for. -/
theorem State.exists_of_closed_call {first given : List Token} {middle next : State}
    (hm : start.run registry (front ++ called :: opening :: inside) = .ok (first, middle))
    (hs : middle.step registry closing = .ok (given, next)) (hk : called.kind = .function name)
    (ho : opening.kind = .openBracket) (hi : Balanced inside) (hc : closing.kind = .closeBracket) :
    ∃ held below function outer, middle.pending = held ++ .bracket opening :: .function called :: below ∧
      middle.brackets = .holding (some function) inside :: outer ∧ registry.functions.find? name = some function ∧
      Fills function inside ∧ given = held.map Pending.token ++ [called] ∧
      ∀ entry ∈ below, entry.token ∈ front ++ [called] := by
  have hsplit : front ++ called :: opening :: inside = (front ++ [called]) ++ opening :: inside := by simp
  rw [hsplit] at hm
  have hd := describes_run hm
  have hadmits := ((hd.step_iff_admits (wellNested_run hm)).1 ⟨_, hs⟩).of_closing hc ho hi
  obtain ⟨pending, brackets, previous⟩ := middle
  have hu : Unclosed registry (front ++ [called] ++ opening :: inside) pending brackets := hd.unclosed
  cases brackets with
  | nil => exact absurd hu.balanced.1 (not_balanced_of_innermost ho hi)
  | cons bracket brackets =>
    obtain ⟨before, other, others, held, below, call, outer, heq, rfl, rfl, rfl, ho', hi', hu', hopens, hread⟩ :=
      hu.exists_innermost
    obtain ⟨rfl, rfl, rfl⟩ := eq_of_innermost ho hi ho' hi' heq
    have hlast : lastKind? (front ++ [called]) = some (.function name) := by rw [lastKind?_concat, hk]
    cases hopens with
    | group hg => exact absurd hlast (hg name)
    | @call front' called' name' function below hb hk' hf =>
      obtain ⟨rfl, rfl⟩ : front = front' ∧ called = called' := by simpa using hb
      obtain rfl := Token.Kind.function.inj (hk'.symm.trans hk)
      have hfills := hadmits.2 _ _ hlast hf
      rw [step_called hc (fun e he => (hread e he).1) rfl rfl (Bracket.check_call.2 hfills) (.function called)] at hs
      cases hs
      exact ⟨held, below, function, _, rfl, rfl, hf, hfills, rfl, fun entry he => hu'.mem (.tail _ he)⟩

/-- In a list without repetition, a function that is called comes to stand behind what its bracket holds and before what
follows the bracket. -/
theorem exists_of_call (h : ofInfix registry (front ++ called :: opening :: (inside ++ closing :: behind)) = .ok output)
    (hn : (front ++ called :: opening :: (inside ++ closing :: behind)).Nodup) (hk : called.kind = .function name)
    (ho : opening.kind = .openBracket) (hi : Balanced inside) (hc : closing.kind = .closeBracket) :
    ∃ early late, output = early ++ called :: late ∧
      (∀ token ∈ inside, token.kind.isStructural = false → token ∈ early) ∧
      ∀ token ∈ behind, token.kind.isStructural = false → token ∈ late := by
  have hperm := perm_lasting_of_ofInfix h
  obtain ⟨⟨out, last⟩, hrun, h⟩ := exists_of_bind_eq_ok h
  obtain ⟨rest, -, h⟩ := exists_of_bind_eq_ok h
  obtain rfl : out ++ rest = output := Except.ok.inj h
  have hsplit : front ++ called :: opening :: (inside ++ closing :: behind) =
      (front ++ called :: opening :: inside) ++ closing :: behind := by simp
  rw [hsplit] at hrun hn hperm
  obtain ⟨first, middle, more, hm, hr, rfl⟩ := State.exists_of_run_append hrun
  obtain ⟨given, next, others, hs, -, rfl⟩ := State.exists_of_run_cons hr
  obtain ⟨held, below, function, outer, hpending, -, -, -, rfl, hbelow⟩ :=
    State.exists_of_closed_call hm hs hk ho hi hc
  obtain ⟨hdone, -, hapart⟩ := List.nodup_append.1 hn
  have hinside : ∀ token ∈ inside, token ∉ front ++ [called] := by
    intro token ht hf
    have hsplit' : front ++ called :: opening :: inside = (front ++ [called]) ++ opening :: inside := by simp
    exact (List.nodup_append.1 (hsplit' ▸ hdone)).2.2 token hf token (.tail _ ht) rfl
  have hout : first ++ (held.map Pending.token ++ [called] ++ others) ++ rest =
      first ++ held.map Pending.token ++ called :: (others ++ rest) := by simp
  refine ⟨first ++ held.map Pending.token, others ++ rest, hout, ?_, ?_⟩
  · intro token ht hs
    have hmem := (State.mem_passed_iff hm hs).2 (by simp [ht])
    rw [hpending, List.map_append, ← List.append_assoc, List.mem_append, List.map_cons, List.map_cons, List.mem_cons,
      List.mem_cons] at hmem
    rcases hmem with hearly | heq | heq | hb
    · exact hearly
    · obtain rfl : token = opening := heq
      rw [ho] at hs
      cases hs
    · obtain rfl : token = called := heq
      exact absurd (List.mem_append_right front List.mem_cons_self) (hinside _ ht)
    · -- Below the function waits only what was read before it.
      obtain ⟨entry, he, rfl⟩ := List.mem_map.1 hb
      exact absurd (hbelow entry he) (hinside _ ht)
  · intro token ht hs
    have hmem := hperm.mem_iff.2 (mem_lasting.2 ⟨by simp [ht], hs⟩)
    have hlate : token ∉ front ++ called :: opening :: inside := fun hf => hapart token hf token (.tail _ ht) rfl
    have hearly : token ∉ first ++ held.map Pending.token := by
      intro he
      refine hlate ((State.mem_passed_iff hm hs).1 ?_)
      rw [hpending, List.map_append, ← List.append_assoc]
      exact List.mem_append_left _ he
    rw [hout, List.mem_append, List.mem_cons] at hmem
    rcases hmem with he | rfl | hm
    · exact absurd he hearly
    · exact absurd (by simp) hlate
    · exact hm

end

/-! ## Occurrences -/

/-- The token with the number of tokens before it in the place of its offset. -/
def numbered (occurrence : Token × Nat) : Token := ⟨occurrence.1.kind, some (occurrence.2 : Int)⟩

/-- The occurrence in the list of a token with its number. -/
def occurrence (tokens : List Token) (token : Token) : Token × Nat :=
  let place := (token.position.getD 0).toNat
  (tokens[place]?.getD token, place)

section

variable {tokens output : List Token} {items : List (Token × Nat)} {item : Token × Nat}

theorem occurrence_numbered (h : item ∈ tokens.zipIdx) : occurrence tokens (numbered item) = item := by
  have hplace : tokens[item.2]? = some item.1 := List.mem_zipIdx_iff_getElem?.1 h
  simp [occurrence, numbered, hplace]

theorem map_occurrence_numbered (h : ∀ item ∈ items, item ∈ tokens.zipIdx) :
    (items.map numbered).map (occurrence tokens) = items := by
  rw [List.map_map]
  exact (List.map_congr_left fun item hi => occurrence_numbered (h item hi)).trans (List.map_id items)

theorem nodup_numbered (tokens : List Token) : (tokens.zipIdx.map numbered).Nodup := by
  have hplaces : (tokens.zipIdx.map Prod.snd).Nodup := by
    rw [List.zipIdx_map_snd]
    exact List.nodup_range'
  have hback : ((tokens.zipIdx.map numbered).map (occurrence tokens)).Nodup := by
    rw [map_occurrence_numbered fun _ hi => hi]
    exact hplaces.of_map _
  exact hback.of_map _

/-- A list is rearranged like its tokens with their numbers. -/
theorem ofInfix_numbered (h : ofInfix registry tokens = .ok output) :
    ∃ order : List (Token × Nat), (∀ item ∈ order, item ∈ tokens.zipIdx) ∧
      ofInfix registry (tokens.zipIdx.map numbered) = .ok (order.map numbered) ∧ order.map Prod.fst = output := by
  have hback : (tokens.zipIdx.map numbered).map (Prod.fst ∘ occurrence tokens) = tokens := by
    rw [← List.map_map, map_occurrence_numbered fun _ hi => hi, List.zipIdx_map_fst]
  have hkind : ∀ token ∈ tokens.zipIdx.map numbered,
      ((Prod.fst ∘ occurrence tokens) token).kind.PlaysAs token.kind := by
    intro token ht
    obtain ⟨item, hi, rfl⟩ := List.mem_map.1 ht
    rw [Function.comp_apply, occurrence_numbered hi]
    exact .inl rfl
  have hmap : ofInfix registry _ = _ := ofInfix_map hkind
  rw [hback, h] at hmap
  cases hn : ofInfix registry (tokens.zipIdx.map numbered) with
  | error fault =>
    rw [hn] at hmap
    cases hmap
  | ok items =>
    rw [hn] at hmap
    have hmem : ∀ token ∈ items, ∃ item ∈ tokens.zipIdx, numbered item = token := fun token ht =>
      List.mem_map.1 (mem_lasting.1 ((perm_lasting_of_ofInfix hn).mem_iff.1 ht)).1
    refine ⟨items.map (occurrence tokens), ?_, ?_, ?_⟩
    · intro item hi
      obtain ⟨token, ht, rfl⟩ := List.mem_map.1 hi
      obtain ⟨item, hitem, rfl⟩ := hmem token ht
      rwa [occurrence_numbered hitem]
    · refine congrArg Except.ok (Eq.symm ?_)
      rw [List.map_map]
      refine (List.map_congr_left fun token ht => ?_).trans (List.map_id items)
      obtain ⟨item, hitem, rfl⟩ := hmem token ht
      rw [Function.comp_apply, occurrence_numbered hitem]
      rfl
    · rw [List.map_map, Except.ok.inj hmap]

end

/-! ## The order -/

/-- The output is the tokens of the list in this order of their occurrences. -/
structure Reorders (tokens output : List Token) (order : List (Token × Nat)) : Prop where
  output_eq : output = order.map Prod.fst
  /-- All occurrences but those of brackets and separators are there, each of them once. -/
  perm : order ~ tokens.zipIdx.filter fun item => !item.1.kind.isStructural
  plain : ∀ token ∈ output, token.kind.isStructural = false
  /-- Operands keep their order. -/
  leaves : order.filter (·.1.kind.isLeaf) = tokens.zipIdx.filter (·.1.kind.isLeaf)
  /-- A function that is called stands behind what its bracket holds and before what follows the bracket. -/
  calls : ∀ front called opening inside closing behind name,
    tokens.zipIdx = front ++ called :: opening :: (inside ++ closing :: behind) → called.1.kind = .function name →
    opening.1.kind = .openBracket → Balanced (inside.map Prod.fst) → closing.1.kind = .closeBracket →
    ∃ early late, order = early ++ called :: late ∧
      (∀ item ∈ inside, item.1.kind.isStructural = false → item ∈ early) ∧
      ∀ item ∈ behind, item.1.kind.isStructural = false → item ∈ late

/-- **Rearranging neither loses nor invents tokens**: it gives the occurrences of tokens that are neither brackets nor
separators, with the operands in their order and each called function right between its arguments and the rest. -/
theorem exists_reorders (registry : Registry) (tokens output : List Token) (h : ofInfix registry tokens = .ok output) :
    ∃ order, Reorders tokens output order := by
  obtain ⟨order, horder, hnumbered, rfl⟩ := ofInfix_numbered h
  have hback : ∀ {items : List (Token × Nat)}, (∀ item ∈ items, item ∈ tokens.zipIdx) →
      (items.map numbered).map (occurrence tokens) = items := map_occurrence_numbered
  refine ⟨order, rfl, ?_, (leaves_of_ofInfix h).2, ?_, ?_⟩
  · have hperm := (perm_lasting_of_ofInfix hnumbered).map (occurrence tokens)
    rwa [hback horder, lasting, List.filter_map, hback fun item hi => (List.mem_filter.1 hi).1] at hperm
  · have hleaves := congrArg (List.map (occurrence tokens)) (leaves_of_ofInfix hnumbered).1
    rwa [List.filter_map, List.filter_map, hback fun item hi => horder item (List.mem_filter.1 hi).1,
      hback fun item hi => (List.mem_filter.1 hi).1] at hleaves
  · intro front called opening inside closing behind name heq hk ho hi hc
    have hn := nodup_numbered tokens
    simp only [heq, List.map_append, List.map_cons] at hnumbered hn
    obtain ⟨early, late, hout, hinside, hbehind⟩ :=
      exists_of_call hnumbered hn hk ho (hi.map_congr fun _ => rfl) hc
    have hmem : ∀ item, item ∈ front ++ called :: opening :: (inside ++ closing :: behind) →
        occurrence tokens (numbered item) = item := fun item hm => occurrence_numbered (heq ▸ hm)
    refine ⟨early.map (occurrence tokens), late.map (occurrence tokens), ?_, ?_, ?_⟩
    · rw [← hback horder, hout, List.map_append, List.map_cons, hmem called (by simp)]
    · intro item hm hs
      rw [← hmem item (by simp [hm])]
      exact List.mem_map_of_mem (hinside _ (List.mem_map_of_mem hm) hs)
    · intro item hm hs
      rw [← hmem item (by simp [hm])]
      exact List.mem_map_of_mem (hbehind _ (List.mem_map_of_mem hm) hs)

/-- The tokens of `max max(1, 1)`, of which the first `max` has no bracket. -/
def repeatedTokens : List Token :=
  [.function "max", .function "max", .openBracket, .number 1, .separator, .number 1, .closeBracket].map fun kind =>
    ⟨kind, none⟩

theorem exists_reorders_repeated :
    ∃ output, ofInfix loose repeatedTokens = .ok output ∧
      output.map Token.kind = [.number 1, .number 1, .function "max", .function "max"] ∧
      ∃ order, Reorders repeatedTokens output order :=
  ⟨[.number 1, .number 1, .function "max", .function "max"].map fun kind => ⟨kind, none⟩, rfl, rfl,
    exists_reorders loose repeatedTokens _ rfl⟩

end Formula.Postfix
