import Formula.Proofs.Nesting

/-!
# Rearranging keeps the tokens

A move lets tokens go that waited or were just taken in, and the others wait on; only brackets and separators get lost
(`State.Move.perm`). So rearranging gives the tokens that it was given, without those, in another order
(`Postfix.perm_of_ofInfix`).
-/

namespace Formula

/-- A bracket or a separator. -/
def Token.Kind.isStructural : Token.Kind → Bool
  | .openBracket | .closeBracket | .separator => true
  | _ => false

theorem isStructural_of_isLeaf {kind : Token.Kind} (h : kind.isLeaf = true) : kind.isStructural = false := by
  cases kind with
  | number | text | var => rfl
  | operator | function | openBracket | closeBracket | separator | other => cases h

namespace Postfix

open scoped List

variable {registry : Registry}

/-- The tokens that are neither brackets nor separators. -/
def lasting (tokens : List Token) : List Token := tokens.filter fun token => !token.kind.isStructural

@[simp]
theorem lasting_append (tokens others : List Token) : lasting (tokens ++ others) = lasting tokens ++ lasting others :=
  List.filter_append tokens others

theorem lasting_cons_of_structural {token : Token} (h : token.kind.isStructural = true) (tokens : List Token) :
    lasting (token :: tokens) = lasting tokens :=
  List.filter_cons_of_neg (by simp [h])

theorem mem_lasting {token : Token} {tokens : List Token} :
    token ∈ lasting tokens ↔ token ∈ tokens ∧ token.kind.isStructural = false := by
  simp [lasting]

/-- What was let go and what waits behind a move is what waited before it and the token that was taken in. -/
theorem State.Move.perm {token : Token} {state next : State} {out : List Token}
    (h : Move registry token state out next) :
    lasting (out ++ next.pending.map Pending.token) ~ lasting (token :: state.pending.map Pending.token) := by
  cases h with
  | leaf | unary | function | opening | calling => exact .refl _
  | binary h hh hp =>
    simp only [List.map_append, List.map_cons, Pending.token]
    exact List.perm_middle.filter _
  | separator h =>
    have hs : token.kind.isStructural = true := by rw [h]; rfl
    rw [lasting_cons_of_structural hs, List.map_append]
  | closing h ho =>
    have hs : token.kind.isStructural = true := by rw [h]; rfl
    have hopening : ∀ tokens, lasting (_ :: tokens) = lasting tokens :=
      lasting_cons_of_structural (by rw [ho]; rfl)
    simp [lasting_cons_of_structural hs, Pending.token, hopening]
  | called h ho =>
    have hs : token.kind.isStructural = true := by rw [h]; rfl
    have hopening : ∀ tokens, lasting (_ :: tokens) = lasting tokens :=
      lasting_cons_of_structural (by rw [ho]; rfl)
    simp only [lasting_cons_of_structural hs, List.map_append, List.map_cons, Pending.token, List.append_assoc,
      List.singleton_append, lasting_append, hopening]
    exact .refl _

/-- What was let go and what waits behind a run is what was taken in. -/
theorem State.perm_run {tokens out : List Token} {last : State} (h : start.run registry tokens = .ok (out, last)) :
    lasting (out ++ last.pending.map Pending.token) ~ lasting tokens := by
  refine (run_start_induct (R := fun done before state =>
    lasting (before ++ state.pending.map Pending.token) ~ lasting done) (.refl _) ?_ h).2
  intro done before token first state next _ hr hm
  calc lasting (before ++ first ++ next.pending.map Pending.token)
    _ = lasting before ++ lasting (first ++ next.pending.map Pending.token) := by rw [List.append_assoc, lasting_append]
    _ ~ lasting before ++ lasting (token :: state.pending.map Pending.token) := hm.perm.append_left _
    _ ~ lasting (token :: (before ++ state.pending.map Pending.token)) := by
      rw [← lasting_append]
      exact List.perm_middle.filter _
    _ ~ lasting (before ++ state.pending.map Pending.token ++ [token]) :=
      (List.perm_append_singleton token _).symm.filter _
    _ ~ lasting (done ++ [token]) := by
      rw [lasting_append _ [token], lasting_append done]
      exact hr.append_right _

/-- Rearranging gives the tokens that it was given, without brackets and separators. -/
theorem perm_of_ofInfix {tokens output : List Token} (h : ofInfix registry tokens = .ok output) :
    lasting output ~ lasting tokens := by
  obtain ⟨⟨out, last⟩, hrun, h⟩ := exists_of_bind_eq_ok h
  obtain ⟨rest, hfinish, h⟩ := exists_of_bind_eq_ok h
  obtain rfl : out ++ rest = output := Except.ok.inj h
  obtain ⟨-, -, rfl⟩ := State.finish_eq_ok (State.wellNested_run hrun) hfinish
  exact State.perm_run hrun

theorem mem_of_ofInfix {tokens output : List Token} (h : ofInfix registry tokens = .ok output) {token : Token}
    (ht : token ∈ output) (hs : token.kind.isStructural = false) : token ∈ tokens :=
  (mem_lasting.1 ((perm_of_ofInfix h).mem_iff.1 (mem_lasting.2 ⟨ht, hs⟩))).1

end Postfix

end Formula
