import Formula.Proofs.Containment
import Formula.Proofs.HeadToken
import Formula.Proofs.OpenBrackets
import Mathlib.Logic.Relation

/-!
# Reading step by step

A text is read from its start to its end in steps: over one blank, or over one token (`Next`). Where the reader may
stand between two steps is a point of the text (`Point`, `Reached`): at every point it is known which tokens have been
read and which text is left, and that text alone decides what comes (`Reached.read_eq`).

A text is refused as the token is at a point that is reached, and only so (`read_eq_error_iff`).
-/

namespace Formula

/-- A fault that has an offset in a text has none before the given one. -/
def Fault.isFrom (position : Nat) : Fault → Prop
  | .lexical _ offset => position ≤ offset
  | _ => True

theorem Fault.isFrom.mono {fault : Fault} {position offset : Nat} (h : fault.isFrom offset) (hle : position ≤ offset) :
    fault.isFrom position := by
  cases fault with
  | lexical cause place => exact hle.trans h
  | malformed | unknownOperator | unknownFunction | unboundVariable => trivial
  | refused | definition | variableType | cacheEmpty => trivial

theorem Fault.isOfArrangement.isFrom {fault : Fault} (h : fault.isOfArrangement) (position : Nat) :
    fault.isFrom position := by
  cases fault with
  | lexical cause offset => exact absurd h (by simp [isOfArrangement, label?])
  | malformed | unknownOperator | unknownFunction | unboundVariable => trivial
  | refused | definition | variableType | cacheEmpty => trivial

namespace Infix

open Text

/-! ## Points and steps -/

/-- Where the reader stands between two steps: the tokens that it has read, the offset, and the text that is left. -/
structure Point where
  tokens : List Token
  position : Nat
  rest : List Char

/-- What the reader comes to from a point on. -/
def Point.outcome (registry : Registry) (point : Point) : Except Fault (List Token) :=
  prepend point.tokens (readFrom registry registry.symbols (lastKind? point.tokens) point.position point.rest)

/-- A step of the reader: over a blank or over a token. -/
inductive Next (registry : Registry) : Point → Point → Prop
  | blank {tokens : List Token} {position : Nat} {first : Char} {rest : List Char} (hb : isBlank first = true) :
      Next registry ⟨tokens, position, first :: rest⟩ ⟨tokens, position + 1, rest⟩
  | token {tokens : List Token} {position count : Nat} {first : Char} {rest : List Char} {kind : Token.Kind}
      (hb : isBlank first = false)
      (h : readToken registry registry.symbols (lastKind? tokens) position first rest = .ok (kind, count)) :
      Next registry ⟨tokens, position, first :: rest⟩
        ⟨tokens ++ [⟨kind, some (position : Int)⟩], position + count, rest.drop (count - 1)⟩

/-- The reader stops at the point, for the token there is not to be read. -/
inductive Stuck (registry : Registry) (fault : Fault) : Point → Prop
  | token {tokens : List Token} {position : Nat} {first : Char} {rest : List Char} (hb : isBlank first = false)
      (h : readToken registry registry.symbols (lastKind? tokens) position first rest = .error fault) :
      Stuck registry fault ⟨tokens, position, first :: rest⟩

/-- The reader comes to the point from the start of the text. -/
def Reached (registry : Registry) (text : String) (point : Point) : Prop :=
  Relation.ReflTransGen (Next registry) ⟨[], 0, text.toList⟩ point

section

variable {registry : Registry} {text : String} {point next : Point} {fault : Fault}

/-- A token takes its first character. -/
theorem exists_succ_of_readToken {before : Option Token.Kind} {position count : Nat} {first : Char} {rest : List Char}
    {kind : Token.Kind} (h : readToken registry registry.symbols before position first rest = .ok (kind, count)) :
    ∃ taken, count = taken + 1 :=
  ⟨count - 1, (Nat.sub_add_cancel (readToken_eq_ok.1 h).count_le.1).symm⟩

/-- Where no blank stands, a step takes a token. -/
theorem Next.exists_token {tokens : List Token} {position : Nat} {first : Char} {rest : List Char}
    (h : Next registry ⟨tokens, position, first :: rest⟩ next) (hb : isBlank first = false) :
    ∃ kind count, readToken registry registry.symbols (lastKind? tokens) position first rest = .ok (kind, count) ∧
      next = ⟨tokens ++ [⟨kind, some (position : Int)⟩], position + count, (first :: rest).drop count⟩ := by
  cases h with
  | blank hb' =>
    rw [hb] at hb'
    cases hb'
  | @token _ _ count _ _ kind _ h =>
    obtain ⟨taken, rfl⟩ := exists_succ_of_readToken h
    exact ⟨kind, taken + 1, h, rfl⟩

/-- Where a token is read, there is no other way on. -/
theorem next_iff {tokens : List Token} {position count : Nat} {first : Char} {rest : List Char} {kind : Token.Kind}
    (hb : isBlank first = false)
    (h : readToken registry registry.symbols (lastKind? tokens) position first rest = .ok (kind, count)) :
    Next registry ⟨tokens, position, first :: rest⟩ next ↔
      next = ⟨tokens ++ [⟨kind, some (position : Int)⟩], position + count, (first :: rest).drop count⟩ := by
  constructor
  · intro hn
    obtain ⟨other, more, h', rfl⟩ := hn.exists_token hb
    rw [h] at h'
    cases h'
    rfl
  · rintro rfl
    obtain ⟨taken, rfl⟩ := exists_succ_of_readToken h
    exact .token hb h

/-- A step does not change what the reader comes to. -/
theorem Next.outcome_eq (h : Next registry point next) : point.outcome registry = next.outcome registry := by
  cases h with
  | blank hb => rw [Point.outcome, readFrom, if_pos hb, Point.outcome]
  | @token tokens position count first rest kind hb h =>
    have hcount := (readToken_eq_ok.1 h).count_le
    have hread : ReadsAs registry (lastKind? tokens) position (first :: rest.take (count - 1)) (rest.drop (count - 1))
        [⟨kind, some (position : Int)⟩] (some kind) := by
      refine readsAs_of_readToken hb ?_
      have hlength : (rest.take (count - 1)).length + 1 = count := by
        rw [List.length_take_of_le (by omega)]
        omega
      rw [List.take_append_drop, hlength, h]
    rw [ReadsAs, List.cons_append, List.take_append_drop, List.length_cons, List.length_take_of_le (by omega),
      Nat.sub_add_cancel hcount.1] at hread
    simp only [Point.outcome, lastKind?_concat, hread, prepend_prepend]

theorem Stuck.outcome_eq (h : Stuck registry fault point) : point.outcome registry = .error fault := by
  cases h with
  | token hb h =>
    rw [Point.outcome, readFrom, if_neg (by simp [hb]), h]
    rfl

/-! ## Points that are reached -/

theorem reached_start (registry : Registry) (text : String) : Reached registry text ⟨[], 0, text.toList⟩ := .refl

theorem Reached.step (h : Reached registry text point) (hn : Next registry point next) : Reached registry text next :=
  h.tail hn

/-- **At every point the text that is left decides what comes.** -/
theorem Reached.read_eq (h : Reached registry text point) : read registry text = point.outcome registry := by
  induction h with
  | refl =>
    rw [Point.outcome, prepend_nil]
    rfl
  | tail _ hn ih => rw [ih, hn.outcome_eq]

theorem reaches_of_readFrom_error {before : Option Token.Kind} {position : Nat} {rest : List Char}
    (h : readFrom registry registry.symbols before position rest = .error fault) {done : List Token}
    (hd : lastKind? done = before) :
    ∃ point, Relation.ReflTransGen (Next registry) ⟨done, position, rest⟩ point ∧ Stuck registry fault point := by
  fun_induction readFrom registry registry.symbols before position rest generalizing done with
  | case1 => cases h
  | case2 before position first rest hb ih =>
    obtain ⟨point, hreach, hstuck⟩ := ih h hd
    exact ⟨point, hreach.head (.blank hb), hstuck⟩
  | case3 before position first rest hb fault' hread =>
    cases h
    subst hd
    exact ⟨_, .refl, .token (by simpa using hb) hread⟩
  | case4 before position first rest hb kind count hread fault' hrest ih =>
    cases h
    subst hd
    have hcount := (readToken_eq_ok.1 hread).count_le
    obtain ⟨point, hreach, hstuck⟩ := ih hrest (lastKind?_concat done ⟨kind, some (position : Int)⟩)
    rw [show position + 1 + (count - 1) = position + count by omega] at hreach
    exact ⟨point, hreach.head (.token (by simpa using hb) hread), hstuck⟩
  | case5 => cases h

/-- **A text is refused with a fault if and only if a point is reached where the token fails with it.** -/
theorem read_eq_error_iff :
    read registry text = .error fault ↔ ∃ point, Reached registry text point ∧ Stuck registry fault point := by
  constructor
  · intro h
    exact reaches_of_readFrom_error h rfl
  · rintro ⟨point, hreach, hstuck⟩
    rw [hreach.read_eq, hstuck.outcome_eq]

/-- Where a token is refused, so is the text. -/
theorem Reached.read_eq_error {tokens : List Token} {position : Nat} {first : Char} {rest : List Char}
    (h : Reached registry text ⟨tokens, position, first :: rest⟩) (hb : isBlank first = false)
    (hr : readToken registry registry.symbols (lastKind? tokens) position first rest = .error fault) :
    read registry text = .error fault :=
  read_eq_error_iff.2 ⟨_, h, .token hb hr⟩

/-! ## Offsets -/

theorem Next.position_lt (h : Next registry point next) : point.position < next.position := by
  cases h with
  | blank => exact Nat.lt_succ_self _
  | token hb h => exact Nat.lt_add_of_pos_right (readToken_eq_ok.1 h).count_le.1

theorem position_le (h : Relation.ReflTransGen (Next registry) point next) : point.position ≤ next.position := by
  induction h with
  | refl => exact Nat.le_refl _
  | tail _ hn ih => exact ih.trans (Nat.le_of_lt hn.position_lt)

theorem isFrom_readNumeral (text : List Char) (position : Nat) :
    FailsOnly (Fault.isFrom position) (Literal.readNumeral text position) := by
  unfold Literal.readNumeral
  dsimp only
  split
  · exact .error (Nat.le_add_right _ _)
  · split
    · exact .ok _ _
    · exact .error (Nat.le_refl _)

theorem isFrom_readString (quote : Quote) (rest : List Char) (position : Nat) :
    FailsOnly (Fault.isFrom position) (Literal.readString quote rest position) := by
  unfold Literal.readString
  split
  · exact .ok _ _
  · exact .error (Nat.le_refl _)

theorem isFrom_readToken (registry : Registry) (symbols : List String) (before : Option Token.Kind) (position : Nat)
    (first : Char) (rest : List Char) :
    FailsOnly (Fault.isFrom position) (readToken registry symbols before position first rest) := by
  unfold readToken
  dsimp only
  split
  · exact isFrom_readNumeral _ position
  · split
    · exact isFrom_readString _ rest position
    · split
      · have hword := arrangement_wordKind registry symbols before
        exact ((hword _ _).mono fun _ h => h.isFrom position).bind fun _ => .ok _ _
      · split
        · exact .ok _ _
        · split
          · have hkind := arrangement_operatorKind registry before
            exact ((hkind _).mono fun _ h => h.isFrom position).bind fun _ => .ok _ _
          · exact .error (Nat.le_refl _)

/-- From a point on, reading fails at no offset before it. -/
theorem Reached.isFrom (h : Reached registry text point) :
    FailsOnly (Fault.isFrom point.position) (read registry text) := by
  intro fault hf
  rw [h.read_eq, Point.outcome, prepend] at hf
  cases hr : readFrom registry registry.symbols (lastKind? point.tokens) point.position point.rest with
  | ok tokens =>
    rw [hr] at hf
    cases hf
  | error fault' =>
    rw [hr] at hf
    cases hf
    obtain ⟨last, hreach, hstuck⟩ := reaches_of_readFrom_error hr rfl
    cases hstuck with
    | token hb hread => exact (isFrom_readToken registry _ _ _ _ _ fault hread).mono (position_le hreach)

/-- Where a step can be made, no token is refused. -/
theorem Reached.read_ne_lexical (h : Reached registry text point) (hn : Next registry point next)
    (cause : LexicalFault) : read registry text ≠ .error (.lexical cause point.position) := by
  intro hr
  have hle : next.position ≤ point.position := (h.step hn).isFrom _ hr
  exact absurd hn.position_lt (Nat.not_lt.2 hle)

end

end Infix

end Formula
