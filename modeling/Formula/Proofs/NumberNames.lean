import Formula.Proofs.CharacterClasses
import Formula.Token

/-!
# Names of numbers

A number is written from its decimal digits, and so its name starts with a digit, behind a sign if it is negative, or
it is one of the words for what is not finite (`NumberShape`, `numberShape_numberName`). There is no blank in it, and
it is a word only if it is one of these two (`NumberShape.eq_of_isWord`).
-/

namespace Formula

/-! ## Texts that start with a digit -/

/-- The text starts with a digit, and there is no blank in it. -/
structure StartsWithDigit (text : List Char) : Prop where
  head : ∃ c ∈ text.head?, c.isDigit = true
  not_mem : ' ' ∉ text

namespace StartsWithDigit

variable {text : List Char}

theorem ne_nil (h : StartsWithDigit text) : text ≠ [] := by
  rintro rfl
  obtain ⟨c, hc, -⟩ := h.head
  cases hc

theorem append (h : StartsWithDigit text) {behind : List Char} (hb : ' ' ∉ behind) :
    StartsWithDigit (text ++ behind) where
  head := by
    obtain ⟨c, hc, hd⟩ := h.head
    exact ⟨c, by simp [List.head?_append, Option.mem_def.1 hc], hd⟩
  not_mem := by simp [h.not_mem, hb]

theorem of_prefix (h : StartsWithDigit text) {front : List Char} (hp : front <+: text) (hne : front ≠ []) :
    StartsWithDigit front where
  head := by
    obtain ⟨c, hc, hd⟩ := h.head
    obtain ⟨d, front, rfl⟩ := List.exists_cons_of_ne_nil hne
    obtain ⟨behind, rfl⟩ := hp
    exact ⟨c, hc, hd⟩
  not_mem := fun hm => h.not_mem (hp.subset hm)

end StartsWithDigit

theorem startsWithDigit_of_all {text : List Char} (hne : text ≠ []) (h : ∀ c ∈ text, c.isDigit = true) :
    StartsWithDigit text where
  head := by
    obtain ⟨c, rest, rfl⟩ := List.exists_cons_of_ne_nil hne
    exact ⟨c, rfl, h c List.mem_cons_self⟩
  not_mem := fun hm => absurd (h _ hm) (by decide)

theorem startsWithDigit_decimalDigits (n : Nat) : StartsWithDigit (decimalDigits n) :=
  startsWithDigit_of_all Nat.toDigits_ne_nil fun _ hc => Nat.isDigit_of_mem_toDigits (by decide) (by decide) hc

theorem startsWithDigit_repr (n : Nat) : StartsWithDigit n.repr.toList := by
  rw [Nat.toList_repr]
  exact startsWithDigit_decimalDigits n

/-! ## Decimals -/

namespace Layout

variable (layout : Layout)

theorem blank_not_mem_exponentText (exponent : Int) : ' ' ∉ exponentText exponent := by
  have hdigits := (startsWithDigit_decimalDigits exponent.natAbs).not_mem
  unfold exponentText
  dsimp only
  split <;> split <;> simp [hdigits]

theorem startsWithDigit_positional {digits : List Char} (h : StartsWithDigit digits) (point : Int) :
    StartsWithDigit (layout.positional digits point) := by
  have hzero : StartsWithDigit ['0'] := startsWithDigit_of_all (by simp) (by simp)
  unfold positional
  split
  · have hbehind : ' ' ∉ '.' :: List.replicate (-point).toNat '0' ++ digits := by simp [h.not_mem]
    exact hzero.append hbehind
  · split
    · rename_i hpos hlt
      have hne : digits.take point.toNat ≠ [] := by
        intro he
        rcases List.take_eq_nil_iff.1 he with he | he
        · omega
        · exact h.ne_nil he
      have hbehind : ' ' ∉ '.' :: digits.drop point.toNat := by
        simp only [List.mem_cons, not_or]
        exact ⟨by decide, fun hm => h.not_mem (List.mem_of_mem_drop hm)⟩
      exact (h.of_prefix (List.take_prefix _ _) hne).append hbehind
    · refine (h.append ?_).append ?_
      · simp
      · split <;> simp

theorem startsWithDigit_scientific {digits : List Char} (h : StartsWithDigit digits) (exponent : Int) :
    StartsWithDigit (scientific digits exponent) := by
  have hexponent := blank_not_mem_exponentText exponent
  unfold scientific
  split
  · exact h
  · rw [← List.singleton_append]
    exact h.append hexponent
  · rename_i d rest hne
    have hfront : StartsWithDigit [d] := h.of_prefix (List.prefix_append [d] rest) (by simp)
    have hrest : ' ' ∉ rest := fun hm => h.not_mem (List.mem_cons_of_mem d hm)
    have hbehind : ' ' ∉ '.' :: rest ++ exponentText exponent := by simp [hrest, hexponent]
    exact hfront.append hbehind

/-- A decimal starts with a digit. -/
theorem startsWithDigit_write (d : Decimal) : StartsWithDigit (layout.write d) := by
  unfold write
  dsimp only
  split
  · exact layout.startsWithDigit_positional (startsWithDigit_decimalDigits _) _
  · exact startsWithDigit_scientific (startsWithDigit_decimalDigits _) _

end Layout

/-! ## Names -/

/-- The forms of the names of numbers. -/
inductive NumberShape : List Char → Prop
  | nan : NumberShape ['n', 'a', 'n']
  | unsigned {body : List Char} (h : body = ['i', 'n', 'f'] ∨ StartsWithDigit body) : NumberShape body
  | negative {body : List Char} (h : body = ['i', 'n', 'f'] ∨ StartsWithDigit body) : NumberShape ('-' :: body)

theorem Layout.numberShape_render (layout : Layout) (x : Float) : NumberShape (layout.render x).toList := by
  unfold render
  split
  · exact .nan
  · dsimp only
    rw [String.toList_ofList]
    have hbody : ∀ body : List Char,
        body = (if x.isInf then ['i', 'n', 'f'] else layout.write (layout.choose (.ofFloat x))) →
          body = ['i', 'n', 'f'] ∨ StartsWithDigit body := by
      rintro body rfl
      split
      · exact .inl rfl
      · exact .inr (layout.startsWithDigit_write _)
    split
    · exact .negative (hbody _ rfl)
    · exact .unsigned (hbody _ rfl)

/-- **The name of a number** starts with a digit, behind a sign if there is one, or it is a word for a number that is
not finite. -/
theorem numberShape_numberName (x : Float) : NumberShape (numberName x).toList := by
  unfold numberName
  split
  · have hrepr : toString (truncated x) = (truncated x).repr := rfl
    rw [hrepr, Int.repr_eq_if]
    split
    · exact .unsigned (.inr (startsWithDigit_repr _))
    · rw [String.toList_append]
      exact .negative (.inr (startsWithDigit_repr _))
  · exact plainLayout.numberShape_render x

namespace NumberShape

variable {text : List Char}

theorem ne_nil (h : NumberShape text) : text ≠ [] := by
  cases h with
  | nan => simp
  | unsigned h =>
    rcases h with rfl | h
    · simp
    · exact h.ne_nil
  | negative => simp

theorem not_mem (h : NumberShape text) : ' ' ∉ text := by
  cases h with
  | nan => simp
  | unsigned h =>
    rcases h with rfl | h
    · simp
    · exact h.not_mem
  | negative h =>
    rcases h with rfl | h
    · simp
    · simp [h.not_mem]

/-- What a name starts with, if it is no word. -/
theorem head (h : NumberShape text) : text = ['n', 'a', 'n'] ∨ text = ['i', 'n', 'f'] ∨
    ∃ c ∈ text.head?, c.isDigit = true ∨ c = '-' := by
  cases h with
  | nan => exact .inl rfl
  | unsigned h =>
    rcases h with rfl | h
    · exact .inr (.inl rfl)
    · obtain ⟨c, hc, hd⟩ := h.head
      exact .inr (.inr ⟨c, hc, .inl hd⟩)
  | negative h => exact .inr (.inr ⟨'-', rfl, .inr rfl⟩)

/-- No sign of an operation is a number, alone or before a letter. -/
theorem ne_sign {c : Char} (h : NumberShape (c :: text)) (hc : c ∈ ['+', '-', '*', '/', '^']) :
    ∃ d ∈ text.head?, d.isDigit = true ∨ d = 'i' := by
  generalize hall : c :: text = all at h
  have hdigit : ∀ {body : List Char}, c :: text = body → ¬ (body = ['i', 'n', 'f'] ∨ StartsWithDigit body) := by
    rintro body rfl hbody
    simp only [List.mem_cons, List.not_mem_nil, or_false] at hc
    rcases hbody with hinf | hd
    · obtain rfl : c = 'i' := (List.cons.inj hinf).1
      simp at hc
    · obtain ⟨d, hd, hdigit⟩ := hd.head
      obtain rfl : c = d := Option.some.inj hd
      rcases hc with rfl | rfl | rfl | rfl | rfl <;> cases hdigit
  cases h with
  | nan =>
    obtain rfl : c = 'n' := (List.cons.inj hall).1
    simp at hc
  | unsigned hbody => exact absurd hbody (hdigit hall)
  | negative hbody =>
    obtain ⟨rfl, rfl⟩ := List.cons.inj hall
    rcases hbody with rfl | hbody
    · exact ⟨'i', rfl, .inr rfl⟩
    · obtain ⟨d, hd, hdigit⟩ := hbody.head
      exact ⟨d, hd, .inl hdigit⟩

/-- Only the numbers that are not finite have names that are words. -/
theorem eq_of_isWord (h : NumberShape text) (hw : Text.isWord text = true) :
    text = ['n', 'a', 'n'] ∨ text = ['i', 'n', 'f'] := by
  rcases h.head with hnan | hinf | ⟨c, hc, hhead⟩
  · exact .inl hnan
  · exact .inr hinf
  · obtain ⟨rest, rfl⟩ := List.head?_eq_some_iff.1 hc
    rw [Text.isWord, Bool.and_eq_true] at hw
    rcases hhead with hd | rfl
    · cases (Text.isWordStart_eq_false_of_common hd).symm.trans hw.1
    · cases hw.1

end NumberShape

end Formula
