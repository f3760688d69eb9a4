import Formula.Literal

/-!
# Spellings of strings

Between its quotes, every character of a string stands for itself or behind a backslash, and a line break and a tab may
also be written as letters behind a backslash. A string has many spellings (`Spelling`), but a spelling belongs to one
string and does not go on behind the closing quote: a spelling is read as its string (`Spelling.unquoted?_eq`), and what
is read up to a quote is spelled there (`exists_spelling`). So what stands behind it does not matter
(`unquoted?_append`).
-/

namespace Formula.Literal

/-- Between quotes of the kind, the second text is a way to write the first one. -/
inductive Spelling (quote : Quote) : List Char → List Char → Prop
  | nil : Spelling quote [] []
  | plain {c : Char} {content written : List Char} (hb : c ≠ '\\') (hq : c ≠ quote.char)
      (h : Spelling quote content written) : Spelling quote (c :: content) (c :: written)
  | escaped {c : Char} {content written : List Char} (hn : c ≠ 'n') (ht : c ≠ 't')
      (h : Spelling quote content written) : Spelling quote (c :: content) ('\\' :: c :: written)
  | newline {content written : List Char} (h : Spelling quote content written) :
      Spelling quote ('\n' :: content) ('\\' :: 'n' :: written)
  | tab {content written : List Char} (h : Spelling quote content written) :
      Spelling quote ('\t' :: content) ('\\' :: 't' :: written)

variable {quote : Quote} {text content written : List Char} {count : Nat}

theorem backslash_ne_quote (quote : Quote) : '\\' ≠ quote.char := by
  cases quote <;> decide

theorem unescape_of_ne {c : Char} (hn : c ≠ 'n') (ht : c ≠ 't') : unescape c = c := by
  simp [unescape]

/-- What a backslash and the character behind it stand for is spelled by them. -/
theorem Spelling.unescape (c : Char) (h : Spelling quote content written) :
    Spelling quote (Literal.unescape c :: content) ('\\' :: c :: written) := by
  by_cases hn : c = 'n'
  · subst hn
    exact .newline h
  · by_cases ht : c = 't'
    · subst ht
      exact .tab h
    · rw [unescape_of_ne hn ht]
      exact .escaped hn ht h

theorem unquoted?_plain {c : Char} (hb : c ≠ '\\') (hq : c ≠ quote.char) (rest : List Char) :
    unquoted? quote.char (c :: rest) =
      (unquoted? quote.char rest).map fun (content, count) => (c :: content, count + 1) := by
  rw [unquoted?.eq_def]
  simp only [if_neg hq, if_neg hb]

theorem unquoted?_escaped (quote : Quote) (c : Char) (rest : List Char) :
    unquoted? quote.char ('\\' :: c :: rest) =
      (unquoted? quote.char rest).map fun (content, count) => (unescape c :: content, count + 2) := by
  rw [unquoted?.eq_def]
  simp only [if_neg (backslash_ne_quote quote), if_true]

/-- A spelling is read up to the quote behind it. -/
theorem Spelling.unquoted?_eq (h : Spelling quote content written) (behind : List Char) :
    unquoted? quote.char (written ++ quote.char :: behind) = some (content, written.length + 1) := by
  induction h with
  | nil =>
    rw [List.nil_append, unquoted?.eq_def]
    simp
  | plain hb hq _ ih =>
    rw [List.cons_append, unquoted?_plain hb hq, ih]
    rfl
  | escaped hn ht _ ih =>
    rw [List.cons_append, List.cons_append, unquoted?_escaped, ih, unescape_of_ne hn ht]
    rfl
  | newline _ ih | tab _ ih =>
    rw [List.cons_append, List.cons_append, unquoted?_escaped, ih]
    rfl

theorem exists_spelling (h : unquoted? quote.char text = some (content, count)) :
    ∃ written behind, text = written ++ quote.char :: behind ∧ count = written.length + 1 ∧
      Spelling quote content written := by
  fun_induction unquoted? quote.char text generalizing content count with
  | case1 => cases h
  | case2 rest =>
    cases h
    exact ⟨[], rest, rfl, rfl, .nil⟩
  | case3 => cases h
  | case4 escaped more hq ih =>
    obtain ⟨⟨content, count⟩, hu, he⟩ := Option.map_eq_some_iff.1 h
    cases he
    obtain ⟨written, behind, rfl, rfl, hs⟩ := ih hu
    exact ⟨'\\' :: escaped :: written, behind, rfl, rfl, hs.unescape escaped⟩
  | case5 c rest hq hb ih =>
    obtain ⟨⟨content, count⟩, hu, he⟩ := Option.map_eq_some_iff.1 h
    cases he
    obtain ⟨written, behind, rfl, rfl, hs⟩ := ih hu
    exact ⟨c :: written, behind, rfl, rfl, .plain hb hq hs⟩

theorem unquoted?_append (h : unquoted? quote.char text = some (content, count)) (tail : List Char) :
    unquoted? quote.char (text ++ tail) = some (content, count) := by
  obtain ⟨written, behind, rfl, rfl, hs⟩ := exists_spelling h
  rw [List.append_assoc, List.cons_append]
  exact hs.unquoted?_eq (behind ++ tail)

theorem unquoted?_count (h : unquoted? quote.char text = some (content, count)) : count ≤ text.length := by
  obtain ⟨written, behind, rfl, rfl, -⟩ := exists_spelling h
  simp

end Formula.Literal
