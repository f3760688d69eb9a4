import Formula.Fault
import Formula.Text.Digit
import Formula.Token

/-!
# Literals

The two kinds of token that have a value of their own. A numeral is the longest stretch of digits with at most one point
among them and an exponent behind them (`numeral`); a mark of an exponent without digits behind it is no part of it. A
string stands between two quotes of one kind, and a backslash takes away the meaning of the character behind it or gives
it another one (`unquoted?`).
-/

namespace Formula.Literal

open Formula.Text

/-! ## Numerals -/

/-- A point and the digits behind it. -/
def fractionPart : List Char → List Char
  | '.' :: rest => '.' :: rest.takeWhile isDigit
  | _ => []

/-- The sign of an exponent. -/
def signPart : List Char → List Char
  | '+' :: _ => ['+']
  | '-' :: _ => ['-']
  | _ => []

/-- An exponent: a mark, an optional sign and at least one digit. -/
def exponentPart : List Char → List Char
  | [] => []
  | mark :: rest =>
    let sign := signPart rest
    let digits := (rest.drop sign.length).takeWhile isDigit
    if (mark = 'e' ∨ mark = 'E') ∧ digits ≠ [] then mark :: sign ++ digits else []

/-- The numeral at the head of a text. -/
def numeral (text : List Char) : List Char :=
  let whole := text.takeWhile isDigit
  let fraction := fractionPart (text.drop whole.length)
  whole ++ fraction ++ exponentPart (text.drop (whole.length + fraction.length))

/-- Reads the numeral at the head of a text at an offset. No point may stand behind it. -/
def readNumeral (text : List Char) (position : Nat) : Except Fault (Token.Kind × Nat) :=
  let digits := numeral text
  if (text.drop digits.length).head? = some '.' then .error (.lexical .unexpectedPoint (position + digits.length))
  else
    match Numeral.toFloat? digits with
    | some value => .ok (.number value, digits.length)
    | none => .error (.lexical (.badNumeral (String.ofList digits)) position)

theorem fractionPart_isPrefix (text : List Char) : fractionPart text <+: text := by
  unfold fractionPart
  split
  · rename_i rest
    exact List.prefix_cons_inj '.' |>.2 (List.takeWhile_prefix _)
  · exact List.nil_prefix

theorem signPart_isPrefix (text : List Char) : signPart text <+: text := by
  unfold signPart
  split <;> simp

/-- A stretch at the head of a text, and one at the head of what is behind it. -/
theorem append_isPrefix {text first second : List Char} (h : first <+: text) (h' : second <+: text.drop first.length) :
    first ++ second <+: text := by
  obtain ⟨behind, hb⟩ := h'
  exact ⟨behind, by rw [List.append_assoc, hb, List.prefix_iff_eq_append.1 h]⟩

theorem exponentPart_isPrefix (text : List Char) : exponentPart text <+: text := by
  cases text with
  | nil => exact List.nil_prefix
  | cons mark rest =>
    unfold exponentPart
    simp only
    split
    · rw [List.cons_append, List.prefix_cons_inj]
      exact append_isPrefix (signPart_isPrefix rest) (List.takeWhile_prefix _)
    · exact List.nil_prefix

/-- A numeral is a stretch of the text that it is read from. -/
theorem numeral_isPrefix (text : List Char) : numeral text <+: text := by
  refine append_isPrefix (append_isPrefix (List.takeWhile_prefix _) (fractionPart_isPrefix _)) ?_
  rw [List.length_append]
  exact exponentPart_isPrefix _

/-! ## Strings -/

/-- The character that a backslash and a character stand for. -/
def unescape : Char → Char
  | 'n' => '\n'
  | 't' => '\t'
  | c => c

/-- The content of a string up to its closing quote, and the number of characters up to and with that quote; none if
there is no closing quote. -/
def unquoted? (quote : Char) : List Char → Option (List Char × Nat)
  | [] => none
  | c :: rest =>
    if c = quote then some ([], 1)
    else if c = '\\' then
      match rest with
      | [] => none
      | escaped :: more => (unquoted? quote more).map fun (content, count) => (unescape escaped :: content, count + 2)
    else (unquoted? quote rest).map fun (content, count) => (c :: content, count + 1)

/-- The quote that a character is. -/
def quoteOf? (c : Char) : Option Quote :=
  if c = Quote.single.char then some .single else if c = Quote.double.char then some .double else none

/-- Reads the rest of a string whose opening quote stands at an offset. -/
def readString (quote : Quote) (rest : List Char) (position : Nat) : Except Fault (Token.Kind × Nat) :=
  match unquoted? quote.char rest with
  | some (content, count) => .ok (.text quote (String.ofList content), count + 1)
  | none => .error (.lexical .unclosedString position)

end Formula.Literal
