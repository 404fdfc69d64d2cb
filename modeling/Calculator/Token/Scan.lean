import Calculator.Token.Basic
import Calculator.Unicode.Alphanumeric
import Calculator.Unicode.Whitespace

/-!
# Tokens of a text

`Token.scan` cuts a text into tokens, each as long as it can be, and skips blank characters between
them. It stops at the first character that begins no token.
-/

namespace Calculator

namespace Lexeme

/-- The characters of a literal. -/
def isLiteralChar (c : Char) : Bool :=
  Numeral.isDigit c || c == '.'

/-- The characters of a name. -/
def isNameChar (c : Char) : Bool :=
  Unicode.isAlphanumeric c || c == '_'

theorem isNameChar_eq_false_of_isWhitespace {c : Char} (h : Unicode.isWhitespace c = true) :
    isNameChar c = false := by
  have ha := Unicode.Ranges.contains_eq_false
    (s := Unicode.whitespaceRanges) (t := Unicode.alphanumericRanges) (by decide +kernel) h
  have hu : c ≠ '_' := by
    rintro rfl
    exact absurd h (by decide)
  simp [isNameChar, Unicode.isAlphanumeric, ha, hu]

/-- The lexeme at the start of a text and the number of further characters that it takes. -/
def first? (c : Char) (r : List Char) : Option (Lexeme × Nat) :=
  match Operator.ofChar? c with
  | some op => some (.operator op, 0)
  | none =>
    if c = ',' then some (.comma, 0)
    else if c = ')' then some (.close, 0)
    else if isLiteralChar c then
      let run := r.takeWhile isLiteralChar
      (Numeral.literal? (c :: run)).map fun x => (.literal x, run.length)
    else if c = '(' then some (.call "", 0)
    else if isNameChar c then
      let run := r.takeWhile isNameChar
      let s := String.ofList (c :: run)
      if (r.drop run.length).head? = some '(' then some (.call s, run.length + 1)
      else some (.name s, run.length)
    else none

end Lexeme

namespace Token

/-- The tokens of a text that `position` characters precede. -/
def scanFrom (position : Nat) : List Char → List Token
  | [] => []
  | c :: r =>
    if Unicode.isWhitespace c then scanFrom (position + 1) r
    else
      match Lexeme.first? c r with
      | none => [⟨.invalid position, position⟩]
      | some (lexeme, more) =>
        ⟨lexeme, position⟩ :: scanFrom (position + 1 + more) (r.drop more)
termination_by s => s.length
decreasing_by all_goals (simp only [List.length_cons, List.length_drop]; omega)

@[simp] theorem scanFrom_nil (position : Nat) : scanFrom position [] = [] := by
  rw [scanFrom]

theorem scanFrom_cons_of_isWhitespace {c : Char} (h : Unicode.isWhitespace c = true)
    (position : Nat) (r : List Char) : scanFrom position (c :: r) = scanFrom (position + 1) r := by
  rw [scanFrom, if_pos h]

theorem scanFrom_cons_of_first?_eq_none {c : Char} {r : List Char}
    (hc : Unicode.isWhitespace c = false) (h : Lexeme.first? c r = none) (position : Nat) :
    scanFrom position (c :: r) = [⟨.invalid position, position⟩] := by
  rw [scanFrom, if_neg (by simp [hc]), h]

theorem scanFrom_cons_of_first?_eq_some {c : Char} {r : List Char} {l : Lexeme} {more : Nat}
    (hc : Unicode.isWhitespace c = false) (h : Lexeme.first? c r = some (l, more))
    (position : Nat) :
    scanFrom position (c :: r) =
      ⟨l, position⟩ :: scanFrom (position + 1 + more) (r.drop more) := by
  rw [scanFrom, if_neg (by simp [hc]), h]

def scan (text : String) : List Token :=
  scanFrom 0 text.toList

end Token

end Calculator
