import Calculator.Numeral
import Calculator.Arithmetic.Operator

/-!
# Tokens

The smallest parts of an expression and where they stand. A name that a parenthesis follows without
a gap opens a call; a parenthesis by itself opens a group, which is a call of the empty name.
-/

namespace Calculator

inductive Lexeme where
  | literal (x : Float)
  | operator (op : Operator)
  | name (s : String)
  /-- A name with the parenthesis after it. -/
  | call (s : String)
  | comma
  | close
  /-- What follows the position belongs to no token. -/
  | invalid (position : Int)

/-- A lexeme and the number of characters before it. -/
structure Token where
  lexeme : Lexeme
  position : Int

namespace Lexeme

def kindName : Lexeme → String
  | literal _ => "LITERAL"
  | operator _ => "OPERATOR"
  | name _ => "VARIABLE"
  | call _ => "FUNCTION"
  | comma => "COMMA"
  | close => "END_GROUP"
  | invalid _ => "INVALID"

/-- What a lexeme holds, as the log shows it. -/
def describe : Lexeme → String
  | literal x => String.ofList (Numeral.full x)
  | operator op => "<Operator." ++ op.capitalName ++ ": " ++ Text.quote op.symbol ++ ">"
  | name s => Text.quote s
  | call s => Text.quote s
  | comma => "None"
  | close => "None"
  | invalid position => toString position

end Lexeme

def Token.describe (t : Token) : String :=
  s!"Token({t.lexeme.kindName}, {t.lexeme.describe}, pos={t.position})"

end Calculator
