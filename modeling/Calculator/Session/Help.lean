import Calculator.Arithmetic.Primitive
import Calculator.Unicode.Lowercase

/-!
# Help

The texts that explain the calculator to its users, by topic.
-/

namespace Calculator.Help

def general : String :=
  "Enter an expression, eg. 2 + 3, and press enter.\n" ++
  "Examples:\n" ++
  "  2 + 3 * 4       -> 14\n" ++
  "  2 pi            -> 6.283185307179586\n" ++
  "  min(5, 2, 9)    -> 2\n" ++
  "  ans / 2         -> half of the previous result\n" ++
  "Commands:\n" ++
  "  :help, help [topic]    show help (topics: operators, functions)\n" ++
  "  :vars                  list variables\n" ++
  "  :exit, :quit           exit (or Ctrl-D)\n"

def operators : String :=
  "Operators and precedence (high -> low):\n" ++
  "  ^        exponentiation (right-assoc, 2^3^2 == 2^(3^2))\n" ++
  "  + -      unary plus and minus\n" ++
  "  a b      implicit multiplication (2 pi, 3 sin(x))\n" ++
  "  * / %    multiplication, division, remainder\n" ++
  "  + -      addition, subtraction\n" ++
  "Notes:\n" ++
  "  - (expr) groups an expression.\n" ++
  "  - Division by zero gives inf or nan rather than an error.\n"

def functions : String :=
  "Built-in functions:\n" ++
  ", ".intercalate Primitive.names ++
  "\nConstants pi, tau and e need no parentheses. Use ans for the previous result.\n"

/-- The text on a topic; no topic and the empty one ask for the general text. -/
def text (topic : Option String) : String :=
  match topic with
  | none => general
  | some t =>
    if t = "" then general
    else
      let key := Unicode.lower t
      if key = "general" then general
      else if key = "operators" then operators
      else if key = "functions" then functions
      else "No help available for topic '" ++ t ++ "'"

end Calculator.Help
