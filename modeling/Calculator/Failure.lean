import Calculator.Arithmetic.Operation
import Calculator.Arithmetic.Operator
import Calculator.Numeral

/-!
# Failures of an evaluation

One constructor for each cause. `kind` sorts the causes into the classes that users tell apart, and
`message` is the text they read.
-/

namespace Calculator

inductive FailureKind where
  | invalidToken
  | grammar
  | unknownName
  | argumentCount
  | unbalanced
  | invalidOperation
  | incomplete
  | stackUnderflow
  | foreign
  deriving Repr, DecidableEq

inductive Failure where
  /-- A character that belongs to no token. -/
  | invalidToken (position : Int)
  /-- An operator other than a sign where a value is expected. -/
  | notSign (op : Operator) (position : Int)
  | commaForValue (position : Int)
  | closeForValue (position : Int)
  | literalForOperator (x : Float) (position : Int)
  /-- A comma that no open call encloses. -/
  | strayComma (position : Int)
  /-- A closing parenthesis that no open call is waiting for. -/
  | strayClose (position : Int)
  | unknownFunction (name : String)
  | unknownVariable (name : String)
  | argumentCount (name : String) (arity : Arity) (given : Nat)
  /-- A result is asked for while calls are open. -/
  | unclosed
  /-- A result is asked for while a value is expected. -/
  | unfinished
  /-- A token follows the result. -/
  | finished
  | resultTaken
  | emptyStack
  | missingArguments (needed stacked : Nat)
  | noPendingCall
  /-- A function that was not defined from the start failed for a reason of its own. -/
  | foreign (message : String)

namespace Failure

def kind : Failure → FailureKind
  | invalidToken _ => .invalidToken
  | notSign .. | commaForValue _ | closeForValue _ | literalForOperator .. | strayComma _ => .grammar
  | unknownFunction _ | unknownVariable _ => .unknownName
  | argumentCount .. => .argumentCount
  | strayClose _ | unclosed => .unbalanced
  | finished | resultTaken => .invalidOperation
  | unfinished => .incomplete
  | emptyStack | missingArguments .. | noPendingCall => .stackUnderflow
  | foreign _ => .foreign

/-- The text on a wrong number of arguments. -/
def argumentCountMessage (name : String) (arity : Arity) (given : Nat) : String :=
  match arity with
  | .exactly n => s!"{name}() takes {n} argument(s), got {given}"
  | .oneOrTwo => s!"{name}() takes 1 or 2 argument(s), got {given}"
  | .atLeastOne => s!"{name}() takes at least 1 argument, got {given}"

def message : Failure → String
  | invalidToken position => s!"Invalid token at position {position}"
  | notSign op position =>
    "Cannot use '" ++ op.symbol ++ s!"' as a unary operator at position {position}"
  | commaForValue position => s!"Did not expect a comma at position {position}"
  | closeForValue position => s!"Did not expect a closing parenthesis at position {position}"
  | literalForOperator x position =>
    "Did not expect the literal " ++ String.ofList (Numeral.full x) ++ s!" at position {position}"
  | strayComma position => s!"Found a comma outside a function call at position {position}"
  | strayClose position => s!"Unmatched closing parenthesis at position {position}"
  | unknownFunction name => s!"The function '{name}' was not found in the environment"
  | unknownVariable name => s!"The variable or constant '{name}' was not found in the environment"
  | argumentCount name arity given => argumentCountMessage name arity given
  | unclosed => "The expression contains unevaluated functions, add closing parentheses"
  | unfinished => "The expression is unfinished because it ends with an operator"
  | finished =>
    "No new tokens can be parsed because the expression is finished, " ++
      "create a new expression to start over"
  | resultTaken => "The result of this expression was already taken"
  | emptyStack => "Attempting to pop a value from an empty stack"
  | missingArguments needed stacked =>
    s!"A call needs {needed} argument(s) but only {stacked} value(s) are stacked"
  | noPendingCall => "Attempting to apply a call when none are pending"
  | foreign message => message

end Failure

end Calculator
