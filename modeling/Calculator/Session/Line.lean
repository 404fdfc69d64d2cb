import Calculator.Evaluation.Basic
import Calculator.Session.Command

/-!
# Lines of a session

A line is a command or an expression. The value of an expression is shown and kept as the variable
`ans`; an expression that fails leaves the scope as it was.
-/

namespace Calculator

/-- Evaluates a text and keeps its value as `ans`. -/
def Scope.evaluateAndKeep (scope : Scope) (text : String) : Traced (Float × Scope) := do
  let x ← scope.evaluate text
  return (x, scope.assign "ans" x)

namespace Session

inductive Reply where
  /-- The session is to end. -/
  | exit
  | text (ok : Bool) (s : String)
  deriving Repr, DecidableEq

/-- What a line leads to. -/
structure LineOutcome where
  reply : Reply
  scope : Scope
  events : List Event

/-- Failures of functions that were not defined from the start are told apart from errors of the
expression. -/
def failureOutcome (scope : Scope) (line : String) (events : List Event) (e : Failure) :
    LineOutcome :=
  match e with
  | .foreign message =>
    ⟨.text false ("Unhandled error: " ++ message), scope, events ++ [.unhandled line]⟩
  | e => ⟨.text false ("Error: " ++ e.message), scope, events ++ [.failed line e]⟩

def answerLine (scope : Scope) (line : String) : LineOutcome :=
  match Command.ofLine? line with
  | some command =>
    match command.answer? scope with
    | some s => ⟨.text true s, scope, []⟩
    | none => ⟨.exit, scope, []⟩
  | none =>
    let t := scope.evaluateAndKeep line
    match t.outcome with
    | .ok (x, scope) => ⟨.text true (String.ofList (Numeral.display x)), scope, t.events⟩
    | .error e => failureOutcome scope line t.events e

/-- The report of a binding that replaces another. -/
def definitionEvents (scope : Scope) (name : String) : List Event :=
  if scope.defines name then [.replaced (Unicode.lower name)] else []

end Session

end Calculator
