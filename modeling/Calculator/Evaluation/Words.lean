import Calculator.Evaluation.Basic

/-!
# Evaluation of words

The words of a command line are the pieces of one expression. Positions in errors count from the
start of the word.
-/

namespace Calculator

/-- What one evaluation prints, and whether it failed. -/
structure Report where
  failed : Bool
  output : String
  errorOutput : String
  scope : Scope

def Evaluation.readWords (scope : Scope) : List String → Evaluation → Traced Evaluation
  | [], e => return e
  | word :: words, e => do
    let e ← e.readText scope word
    readWords scope words e

def Scope.evaluateWords (scope : Scope) (words : List String) : Traced Float := do
  let e ← Evaluation.readWords scope words {}
  let (x, _) ← e.finish scope
  return x

def Report.ofWords (scope : Scope) (words : List String) : Report :=
  match (scope.evaluateWords words).outcome with
  | .ok x =>
    ⟨false, "Ok: " ++ String.ofList (Numeral.display x) ++ "\n", "", scope.assign "ans" x⟩
  | .error e => ⟨true, "", "Err: " ++ e.message ++ "!\n", scope⟩

end Calculator
