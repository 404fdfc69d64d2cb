import Calculator.Scope
import Calculator.Session.Help
import Calculator.Text.Words

/-!
# Commands

A line that begins with a colon is a command, and so is one whose first word is `help`. Every other
line is an expression.
-/

namespace Calculator

inductive Command where
  | exit
  | help (topic : Option String)
  | vars
  | unknown (word : String)
  /-- A colon alone. -/
  | missing
  deriving Repr, DecidableEq

namespace Command

/-- The command of a word and the word after it. Capitals make no difference. -/
def ofWord (word : String) (argument : Option String) : Command :=
  let key := Unicode.lower word
  if key = "exit" ∨ key = "quit" then exit
  else if key = "help" then help argument
  else if key = "vars" then vars
  else unknown word

/-- The command that a line is. The topic of `help` without a colon is the rest of the line. -/
def ofLine? (line : String) : Option Command :=
  match Text.trim line.toList with
  | [] => none
  | ':' :: r =>
    match Text.nextWord? r with
    | none => some missing
    | some (word, rest) =>
      some (ofWord (String.ofList word) ((Text.nextWord? rest).map (String.ofList ·.1)))
  | s =>
    match Text.nextWord? s with
    | none => none
    | some (word, rest) =>
      if Unicode.lower (String.ofList word) = "help" then
        some (help (if rest.isEmpty then none else some (String.ofList rest)))
      else none

/-- Every variable with its value, in the order of their names. -/
def listVariables (bound : Variables) : String :=
  if bound.entries.isEmpty then "(no variables)"
  else "\n".intercalate <| bound.entries.map fun (name, x) =>
    name ++ " = " ++ String.ofList (Numeral.display x)

/-- The answer to a command other than `exit`. -/
def answer? (scope : Scope) : Command → Option String
  | exit => none
  | help topic => some (Help.text topic)
  | vars => some (listVariables scope.vars)
  | unknown word => some ("Unknown command: " ++ word)
  | missing => some "No command specified. Use :help for available commands."

end Command

end Calculator
