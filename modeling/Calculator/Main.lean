import Calculator.CommandLine.Basic
import Calculator.Settings.Definitions

/-!
# The program

Carries out a command line: reads what the library asks about the process, prints what it answers,
and reads the lines of a session from standard input.
-/

open Calculator

def withoutLineEnd (line : String) : String :=
  String.ofList (line.toList.reverse.dropWhile (· == '\n')).reverse

partial def converse (prompt : String) (scope : Scope) : IO Unit := do
  let stdout ← IO.getStdout
  stdout.putStr prompt
  stdout.flush
  let line ← (← IO.getStdin).getLine
  let next := if line.isEmpty then none else Session.step scope (.line (withoutLineEnd line))
  match next with
  | none => (Session.close scope 0).output.forM IO.println
  | some (output, scope) =>
    output.forM IO.println
    converse prompt scope

def processVariables : IO ProcessEnvironment := do
  let names := ["PUPIL_HISTORY_FILE", "PUPIL_LOG_LEVEL", "PUPIL_PROMPT"]
  names.filterMapM fun name => return (← IO.getEnv name).map (name, ·)

def fileDefinitions : IO ProcessEnvironment := do
  try return Definitions.ofText (← IO.FS.readFile ".env")
  catch _ => return []

def main (args : List String) : IO UInt32 := do
  let home := (← IO.getEnv "HOME").getD ""
  match Task.ofArguments home (← processVariables) (← fileDefinitions) args with
  | .refuse why => return .ofNat why.exitCode
  | .evaluate _ words =>
    let r := Report.ofWords Scope.initial words
    IO.print r.output
    IO.eprint r.errorOutput
    return if r.failed then 1 else 0
  | .converse settings greet =>
    if greet then greeting.forM IO.println
    converse settings.prompt Scope.initial
    return 0
