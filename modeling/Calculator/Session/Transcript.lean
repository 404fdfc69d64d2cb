import Calculator.Session.Line

/-!
# Whole sessions

`run` answers the entries of a session one after the other, each in the scope that the entries
before it have left, up to a command to exit or the end of the input.
-/

namespace Calculator.Session

/-- What a user enters at a prompt. -/
inductive Entry where
  | line (text : String)
  /-- The current line is abandoned. -/
  | interrupt
  deriving Repr, DecidableEq

/-- The words that are completed: all functions, then the variables. -/
def completions (scope : Scope) : List String :=
  Primitive.names ++ scope.vars.keys

/-- What a session has printed and left behind. -/
structure Transcript where
  output : List String
  /-- How often the user was prompted, the end of the input included. -/
  reads : Nat
  /-- The words that were completed at the last prompt. -/
  words : List String
  unread : Nat
  scope : Scope

def Transcript.after (t : Transcript) (output : List String) : Transcript :=
  { t with output := output ++ t.output, reads := t.reads + 1 }

/-- The last prompt of a session. -/
def close (scope : Scope) (unread : Nat) : Transcript :=
  ⟨["Exiting."], 1, completions scope, unread, scope⟩

/-- What is done with one entry: `none` ends the session. -/
def step (scope : Scope) (entry : Entry) : Option (List String × Scope) :=
  match entry with
  | .interrupt => some (["^C"], scope)
  | .line text =>
    if Text.isBlank text.toList then some ([], scope)
    else
      let o := answerLine scope text
      match o.reply with
      | .exit => none
      | .text _ s => some ([s], o.scope)

def run (scope : Scope) : List Entry → Transcript
  | [] => close scope 0
  | entry :: rest =>
    match step scope entry with
    | none => close scope rest.length
    | some (output, scope) => (run scope rest).after output

end Calculator.Session
