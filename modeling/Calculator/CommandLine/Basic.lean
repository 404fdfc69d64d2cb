import Calculator.Evaluation.Words
import Calculator.Session.Transcript
import Calculator.Settings.Sources
import Calculator.Unicode.DecimalDigit

/-!
# The command line

Options come before the words of an expression. With words the expression is evaluated once,
without any a session is opened. Options override the variables of the process, and an option with
an empty value counts as not given.
-/

namespace Calculator

inductive Flag where
  | logLevel
  | historyFile
  | noBanner
  | help
  deriving Repr, DecidableEq

namespace Flag

def takesValue : Flag → Bool
  | logLevel | historyFile => true
  | noBanner | help => false

/-- The long spellings. A beginning of just one of them stands for it. -/
def spellings : List (String × Flag) := [
  ("--log-level", logLevel), ("--history-file", historyFile), ("--no-banner", noBanner),
  ("--help", help)]

def shortHelp : String := "-h"

def ofSpelling? (s : List Char) : Option Flag :=
  if s = shortHelp.toList then some help else spellings.lookup (String.ofList s)

def ofBeginning (s : List Char) : List Flag :=
  (spellings.filter fun p => s.isPrefixOf p.1.toList).map (·.2)

end Flag

/-- What a single argument is by itself. -/
inductive Argument where
  | word (s : String)
  /-- Two dashes, after which everything is a word. -/
  | separator
  /-- A flag with the value that is attached to it, if any. -/
  | flag (f : Flag) (value : Option String)
  /-- The short flag and, after it or after an equals sign, more short flags. -/
  | shortFlags (more : List Char)
  | unknownFlag
  | ambiguousFlag
  deriving Repr, DecidableEq

namespace Argument

/-- A minus sign and digits, with a point before the last of them or with none. A line end is
allowed to follow. -/
def isNegativeNumber (s : List Char) : Bool :=
  let s := if s.getLast? = some '\n' then s.dropLast else s
  match s with
  | '-' :: r =>
    match r.dropWhile Unicode.isDecimalDigit with
    | [] => !r.isEmpty
    | '.' :: f => !f.isEmpty && f.all Unicode.isDecimalDigit
    | _ => false
  | _ => false

/-- What stands before the first equals sign, and what stands after it. -/
def splitValue (s : List Char) : List Char × Option String :=
  match s.span (· != '=') with
  | (name, []) => (name, none)
  | (name, _ :: value) => (name, some (String.ofList value))

/-- An argument that is no flag in full: a shortened flag, a number, a text with a blank in it, or
an unknown flag. -/
def ofUnspelled (s : List Char) : Argument :=
  let (name, value) := splitValue s
  let candidates : List Argument :=
    if name.take 2 = ['-', '-'] then (Flag.ofBeginning name).map fun f => .flag f value
    else if s.take 2 = Flag.shortHelp.toList then [.shortFlags (s.drop 2)]
    else []
  match candidates with
  | [a] => a
  | _ :: _ :: _ => .ambiguousFlag
  | [] =>
    if isNegativeNumber s || s.contains ' ' then .word (String.ofList s) else .unknownFlag

def ofString (s : String) : Argument :=
  match s.toList with
  | '-' :: r =>
    match Flag.ofSpelling? ('-' :: r) with
    | some f => .flag f none
    | none =>
      if r.isEmpty then .word s
      else
        let (name, value) := splitValue ('-' :: r)
        match Flag.ofSpelling? name, value with
        | some f, some v =>
          if name = Flag.shortHelp.toList then .shortFlags v.toList else .flag f (some v)
        | _, _ => ofUnspelled ('-' :: r)
  | _ => .word s

/-- The arguments of a command line. -/
def ofList : List String → List Argument
  | [] => []
  | "--" :: r => .separator :: r.map .word
  | s :: r => ofString s :: ofList r

end Argument

/-- Why a command line is not carried out. -/
inductive Refusal where
  | usage
  | helpShown
  | invalidSettings
  deriving Repr, DecidableEq

def Refusal.exitCode : Refusal → Nat
  | usage | invalidSettings => 2
  | helpShown => 0

structure CommandLine where
  logLevel : Option String := none
  historyFile : Option String := none
  noBanner : Bool := false
  words : List String := []
  /-- Whether the words have begun. -/
  begun : Bool := false
  /-- Whether a flag has followed the words. -/
  closed : Bool := false
  /-- Whether an argument has no place. -/
  excess : Bool := false

namespace CommandLine

def addWords (c : CommandLine) (words : List String) : CommandLine :=
  if c.closed then { c with excess := true }
  else { c with words := c.words ++ words, begun := true }

def setFlag (c : CommandLine) (f : Flag) (value : String) : CommandLine :=
  let c := { c with closed := c.begun }
  match f with
  | .logLevel => { c with logLevel := some value }
  | .historyFile => { c with historyFile := some value }
  | .noBanner => { c with noBanner := true }
  | .help => c

/-- Takes in the arguments from the first to the last. -/
def readArguments : List Argument → CommandLine → Except Refusal CommandLine
  | [], c => if c.excess then .error .usage else .ok c
  | .word s :: r, c => readArguments r (c.addWords [s])
  | .separator :: r, c => readArguments r (c.addWords [])
  | .unknownFlag :: r, c => readArguments r { c with closed := c.begun, excess := true }
  | .ambiguousFlag :: _, _ => .error .usage
  | .shortFlags more :: _, _ =>
    .error (if !more.isEmpty && more.all (· == 'h') then .helpShown else .usage)
  | .flag f (some v) :: r, c =>
    if f.takesValue then readArguments r (c.setFlag f v) else .error .usage
  | .flag .help none :: _, _ => .error .helpShown
  | .flag .noBanner none :: r, c => readArguments r (c.setFlag .noBanner "")
  | .flag f none :: .word v :: r, c => readArguments r (c.setFlag f v)
  | .flag _ none :: _, _ => .error .usage

/-- A shortened flag that could be several is refused before anything else. -/
def parse (args : List String) : Except Refusal CommandLine :=
  let args := Argument.ofList args
  if args.contains .ambiguousFlag then .error .usage else readArguments args {}

/-- The value of an option, if it is not empty. -/
def override? (value : Option String) : Option String :=
  value.filter (· ≠ "")

/-- Given values with those of the options in place of theirs. -/
def overrideRaw (c : CommandLine) (raw : RawSettings) : RawSettings where
  historyFile := (override? c.historyFile).elim raw.historyFile .text
  logLevel := (override? c.logLevel).elim raw.logLevel .text
  prompt := raw.prompt

/-- The settings of the process, which are checked again if an option overrides one. -/
def settings (home : String) (env defs : ProcessEnvironment) (c : CommandLine) :
    Except (List (SettingsField × FieldProblem)) Settings := do
  let s ← Settings.ofProcess home env defs
  if (override? c.historyFile).isNone && (override? c.logLevel).isNone then return s
  else Settings.validate home (c.overrideRaw s.toRaw)

end CommandLine

/-- What a command line asks for. -/
inductive Task where
  | refuse (why : Refusal)
  | evaluate (logLevel : String) (words : List String)
  | converse (settings : Settings) (greet : Bool)
  deriving Repr, DecidableEq

def Task.ofArguments (home : String) (env defs : ProcessEnvironment) (args : List String) : Task :=
  match CommandLine.parse args with
  | .error why => .refuse why
  | .ok c =>
    match c.settings home env defs with
    | .error _ => .refuse .invalidSettings
    | .ok settings =>
      if c.words.isEmpty then .converse settings (!c.noBanner)
      else .evaluate settings.logLevel c.words

/-- What is printed when a session is opened. -/
def greeting : List String :=
  ["Welcome to Pupil, the expression evaluator!",
    "Type :help for help. Ctrl-D or :exit to quit."]

/-- What a task does when a user enters the given entries. The level is the one from which lines
are written to the log. -/
inductive Outcome where
  | exit (code : Nat)
  | report (logLevel : String) (r : Report)
  | session (settings : Settings) (t : Session.Transcript)

def Task.perform (entries : List Session.Entry) : Task → Outcome
  | refuse why => .exit why.exitCode
  | evaluate logLevel words => .report logLevel (Report.ofWords Scope.initial words)
  | converse settings greet =>
    let t := Session.run Scope.initial entries
    let output := if greet then greeting ++ t.output else t.output
    .session settings { t with output }

end Calculator
