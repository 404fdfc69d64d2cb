import Calculator.Text.Words

/-!
# Settings

Where the history of lines is kept, how much is logged and what the prompt is. Every given value is
checked and brought into its final form; values that are not given have defaults, which are final
already. All problems are reported at once, in the order of the fields.
-/

namespace Calculator

structure Settings where
  historyFile : String
  logLevel : String
  prompt : String
  deriving Repr, DecidableEq

/-- What is given for a field. -/
inductive Given where
  | absent
  | text (s : String)
  /-- A value that is no text. -/
  | other
  deriving Repr, DecidableEq

structure RawSettings where
  historyFile : Given := .absent
  logLevel : Given := .absent
  prompt : Given := .absent
  deriving Repr, DecidableEq

/-- Why a field cannot be used. -/
inductive FieldProblem where
  | emptyHistoryFile
  | unknownLevel (given : String)
  | notText
  deriving Repr, DecidableEq

def FieldProblem.message : FieldProblem → String
  | emptyHistoryFile => "Value error, History file cannot be empty"
  | unknownLevel given => "Value error, Unknown log level: " ++ given
  | notText => "Input should be a valid string"

inductive SettingsField where
  | historyFile
  | logLevel
  | prompt
  deriving Repr, DecidableEq

def SettingsField.name : SettingsField → String
  | historyFile => "history_file"
  | logLevel => "log_level"
  | prompt => "prompt"

namespace Settings

/-- A path without the slashes at its end. -/
def dropSlashes (path : List Char) : List Char :=
  (path.reverse.dropWhile (· == '/')).reverse

/-- A leading tilde that stands alone or before a slash is the home directory. -/
def expandHome (home : List Char) : List Char → List Char
  | ['~'] => if (dropSlashes home).isEmpty then ['/'] else dropSlashes home
  | '~' :: '/' :: r => dropSlashes home ++ '/' :: r
  | s => s

def checkHistoryFile (home s : String) : Except FieldProblem String :=
  let path := Text.trim s.toList
  if path.isEmpty then .error .emptyHistoryFile
  else .ok (String.ofList (expandHome home.toList path))

/-- The capital of a letter of the level names. Two letters outside of ASCII, the dotless i and the
long s, have their capitals within it. -/
def capital (c : Char) : Char :=
  if c = 'ı' then 'I' else if c = 'ſ' then 'S' else c.toUpper

def levelNames : List String :=
  ["CRITICAL", "FATAL", "ERROR", "WARN", "WARNING", "INFO", "DEBUG", "NOTSET"]

def checkLogLevel (s : String) : Except FieldProblem String :=
  let level := String.ofList ((Text.trim s.toList).map capital)
  if levelNames.contains level then .ok level else .error (.unknownLevel s)

/-- The value of a field, or its default. -/
def checkField (default : String) (check : String → Except FieldProblem String) :
    Given → Except FieldProblem String
  | .absent => .ok default
  | .text s => check s
  | .other => .error .notText

def defaultHistoryFile (home : String) : String :=
  String.ofList (expandHome home.toList "~/.pupil_history".toList)

def problem (field : SettingsField) : Except FieldProblem String → List (SettingsField × FieldProblem)
  | .ok _ => []
  | .error p => [(field, p)]

/-- The settings that the given values make, or everything that is wrong with them. -/
def validate (home : String) (raw : RawSettings) :
    Except (List (SettingsField × FieldProblem)) Settings :=
  let history := checkField (defaultHistoryFile home) (checkHistoryFile home) raw.historyFile
  let level := checkField "WARNING" checkLogLevel raw.logLevel
  let prompt := checkField ">>> " .ok raw.prompt
  match history, level, prompt with
  | .ok historyFile, .ok logLevel, .ok prompt => .ok ⟨historyFile, logLevel, prompt⟩
  | _, _, _ =>
    .error (problem .historyFile history ++ problem .logLevel level ++ problem .prompt prompt)

/-- Settings as given values. -/
def toRaw (s : Settings) : RawSettings :=
  ⟨.text s.historyFile, .text s.logLevel, .text s.prompt⟩

end Settings

end Calculator
