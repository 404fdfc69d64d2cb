import Calculator.Settings.Basic

/-!
# Where settings come from

Settings are read from the environment variables of the process. Definitions, which a file can hold,
add the variables that the process does not have.
-/

namespace Calculator

/-- The names of environment variables with their values. -/
abbrev ProcessEnvironment := List (String × String)

namespace ProcessEnvironment

def get? (env : ProcessEnvironment) (name : String) : Option String :=
  env.lookup name

/-- Variables of the process come first. -/
def withDefinitions (env defs : ProcessEnvironment) : ProcessEnvironment :=
  env ++ defs

end ProcessEnvironment

namespace RawSettings

def given : Option String → Given
  | some s => .text s
  | none => .absent

/-- The values that the variables of the process give. -/
def ofEnvironment (env : ProcessEnvironment) : RawSettings where
  historyFile := given (env.get? "PUPIL_HISTORY_FILE")
  logLevel := given (env.get? "PUPIL_LOG_LEVEL")
  prompt := given (env.get? "PUPIL_PROMPT")

end RawSettings

/-- The settings of a process with the given home directory, variables and definitions. -/
def Settings.ofProcess (home : String) (env defs : ProcessEnvironment) :
    Except (List (SettingsField × FieldProblem)) Settings :=
  Settings.validate home (.ofEnvironment (env.withDefinitions defs))

end Calculator
