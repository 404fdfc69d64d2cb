import Calculator.CommandLine.Basic
import Mathlib.Data.List.Infix
import Mathlib.Tactic.Lemma

/-!
# What a process and its options give

The values of settings come from the variables of the process, from definitions and from options.
`RawSettings.ofProcess` says what the first two give, `RawSettings.ofArguments` what the options
among the arguments give, and `RawSettings.overridden` puts the ones in place of the others. The
command line that is read from the arguments holds just what they give (`overrides_of_parse`).
-/

namespace Calculator

/-- The variable of the process that gives a field. -/
def SettingsField.variableName : SettingsField → String
  | historyFile => "PUPIL_HISTORY_FILE"
  | logLevel => "PUPIL_LOG_LEVEL"
  | prompt => "PUPIL_PROMPT"

namespace Given

/-- A given value, or the one that overrides it. -/
def overridden (g : Given) : Given → Given
  | absent => g
  | changes => changes

/-- What an option gives; with an empty value it counts as not given. -/
def ofOption : Option String → Given
  | none => absent
  | some s => if s = "" then absent else text s

end Given

def Settings.get (s : Settings) : SettingsField → String
  | .historyFile => s.historyFile
  | .logLevel => s.logLevel
  | .prompt => s.prompt

namespace RawSettings

def get (raw : RawSettings) : SettingsField → Given
  | .historyFile => raw.historyFile
  | .logLevel => raw.logLevel
  | .prompt => raw.prompt

def overridden (raw changes : RawSettings) : RawSettings where
  historyFile := raw.historyFile.overridden changes.historyFile
  logLevel := raw.logLevel.overridden changes.logLevel
  prompt := raw.prompt.overridden changes.prompt

/-- What a process gives: a variable of its own comes before a definition of the same name. -/
def ofProcess (env defs : ProcessEnvironment) : RawSettings :=
  let value (field : SettingsField) :=
    given ((env.get? field.variableName).or (defs.get? field.variableName))
  ⟨value .historyFile, value .logLevel, value .prompt⟩

lemma get_ofProcess (env defs : ProcessEnvironment) (field : SettingsField) :
    (ofProcess env defs).get field =
      given ((env.get? field.variableName).or (defs.get? field.variableName)) := by
  cases field <;> rfl

lemma get_overridden (raw changes : RawSettings) (field : SettingsField) :
    (raw.overridden changes).get field = (raw.get field).overridden (changes.get field) := by
  cases field <;> rfl

end RawSettings

lemma Settings.get_toRaw (s : Settings) (field : SettingsField) :
    s.toRaw.get field = .text (s.get field) := by
  cases field <;> rfl

lemma Settings.ofProcess_eq (home : String) (env defs : ProcessEnvironment) :
    ofProcess home env defs = validate home (.ofProcess env defs) := by
  have hget (name : String) :
      (env.withDefinitions defs).get? name = (env.get? name).or (defs.get? name) :=
    List.lookup_append
  rw [ofProcess, RawSettings.ofEnvironment, hget, hget, hget]
  rfl

namespace Flag

/-- The value of a flag that stands first among arguments, attached to it or the word after it. -/
def first? (f : Flag) : List Argument → Option String
  | .flag g (some v) :: _ | .flag g none :: .word v :: _ => if g = f then some v else none
  | _ => none

/-- The values that arguments give for a flag, from the first to the last. -/
def valuesIn (f : Flag) (args : List Argument) : List String :=
  args.tails.filterMap f.first?

variable {f g : Flag}

lemma valuesIn_cons (f : Flag) (a : Argument) (args : List Argument) :
    f.valuesIn (a :: args) = (f.first? (a :: args)).toList ++ f.valuesIn args := by
  rw [valuesIn, valuesIn, List.tails_cons, List.filterMap_cons]
  cases f.first? (a :: args) <;> rfl

lemma first?_of_ne (hne : ¬ g = f) (value : Option String) (args : List Argument) :
    f.first? (.flag g value :: args) = none := by
  cases value with
  | some v => exact if_neg hne
  | none =>
    cases args with
    | nil => rfl
    | cons a args =>
      cases a with
      | word v => exact if_neg hne
      | _ => rfl

end Flag

/-- What the options among arguments give, the last value of each. -/
def RawSettings.ofArguments (args : List Argument) : RawSettings where
  historyFile := .ofOption (Flag.historyFile.valuesIn args).getLast?
  logLevel := .ofOption (Flag.logLevel.valuesIn args).getLast?

namespace CommandLine

/-- What the options of a command line give. -/
def overrides (c : CommandLine) : RawSettings where
  historyFile := .ofOption c.historyFile
  logLevel := .ofOption c.logLevel

section reading

/-- The value of an option that takes one. -/
def value? (c : CommandLine) : Flag → Option String
  | .logLevel => c.logLevel
  | .historyFile => c.historyFile
  | .noBanner | .help => none

variable {f g : Flag} {a : Argument} {args : List Argument} {v : String} {c c' : CommandLine}

lemma value?_addWords (c : CommandLine) (words : List String) (f : Flag) :
    (c.addWords words).value? f = c.value? f := by
  unfold addWords
  split <;> cases f <;> rfl

lemma value?_setFlag (hf : f.takesValue = true) (c : CommandLine) (g : Flag) (v : String) :
    (c.setFlag g v).value? f = if g = f then some v else c.value? f := by
  cases f with
  | logLevel => cases g <;> rfl
  | historyFile => cases g <;> rfl
  | _ => exact absurd hf Bool.false_ne_true

lemma lastValue_cons_of_none (h : f.first? (a :: args) = none) (o : Option String) :
    (f.valuesIn (a :: args)).getLast?.or o = (f.valuesIn args).getLast?.or o := by
  rw [Flag.valuesIn_cons, h, Option.toList_none, List.nil_append]

lemma lastValue_cons_setFlag (hf : f.takesValue = true)
    (h : f.first? (a :: args) = if g = f then some v else none) (c : CommandLine) :
    (f.valuesIn (a :: args)).getLast?.or (c.value? f) =
      (f.valuesIn args).getLast?.or ((c.setFlag g v).value? f) := by
  rw [value?_setFlag hf]
  by_cases hg : g = f
  · rw [if_pos hg] at h ⊢
    rw [Flag.valuesIn_cons, h, Option.toList_some, List.singleton_append, List.getLast?_cons]
    cases (f.valuesIn args).getLast? <;> rfl
  · rw [if_neg hg] at h ⊢
    exact lastValue_cons_of_none h _

/-- Of the values that arguments give for an option the last one counts. -/
lemma value?_of_readArguments (hf : f.takesValue = true) (h : readArguments args c = .ok c') :
    c'.value? f = (f.valuesIn args).getLast?.or (c.value? f) := by
  fun_induction readArguments args c with
  | case2 c hexcess =>
    obtain rfl := Except.ok.inj h
    rfl
  | case3 s args c ih => rw [ih h, value?_addWords, lastValue_cons_of_none rfl]
  | case4 args c ih => rw [ih h, value?_addWords, lastValue_cons_of_none rfl]
  | case5 args c ih =>
    rw [ih h, lastValue_cons_of_none rfl]
    cases f <;> rfl
  | case8 g v args c hg ih => rw [ih h, lastValue_cons_setFlag hf rfl]
  | case11 args c ih =>
    have hne : ¬ Flag.noBanner = f := by
      rintro rfl
      exact absurd hf Bool.false_ne_true
    rw [ih h, lastValue_cons_of_none (Flag.first?_of_ne hne none args), value?_setFlag hf,
      if_neg hne]
  | case12 g v args c _ _ ih =>
    -- the word after the flag is its value, and no value of its own
    rw [ih h, lastValue_cons_setFlag hf rfl, lastValue_cons_of_none rfl]
  | _ => exact nomatch h

/-- A command line has the options of the arguments that it is read from. -/
theorem overrides_of_parse {args : List String} (h : parse args = .ok c) :
    c.overrides = .ofArguments (Argument.ofList args) := by
  unfold parse at h
  dsimp only at h
  split at h
  · exact nomatch h
  · have hhistory : c.historyFile = (Flag.historyFile.valuesIn (Argument.ofList args)).getLast? :=
      (value?_of_readArguments (f := .historyFile) rfl h).trans Option.or_none
    have hlevel : c.logLevel = (Flag.logLevel.valuesIn (Argument.ofList args)).getLast? :=
      (value?_of_readArguments (f := .logLevel) rfl h).trans Option.or_none
    rw [overrides, hhistory, hlevel, RawSettings.ofArguments]

end reading

section settings

lemma ofOption_eq (value : Option String) :
    Given.ofOption value = RawSettings.given (override? value) := by
  cases value with
  | none => rfl
  | some s =>
    by_cases hs : s = ""
    · rw [Given.ofOption, if_pos hs, override?, Option.filter_some_neg (by simpa using hs)]
      rfl
    · rw [Given.ofOption, if_neg hs, override?, Option.filter_some_pos (by simpa using hs)]
      rfl

lemma overrideRaw_eq (c : CommandLine) (raw : RawSettings) :
    c.overrideRaw raw = raw.overridden c.overrides := by
  rw [overrideRaw, overrides, ofOption_eq, ofOption_eq]
  cases override? c.historyFile <;> cases override? c.logLevel <;> rfl

lemma overrides_eq_empty_iff (c : CommandLine) :
    c.overrides = {} ↔
      ((override? c.historyFile).isNone && (override? c.logLevel).isNone) = true := by
  rw [overrides, ofOption_eq, ofOption_eq]
  cases override? c.historyFile <;> cases override? c.logLevel <;> simp [RawSettings.given]

/-- The settings of the process are checked again with what the options give in its place. -/
lemma settings_eq (home : String) (env defs : ProcessEnvironment) (c : CommandLine) :
    c.settings home env defs = Settings.ofProcess home env defs >>= fun s =>
      if c.overrides = {} then .ok s
      else Settings.validate home (s.toRaw.overridden c.overrides) := by
  simp only [settings, overrideRaw_eq, overrides_eq_empty_iff]
  rfl

end settings

end CommandLine

end Calculator
