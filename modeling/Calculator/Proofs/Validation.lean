import Calculator.Proofs.Commands
import Calculator.Proofs.Options
import Calculator.Proofs.Traced
import Mathlib.Data.List.DropRight

/-!
# Checking settings twice

A check brings a value into its final form, and the final form passes the check unchanged: a path
without blanks around it in which no tilde is left to expand, a level name in capitals. So the
settings of a process can be checked once more together with the values that override some of them,
as if all values had been given at once.
-/

namespace Calculator

namespace Text

lemma trimEnd_trimEnd (s : List Char) : trimEnd (trimEnd s) = trimEnd s :=
  List.rdropWhile_idempotent _ s

lemma trim_cons {c : Char} (hc : Unicode.isWhitespace c = false) (r : List Char) :
    trim (c :: r) = c :: trimEnd r := by
  have hnone : IsBlank [] := fun d hd => absurd hd (by simp)
  exact trim_append_cons hnone hc

lemma trim_trim (s : List Char) : trim (trim s) = trim s := by
  rcases isBlank_or s with h | ⟨before, c, r, rfl, hbefore, hc⟩
  · rw [trim_of_isBlank h]
    rfl
  · rw [trim_append_cons hbefore hc, trim_cons hc, trimEnd_trimEnd]

lemma trimEnd_append_cons {c : Char} (hc : Unicode.isWhitespace c = false) (s r : List Char) :
    trimEnd (s ++ c :: r) = s ++ c :: trimEnd r := by
  have hdrop : trimStart (c :: r).reverse = (c :: trimEnd r).reverse := by
    rw [← trimEnd_cons hc, trimEnd, List.reverse_reverse]
  have hempty : (c :: trimEnd r).reverse.isEmpty = false := by simp
  rw [trimStart] at hdrop
  rw [trimEnd, trimStart, List.reverse_append, List.dropWhile_append, hdrop, hempty]
  simp

end Text

/-- The check of a field, with the default where nothing is given. -/
def SettingsField.check (home : String) : SettingsField → Given → Except FieldProblem String
  | historyFile => Settings.checkField (Settings.defaultHistoryFile home)
      (Settings.checkHistoryFile home)
  | logLevel => Settings.checkField "WARNING" Settings.checkLogLevel
  | prompt => Settings.checkField ">>> " .ok

namespace Settings

/-- The home directory is an absolute path, and what a tilde stands for has no blanks around it. -/
structure IsHome (home : List Char) : Prop where
  absolute : home.head? = some '/'
  trimmed : Text.trim (expandHome home ['~']) = expandHome home ['~']

/-- A path that the check of a history file leaves as it is. -/
structure IsFinalPath (home path : List Char) : Prop where
  ne_nil : path ≠ []
  trimmed : Text.trim path = path
  expanded : expandHome home path = path

variable {home path : List Char}

lemma IsFinalPath.checkHistoryFile {home s : String} (h : IsFinalPath home.toList s.toList) :
    checkHistoryFile home s = .ok s := by
  unfold Settings.checkHistoryFile
  simp only [h.trimmed, h.expanded, List.isEmpty_iff, h.ne_nil, if_false, String.ofList_toList]

lemma isWhitespace_slash : Unicode.isWhitespace '/' = false := by
  decide

lemma expandHome_slash (home r : List Char) : expandHome home ('/' :: r) = '/' :: r := rfl

lemma isFinalPath_slash {r : List Char} (h : Text.trimEnd r = r) : IsFinalPath home ('/' :: r) := by
  refine ⟨by simp, ?_, expandHome_slash home r⟩
  rw [Text.trim_cons isWhitespace_slash, h]

lemma dropSlashes_eq_nil_or (h : IsHome home) :
    dropSlashes home = [] ∨ ∃ r, dropSlashes home = '/' :: r := by
  obtain ⟨r, rfl⟩ := List.head?_eq_some_iff.mp h.absolute
  have hsplit : dropSlashes ('/' :: r) <+: '/' :: r := List.rdropWhile_prefix ..
  cases hd : dropSlashes ('/' :: r) with
  | nil => exact .inl rfl
  | cons c s =>
    rw [hd, List.cons_prefix_cons] at hsplit
    exact .inr ⟨s, by rw [hsplit.1]⟩

/-- What a path without blanks around it becomes stays as it is from then on. -/
lemma IsHome.isFinalPath_expandHome (h : IsHome home) (hne : path ≠ [])
    (htrim : Text.trim path = path) : IsFinalPath home (expandHome home path) := by
  fun_cases expandHome home path with
  | case1 hempty => exact isFinalPath_slash rfl
  | case2 hempty =>
    have htilde := h.trimmed
    simp only [expandHome, hempty, Bool.false_eq_true, if_false] at htilde
    rcases dropSlashes_eq_nil_or h with hnil | ⟨s, hs⟩
    · exact absurd hempty (by simp [hnil])
    · rw [hs] at htilde ⊢
      rw [Text.trim_cons isWhitespace_slash, List.cons.injEq] at htilde
      exact isFinalPath_slash htilde.2
  | case3 r =>
    have hr : Text.trimEnd r = r := by
      have htilde : Unicode.isWhitespace '~' = false := by decide
      rw [Text.trim_cons htilde, Text.trimEnd_cons isWhitespace_slash] at htrim
      simpa using htrim
    rcases dropSlashes_eq_nil_or h with hnil | ⟨s, hs⟩
    · rw [hnil]
      exact isFinalPath_slash hr
    · rw [hs]
      apply isFinalPath_slash
      have hlast := Text.trimEnd_append_cons isWhitespace_slash s r
      rwa [hr] at hlast
  | case4 path htilde hslash =>
    refine ⟨hne, htrim, ?_⟩
    unfold expandHome
    split
    · exact absurd rfl htilde
    · exact absurd rfl (hslash _)
    · rfl

lemma checkHistoryFile_checkHistoryFile {home s t : String} (h : IsHome home.toList)
    (hs : checkHistoryFile home s = .ok t) : checkHistoryFile home t = .ok t := by
  simp only [checkHistoryFile] at hs
  split at hs
  · exact absurd hs (by simp)
  · rename_i hne
    obtain rfl := Except.ok.inj hs
    apply IsFinalPath.checkHistoryFile
    rw [String.toList_ofList]
    exact h.isFinalPath_expandHome (by simpa using hne) (Text.trim_trim s.toList)

lemma checkHistoryFile_default {home : String} (h : IsHome home.toList) :
    checkHistoryFile home (defaultHistoryFile home) = .ok (defaultHistoryFile home) := by
  apply IsFinalPath.checkHistoryFile
  rw [defaultHistoryFile, String.toList_ofList]
  exact h.isFinalPath_expandHome (by decide) (by decide)

/-- The level names stay as they are. -/
lemma checkLogLevel_of_mem {s : String} (h : s ∈ levelNames) : checkLogLevel s = .ok s := by
  have hnames : ∀ s ∈ levelNames, String.ofList ((Text.trim s.toList).map capital) = s := by
    decide
  unfold checkLogLevel
  rw [hnames s h, if_pos (by simpa using h)]

lemma checkLogLevel_checkLogLevel {s t : String} (h : checkLogLevel s = .ok t) :
    checkLogLevel t = .ok t := by
  simp only [checkLogLevel] at h
  split at h
  · rename_i hmem
    obtain rfl := Except.ok.inj h
    exact checkLogLevel_of_mem (by simpa using hmem)
  · exact absurd h (by simp)

section check

variable {home v : String} {field : SettingsField} {g g' : Given} {raw raw' : RawSettings}

/-- A checked value, or a default that the check leaves alone, can be given in its turn. -/
lemma checkField_text {default : String} {check : String → Except FieldProblem String}
    (hdefault : check default = .ok default)
    (hcheck : ∀ s t, check s = .ok t → check t = .ok t) (hv : checkField default check g = .ok v) :
    checkField default check (.text v) = .ok v := by
  cases g with
  | absent =>
    obtain rfl := Except.ok.inj hv
    exact hdefault
  | text s => exact hcheck s v hv
  | other => exact absurd hv (by simp [checkField])

lemma check_text (hhome : IsHome home.toList) (hv : field.check home g = .ok v) :
    field.check home (.text v) = .ok v := by
  cases field with
  | historyFile =>
    exact checkField_text (checkHistoryFile_default hhome)
      (fun _ _ => checkHistoryFile_checkHistoryFile hhome) hv
  | logLevel =>
    exact checkField_text (checkLogLevel_of_mem (by decide))
      (fun _ _ => checkLogLevel_checkLogLevel) hv
  | prompt => exact checkField_text rfl (fun _ _ _ => rfl) hv

lemma check_overridden (h : field.check home g = field.check home g') (changes : Given) :
    field.check home (g.overridden changes) = field.check home (g'.overridden changes) := by
  cases changes with
  | absent => exact h
  | text s => rfl
  | other => rfl

lemma validate_congr
    (h : ∀ field : SettingsField,
      field.check home (raw.get field) = field.check home (raw'.get field)) :
    validate home raw = validate home raw' := by
  have hhistory := h .historyFile
  have hlevel := h .logLevel
  have hprompt := h .prompt
  simp only [SettingsField.check, RawSettings.get] at hhistory hlevel hprompt
  simp only [validate, hhistory, hlevel, hprompt]

lemma validate_eq_ok_iff {s : Settings} :
    validate home raw = .ok s ↔
      ∀ field : SettingsField, field.check home (raw.get field) = .ok (s.get field) := by
  constructor
  · intro h field
    simp only [validate] at h
    split at h
    · rename_i hhistory hlevel hprompt
      obtain rfl := Except.ok.inj h
      cases field with
      | historyFile => exact hhistory
      | logLevel => exact hlevel
      | prompt => exact hprompt
    · exact nomatch h
  · intro h
    have hhistory := h .historyFile
    have hlevel := h .logLevel
    have hprompt := h .prompt
    simp only [SettingsField.check, RawSettings.get] at hhistory hlevel hprompt
    simp only [validate, hhistory, hlevel, hprompt]
    rfl

end check

/-- Checked settings with values that override them are checked with the outcome of a single check
of all given values. So a command line has the settings of that single check, with what its
arguments give in place of what the process gives, and what they do not override stays as it was. -/
theorem validate_overridden {home : String} {env defs : ProcessEnvironment} {s : Settings}
    (hhome : IsHome home.toList) (hs : ofProcess home env defs = .ok s) :
    (∀ changes, validate home (s.toRaw.overridden changes) =
      validate home ((RawSettings.ofProcess env defs).overridden changes)) ∧
    (∀ c : CommandLine, c.settings home env defs =
      validate home ((RawSettings.ofProcess env defs).overridden c.overrides)) ∧
    (∀ args c, CommandLine.parse args = .ok c →
      c.overrides = RawSettings.ofArguments (Argument.ofList args)) ∧
    ∀ changes s', validate home (s.toRaw.overridden changes) = .ok s' →
      (changes.historyFile = .absent → s'.historyFile = s.historyFile) ∧
      (changes.logLevel = .absent → s'.logLevel = s.logLevel) ∧
      (changes.prompt = .absent → s'.prompt = s.prompt) := by
  have hraw := hs
  rw [ofProcess_eq, validate_eq_ok_iff] at hraw
  have htext (field : SettingsField) := check_text hhome (hraw field)
  have hall (changes : RawSettings) : validate home (s.toRaw.overridden changes) =
      validate home ((RawSettings.ofProcess env defs).overridden changes) := by
    refine validate_congr fun field => ?_
    rw [RawSettings.get_overridden, RawSettings.get_overridden, get_toRaw]
    exact check_overridden ((htext field).trans (hraw field).symm) _
  refine ⟨hall, fun c => ?_, fun _ _ => CommandLine.overrides_of_parse, fun changes s' h => ?_⟩
  · rw [CommandLine.settings_eq, hs, ok_bind, ← hall]
    split
    · rename_i hempty
      rw [hempty]
      exact (validate_eq_ok_iff.mpr fun field => get_toRaw s field ▸ htext field).symm
    · rfl
  · have hkept (field : SettingsField) (habsent : changes.get field = .absent) :
        s'.get field = s.get field := by
      have hfield := validate_eq_ok_iff.mp h field
      rw [RawSettings.get_overridden, habsent, get_toRaw] at hfield
      exact Except.ok.inj (hfield.symm.trans (htext field))
    exact ⟨hkept .historyFile, hkept .logLevel, hkept .prompt⟩

/-- A path with a tilde and blanks around it, a level among the definitions and an option with an
unknown level. -/
theorem validate_overridden_unknown_level :
    ∃ (s : Settings) (c : CommandLine),
      ofProcess "/home/pupil" [("PUPIL_HISTORY_FILE", " ~/lines ")] [("PUPIL_LOG_LEVEL", "debug")] =
        .ok s ∧
      s = ⟨"/home/pupil/lines", "DEBUG", ">>> "⟩ ∧
      IsHome "/home/pupil".toList ∧
      validate "/home/pupil" (s.toRaw.overridden { logLevel := .text "loud" }) =
        validate "/home/pupil"
          { historyFile := .text " ~/lines ", logLevel := .text "loud" } ∧
      validate "/home/pupil" (s.toRaw.overridden { logLevel := .text "loud" }) =
        .error [(.logLevel, .unknownLevel "loud")] ∧
      CommandLine.parse ["--log-level", "ERROR", "--log-level=loud"] = .ok c ∧
      c.overrides = { logLevel := .text "loud" } ∧
      c.settings "/home/pupil" [("PUPIL_HISTORY_FILE", " ~/lines ")]
        [("PUPIL_LOG_LEVEL", "debug")] = .error [(.logLevel, .unknownLevel "loud")] := by
  have hhome : IsHome "/home/pupil".toList := ⟨rfl, by decide⟩
  have hs : ofProcess "/home/pupil" [("PUPIL_HISTORY_FILE", " ~/lines ")]
      [("PUPIL_LOG_LEVEL", "debug")] = .ok ⟨"/home/pupil/lines", "DEBUG", ">>> "⟩ := by
    rfl
  have hraw : RawSettings.ofProcess [("PUPIL_HISTORY_FILE", " ~/lines ")]
      [("PUPIL_LOG_LEVEL", "debug")] =
        { historyFile := .text " ~/lines ", logLevel := .text "debug" } := by
    rfl
  obtain ⟨c, hc⟩ : ∃ c, CommandLine.parse ["--log-level", "ERROR", "--log-level=loud"] = .ok c :=
    ⟨_, rfl⟩
  obtain ⟨hall, hsettings, hoverrides, -⟩ := validate_overridden hhome hs
  have hchanges := hall { logLevel := .text "loud" }
  have hc' : c.overrides = { logLevel := .text "loud" } := (hoverrides _ c hc).trans rfl
  have hsettings' := hsettings c
  rw [hraw] at hchanges hsettings'
  rw [hc'] at hsettings'
  exact ⟨_, c, hs, rfl, hhome, hchanges, hchanges.trans rfl, hc, hc', hsettings'.trans rfl⟩

end Settings

end Calculator
