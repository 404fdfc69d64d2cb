import Calculator.Proofs.Validation

/-!
# Options in place of variables

An option overrides the variable of its field, but the variables are checked before any option is
looked at. So a variable that has an option in its place can still be the reason for a refusal:
`SettingsField.Accepted` says that it is not. Between values that are accepted, and between values
that are not, nothing a command line does tells the difference.
-/

namespace Calculator

lemma SettingsField.variableName_inj {field other : SettingsField} :
    field.variableName = other.variableName ↔ field = other := by
  cases field <;> cases other <;> simp [variableName]

/-- What the process gives for a field passes its check. -/
def SettingsField.Accepted (home : String) (env defs : ProcessEnvironment)
    (field : SettingsField) : Prop :=
  ∃ v, field.check home ((RawSettings.ofProcess env defs).get field) = .ok v

lemma ProcessEnvironment.get?_cons_of_ne {env : ProcessEnvironment} {key name : String}
    (hne : name ≠ key) (given : String) : get? ((key, given) :: env) name = get? env name := by
  simp [get?, List.lookup_cons, beq_eq_false_iff_ne.mpr hne]

namespace Settings

/-- Settings exist as soon as every field passes its check. -/
lemma exists_validate_eq_ok_iff {home : String} {raw : RawSettings} :
    (∃ s, validate home raw = .ok s) ↔
      ∀ field : SettingsField, ∃ v, field.check home (raw.get field) = .ok v := by
  constructor
  · rintro ⟨s, hs⟩ field
    exact ⟨s.get field, validate_eq_ok_iff.mp hs field⟩
  · intro h
    choose v hv using h
    refine ⟨⟨v .historyFile, v .logLevel, v .prompt⟩, validate_eq_ok_iff.mpr fun field => ?_⟩
    cases field <;> exact hv _

end Settings

namespace RawSettings

variable {env env' defs defs' : ProcessEnvironment} {field other : SettingsField}

/-- The fields of other variables are given the same. -/
lemma get_ofProcess_congr
    (hsame : ∀ name, name ≠ field.variableName → env.get? name = env'.get? name)
    (hdefs : ∀ name, name ≠ field.variableName → defs.get? name = defs'.get? name)
    (hne : other ≠ field) : (ofProcess env defs).get other = (ofProcess env' defs').get other := by
  have hname := SettingsField.variableName_inj.not.mpr hne
  rw [get_ofProcess, get_ofProcess, hsame _ hname, hdefs _ hname]

end RawSettings

namespace CommandLine

variable {home : String} {env defs : ProcessEnvironment} {c : CommandLine} {field : SettingsField}

/-- With an option in place, the settings of the process are checked again together with the
options. -/
lemma settings_of_given {given : String} (hgiven : c.overrides.get field = .text given) :
    c.settings home env defs = Settings.ofProcess home env defs >>= fun s =>
      Settings.validate home (s.toRaw.overridden c.overrides) := by
  have hne : c.overrides ≠ {} := by
    intro hempty
    rw [hempty] at hgiven
    cases field <;> exact nomatch hgiven
  rw [settings_eq]
  simp only [hne, if_false]

/-- The field with the option has the value of the option, if the process is not refused for what it
gives in its place. -/
lemma settings_eq_ok_iff {s : Settings} {given v : String}
    (hgiven : c.overrides.get field = .text given) (hv : field.check home (.text given) = .ok v) :
    c.settings home env defs = .ok s ↔
      field.Accepted home env defs ∧ s.get field = v ∧ ∀ other : SettingsField, other ≠ field →
        ∃ w, other.check home ((RawSettings.ofProcess env defs).get other) = .ok w ∧
          other.check home ((Given.text w).overridden (c.overrides.get other)) =
            .ok (s.get other) := by
  have hfield (raw : RawSettings) : field.check home ((raw.overridden c.overrides).get field) =
      .ok v := by
    rw [RawSettings.get_overridden, hgiven]
    exact hv
  have hother (s₀ : Settings) (other : SettingsField) :
      (s₀.toRaw.overridden c.overrides).get other =
        (Given.text (s₀.get other)).overridden (c.overrides.get other) := by
    rw [RawSettings.get_overridden, Settings.get_toRaw]
  rw [settings_of_given hgiven, Settings.ofProcess_eq]
  constructor
  · intro h
    -- `s₀` comes from the process alone, so there what it gives for the field is checked as well
    obtain ⟨s₀, hs₀, hs⟩ := bind_eq_ok_iff.mp h
    rw [Settings.validate_eq_ok_iff] at hs₀ hs
    refine ⟨⟨_, hs₀ field⟩, Except.ok.inj ((hs field).symm.trans (hfield _)), fun other _ => ?_⟩
    exact ⟨s₀.get other, hs₀ other, hother s₀ other ▸ hs other⟩
  · rintro ⟨haccepted, hs, hothers⟩
    obtain ⟨s₀, hs₀⟩ : ∃ s₀, Settings.validate home (.ofProcess env defs) = .ok s₀ := by
      refine Settings.exists_validate_eq_ok_iff.mpr fun other => ?_
      by_cases hne : other = field
      · exact hne ▸ haccepted
      · obtain ⟨w, hw, -⟩ := hothers other hne
        exact ⟨w, hw⟩
    refine bind_eq_ok_iff.mpr ⟨s₀, hs₀, Settings.validate_eq_ok_iff.mpr fun other => ?_⟩
    by_cases hne : other = field
    · rw [hne, hfield, hs]
    · obtain ⟨w, hw, hcheck⟩ := hothers other hne
      obtain rfl := Except.ok.inj ((Settings.validate_eq_ok_iff.mp hs₀ other).symm.trans hw)
      rw [hother, hcheck]

end CommandLine

namespace Task

variable {home : String} {env env' defs defs' : ProcessEnvironment} {args : List String}
  {field : SettingsField}

lemma ofArguments_congr (h : ∀ c, CommandLine.parse args = .ok c →
    ∀ s, c.settings home env defs = .ok s ↔ c.settings home env' defs' = .ok s) :
    ofArguments home env defs args = ofArguments home env' defs' args := by
  unfold ofArguments
  cases hc : CommandLine.parse args with
  | error why => rfl
  | ok c =>
    have hsettings := h c hc
    cases hs : c.settings home env defs with
    | ok s => simp only [hs, (hsettings s).mp hs]
    | error e =>
      cases hs' : c.settings home env' defs' with
      | ok s => exact absurd ((hsettings s).mpr hs') (by simp [hs])
      | error e' => simp only [hs, hs']

lemma ofArguments_of_settings_ne {c : CommandLine} (hc : CommandLine.parse args = .ok c)
    (h : ∀ s, c.settings home env defs ≠ .ok s) :
    ofArguments home env defs args = .refuse .invalidSettings := by
  unfold ofArguments
  simp only [hc]
  split
  · rfl
  · rename_i s hs
    exact absurd hs (h s)

/-- What a variable or a definition gives for a field that has an option in its place shows in
nothing that is done, the level of the log included, save for whether its check accepts it; if not,
the process exits with code 2. -/
theorem perform_overridden
    (hoption : ∀ c, CommandLine.parse args = .ok c →
      ∃ given v, c.overrides.get field = .text given ∧ field.check home (.text given) = .ok v)
    (hsame : ∀ name, name ≠ field.variableName → env.get? name = env'.get? name)
    (hdefs : ∀ name, name ≠ field.variableName → defs.get? name = defs'.get? name) :
    ((field.Accepted home env defs ↔ field.Accepted home env' defs') → ∀ entries,
      (ofArguments home env defs args).perform entries =
        (ofArguments home env' defs' args).perform entries) ∧
    (¬ field.Accepted home env defs → ∀ c, CommandLine.parse args = .ok c → ∀ entries,
      (ofArguments home env defs args).perform entries = .exit 2) := by
  constructor
  · intro haccepted entries
    congr 1
    refine ofArguments_congr fun c hc s => ?_
    obtain ⟨given, v, hgiven, hv⟩ := hoption c hc
    rw [CommandLine.settings_eq_ok_iff hgiven hv, CommandLine.settings_eq_ok_iff hgiven hv,
      haccepted]
    have hget (other : SettingsField) (hne : other ≠ field) :=
      RawSettings.get_ofProcess_congr hsame hdefs hne
    refine and_congr_right fun _ => and_congr_right fun _ => forall₂_congr fun other hne => ?_
    rw [hget other hne]
  · intro hrefused c hc entries
    obtain ⟨given, v, hgiven, hv⟩ := hoption c hc
    have hnone (s : Settings) : c.settings home env defs ≠ .ok s := fun h =>
      hrefused ((CommandLine.settings_eq_ok_iff hgiven hv).mp h).1
    rw [ofArguments_of_settings_ne hc hnone]
    rfl

/-- A level in small letters, an unknown one and none at all, all with an option in their place. -/
theorem perform_overridden_level :
    (∀ c, CommandLine.parse ["--log-level", "ERROR", "1"] = .ok c → ∃ given v,
      c.overrides.get .logLevel = .text given ∧
        SettingsField.logLevel.check "/home/pupil" (.text given) = .ok v) ∧
    (∀ name, name ≠ SettingsField.logLevel.variableName →
      ProcessEnvironment.get? [("PUPIL_LOG_LEVEL", "debug")] name =
        ProcessEnvironment.get? [] name) ∧
    (SettingsField.logLevel.Accepted "/home/pupil" [("PUPIL_LOG_LEVEL", "debug")] [] ↔
      SettingsField.logLevel.Accepted "/home/pupil" [] []) ∧
    (∀ entries, (ofArguments "/home/pupil" [("PUPIL_LOG_LEVEL", "debug")] []
        ["--log-level", "ERROR", "1"]).perform entries =
      (ofArguments "/home/pupil" [] [] ["--log-level", "ERROR", "1"]).perform entries) ∧
    ¬ SettingsField.logLevel.Accepted "/home/pupil" [("PUPIL_LOG_LEVEL", "chatty")] [] ∧
    ∀ entries, (ofArguments "/home/pupil" [("PUPIL_LOG_LEVEL", "chatty")] []
        ["--log-level", "ERROR", "1"]).perform entries = .exit 2 := by
  have hoption : ∀ c, CommandLine.parse ["--log-level", "ERROR", "1"] = .ok c → ∃ given v,
      c.overrides.get .logLevel = .text given ∧
        SettingsField.logLevel.check "/home/pupil" (.text given) = .ok v := by
    intro c hc
    obtain rfl := Except.ok.inj hc
    exact ⟨"ERROR", "ERROR", rfl, rfl⟩
  have hsame (given : String) : ∀ name, name ≠ SettingsField.logLevel.variableName →
      ProcessEnvironment.get? [("PUPIL_LOG_LEVEL", given)] name =
        ProcessEnvironment.get? [] name :=
    fun _ hne => ProcessEnvironment.get?_cons_of_ne hne given
  have haccepted : SettingsField.logLevel.Accepted "/home/pupil"
      [("PUPIL_LOG_LEVEL", "debug")] [] ↔ SettingsField.logLevel.Accepted "/home/pupil" [] [] :=
    iff_of_true ⟨"DEBUG", rfl⟩ ⟨"WARNING", rfl⟩
  have hrefused : ¬ SettingsField.logLevel.Accepted "/home/pupil"
      [("PUPIL_LOG_LEVEL", "chatty")] [] := by
    rintro ⟨v, hv⟩
    have herror : (Except.error (.unknownLevel "chatty") : Except FieldProblem String) = .ok v := hv
    exact nomatch herror
  exact ⟨hoption, hsame "debug", haccepted,
    (perform_overridden hoption (hsame "debug") fun _ _ => rfl).1 haccepted, hrefused,
    (perform_overridden hoption (hsame "chatty") fun _ _ => rfl).2 hrefused _ rfl⟩

/-- An unknown level is refused even where an option gives another one in its place: without the
variable the expression is evaluated. -/
theorem perform_unknown_level_not_overridden :
    SettingsField.logLevel.check "/home/pupil" (.text "ERROR") = .ok "ERROR" ∧
    (∃ c, CommandLine.parse ["--log-level", "ERROR", "1"] = .ok c ∧
      c.overrides.get .logLevel = .text "ERROR") ∧
    (∀ name, name ≠ "PUPIL_LOG_LEVEL" →
      ProcessEnvironment.get? [("PUPIL_LOG_LEVEL", "chatty")] name =
        ProcessEnvironment.get? [] name) ∧
    (ofArguments "/home/pupil" [("PUPIL_LOG_LEVEL", "chatty")] []
      ["--log-level", "ERROR", "1"]).perform [] = .exit 2 ∧
    (ofArguments "/home/pupil" [] [] ["--log-level", "ERROR", "1"]).perform [] =
      .report "ERROR" (Report.ofWords Scope.initial ["1"]) := by
  exact ⟨rfl, ⟨_, rfl, rfl⟩, fun _ hne => ProcessEnvironment.get?_cons_of_ne hne "chatty",
    rfl, rfl⟩

end Task

end Calculator
