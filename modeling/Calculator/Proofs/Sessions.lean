import Calculator.Proofs.Commands
import Calculator.Proofs.Substitution
import Calculator.Session.Transcript

/-!
# Whole sessions

`Answers scope entry a` says what one entry leads to in a scope: what is printed, and the value that
is kept, if there is one. A session answers its entries one after the other (`AnswersAll`), each in
the scope in which the last value so far is kept, up to the first line that ends it.
-/

namespace Calculator

open Text (IsBlank)

/-- The scope in which a value, if there is one, is kept as `ans`. -/
def Scope.keep (scope : Scope) : Option Float → Scope
  | none => scope
  | some x => scope.assign "ans" x

namespace Session

structure Answer where
  output : List String
  /-- The value of an expression that has one. -/
  value : Option Float

/-- The answer to an entry that does not end the session. -/
inductive Answers (scope : Scope) : Entry → Answer → Prop
  | interrupt : Answers scope .interrupt ⟨["^C"], none⟩
  | blank {line : String} (hline : IsBlank line.toList) : Answers scope (.line line) ⟨[], none⟩
  | command {line text : String} {command : Command} (hline : Command.ofLine? line = some command)
      (htext : command.answer? scope = some text) : Answers scope (.line line) ⟨[text], none⟩
  | value {line : String} {x : Float} (hline : ¬IsBlank line.toList)
      (hcommand : ¬Command.IsLine line.toList) (hx : (scope.evaluate line).outcome = .ok x) :
    Answers scope (.line line) ⟨[String.ofList (Numeral.display x)], some x⟩
  | failed {line : String} {f : Failure} (hline : ¬IsBlank line.toList)
      (hcommand : ¬Command.IsLine line.toList) (hf : (scope.evaluate line).outcome = .error f)
      (hkind : f.kind ≠ .foreign) : Answers scope (.line line) ⟨["Error: " ++ f.message], none⟩
  | unhandled {line : String} {f : Failure} (hline : ¬IsBlank line.toList)
      (hcommand : ¬Command.IsLine line.toList) (hf : (scope.evaluate line).outcome = .error f)
      (hkind : f.kind = .foreign) :
    Answers scope (.line line) ⟨["Unhandled error: " ++ f.message], none⟩

/-- Each entry is answered in the scope that the entries before it leave. -/
inductive AnswersAll : Scope → List Entry → List Answer → Prop
  | nil (scope : Scope) : AnswersAll scope [] []
  | cons {scope : Scope} {entry : Entry} {a : Answer} {entries : List Entry}
      {answers : List Answer} (h : Answers scope entry a)
      (hrest : AnswersAll (scope.keep a.value) entries answers) :
    AnswersAll scope (entry :: entries) (a :: answers)

def Entry.EndsSession : Entry → Prop
  | .line text => Command.EndsSession text.toList
  | .interrupt => False

def lastValue (answers : List Answer) : Option Float :=
  (answers.filterMap (·.value)).getLast?

variable {scope : Scope} {entry : Entry} {line : String} {f : Failure}

lemma failureOutcome_eq (scope : Scope) (line : String) (events : List Event) (f : Failure) :
    (failureOutcome scope line events f).scope = scope ∧
      (failureOutcome scope line events f).reply = .text false
        ((if f.kind = .foreign then "Unhandled error: " else "Error: ") ++ f.message) := by
  cases f <;> exact ⟨rfl, rfl⟩

lemma answerLine_of_not_isLine (scope : Scope) (h : ¬Command.IsLine line.toList) :
    (answerLine scope line).reply = (match (scope.evaluate line).outcome with
      | .ok x => .text true (String.ofList (Numeral.display x))
      | .error f => .text false
          ((if f.kind = .foreign then "Unhandled error: " else "Error: ") ++ f.message)) ∧
      (answerLine scope line).scope = match (scope.evaluate line).outcome with
      | .ok x => scope.assign "ans" x
      | .error _ => scope := by
  have hcommand := Command.ofLine?_eq_none_iff.mpr h
  have hkeep := scope.outcome_evaluateAndKeep line
  unfold answerLine
  rw [hcommand]
  cases hx : (scope.evaluate line).outcome with
  | ok x =>
    rw [hx, map_ok] at hkeep
    simp only [hkeep, and_self]
  | error f =>
    rw [hx, map_error] at hkeep
    simp only [hkeep, failureOutcome_eq, and_self]

lemma answerLine_of_command (scope : Scope) {command : Command}
    (h : Command.ofLine? line = some command) :
    (answerLine scope line).scope = scope ∧
      (answerLine scope line).reply = match command.answer? scope with
        | some text => .text true text
        | none => .exit := by
  unfold answerLine
  simp only [h]
  cases command.answer? scope with
  | some text => exact ⟨rfl, rfl⟩
  | none => exact ⟨rfl, rfl⟩

lemma step_of_isBlank (h : IsBlank line.toList) : step scope (.line line) = some ([], scope) :=
  if_pos (Text.isBlank_iff.mpr h)

lemma step_of_not_isBlank (h : ¬IsBlank line.toList) :
    step scope (.line line) = match (answerLine scope line).reply with
      | .exit => none
      | .text _ s => some ([s], (answerLine scope line).scope) :=
  if_neg (by rwa [Text.isBlank_iff])

lemma step_of_endsSession (h : entry.EndsSession) : step scope entry = none := by
  cases entry with
  | interrupt => exact h.elim
  | line text =>
    have hexit : Command.ofLine? text = some .exit := Command.ofLine?_eq_exit_iff.mpr h
    have hblank : ¬IsBlank text.toList := by
      intro hblank
      rw [Command.ofLine?_of_isBlank hblank] at hexit
      exact absurd hexit (by simp)
    rw [step_of_not_isBlank hblank, (answerLine_of_command scope hexit).2]
    rfl

/-- Every other entry has an answer, which is printed, and its value is kept. -/
lemma exists_answers_of_not_endsSession (scope : Scope) (h : ¬entry.EndsSession) :
    ∃ a, Answers scope entry a ∧ step scope entry = some (a.output, scope.keep a.value) := by
  cases entry with
  | interrupt => exact ⟨_, .interrupt, rfl⟩
  | line text =>
    by_cases hblank : IsBlank text.toList
    · exact ⟨_, .blank hblank, step_of_isBlank hblank⟩
    rw [step_of_not_isBlank hblank]
    by_cases hline : Command.IsLine text.toList
    · have hsome : Command.ofLine? text ≠ none := fun hnone =>
        Command.ofLine?_eq_none_iff.mp hnone hline
      obtain ⟨command, hcommand⟩ := Option.ne_none_iff_exists'.mp hsome
      obtain ⟨hscope, hreply⟩ := answerLine_of_command scope hcommand
      have hanswer : command.answer? scope ≠ none := by
        rw [Ne, Command.answer?_eq_none_iff]
        rintro rfl
        exact h (Command.ofLine?_eq_exit_iff.mp hcommand)
      obtain ⟨s, hs⟩ := Option.ne_none_iff_exists'.mp hanswer
      refine ⟨_, .command hcommand hs, ?_⟩
      rw [hreply, hscope, hs]
      rfl
    · obtain ⟨hreply, hscope⟩ := answerLine_of_not_isLine scope hline
      rw [hreply, hscope]
      cases hx : (scope.evaluate text).outcome with
      | ok x => exact ⟨_, .value hblank hline hx, rfl⟩
      | error f =>
        by_cases hkind : f.kind = .foreign
        · refine ⟨_, .unhandled hblank hline hx hkind, ?_⟩
          simp only [hkind, if_true, Scope.keep]
        · refine ⟨_, .failed hblank hline hx hkind, ?_⟩
          simp only [hkind, if_false, Scope.keep]

/-- Of the values that are kept one after the other only the last one stays. -/
lemma keep_lastValue_cons (scope : Scope) (a : Answer) (answers : List Answer) :
    (scope.keep a.value).keep (lastValue answers) = scope.keep (lastValue (a :: answers)) := by
  unfold lastValue
  cases ha : a.value with
  | none => rw [List.filterMap_cons_none ha, Scope.keep]
  | some x =>
    rw [List.filterMap_cons_some ha, List.getLast?_cons]
    cases (answers.filterMap (·.value)).getLast? with
    | none => rfl
    | some y => exact Scope.assign_assign scope "ans" x y

/-- A session that has answered the entries `read` and stops. -/
def ended (scope : Scope) (read : List Entry) (answers : List Answer) (unread : Nat) :
    Transcript :=
  let final := scope.keep (lastValue answers)
  { output := answers.flatMap (·.output) ++ ["Exiting."]
    reads := read.length + 1
    words := completions final
    unread := unread
    scope := final }

lemma exists_run (scope : Scope) (entries : List Entry) :
    ∃ read left answers, entries = read ++ left ∧ (∀ entry ∈ read, ¬entry.EndsSession) ∧
      (∀ entry, left.head? = some entry → entry.EndsSession) ∧ AnswersAll scope read answers ∧
      run scope entries = ended scope read answers left.tail.length := by
  induction entries generalizing scope with
  | nil => exact ⟨[], [], [], rfl, by simp, by simp, .nil scope, rfl⟩
  | cons entry entries ih =>
    by_cases hend : entry.EndsSession
    · refine ⟨[], entry :: entries, [], rfl, by simp, ?_, .nil scope, ?_⟩
      · intro entry' hhead
        rwa [← Option.some.inj hhead]
      · unfold run
        rw [step_of_endsSession hend]
        rfl
    · obtain ⟨a, ha, hstep⟩ := exists_answers_of_not_endsSession scope hend
      obtain ⟨read, left, answers, rfl, hread, hleft, hanswers, hrun⟩ := ih (scope.keep a.value)
      refine ⟨entry :: read, left, a :: answers, rfl, List.forall_mem_cons.mpr ⟨hend, hread⟩,
        hleft, .cons ha hanswers, ?_⟩
      unfold run
      simp only [hstep, hrun, ended, Transcript.after, keep_lastValue_cons, List.flatMap_cons,
        List.append_assoc, List.length_cons]

/-- A session answers its entries up to the first line that ends it, or all of them, and leaves the
entries behind that line unread. It prints the answers and, once and at last, that it exits. Of the
scope only `ans` has changed, if an expression had a value: it is the last such value. -/
theorem run_eq_ended (scope : Scope) (entries : List Entry) :
    ∃ read left answers, entries = read ++ left ∧ (∀ entry ∈ read, ¬entry.EndsSession) ∧
      (∀ entry, left.head? = some entry → entry.EndsSession) ∧ AnswersAll scope read answers ∧
      run scope entries = ended scope read answers left.tail.length ∧
      (run scope entries).scope.functions = scope.functions ∧
      ∀ name, (run scope entries).scope.vars.get? name =
        if Unicode.lower name = "ans" then (lastValue answers).or (scope.vars.get? name)
        else scope.vars.get? name := by
  have hlower : Unicode.lower "ans" = "ans" := by decide
  have hrun := exists_run scope entries
  obtain ⟨read, left, answers, hentries, hread, hleft, hanswers, heq⟩ := hrun
  refine ⟨read, left, answers, hentries, hread, hleft, hanswers, heq, ?_⟩
  have hscope : (run scope entries).scope = scope.keep (lastValue answers) := by
    rw [heq]
    rfl
  rw [hscope]
  cases lastValue answers with
  | none =>
    refine ⟨rfl, fun name => ?_⟩
    simp [Scope.keep]
  | some x =>
    refine ⟨rfl, fun name => ?_⟩
    rw [Scope.keep, Scope.assign, NameTable.get?_set, hlower]
    simp only [eq_comm, Option.some_or]

example : (run Scope.initial [.line " ", .interrupt, .line " : QUIT now", .line "1"]).output =
    ["^C", "Exiting."] := by
  decide

end Session

end Calculator
