import Calculator.Proofs.Pieces
import Calculator.Session.Line

/-!
# Words and lines

The words of a command line are evaluated one by one and never put together. Still they have the
tokens of the line in which single spaces stand between them, so they have its value, or they fail
like it; only the positions in failures count from the start of a word (`FailsInWord`).
-/

namespace Calculator

open Token (uptoInvalid scanEach inWhole)

/-- What stands in front of a word in the line: other words, with a space behind each. -/
def wordsBefore (done : List String) : String :=
  String.join (done.map (· ++ " "))

/-- How the failure `f` of words and the failure `g` of their line differ: not at all if they tell
no position or if a function raised them, and else by what stands in front of the word in which
`f` tells its position. -/
inductive FailsInWord (scope : Scope) (words : List String) : Failure → Failure → Prop
  | unplaced {f : Failure} (hf : f.position? = none) : FailsInWord scope words f f
  | raised {f : Failure} {before after : List (Int × Token)} {n : Int} {t : Token} {d : Evaluation}
      (htokens : scanEach 1 0 words = before ++ (n, t) :: after)
      (hd : (Evaluation.readAll scope (before.map (·.2)) {}).outcome = .ok d)
      (hf : Evaluation.Raises scope d t f) : FailsInWord scope words f f
  | placed {f : Failure} {done left : List String} {w after : String} {p : Nat}
      (hwords : words = done ++ w :: left)
      (hline : " ".intercalate words = wordsBefore done ++ w ++ after)
      (hf : f.position? = some p) (hp : p < w.length) :
    FailsInWord scope words f (f.moved (wordsBefore done).length)

section line

variable {w : String} {words done left : List String} {n : Nat} {p : Int × Token}

lemma wordsBefore_cons : wordsBefore (w :: done) = w ++ " " ++ wordsBefore done := by
  rw [wordsBefore, List.map_cons, String.join_cons]
  rfl

lemma exists_intercalate_eq (done : List String) (w : String) (left : List String) :
    ∃ after, " ".intercalate (done ++ w :: left) = wordsBefore done ++ w ++ after := by
  induction done with
  | nil =>
    cases left with
    | nil => exact ⟨"", by simp [wordsBefore]⟩
    | cons u left =>
      refine ⟨" " ++ " ".intercalate (u :: left), ?_⟩
      simp [wordsBefore, String.append_assoc]
  | cons u done ih =>
    obtain ⟨after, hafter⟩ := ih
    refine ⟨after, ?_⟩
    have hne : done ++ w :: left ≠ [] := by simp
    rw [List.cons_append, String.intercalate_cons_of_ne_nil hne, hafter, wordsBefore_cons]
    simp only [String.append_assoc]

lemma Token.scanFrom_intercalate : scanFrom n (" ".intercalate words).toList =
    uptoInvalid (inWhole (scanEach 1 n words)) := by
  induction words generalizing n with
  | nil => simp [scanEach, inWhole, uptoInvalid]
  | cons w words ih =>
    rw [inWhole_scanEach_cons]
    cases words with
    | nil => simp [scanEach, inWhole, uptoInvalid_scanFrom]
    | cons u words =>
      have hspace : Unicode.isWhitespace ' ' = true := by decide
      have hword := Lexeme.isWordChar_eq_false_of_isWhitespace hspace
      have hapart (s : List Char) : Apart w.toList (' ' :: s) := by
        intro x y _ hy
        obtain rfl := Option.some.inj hy
        simp [hword]
      have hline : (" ".intercalate (w :: u :: words)).toList =
          w.toList ++ ' ' :: (" ".intercalate (u :: words)).toList := by
        rw [String.intercalate_cons_cons, String.toList_append, String.toList_append,
          List.append_assoc]
        rfl
      rw [hline, scanFrom_append (hapart _), scanFrom_cons_of_isWhitespace hspace, ih,
        uptoInvalid_append_uptoInvalid, String.length_toList]

lemma Token.exists_of_mem_scanEach (h : p ∈ scanEach 1 n words) : ∃ done w left,
    words = done ++ w :: left ∧ p.1 = n + (wordsBefore done).length ∧ p.2 ∈ scan w := by
  induction words generalizing n with
  | nil => exact absurd h (by simp [scanEach])
  | cons w words ih =>
    rcases List.mem_append.mp h with h | h
    · obtain ⟨t, ht, rfl⟩ := List.mem_map.mp h
      exact ⟨[], w, words, rfl, by simp [wordsBefore], ht⟩
    · obtain ⟨done, u, left, rfl, hn, ht⟩ := ih h
      refine ⟨w :: done, u, left, rfl, ?_, ht⟩
      rw [hn, wordsBefore_cons, String.length_append, String.length_append]
      have hspace : " ".length = 1 := rfl
      omega

end line

variable {scope : Scope} {words : List String} {whole : List Token} {f g : Failure}

/-- A failure at a token of a word is placed in that word. -/
lemma Evaluation.FailsAlike.failsInWord
    (h : FailsAlike scope {} (scanEach 1 0 words) whole f g) : FailsInWord scope words f g := by
  cases h with
  | @intro before after rest n t d hl _ hbefore _ _ _ hfg =>
    rcases hfg with ⟨hat, rfl⟩ | ⟨hraises, rfl⟩
    · cases hf : f.position? with
      | none =>
        rw [Failure.moved_of_position? hf]
        exact .unplaced hf
      | some p =>
        have hmem : (n, t) ∈ scanEach 1 0 words := by
          rw [hl]
          simp
        obtain ⟨done, w, left, hwords, hn, ht⟩ := Token.exists_of_mem_scanEach hmem
        obtain ⟨after, hline⟩ := exists_intercalate_eq done w left
        obtain ⟨hlow, hhigh, hinvalid⟩ := Token.position_of_mem_scanFrom ht
        have hp : t.position = p := (hat p hf).elim (hinvalid p) id
        have hstart : n = (wordsBefore done).length := by simpa using hn
        rw [hp] at hlow hhigh
        obtain ⟨p, rfl⟩ := Int.eq_ofNat_of_zero_le hlow
        have hlength : p < w.length := by
          rw [← String.length_toList]
          omega
        rw [hstart]
        exact .placed hwords (hwords ▸ hline) hf hlength
    · exact .raised hl hbefore hraises

lemma FailsInWord.kind_eq (h : FailsInWord scope words f g) : g.kind = f.kind := by
  cases h with
  | unplaced | raised => rfl
  | placed => exact Failure.kind_moved

namespace Scope

lemma outcome_evaluateAndKeep (scope : Scope) (text : String) :
    (scope.evaluateAndKeep text).outcome =
      (fun x => (x, scope.assign "ans" x)) <$> (scope.evaluate text).outcome := by
  rw [evaluateAndKeep, Traced.outcome_bind]
  cases (scope.evaluate text).outcome <;> rfl

lemma evaluateAndKeep_eq_ok_iff {text : String} {x : Float} {kept : Scope} :
    (scope.evaluateAndKeep text).outcome = .ok (x, kept) ↔
      (scope.evaluate text).outcome = .ok x ∧ scope.assign "ans" x = kept := by
  rw [outcome_evaluateAndKeep]
  cases (scope.evaluate text).outcome with
  | error f => simp
  | ok y =>
    rw [map_ok, Except.ok.injEq, Except.ok.injEq, Prod.mk.injEq]
    constructor
    · rintro ⟨rfl, rfl⟩
      exact ⟨rfl, rfl⟩
    · rintro ⟨rfl, rfl⟩
      exact ⟨rfl, rfl⟩

lemma evaluateWords_sameCause (scope : Scope) (words : List String) :
    (∃ x, (scope.evaluateWords words).outcome = .ok x ∧
      (scope.evaluate (" ".intercalate words)).outcome = .ok x) ∨
    ∃ f g, (scope.evaluateWords words).outcome = .error f ∧
      (scope.evaluate (" ".intercalate words)).outcome = .error g ∧ f.SameCause g := by
  rcases scope.evaluateWords_alike Token.scanFrom_intercalate with
    ⟨x, hwords, hline⟩ | ⟨f, g, hwords, hline, hfg⟩
  · exact .inl ⟨x, hwords, hline⟩
  · refine .inr ⟨f, g, hwords, hline, ?_⟩
    rcases hfg with hfails | ⟨rfl, -⟩
    · exact hfails.sameCause
    · exact .rfl

/-- Two lines have the same value, or fail for the same cause, if their words do. -/
lemma evaluate_sameCause_of_words {scope' : Scope} {words words' : List String}
    (h : (scope.evaluateWords words).outcome = (scope'.evaluateWords words').outcome) :
    (∃ x, (scope.evaluate (" ".intercalate words)).outcome = .ok x ∧
      (scope'.evaluate (" ".intercalate words')).outcome = .ok x) ∨
    ∃ f g, (scope.evaluate (" ".intercalate words)).outcome = .error f ∧
      (scope'.evaluate (" ".intercalate words')).outcome = .error g ∧ f.SameCause g := by
  rcases scope.evaluateWords_sameCause words with ⟨x, hx, hline⟩ | ⟨f, g, hf, hline, hfg⟩
  · rcases scope'.evaluateWords_sameCause words' with ⟨y, hy, hline'⟩ | ⟨f', g', hf', -, -⟩
    · obtain rfl : x = y := Except.ok.inj (hx.symm.trans (h.trans hy))
      exact .inl ⟨x, hline, hline'⟩
    · exact absurd (hx.symm.trans (h.trans hf')) (by simp)
  · rcases scope'.evaluateWords_sameCause words' with ⟨y, hy, -⟩ | ⟨f', g', hf', hline', hfg'⟩
    · exact absurd (hf.symm.trans (h.trans hy)) (by simp)
    · obtain rfl : f = f' := Except.error.inj (hf.symm.trans (h.trans hf'))
      exact .inr ⟨g, g', hline, hline', hfg.symm.trans hfg'⟩

end Scope

/-- What is reported for the words of a command line, by what their line is in a session: its value
and the scope that the line leaves, or the class of its failure, and the scope unchanged. -/
theorem Report.ofWords_eq (scope : Scope) (words : List String) :
    let line : String := " ".intercalate words
    match (scope.evaluate line).outcome with
    | .ok x =>
      Report.ofWords scope words =
          ⟨false, "Ok: " ++ String.ofList (Numeral.display x) ++ "\n", "", scope.assign "ans" x⟩ ∧
        (scope.evaluateAndKeep line).outcome = .ok (x, scope.assign "ans" x) ∧
        (scope.assign "ans" x).functions = scope.functions ∧
        ∀ name, (scope.assign "ans" x).vars.get? name =
          if Unicode.lower name = "ans" then some x else scope.vars.get? name
    | .error g => ∃ f,
      Report.ofWords scope words = ⟨true, "", "Err: " ++ f.message ++ "!\n", scope⟩ ∧
        f.kind = g.kind ∧ FailsInWord scope words f g ∧
        (scope.evaluateAndKeep line).outcome = .error g ∧
        (Command.ofLine? line = none → (Session.answerLine scope line).scope = scope ∧
          ∃ s, (Session.answerLine scope line).reply = .text false s) := by
  intro line
  have hscan : Token.scan line = uptoInvalid (inWhole (scanEach 1 0 words)) :=
    Token.scanFrom_intercalate
  have hkeep := scope.outcome_evaluateAndKeep line
  rcases scope.evaluateWords_alike hscan with ⟨x, hwords, hline⟩ | ⟨f, g, hwords, hline, hfg⟩
  · rw [hline] at hkeep ⊢
    refine ⟨by rw [Report.ofWords, hwords], hkeep, rfl, fun name => ?_⟩
    have hlower : Unicode.lower "ans" = "ans" := by decide
    rw [Scope.assign, NameTable.get?_set, hlower]
    simp only [eq_comm]
  · rw [hline] at hkeep ⊢
    have hin : FailsInWord scope words f g := by
      rcases hfg with hfails | ⟨rfl, hf⟩
      · exact hfails.failsInWord
      · exact .unplaced hf
    refine ⟨f, by rw [Report.ofWords, hwords], hin.kind_eq.symm, hin, hkeep, fun hcommand => ?_⟩
    rw [map_error] at hkeep
    simp only [Session.answerLine, hcommand, hkeep, Session.failureOutcome]
    cases g <;> exact ⟨rfl, _, rfl⟩

end Calculator
