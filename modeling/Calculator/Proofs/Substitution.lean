import Calculator.Proofs.Scopes
import Calculator.Proofs.Words

/-!
# A value in place of its expression

The value of a line is kept as `ans`. A later line that names it could hold the expression itself,
in parentheses: in every context a group leaves its value as a name does, and the rest of the line
does not see that the scope has changed.
-/

namespace Calculator

open Lexeme (IsName IsSlice)
open Token (uptoInvalid scanEach inWhole)

lemma NameTable.insert_insert {α : Type} (key : String) (a b : α) (l : List (String × α)) :
    insert key a (insert key b l) = insert key a l := by
  induction l with
  | nil => simp only [insert, if_true]
  | cons p l ih =>
    obtain ⟨k, c⟩ := p
    by_cases heq : k = key
    · simp only [insert, heq, if_true]
    · by_cases hlt : key < k
      · simp only [insert, heq, hlt, if_true, if_false]
      · simp only [insert, heq, hlt, if_false, ih]

lemma Scope.assign_assign (scope : Scope) (name : String) (x y : Float) :
    (scope.assign name x).assign name y = scope.assign name y := by
  simp only [assign, NameTable.set, NameTable.insert_insert]

lemma Lexeme.isName_ans : IsName "ans".toList := by
  refine ⟨by decide, List.all_eq_true.mp (by decide), ?_⟩
  intro c hc
  obtain rfl := Option.some.inj hc
  decide

namespace Token

variable {l : Lexeme} {s : String}

lemma scan_of_isSlice (h : IsSlice l s.toList []) : scan s = [⟨l, 0⟩] := by
  have hscan : scanFrom 0 (s.toList ++ []) = _ := scanFrom_slice h
  rwa [List.append_nil, scanFrom_nil] at hscan

lemma scan_of_isName (h : IsName s.toList) : scan s = [⟨.name s, 0⟩] := by
  have hslice : IsSlice (.name (String.ofList s.toList)) s.toList [] :=
    .name h Lexeme.stops_nil (by simp)
  rw [scan_of_isSlice hslice, String.ofList_toList]

/-- The parentheses of a group are cut off by themselves. -/
lemma scan_group (s : String) :
    scan ("(" ++ s ++ ")") = uptoInvalid (inWhole (scanEach 0 0 ["(", s, ")"])) := by
  have hopen (t : List Char) : Apart "(".toList t := by
    intro x y hx _ hxy
    obtain rfl := Option.some.inj hx
    exact (Lexeme.of_isWordChar hxy.1).2.2.2 rfl
  have hclose : Apart s.toList ")".toList := by
    intro x y _ hy hxy
    obtain rfl := Option.some.inj hy
    rcases hxy.2 with hword | hopen
    · exact (Lexeme.of_isWordChar hword).2.2.1 rfl
    · exact absurd hopen (by decide)
  rw [scan, String.toList_append, String.toList_append, List.append_assoc,
    scanFrom_append (hopen _), scanFrom_append hclose, uptoInvalid_append_uptoInvalid,
    inWhole_scanEach_cons, inWhole_scanEach_cons, inWhole_scanEach_cons,
    ← List.append_nil (scanFrom _ ")".toList)]
  rfl

end Token

namespace Evaluation

variable {scope : Scope} {ts : List Token} {e base : Evaluation} {x : Float} {s : String}

lemma Accounted.readText_group (h : e.Accounted ts) (hp : e.phase ≠ .finished)
    (hbase : (e.awaitValue scope).outcome = .ok base)
    (hgroup : scope.functions.get? "" = some Primitive.group.function)
    (hx : (scope.evaluate s).outcome = .ok x) :
    (e.readText scope ("(" ++ s ++ ")")).outcome =
      .ok ⟨base.calls, base.values.push x, .expectOperator⟩ := by
  have hf : scope.function (Unicode.lower "") = .ok Primitive.group.function :=
    function_ok_iff.mpr hgroup
  let rest : List (Int × List Token) := []
  have hargs : ArgumentValues scope (Token.scan s :: rest.map (·.2)) [x] := .cons hx .nil
  have hcall := readAll_call hp hbase hf hargs 0 0
  have htokens : (scanEach 0 0 ["(", s, ")"]).map (·.2) =
      ⟨.call "", 0⟩ :: argumentTokens (Token.scan s) rest ++ [⟨.close, 0⟩] := by
    have hopen : Token.scan "(" = [⟨.call "", 0⟩] := Token.scan_of_isSlice .group
    have hclose : Token.scan ")" = [⟨.close, 0⟩] := Token.scan_of_isSlice .close
    simp [scanEach, hopen, hclose, rest, argumentTokens_nil, Function.comp_def]
  have halike := h.readAlike scope (scanEach 0 0 ["(", s, ")"])
  rw [htokens, hcall, ← Token.scan_group] at halike
  have hvalue : Primitive.group.function scope.vars [x] = .ok x := rfl
  rw [hvalue, map_ok] at halike
  rw [readText]
  generalize (e.readAll scope (Token.scan ("(" ++ s ++ ")"))).outcome = outcome at halike ⊢
  cases halike with
  | ok d => rfl

lemma readText_name (hp : e.phase ≠ .finished) (hbase : (e.awaitValue scope).outcome = .ok base)
    (hs : IsName s.toList) (hx : scope.valueOf s = .ok x) :
    (e.readText scope s).outcome = .ok ⟨base.calls, base.values.push x, .expectOperator⟩ := by
  rw [readText, Token.scan_of_isName hs, readAll_cons, Traced.outcome_bind,
    (read_named scope (t := ⟨.name s, 0⟩) rfl hp).1, Traced.outcome_bind, hbase, ok_bind]
  simp only [readValue, hx, Traced.ofExcept_ok, pure_bind]
  rfl

lemma IsPure.awaitValue_congr (h : e.IsPure) (scope scope' : Scope) :
    e.awaitValue scope = e.awaitValue scope' := by
  simp only [awaitValue, h.pushOperator_congr scope scope']

end Evaluation

namespace Scope

variable {scope : Scope} {s inner before after : String} {x : Float}

lemma valueOf_assign (h : scope.functions.get? s = none) :
    (scope.assign s x).valueOf s = .ok x := by
  have hfunctions : (scope.assign s x).functions.get? s = none := h
  have hvars : (scope.assign s x).vars.get? s = some x := by
    rw [assign, NameTable.get?_set, if_pos rfl]
  simp only [valueOf, hfunctions, Variables.value, hvars]

/-- A word that names a value can be replaced by a group that has the value. -/
lemma IsPure.outcome_evaluateWords_assign (hpure : scope.IsPure)
    (hgroup : scope.functions.get? "" = some Primitive.group.function)
    (hs : IsName s.toList) (hnone : scope.functions.get? s = none)
    (hx : (scope.evaluate inner).outcome = .ok x)
    (hbefore : ∀ t ∈ Token.scan before, t.lexeme.key? ≠ some (Unicode.lower s))
    (hafter : ∀ t ∈ Token.scan after, t.lexeme.key? ≠ some (Unicode.lower s)) :
    ((scope.assign s x).evaluateWords [before, s, after]).outcome =
      (scope.evaluateWords [before, "(" ++ inner ++ ")", after]).outcome := by
  have hfirst := Evaluation.isPure_start.readAll_congr hpure
    fun t ht => hpure.sameIn_assign (hbefore t ht) x
  simp only [evaluateWords, Evaluation.readWords, bind_assoc, pure_bind, Evaluation.readText,
    ← hfirst]
  rw [Traced.outcome_bind, Traced.outcome_bind]
  cases he : (Evaluation.readAll scope (Token.scan before) {}).outcome with
  | error f => rfl
  | ok e =>
    have hpe : e.IsPure := Evaluation.isPure_start.readAll hpure he
    have hsurveyed := Evaluation.surveyed_of_readAll he
    have hp := hsurveyed.phase_ne_finished
    obtain ⟨base, hbase⟩ := Evaluation.exists_awaitValue hsurveyed.accounted hp scope
    have hbase' : (e.awaitValue (scope.assign s x)).outcome = .ok base := by
      rw [← hpe.awaitValue_congr scope]
      exact hbase
    have hname := Evaluation.readText_name hp hbase' hs (valueOf_assign (x := x) hnone)
    have hvalue := hsurveyed.accounted.readText_group hp hbase hgroup hx
    have hpd := hpe.readAll hpure hvalue
    have hrest := hpd.readAll_congr hpure fun t ht => hpure.sameIn_assign (hafter t ht) x
    rw [Evaluation.readText] at hname hvalue
    rw [ok_bind, ok_bind, Traced.outcome_bind, Traced.outcome_bind, hname, hvalue, ok_bind,
      ok_bind, ← hrest]
    congr 1
    apply Traced.bind_congr_of_outcome
    intro d hd
    rw [(hpd.readAll hpure hd).finish_congr scope (scope.assign s x)]

/-- A value that was kept stands for its expression: where the next line names it, the expression
itself could stand in parentheses. Both lines have the same value and leave the same scope, or they
fail for the same cause. -/
theorem evaluateAndKeep_ans {kept : Scope} (hans : scope.functions.get? "ans" = none)
    (hgroup : scope.functions.get? "" = some Primitive.group.function)
    (hpure : scope.IsPure)
    (hinner : (scope.evaluateAndKeep inner).outcome = .ok (x, kept))
    (hbefore : ∀ t ∈ Token.scan before, t.lexeme.key? ≠ some "ans")
    (hafter : ∀ t ∈ Token.scan after, t.lexeme.key? ≠ some "ans") :
    (∃ r, (kept.evaluateAndKeep (before ++ " ans " ++ after)).outcome = .ok r ∧
      (scope.evaluateAndKeep (before ++ " (" ++ inner ++ ") " ++ after)).outcome = .ok r) ∨
    ∃ f g, (kept.evaluateAndKeep (before ++ " ans " ++ after)).outcome = .error f ∧
      (scope.evaluateAndKeep (before ++ " (" ++ inner ++ ") " ++ after)).outcome = .error g ∧
      f.kind = g.kind ∧ f.SameCause g := by
  obtain ⟨hx, rfl⟩ := evaluateAndKeep_eq_ok_iff.mp hinner
  have hlower : Unicode.lower "ans" = "ans" := by decide
  have hwords : ((scope.assign "ans" x).evaluateWords [before, "ans", after]).outcome =
      (scope.evaluateWords [before, "(" ++ inner ++ ")", after]).outcome := by
    apply hpure.outcome_evaluateWords_assign hgroup Lexeme.isName_ans hans hx
    · rwa [hlower]
    · rwa [hlower]
  have hopen : " (" = " " ++ "(" := rfl
  have hclose : ") " = ")" ++ " " := rfl
  have hkept : " ".intercalate [before, "ans", after] = before ++ " ans " ++ after := by
    simp only [String.intercalate_cons_cons, String.intercalate_singleton, String.append_assoc]
    rfl
  have hgrouped : " ".intercalate [before, "(" ++ inner ++ ")", after] =
      before ++ " (" ++ inner ++ ") " ++ after := by
    simp only [String.intercalate_cons_cons, String.intercalate_singleton, hopen, hclose,
      String.append_assoc]
  have hlines := evaluate_sameCause_of_words hwords
  rw [hkept, hgrouped] at hlines
  rw [outcome_evaluateAndKeep, outcome_evaluateAndKeep]
  rcases hlines with ⟨r, hr, hr'⟩ | ⟨f, g, hf, hg, hfg⟩
  · left
    refine ⟨(r, scope.assign "ans" r), ?_, ?_⟩
    · rw [hr, map_ok, assign_assign]
    · rw [hr', map_ok]
  · right
    refine ⟨f, g, ?_, ?_, hfg.kind_eq.symm, hfg⟩
    · rw [hf, map_error]
    · rw [hg, map_error]

/-- A kept value between a sign and a constant, in the scope that a session starts in. -/
theorem evaluateAndKeep_ans_negated :
    ∃ (x : Float) (kept : Scope),
      (initial.evaluateAndKeep "2").outcome = .ok (x, kept) ∧
      Token.scan "-" = [⟨.operator .sub, 0⟩] ∧ Token.scan "pi" = [⟨.name "pi", 0⟩] ∧
      ((∃ r, (kept.evaluateAndKeep ("-" ++ " ans " ++ "pi")).outcome = .ok r ∧
        (initial.evaluateAndKeep ("-" ++ " (" ++ "2" ++ ") " ++ "pi")).outcome = .ok r) ∨
      ∃ f g, (kept.evaluateAndKeep ("-" ++ " ans " ++ "pi")).outcome = .error f ∧
        (initial.evaluateAndKeep ("-" ++ " (" ++ "2" ++ ") " ++ "pi")).outcome = .error g ∧
        f.kind = g.kind ∧ f.SameCause g) := by
  let x : Float := (Numeral.ofRun ['2']).toFloat false
  have hnumeral : Numeral.IsNumeral "2".toList :=
    ⟨List.all_eq_true.mp (by decide), ⟨'2', by decide, by decide⟩, by decide⟩
  have htwo : Token.scan "2" = [⟨.literal x, 0⟩] :=
    Token.scan_of_isSlice (.literal hnumeral Lexeme.stops_nil)
  have hminus : Token.scan "-" = [⟨.operator .sub, 0⟩] := Token.scan_of_isSlice (.operator rfl)
  have hpi : Token.scan "pi" = [⟨.name "pi", 0⟩] := by
    refine Token.scan_of_isName ⟨by decide, List.all_eq_true.mp (by decide), ?_⟩
    intro c hc
    obtain rfl := Option.some.inj hc
    decide
  have hx : (initial.evaluateAndKeep "2").outcome = .ok (x, initial.assign "ans" x) := by
    rw [outcome_evaluateAndKeep, evaluate, htwo]
    rfl
  refine ⟨x, initial.assign "ans" x, hx, hminus, hpi, ?_⟩
  refine evaluateAndKeep_ans rfl rfl isPure_initial hx ?_ ?_
  · rw [hminus]
    simp [Lexeme.key?]
  · have hkey : some (Unicode.lower "pi") ≠ some "ans" := by decide
    rw [hpi, List.forall_mem_singleton]
    exact hkey

end Scope

end Calculator
