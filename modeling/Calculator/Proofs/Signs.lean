import Calculator.Proofs.Substitution
import Calculator.Proofs.Unpacking

/-!
# Signs before a group

A run of signs is applied from the group outwards. A minus turns a number to its opposite; a plus is
the sum of a single number, which is the number itself, except that the sum of negative zero alone
is positive zero. So a run does to a number other than zero what the parity of its minus signs says,
while of a zero only the minus signs in front of the first plus are left to see.
-/

namespace Calculator

open Binary64 (signed opposite_opposite positiveZero_add negativeZero_add)
open Token (uptoInvalid scanEach inWhole)

namespace Operator

/-- The number that a sign makes of the number behind it. -/
def signValue : Operator → Float → Float
  | sub, x => -x
  | _, x => Statistics.sum [x]

/-- The number that a run of signs makes of the number behind it, the last sign first. -/
def signsValue (signs : List Operator) (x : Float) : Float :=
  signs.foldr signValue x

def signsText (signs : List Operator) : String :=
  String.join (signs.map symbol)

/-- Whether a run of signs has an odd number of minus signs. -/
def oddMinus (signs : List Operator) : Bool :=
  decide (Odd (signs.count .sub))

end Operator

namespace Statistics

lemma sum_singleton (x : Float) : sum [x] = 0.0 + (-0.0 + x) := by
  rw [sum, pairwiseSum]
  rfl

lemma sum_singleton_of_ne {x : Float} (hx : x ≠ -0.0) : sum [x] = x := by
  rw [sum_singleton, negativeZero_add, positiveZero_add hx]

lemma sum_singleton_of_zero {x : Float} (hx : x = 0.0 ∨ x = -0.0) : sum [x] = 0.0 := by
  rw [sum_singleton, negativeZero_add]
  rcases hx with rfl | rfl
  · exact positiveZero_add Binary64.positiveZero_ne_negativeZero
  · exact Binary64.positiveZero_add_negativeZero

end Statistics

namespace Operator

variable {op : Operator} {signs before after : List Operator} {x : Float}

lemma neg_signed (negative : Bool) (x : Float) : -signed negative x = signed (!negative) x := by
  cases negative with
  | false => rfl
  | true => exact opposite_opposite x

lemma signed_ne_negativeZero (hpos : x ≠ 0.0) (hneg : x ≠ -0.0) (negative : Bool) :
    signed negative x ≠ -0.0 := by
  cases negative with
  | false => exact hneg
  | true =>
    intro h
    rw [← opposite_opposite x, show -x = -0.0 from h, opposite_opposite] at hpos
    exact hpos rfl

lemma eq_add_or_eq_sub (h : op.isSign = true) : op = .add ∨ op = .sub := by
  cases op <;> simp [isSign] at h ⊢

lemma oddMinus_sub_cons : oddMinus (.sub :: signs) = !oddMinus signs := by
  rw [oddMinus, oddMinus, List.count_cons_self, ← decide_not]
  exact decide_eq_decide.mpr Nat.odd_add_one

lemma oddMinus_add_cons : oddMinus (.add :: signs) = oddMinus signs := by
  rw [oddMinus, List.count_cons_of_ne (by decide), oddMinus]

/-- A plus changes nothing where the number behind it is not zero. -/
lemma signsValue_eq_signed (hsigns : ∀ op ∈ signs, op.isSign = true)
    (h : (x ≠ 0.0 ∧ x ≠ -0.0) ∨ .add ∉ signs) :
    signsValue signs x = signed (oddMinus signs) x := by
  induction signs with
  | nil => rfl
  | cons op signs ih =>
    have hrest := ih (fun o ho => hsigns o (List.mem_cons_of_mem _ ho))
      (h.imp_right fun hadd hmem => hadd (List.mem_cons_of_mem _ hmem))
    rw [signsValue, List.foldr_cons, ← signsValue, hrest]
    rcases eq_add_or_eq_sub (hsigns op List.mem_cons_self) with rfl | rfl
    · have hx := h.resolve_right fun hadd => hadd List.mem_cons_self
      rw [oddMinus_add_cons]
      exact Statistics.sum_singleton_of_ne (signed_ne_negativeZero hx.1 hx.2 _)
    · rw [oddMinus_sub_cons]
      exact neg_signed _ _

lemma signsValue_zero (hx : x = 0.0 ∨ x = -0.0) :
    signsValue signs x = 0.0 ∨ signsValue signs x = -0.0 := by
  induction signs with
  | nil => exact hx
  | cons op signs ih =>
    rw [signsValue, List.foldr_cons, ← signsValue]
    cases op with
    | sub =>
      rcases ih with h | h
      · exact .inr (by rw [h]; rfl)
      · exact .inl (by rw [h]; exact opposite_opposite 0.0)
    | _ => exact .inl (Statistics.sum_singleton_of_zero ih)

/-- The first plus makes positive zero of what is behind it. -/
lemma signsValue_of_zero (hx : x = 0.0 ∨ x = -0.0) (hsigns : ∀ op ∈ before, op.isSign = true)
    (hbefore : .add ∉ before) :
    signsValue (before ++ .add :: after) x = signed (oddMinus before) 0.0 := by
  have hadd : signsValue (.add :: after) x = 0.0 :=
    Statistics.sum_singleton_of_zero (signsValue_zero hx)
  rw [signsValue, List.foldr_append, ← signsValue, ← signsValue, hadd]
  exact signsValue_eq_signed hsigns (.inr hbefore)

lemma function_sign (h : op.isSign = true) (vars : Variables) (x : Float) :
    op.primitive.function vars [x] = .ok (op.signValue x) := by
  rcases eq_add_or_eq_sub h with rfl | rfl <;> rfl

end Operator

open Operator

section reading

variable {scope : Scope} {signs : List Operator} {e : Evaluation} {s w : String} {x : Float} {n : ℕ}

lemma Token.scan_symbol {op : Operator} (h : op.isSign = true) :
    Token.scan op.symbol = [⟨.operator op, 0⟩] := by
  rcases eq_add_or_eq_sub h with rfl | rfl <;> exact Token.scan_of_isSlice (.operator rfl)

/-- Signs are cut off by themselves, whatever follows. -/
lemma Token.scanFrom_signs (hsigns : ∀ op ∈ signs, op.isSign = true) :
    Token.scanFrom n (signsText signs ++ w).toList =
      uptoInvalid (inWhole (scanEach 0 n (signs.map symbol ++ [w]))) := by
  induction signs generalizing n with
  | nil =>
    have hnil : signsText [] ++ w = w := String.empty_append
    rw [hnil, List.map_nil, List.nil_append, inWhole_scanEach_cons]
    simp [scanEach, inWhole, uptoInvalid_scanFrom]
  | cons op signs ih =>
    have hapart (s : List Char) : Apart op.symbol.toList s := by
      intro x y hx _ hxy
      rcases eq_add_or_eq_sub (hsigns op List.mem_cons_self) with rfl | rfl <;>
      · obtain rfl := Option.some.inj hx
        exact absurd (Lexeme.of_isWordChar hxy.1).1 (by decide)
    have hcons : signsText (op :: signs) = op.symbol ++ signsText signs := by
      rw [signsText, List.map_cons, String.join_cons, signsText]
    rw [hcons, String.append_assoc, String.toList_append, scanFrom_append (hapart _),
      ih fun o ho => hsigns o (List.mem_cons_of_mem _ ho), uptoInvalid_append_uptoInvalid,
      List.map_cons, List.cons_append, inWhole_scanEach_cons, String.length_toList, Nat.add_zero]

namespace Evaluation

lemma readText_sign {op : Operator} (h : op.isSign = true) (hp : e.phase = .expectValue) :
    (e.readText scope op.symbol).outcome = .ok (e.pushCall op.pendingSign) := by
  rw [readText, Token.scan_symbol h, readAll, Traced.outcome_bind, read]
  simp only [hp, readValue, h, if_true]
  rfl

lemma readWords_append (us vs : List String) (e : Evaluation) :
    readWords scope (us ++ vs) e = readWords scope us e >>= readWords scope vs := by
  induction us generalizing e with
  | nil => exact (pure_bind e (readWords scope vs)).symm
  | cons u us ih => simp only [List.cons_append, readWords, ih, bind_assoc]

/-- Signs wait for their number, the last one on top. -/
lemma readWords_signs (hsigns : ∀ op ∈ signs, op.isSign = true) (calls : List Call)
    (values : Stack) :
    (readWords scope (signs.map symbol) ⟨calls, values, .expectValue⟩).outcome =
      .ok ⟨(signs.map pendingSign).reverse ++ calls, values, .expectValue⟩ := by
  induction signs generalizing calls with
  | nil => rfl
  | cons op signs ih =>
    rw [List.map_cons, readWords, Traced.outcome_bind,
      readText_sign (hsigns op List.mem_cons_self) rfl, ok_bind, pushCall,
      ih fun o ho => hsigns o (List.mem_cons_of_mem _ ho)]
    simp

/-- The signs are applied from the last to the first. -/
lemma applyWhile_signs (hsigns : ∀ op ∈ signs, op.isSign = true) (scope : Scope) (x : Float) :
    (applyWhile scope (Order.atLeast 1)
      ⟨(signs.map pendingSign).reverse, ({} : Stack).push x, .expectOperator⟩).outcome =
      .ok ⟨[], ({} : Stack).push (signsValue signs x), .expectOperator⟩ := by
  -- the sign that is pending on top is the last of the run, so the run is taken apart at its end
  induction signs using List.reverseRecOn generalizing x with
  | nil => rfl
  | append_singleton signs op ih =>
    have hop := hsigns op (by simp)
    have hrest := ih (fun o ho => hsigns o (by simp [ho])) (op.signValue x)
    have hstep := @applyWhile_pendingSign scope 1
      ⟨(signs.map pendingSign).reverse, {}, .expectValue⟩ x op (by decide)
    have hvalue : signsValue (signs ++ [op]) x = signsValue signs (op.signValue x) := by
      rw [signsValue, List.foldr_append, signsValue]
      rfl
    rw [List.map_append, List.reverse_append, hvalue, ← hrest]
    refine (congrArg Traced.outcome hstep).trans ?_
    simp only [Scope.apply, function_sign hop, Traced.ofExcept_ok, pure_bind, bind_assoc]
    rfl

end Evaluation

end reading

namespace Scope

variable {scope : Scope} {signs : List Operator} {s : String} {x : Float}

/-- Signs before a group are applied to the value of the group. -/
lemma outcome_evaluate_signs (hsigns : ∀ op ∈ signs, op.isSign = true)
    (hgroup : scope.functions.get? "" = some Primitive.group.function)
    (hx : (scope.evaluate s).outcome = .ok x) :
    (scope.evaluate (signsText signs ++ ("(" ++ s ++ ")"))).outcome =
      .ok (signsValue signs x) := by
  have hread : (Evaluation.readWords scope (signs.map symbol) {}).outcome =
      .ok ⟨(signs.map pendingSign).reverse ++ [], {}, .expectValue⟩ :=
    Evaluation.readWords_signs hsigns [] {}
  rw [List.append_nil] at hread
  have haccounted := Evaluation.accounted_start.readAll
    ((Evaluation.readWords_eq_readAll 0 0 _).symm ▸ hread)
  have hvalue := haccounted.readText_group (by simp) rfl hgroup hx
  have hwords : (scope.evaluateWords (signs.map symbol ++ ["(" ++ s ++ ")"])).outcome =
      .ok (signsValue signs x) := by
    rw [evaluateWords, Traced.outcome_bind, Evaluation.readWords_append, Traced.outcome_bind, hread,
      ok_bind, Evaluation.readWords, Traced.outcome_bind, hvalue, ok_bind, Evaluation.readWords,
      Traced.outcome_pure, ok_bind, Traced.outcome_bind, Evaluation.finish]
    dsimp only
    rw [Evaluation.applyTighter_barrier, Traced.outcome_bind, Evaluation.applyWhile_signs hsigns]
    rfl
  rcases scope.evaluateWords_alike (Token.scanFrom_signs hsigns) with ⟨y, hy, hline⟩ | ⟨f, g, hf, -⟩
  · rw [hline, ← hy, hwords]
  · exact absurd (hwords.symm.trans hf) (by simp)

/-- A run of signs before an expression in parentheses. If the value of the expression is not zero
or the run has no plus, its sign changes as often as there is a minus in the run; if the value is
zero, only the minus signs in front of the first plus count, and they start from positive zero. -/
theorem evaluate_signed_group (hsigns : ∀ op ∈ signs, op.isSign = true)
    (hgroup : scope.functions.get? "" = some Primitive.group.function)
    (hx : (scope.evaluate s).outcome = .ok x) :
    ((x ≠ 0.0 ∧ x ≠ -0.0) ∨ .add ∉ signs →
      (scope.evaluate (signsText signs ++ ("(" ++ s ++ ")"))).outcome =
        .ok (signed (oddMinus signs) x)) ∧
    ∀ before after, x = 0.0 ∨ x = -0.0 → signs = before ++ .add :: after → .add ∉ before →
      (scope.evaluate (signsText signs ++ ("(" ++ s ++ ")"))).outcome =
        .ok (signed (oddMinus before) 0.0) := by
  rw [outcome_evaluate_signs hsigns hgroup hx]
  constructor
  · intro h
    rw [signsValue_eq_signed hsigns h]
  · rintro before after hzero rfl hbefore
    rw [signsValue_of_zero hzero (fun op hop => hsigns op (by simp [hop])) hbefore]

lemma evaluate_numeral {s : String} (h : Numeral.IsNumeral s.toList) (scope : Scope) :
    (scope.evaluate s).outcome = .ok ((Numeral.ofRun s.toList).toFloat false) := by
  rw [evaluate, Token.scan_of_isSlice (.literal h Lexeme.stops_nil)]
  rfl

/-- Three signs before a two, and a minus behind a plus before a zero. -/
theorem evaluate_signed_group_two_zero :
    (∀ op ∈ [Operator.sub, .add, .sub], op.isSign = true) ∧
    initial.functions.get? "" = some Primitive.group.function ∧
    (initial.evaluate "2").outcome = .ok 2.0 ∧
    (initial.evaluate (signsText [.sub, .add, .sub] ++ ("(" ++ "2" ++ ")"))).outcome = .ok 2.0 ∧
    (initial.evaluate "0").outcome = .ok 0.0 ∧
    (initial.evaluate (signsText [.sub, .add, .sub] ++ ("(" ++ "0" ++ ")"))).outcome =
      .ok (-0.0) := by
  have hsigns : ∀ op ∈ [Operator.sub, .add, .sub], op.isSign = true := by decide
  have htwo : (initial.evaluate "2").outcome = .ok 2.0 :=
    evaluate_numeral ⟨List.all_eq_true.mp (by decide), ⟨'2', by decide, by decide⟩, by decide⟩ _
  have hzero : (initial.evaluate "0").outcome = .ok 0.0 :=
    evaluate_numeral ⟨List.all_eq_true.mp (by decide), ⟨'0', by decide, by decide⟩, by decide⟩ _
  exact ⟨hsigns, rfl, htwo, (evaluate_signed_group hsigns rfl htwo).1 (.inl (by decide)),
    hzero, (evaluate_signed_group hsigns rfl hzero).2 [.sub] [.sub] (.inl rfl) rfl (by decide)⟩

/-- A plus in front of negative zero makes positive zero of it, although the run has one minus. -/
theorem evaluate_plus_not_identity :
    signsText [.add, .sub] ++ ("(" ++ "0" ++ ")") = "+-(0)" ∧
    (initial.evaluate "0").outcome = .ok 0.0 ∧ (initial.evaluate "+-(0)").outcome = .ok 0.0 ∧
    0.0 ≠ signed (oddMinus [.add, .sub]) 0.0 := by
  have hzero : (initial.evaluate "0").outcome = .ok 0.0 :=
    evaluate_numeral ⟨List.all_eq_true.mp (by decide), ⟨'0', by decide, by decide⟩, by decide⟩ _
  have hvalue : signsValue [.add, .sub] 0.0 = 0.0 :=
    Statistics.sum_singleton_of_zero (.inr rfl)
  have hsigns : ∀ op ∈ [Operator.add, .sub], op.isSign = true := by decide
  have hsigned := outcome_evaluate_signs hsigns rfl hzero
  rw [hvalue] at hsigned
  exact ⟨by decide, hzero, hsigned, Binary64.positiveZero_ne_negativeZero⟩

end Scope

end Calculator
