import Calculator.Proofs.Interpretation
import Calculator.Proofs.Isolation

/-!
# Faults

Which token makes an expression fail, and with which failure, by the tokens before it. A `Fault`
depends on the last token, on a count of the open calls, on what names are bound to and on the
function that a closing parenthesis calls; how tightly operators bind and what they compute matters
to nothing but the arguments of functions.
-/

namespace Calculator

/-- A value is expected at the start and after an operator, an open call or a comma. -/
def expectsValue (past : List Token) : Bool :=
  match past.getLast? with
  | none => true
  | some t => t.lexeme.awaitsValue

def Lexeme.isCall : Lexeme → Bool
  | .call _ => true
  | _ => false

def Lexeme.isClose : Lexeme → Bool
  | .close => true
  | _ => false

/-- How many more calls are opened than closed. -/
def openCalls (past : List Token) : Int :=
  (past.countP (·.lexeme.isCall) : Int) - past.countP (·.lexeme.isClose)

/-- The failure of a token after those that are read. -/
inductive Fault (scope : Scope) (past : List Token) (t : Token) : Failure → Prop
  | invalid {position : Int} (hl : t.lexeme = .invalid position) :
    Fault scope past t (.invalidToken position)
  | notSign {op : Operator} (hl : t.lexeme = .operator op) (hv : expectsValue past = true)
      (ho : op.isSign = false) : Fault scope past t (.notSign op t.position)
  | commaForValue (hl : t.lexeme = .comma) (hv : expectsValue past = true) :
    Fault scope past t (.commaForValue t.position)
  | closeForValue (hl : t.lexeme = .close) (hv : expectsValue past = true) :
    Fault scope past t (.closeForValue t.position)
  | literal {x : Float} (hl : t.lexeme = .literal x) (hv : expectsValue past = false) :
    Fault scope past t (.literalForOperator x t.position)
  | strayComma (hl : t.lexeme = .comma) (hv : expectsValue past = false) (hd : openCalls past = 0) :
    Fault scope past t (.strayComma t.position)
  | strayClose (hl : t.lexeme = .close) (hv : expectsValue past = false) (hd : openCalls past = 0) :
    Fault scope past t (.strayClose t.position)
  | unknownFunction {s : String} (hl : t.lexeme = .call s)
      (hg : scope.functions.get? (Unicode.lower s) = none) :
    Fault scope past t (.unknownFunction (Unicode.lower s))
  | unknownVariable {s : String} (hl : t.lexeme = .name s) (hg : scope.functions.get? s = none)
      (hx : scope.vars.get? s = none) : Fault scope past t (.unknownVariable s)
  | constant {s : String} {g : Function} {f : Failure} (hl : t.lexeme = .name s)
      (hg : scope.functions.get? s = some g) (hf : g scope.vars [] = .error f) :
    Fault scope past t f
  /-- The parenthesis closes a call whose function fails on the values of its arguments. -/
  | closed {before first : List Token} {rest : List (Int × List Token)} {s : String} {q : Int}
      {g : Function} {xs : List Float} {f : Failure} (hl : t.lexeme = .close)
      (hpast : past = before ++ ⟨.call s, q⟩ :: argumentTokens first rest)
      (hg : scope.functions.get? (Unicode.lower s) = some g)
      (hxs : Evaluation.ArgumentValues scope (first :: rest.map (·.2)) xs)
      (hf : g scope.vars xs = .error f) : Fault scope past t f

/-- No token has a fault after those before it. -/
def FaultFree (scope : Scope) (ts : List Token) : Prop :=
  ∀ before t after f, ts = before ++ t :: after → ¬Fault scope before t f

/-- The failure of a whole expression: that of the first token with a fault, or of its end. -/
inductive Diagnosis (scope : Scope) (ts : List Token) : Failure → Prop
  | fault {before after : List Token} {t : Token} {f : Failure} (hts : ts = before ++ t :: after)
      (hfree : FaultFree scope before) (hf : Fault scope before t f) : Diagnosis scope ts f
  | unfinished (hfree : FaultFree scope ts) (hv : expectsValue ts = true) :
    Diagnosis scope ts .unfinished
  | unclosed (hfree : FaultFree scope ts) (hv : expectsValue ts = false) (hd : 0 < openCalls ts) :
    Diagnosis scope ts .unclosed

section counting

variable {past : List Token} {t : Token}

lemma expectsValue_append_singleton : expectsValue (past ++ [t]) = t.lexeme.awaitsValue := by
  simp [expectsValue]

lemma openCalls_append_singleton : openCalls (past ++ [t]) =
    openCalls past + (if t.lexeme.isCall then 1 else 0) - if t.lexeme.isClose then 1 else 0 := by
  simp only [openCalls, List.countP_append, List.countP_singleton]
  split <;> split <;> omega

/-- Where a close finds an open call, the open calls are counted right. -/
lemma length_countComma (counts : List Nat) (h : t.lexeme = .close → counts ≠ []) :
    ((t.countComma counts).length : Int) =
      counts.length + (if t.lexeme.isCall then 1 else 0) - if t.lexeme.isClose then 1 else 0 := by
  cases hl : t.lexeme with
  | call s => simp [Token.countComma, hl, Lexeme.isCall, Lexeme.isClose]
  | close =>
    cases counts with
    | nil => exact absurd rfl (h hl)
    | cons n counts => simp [Token.countComma, hl, Lexeme.isCall, Lexeme.isClose]
  | comma => simp [Token.countComma, hl, Lexeme.isCall, Lexeme.isClose]
  | _ => simp [Token.countComma, hl, Lexeme.isCall, Lexeme.isClose]

end counting

namespace Evaluation

/-- What the tokens that are read say about a state. -/
structure Surveyed (past : List Token) (e : Evaluation) : Prop where
  accounted : e.Accounted past
  phase_eq : e.phase = if expectsValue past then .expectValue else .expectOperator
  openCalls_eq : openCalls past = (openCommas past).length

lemma surveyed_start : Surveyed [] {} :=
  ⟨accounted_start, rfl, rfl⟩

variable {scope : Scope} {past : List Token} {e e' : Evaluation} {t : Token} {f : Failure}

namespace Surveyed

lemma phase_eq_expectValue_iff (h : e.Surveyed past) :
    e.phase = .expectValue ↔ expectsValue past = true := by
  rw [h.phase_eq]
  cases expectsValue past <;> simp

lemma phase_eq_expectOperator_iff (h : e.Surveyed past) :
    e.phase = .expectOperator ↔ expectsValue past = false := by
  rw [h.phase_eq]
  cases expectsValue past <;> simp

lemma phase_ne_finished (h : e.Surveyed past) : e.phase ≠ .finished := by
  rw [h.phase_eq]
  split <;> simp

/-- No call is open exactly if as many were closed as opened. -/
lemma openArguments_eq_nil_iff (h : e.Surveyed past) :
    openArguments e.calls = [] ↔ openCalls past = 0 := by
  rw [h.accounted.openArguments_eq, h.openCalls_eq, List.map_eq_nil_iff,
    ← List.length_eq_zero_iff]
  omega

/-- The phase and the count of open calls are kept right by every token that is read. -/
lemma read (h : e.Surveyed past) (hr : (e.read scope t).outcome = .ok e') :
    e'.Surveyed (past ++ [t]) := by
  obtain ⟨hacc, hphase⟩ := h.accounted.read hr
  refine ⟨hacc, ?_, ?_⟩
  · rw [hphase, expectsValue_append_singleton]
    rfl
  · have hclose : t.lexeme = .close → openCommas past ≠ [] := by
      intro hl hnil
      apply h.accounted.openArguments_ne_nil hr (.inr hl)
      rw [h.accounted.openArguments_eq, hnil]
      rfl
    rw [openCalls_append_singleton, openCommas_append_singleton, length_countComma _ hclose,
      h.openCalls_eq]

end Surveyed

lemma surveyed_of_readAll {ts : List Token}
    (he : (Evaluation.readAll scope ts {}).outcome = .ok e) : e.Surveyed ts :=
  readAll_invariant (fun _ _ _ _ hsurveyed hread => hsurveyed.read hread) surveyed_start he

end Evaluation

section names

variable {scope : Scope} {s : String} {f : Failure} {g : Function}

lemma function_ok_iff : scope.function s = .ok g ↔ scope.functions.get? s = some g := by
  rw [Scope.function]
  cases scope.functions.get? s <;> simp

lemma function_error_iff :
    scope.function s = .error f ↔ scope.functions.get? s = none ∧ f = .unknownFunction s := by
  rw [Scope.function]
  cases scope.functions.get? s <;> simp [eq_comm]

lemma valueOf_error_iff : scope.valueOf s = .error f ↔
    (scope.functions.get? s = none ∧ scope.vars.get? s = none ∧ f = .unknownVariable s) ∨
      ∃ g, scope.functions.get? s = some g ∧ g scope.vars [] = .error f := by
  rw [Scope.valueOf, Variables.value]
  cases scope.functions.get? s with
  | some g => simp
  | none => cases scope.vars.get? s <;> simp [eq_comm]

end names

section closed

variable {scope : Scope}

lemma argumentValues_of_evaluateAll {args : List ParsedArgument} {xs : List Float}
    (hargs : ∀ a ∈ args, Derives .sum a.tokens a.tree)
    (hxs : (Tree.evaluateAll scope (args.map (·.tree))).outcome = .ok xs) :
    Evaluation.ArgumentValues scope (args.map (·.tokens)) xs := by
  induction args generalizing xs with
  | nil =>
    obtain rfl := Except.ok.inj hxs
    exact .nil
  | cons a args ih =>
    simp only [List.map_cons, Tree.evaluateAll, Traced.outcome_bind, bind_eq_ok_iff] at hxs
    obtain ⟨x, hx, ys, hys, hxs⟩ := hxs
    obtain rfl := Except.ok.inj hxs
    have hparse := (List.forall_mem_cons.mp hargs).1.parse_eq
    have houtcome := congrArg Traced.outcome (evaluateTokens_of_parse scope hparse)
    exact .cons (houtcome.trans hx) (ih (List.forall_mem_cons.mp hargs).2 hys)

/-- The state above an open call with an operand. -/
lemma eq_of_evaluation_call {s : String} {args : List Tree} {below : List Frame} {u : Tree}
    {d : Evaluation}
    (h : (Parse.evaluation scope ⟨.call s args :: below, some u⟩).outcome = .ok d) :
    ∃ (b : Evaluation) (g : Function) (xs : List Float) (x : Float),
      scope.functions.get? (Unicode.lower s) = some g ∧
      (Tree.evaluateAll scope (args ++ [u])).outcome = .ok (xs ++ [x]) ∧
      d = ⟨⟨g, .barrier, xs.length + 1, Unicode.lower s⟩ :: b.calls,
        ⟨x :: (xs.reverse ++ b.values.items)⟩, .expectOperator⟩ := by
  simp only [Parse.evaluation, pushFrames, Frame.push, bind_assoc, pure_bind, Traced.outcome_bind,
    Traced.outcome_ofExcept, bind_eq_ok_iff] at h
  obtain ⟨b, -, g, hg, xs, hxs, x, hx, h⟩ := h
  refine ⟨b, g, xs, x, function_ok_iff.mp hg, ?_, (Except.ok.inj h).symm⟩
  simp only [Tree.evaluateAll_append_singleton, Traced.outcome_bind, hxs, hx, ok_bind,
    Traced.outcome_pure]

/-- What a closing parenthesis applies: the call that the tokens opened last, on the values that
its arguments have alone. -/
lemma exists_closed {past : List Token} {e d : Evaluation} {c : Call} {calls : List Call}
    {args : List Float} {rest : Stack} (he : (Evaluation.readAll scope past {}).outcome = .ok e)
    (hp : e.phase = .expectOperator)
    (hd : (e.applyWhile scope (Order.atLeast 1)).outcome = .ok d) (hc : d.calls = c :: calls)
    (ht : d.values.top c.arguments = .ok (args, rest)) :
    ∃ before s q first more, past = before ++ ⟨.call s, q⟩ :: argumentTokens first more ∧
      scope.functions.get? (Unicode.lower s) = some c.function ∧
      Evaluation.ArgumentValues scope (first :: more.map (·.2)) args := by
  cases hparse : Parse.readAll past {} with
  | none =>
    obtain ⟨f, hf⟩ := evaluation_readAll_error scope hparse
    have hread : (Evaluation.readAll scope past {}).outcome = .error f := hf
    exact absurd (hread.symm.trans he) (by simp)
  | some p =>
    have hquiet := congrArg Traced.outcome (evaluation_readAll scope hparse)
    have hstate : (p.evaluation scope).outcome = .ok e := hquiet.symm.trans he
    have hreads : p.Reads past := (Parse.Reads.frames .start rfl).readAll hparse
    cases hreads with
    | frames _ _ => exact absurd ((phase_of_pushFrames hstate).symm.trans hp) (by simp)
    | @operand ts us fs t h htree hn =>
      have hsettle (gs : List Frame) (u : Tree) (hr : reduce 1 fs t = (gs, u)) :
          (Parse.evaluation scope ⟨gs, some u⟩).outcome = .ok d := by
        rw [← evaluation_applyWhile Nat.one_pos hr, Traced.outcome_bind, hstate, ok_bind, hd]
      rcases reduce_one_cases fs t with ⟨u, hr⟩ | ⟨s, trees, below, u, hr⟩
      · obtain ⟨x, rfl⟩ := eq_of_evaluation_nil (hsettle [] u hr)
        exact absurd hc (by simp)
      · obtain ⟨b, g, xs, x, hg, hxs, rfl⟩ := eq_of_evaluation_call (hsettle _ u hr)
        obtain ⟨rfl, rfl⟩ := List.cons.inj hc
        obtain ⟨rfl, rfl⟩ := Prod.mk.inj (Except.ok.inj ((Stack.top_arguments ..).symm.trans ht))
        have hinner : Parse.innermost fs t = some (s, trees ++ [u], below) := by
          simp only [Parse.innermost, hr]
        obtain ⟨before, q, done, last, v, hsplit, -, hdone, hlast, htrees⟩ :=
          h.innermost htree hn hinner
        obtain ⟨first, w, more, htokens, hfirst, hmore, hargs⟩ := exists_argumentTokens hdone hlast
        refine ⟨before, s, q, first, more.map fun a => (a.comma, a.tokens), ?_, hg, ?_⟩
        · rw [hsplit, ← htokens]
          simp
        · rw [htrees, hargs] at hxs
          have hall : ∀ a ∈ (⟨0, first, w⟩ :: more : List ParsedArgument),
              Derives .sum a.tokens a.tree :=
            List.forall_mem_cons.mpr ⟨hfirst, hmore⟩
          rw [List.map_map]
          exact argumentValues_of_evaluateAll hall hxs

end closed

namespace Evaluation

variable {scope : Scope} {past : List Token} {e : Evaluation} {t : Token} {f : Failure}

lemma FailsAsValue.fault_of_isNamed (h : FailsAsValue scope t f) (hn : t.lexeme.isNamed = true) :
    Fault scope past t f := by
  cases h with
  | name hl hv =>
    rcases valueOf_error_iff.mp hv with ⟨hg, hx, rfl⟩ | ⟨g, hg, hf⟩
    · exact .unknownVariable hl hg hx
    · exact .constant hl hg hf
  | call hl hf =>
    obtain ⟨hg, rfl⟩ := function_error_iff.mp hf
    exact .unknownFunction hl hg
  | invalid hl => exact absurd hn (by simp [hl, Lexeme.isNamed])
  | notSign hl _ => exact absurd hn (by simp [hl, Lexeme.isNamed])
  | comma hl => exact absurd hn (by simp [hl, Lexeme.isNamed])
  | close hl => exact absurd hn (by simp [hl, Lexeme.isNamed])

lemma FailsAsValue.fault (h : FailsAsValue scope t f) (hv : expectsValue past = true) :
    Fault scope past t f := by
  by_cases hn : t.lexeme.isNamed = true
  · exact h.fault_of_isNamed hn
  · cases h with
    | invalid hl => exact .invalid hl
    | notSign hl ho => exact .notSign hl hv ho
    | comma hl => exact .commaForValue hl hv
    | close hl => exact .closeForValue hl hv
    | name hl _ => exact absurd (by rw [hl]; rfl) hn
    | call hl _ => exact absurd (by rw [hl]; rfl) hn

namespace Surveyed

lemma fault (h : e.Surveyed past) (he : (Evaluation.readAll scope past {}).outcome = .ok e)
    (hr : (e.read scope t).outcome = .error f) : Fault scope past t f := by
  cases h.accounted.fails hr with
  | finished hp => exact absurd hp h.phase_ne_finished
  | value hp hv => exact hv.fault (h.phase_eq_expectValue_iff.mp hp)
  | named hp hn hv => exact hv.fault_of_isNamed hn
  | invalid hp hl => exact .invalid hl
  | literal hp hl => exact .literal hl (h.phase_eq_expectOperator_iff.mp hp)
  | comma hp hl hc =>
    exact .strayComma hl (h.phase_eq_expectOperator_iff.mp hp) (h.openArguments_eq_nil_iff.mp hc)
  | close hp hl hc =>
    exact .strayClose hl (h.phase_eq_expectOperator_iff.mp hp) (h.openArguments_eq_nil_iff.mp hc)
  | closing hp hl hd hc ht hf =>
    obtain ⟨before, s, q, first, more, hpast, hg, hxs⟩ := exists_closed he hp hd hc ht
    exact .closed hl hpast hg hxs hf

/-- A name fails in the same way whether a product has to be put before it or not. -/
lemma error_of_failsAsValue (h : e.Surveyed past) (hn : t.lexeme.isNamed = true)
    (hv : FailsAsValue scope t f) : (e.read scope t).outcome = .error f := by
  cases hp : e.phase with
  | finished => exact absurd hp h.phase_ne_finished
  | expectValue => exact h.accounted.error_of_fails (.value hp hv)
  | expectOperator => exact h.accounted.error_of_fails (.named hp hn hv)

lemma error_of_fault (h : e.Surveyed past)
    (he : (Evaluation.readAll scope past {}).outcome = .ok e) (hf : Fault scope past t f) :
    (e.read scope t).outcome = .error f := by
  cases hf with
  | invalid hl =>
    cases hp : e.phase with
    | finished => exact absurd hp h.phase_ne_finished
    | expectValue => exact h.accounted.error_of_fails (.value hp (.invalid hl))
    | expectOperator => exact h.accounted.error_of_fails (.invalid hp hl)
  | notSign hl hv ho =>
    exact h.accounted.error_of_fails (.value (h.phase_eq_expectValue_iff.mpr hv) (.notSign hl ho))
  | commaForValue hl hv =>
    exact h.accounted.error_of_fails (.value (h.phase_eq_expectValue_iff.mpr hv) (.comma hl))
  | closeForValue hl hv =>
    exact h.accounted.error_of_fails (.value (h.phase_eq_expectValue_iff.mpr hv) (.close hl))
  | literal hl hv =>
    exact h.accounted.error_of_fails (.literal (h.phase_eq_expectOperator_iff.mpr hv) hl)
  | strayComma hl hv hd =>
    exact h.accounted.error_of_fails
      (.comma (h.phase_eq_expectOperator_iff.mpr hv) hl (h.openArguments_eq_nil_iff.mpr hd))
  | strayClose hl hv hd =>
    exact h.accounted.error_of_fails
      (.close (h.phase_eq_expectOperator_iff.mpr hv) hl (h.openArguments_eq_nil_iff.mpr hd))
  | unknownFunction hl hg =>
    exact h.error_of_failsAsValue (by rw [hl]; rfl)
      (.call hl (function_error_iff.mpr ⟨hg, rfl⟩))
  | unknownVariable hl hg hx =>
    exact h.error_of_failsAsValue (by rw [hl]; rfl)
      (.name hl (valueOf_error_iff.mpr (.inl ⟨hg, hx, rfl⟩)))
  | constant hl hg hf =>
    exact h.error_of_failsAsValue (by rw [hl]; rfl)
      (.name hl (valueOf_error_iff.mpr (.inr ⟨_, hg, hf⟩)))
  | @closed before first rest s q g xs _ hl hpast hg hxs hf =>
    obtain ⟨lexeme, p⟩ := t
    obtain rfl : lexeme = .close := hl
    subst hpast
    rw [readAll_append, Traced.outcome_bind, bind_eq_ok_iff] at he
    obtain ⟨d, hd, he⟩ := he
    have hopened := surveyed_of_readAll hd
    have hphase := hopened.phase_ne_finished
    obtain ⟨base, hbase⟩ := exists_awaitValue hopened.accounted hphase scope
    have hcall := readAll_call hphase hbase (function_ok_iff.mpr hg) hxs q p
    -- Up to the parenthesis the call was read, so its failure is that of the last token.
    rw [hf, map_error, readAll_append, Traced.outcome_bind, he, ok_bind, readAll_cons,
      Traced.outcome_bind, bind_eq_error_iff] at hcall
    rcases hcall with hcall | ⟨d', -, hnil⟩
    · exact hcall
    · exact absurd hnil (by simp [Evaluation.readAll])

end Surveyed

lemma exists_ok_iff_faultFree {ts : List Token} :
    (∃ e, (readAll scope ts {}).outcome = .ok e) ↔ FaultFree scope ts := by
  constructor
  · rintro ⟨e, he⟩ before t after f rfl hf
    rw [readAll_append, Traced.outcome_bind, bind_eq_ok_iff] at he
    obtain ⟨d, hd, he⟩ := he
    have herr := (surveyed_of_readAll hd).error_of_fault hd hf
    rw [readAll_cons, Traced.outcome_bind, herr] at he
    exact absurd he (by simp)
  · intro hfree
    cases he : (readAll scope ts {}).outcome with
    | ok e => exact ⟨e, rfl⟩
    | error f =>
      obtain ⟨before, t, after, d, rfl, hd, ht⟩ := readAll_error_iff.mp he
      exact absurd ((surveyed_of_readAll hd).fault hd ht) (hfree before t after f rfl)

lemma readAll_error_iff_fault {ts : List Token} :
    (readAll scope ts {}).outcome = .error f ↔
      ∃ before t after, ts = before ++ t :: after ∧ FaultFree scope before ∧
        Fault scope before t f := by
  rw [readAll_error_iff]
  constructor
  · rintro ⟨before, t, after, d, rfl, hd, ht⟩
    exact ⟨before, t, after, rfl, exists_ok_iff_faultFree.mp ⟨d, hd⟩,
      (surveyed_of_readAll hd).fault hd ht⟩
  · rintro ⟨before, t, after, rfl, hfree, hf⟩
    obtain ⟨d, hd⟩ := exists_ok_iff_faultFree.mpr hfree
    exact ⟨before, t, after, d, rfl, hd, (surveyed_of_readAll hd).error_of_fault hd hf⟩

/-- The result of tokens that were read: whether there is one is decided by the last token and the
count of open calls. -/
lemma Surveyed.finish (h : e.Surveyed past) (scope : Scope) :
    (expectsValue past = true ∧ (e.finish scope).outcome = .error .unfinished) ∨
    (expectsValue past = false ∧ 0 < openCalls past ∧
      (e.finish scope).outcome = .error .unclosed) ∨
    (expectsValue past = false ∧ openCalls past = 0 ∧ ∃ r, (e.finish scope).outcome = .ok r) := by
  by_cases hv : expectsValue past = true
  · refine .inl ⟨hv, ?_⟩
    simp only [Evaluation.finish, h.phase_eq_expectValue_iff.mpr hv, Traced.outcome_throw]
  · have hv' : expectsValue past = false := by simpa using hv
    have hcount := h.openCalls_eq
    have hopen := h.openArguments_eq_nil_iff
    rw [Calculator.openArguments_eq_nil_iff] at hopen
    have hp := h.phase_eq_expectOperator_iff.mpr hv'
    rcases h.accounted.finish hp scope with ⟨x, hx, hc, -⟩ | ⟨herr, hc⟩
    · exact .inr (.inr ⟨hv', hopen.mp hc, _, hx⟩)
    · have hne : openCalls past ≠ 0 := fun hz => hc (hopen.mpr hz)
      exact .inr (.inl ⟨hv', by omega, herr⟩)

end Evaluation

variable {scope : Scope} {ts : List Token}

lemma outcome_evaluateTokens_of_error {f : Failure}
    (he : (Evaluation.readAll scope ts {}).outcome = .error f) :
    (scope.evaluateTokens ts).outcome = .error f := by
  rw [Scope.evaluateTokens, Traced.outcome_bind, he, error_bind]

lemma FaultFree.outcome (hfree : FaultFree scope ts) :
    (expectsValue ts = true ∧ (scope.evaluateTokens ts).outcome = .error .unfinished) ∨
    (expectsValue ts = false ∧ 0 < openCalls ts ∧
      (scope.evaluateTokens ts).outcome = .error .unclosed) ∨
    (expectsValue ts = false ∧ openCalls ts = 0 ∧
      ∃ x, (scope.evaluateTokens ts).outcome = .ok x) := by
  obtain ⟨e, he⟩ := Evaluation.exists_ok_iff_faultFree.mpr hfree
  have houtcome : (scope.evaluateTokens ts).outcome = (·.1) <$> (e.finish scope).outcome := by
    simp only [Scope.evaluateTokens, Traced.outcome_bind, he, ok_bind, Traced.outcome_pure]
    cases (e.finish scope).outcome <;> rfl
  rw [houtcome]
  rcases (Evaluation.surveyed_of_readAll he).finish scope with
    ⟨hv, hr⟩ | ⟨hv, hd, hr⟩ | ⟨hv, hd, r, hr⟩
  · exact .inl ⟨hv, by rw [hr, map_error]⟩
  · exact .inr (.inl ⟨hv, hd, by rw [hr, map_error]⟩)
  · exact .inr (.inr ⟨hv, hd, r.1, by rw [hr, map_ok]⟩)

lemma Diagnosis.outcome {f : Failure} (h : Diagnosis scope ts f) :
    (scope.evaluateTokens ts).outcome = .error f := by
  cases h with
  | fault hts hfree hf =>
    exact outcome_evaluateTokens_of_error
      (Evaluation.readAll_error_iff_fault.mpr ⟨_, _, _, hts, hfree, hf⟩)
  | unfinished hfree hv =>
    rcases hfree.outcome with ⟨-, hr⟩ | ⟨hv', -⟩ | ⟨hv', -⟩
    · exact hr
    · exact absurd (hv.symm.trans hv') (by simp)
    · exact absurd (hv.symm.trans hv') (by simp)
  | unclosed hfree hv hd =>
    rcases hfree.outcome with ⟨hv', -⟩ | ⟨-, -, hr⟩ | ⟨-, hz, -⟩
    · exact absurd (hv'.symm.trans hv) (by simp)
    · exact hr
    · omega

lemma exists_diagnosis (scope : Scope) (ts : List Token) :
    (∃ f, Diagnosis scope ts f) ∨ (FaultFree scope ts ∧ expectsValue ts = false ∧
      openCalls ts = 0 ∧ ∃ x, (scope.evaluateTokens ts).outcome = .ok x) := by
  cases he : (Evaluation.readAll scope ts {}).outcome with
  | error f =>
    obtain ⟨before, t, after, hts, hfree, hf⟩ := Evaluation.readAll_error_iff_fault.mp he
    exact .inl ⟨f, .fault hts hfree hf⟩
  | ok e =>
    have hfree := Evaluation.exists_ok_iff_faultFree.mp ⟨e, he⟩
    rcases hfree.outcome with ⟨hv, -⟩ | ⟨hv, hd, -⟩ | ⟨hv, hd, hx⟩
    · exact .inl ⟨.unfinished, .unfinished hfree hv⟩
    · exact .inl ⟨.unclosed, .unclosed hfree hv hd⟩
    · exact .inr ⟨hfree, hv, hd, hx⟩

/-- After tokens that were read, a token fails exactly if it has a fault, so a list of tokens fails
exactly at its first fault; a whole expression fails exactly by its diagnosis, and it has a value
exactly if there is no fault, an operator could follow and every call is closed. -/
theorem evaluateTokens_diagnosis (scope : Scope) (ts : List Token) :
    (∀ e, (Evaluation.readAll scope ts {}).outcome = .ok e →
      ∀ t f, (e.read scope t).outcome = .error f ↔ Fault scope ts t f) ∧
    (∀ f, (Evaluation.readAll scope ts {}).outcome = .error f ↔
      ∃ before t after, ts = before ++ t :: after ∧ FaultFree scope before ∧
        Fault scope before t f) ∧
    (∀ f, (scope.evaluateTokens ts).outcome = .error f ↔ Diagnosis scope ts f) ∧
    ((∃ x, (scope.evaluateTokens ts).outcome = .ok x) ↔
      FaultFree scope ts ∧ expectsValue ts = false ∧ openCalls ts = 0) := by
  refine ⟨fun e he t f => ?_, fun f => Evaluation.readAll_error_iff_fault, fun f => ?_, ?_⟩
  · have hsurveyed := Evaluation.surveyed_of_readAll he
    exact ⟨hsurveyed.fault he, hsurveyed.error_of_fault he⟩
  · refine ⟨fun h => ?_, Diagnosis.outcome⟩
    rcases exists_diagnosis scope ts with ⟨g, hg⟩ | ⟨-, -, -, x, hx⟩
    · obtain rfl := Except.error.inj (hg.outcome.symm.trans h)
      exact hg
    · exact absurd (hx.symm.trans h) (by simp)
  · constructor
    · rintro ⟨x, hx⟩
      rcases exists_diagnosis scope ts with ⟨f, hf⟩ | ⟨hfree, hv, hd, -⟩
      · exact absurd (hf.outcome.symm.trans hx) (by simp)
      · exact ⟨hfree, hv, hd⟩
    · rintro ⟨hfree, hv, hd⟩
      rcases hfree.outcome with ⟨hv', -⟩ | ⟨-, hd', -⟩ | ⟨-, -, hx⟩
      · exact absurd (hv'.symm.trans hv) (by simp)
      · omega
      · exact hx

end Calculator
