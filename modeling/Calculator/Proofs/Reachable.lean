import Calculator.Proofs.Accounting

/-!
# States that an evaluation can reach

`Reachable ts e` says that calls that read the tokens `ts` without fail lead from a new evaluation
to `e`; the scope may change from one call to the next. Every such state is balanced: each value on
the stack has its place in a pending call, operators are always applied with success, and a wrong
count of arguments or of values can only be reported by a function that the user called.
-/

namespace Calculator

/-- The kinds of failure that only a function can raise. -/
def FailureKind.isOfFunction : FailureKind → Bool
  | .argumentCount | .stackUnderflow | .foreign => true
  | _ => false

lemma Call.IsOperator.eq_pendingSign {c : Call} (h : c.IsOperator) (hu : c.order = .unary) :
    c.arguments = 1 ∧ ∃ op : Operator, op.isSign = true ∧ c = op.pendingSign := by
  cases h with
  | binary op => exact absurd hu op.order_ne_unary
  | sign op ho => exact ⟨rfl, op, ho, rfl⟩

lemma Call.IsOperator.eq_pending {c : Call} (h : c.IsOperator) (hu : c.order ≠ .unary) :
    c.arguments = 2 ∧ ∃ op : Operator, c.order = op.order ∧ c.function = op.primitive.function := by
  cases h with
  | binary op => exact ⟨rfl, op, rfl, rfl⟩
  | sign op ho => exact absurd rfl hu

namespace Evaluation

/-- The states that are reached by calls that succeed, with the tokens that were read. -/
inductive Reachable : List Token → Evaluation → Prop
  | start : Reachable [] {}
  | read {ts : List Token} {e e' : Evaluation} (scope : Scope) (t : Token) (h : Reachable ts e)
      (hr : (e.read scope t).outcome = .ok e') : Reachable (ts ++ [t]) e'
  | readAll {ts : List Token} {e e' : Evaluation} (scope : Scope) (us : List Token)
      (h : Reachable ts e) (hr : (e.readAll scope us).outcome = .ok e') : Reachable (ts ++ us) e'
  | readText {ts : List Token} {e e' : Evaluation} (scope : Scope) (text : String)
      (h : Reachable ts e) (hr : (e.readText scope text).outcome = .ok e') :
    Reachable (ts ++ Token.scan text) e'
  | finish {ts : List Token} {e e' : Evaluation} {x : Float} (scope : Scope) (h : Reachable ts e)
      (hr : (e.finish scope).outcome = .ok (x, e')) : Reachable ts e'

/-- A failure of a function: that of an open call, on as many arguments as the call has when a
parenthesis closes it, or that of a bare name, without arguments. -/
inductive Raises (scope : Scope) (e : Evaluation) (t : Token) (f : Failure) : Prop
  | closing (c : Call) (args : List Float) (hl : t.lexeme = .close) (hc : c ∈ e.calls)
      (hb : c.order = .barrier) (hn : (args.length : Int) = c.arguments)
      (hf : c.function scope.vars args = .error f)
  | constant (s : String) (g : Function) (hl : t.lexeme = .name s)
      (hg : scope.functions.get? s = some g) (hf : g scope.vars [] = .error f)

/-- What the calls and values of an evaluation that has read `ts` have to do with each other, and
which failures can follow. -/
structure Balanced (ts : List Token) (e : Evaluation) : Prop where
  size_values : (e.values.size : Int) =
    (e.calls.map fun c => c.arguments - 1).sum + if e.phase = .expectOperator then 1 else 0
  arguments_pos : ∀ c ∈ e.calls, 1 ≤ c.arguments
  sign : ∀ c ∈ e.calls, c.order = .unary →
    c.arguments = 1 ∧ ∃ op : Operator, op.isSign = true ∧ c = op.pendingSign
  binary : ∀ c ∈ e.calls, c.order ≠ .unary → c.order ≠ .barrier →
    c.arguments = 2 ∧ ∃ op : Operator, c.order = op.order ∧ c.function = op.primitive.function
  /-- An open call takes one value more than there are commas directly inside of it. -/
  openCalls : (e.calls.filter (·.order = .barrier)).map (·.arguments) =
    (openCommas ts).map fun n : Nat => 1 + (n : Int)
  finished : e.phase = .finished → e.calls = [] ∧ e.values.items = []
  /-- No operator fails on as many values as its call takes. -/
  operator_ok : ∀ c ∈ e.calls, c.order ≠ .barrier → ∀ (vars : Variables) (args : List Float),
    (args.length : Int) = c.arguments → ∃ x, c.function vars args = .ok x
  /-- The pending calls can always be applied down to any level above that of a barrier. -/
  applyWhile_ok : e.phase = .expectOperator → ∀ (scope : Scope) (k : Nat), 0 < k →
    ∃ d, (e.applyWhile scope (Order.atLeast k)).outcome = .ok d
  read_error : ∀ (scope : Scope) (t : Token) (f : Failure), (e.read scope t).outcome = .error f →
    f.kind.isOfFunction = true → Raises scope e t f
  readAll_error : ∀ (scope : Scope) (us : List Token) (f : Failure),
    (e.readAll scope us).outcome = .error f → f.kind.isOfFunction = true →
    ∃ before t after d, us = before ++ t :: after ∧ (e.readAll scope before).outcome = .ok d ∧
      Raises scope d t f
  finish_error : ∀ (scope : Scope) (f : Failure), (e.finish scope).outcome = .error f →
    f.kind.isOfFunction = false

variable {ts : List Token} {e : Evaluation}

lemma Accounted.readAll {scope : Scope} {us : List Token} {e' : Evaluation} (h : e.Accounted ts)
    (hr : (e.readAll scope us).outcome = .ok e') : e'.Accounted (ts ++ us) :=
  readAll_invariant (fun _ _ _ _ hacc hread => (hacc.read hread).1) h hr

lemma Accounted.of_finish {scope : Scope} {x : Float} {e' : Evaluation} (h : e.Accounted ts)
    (hr : (e.finish scope).outcome = .ok (x, e')) : e'.Accounted ts := by
  cases hp : e.phase with
  | finished => simp [Evaluation.finish, hp] at hr
  | expectValue => simp [Evaluation.finish, hp] at hr
  | expectOperator =>
    rcases h.finish hp scope with ⟨y, hy, -, hacc⟩ | ⟨herr, -⟩
    · rw [hy] at hr
      obtain ⟨-, rfl⟩ := Prod.mk.inj (Except.ok.inj hr)
      exact hacc
    · rw [herr] at hr
      exact absurd hr (by simp)

theorem Reachable.accounted (h : Reachable ts e) : e.Accounted ts := by
  induction h with
  | start => exact accounted_start
  | read scope t _ hr ih => exact (ih.read hr).1
  | readAll scope us _ hr ih => exact ih.readAll hr
  | readText scope text _ hr ih => exact ih.readAll hr
  | finish scope _ hr ih => exact ih.of_finish hr

lemma FailsAsValue.raises {scope : Scope} {t : Token} {f : Failure} (h : FailsAsValue scope t f)
    (hk : f.kind.isOfFunction = true) : Raises scope e t f := by
  cases h with
  | @name s _ hl hv =>
    unfold Scope.valueOf at hv
    split at hv
    · rename_i g hg
      exact .constant s g hl hg hv
    · unfold Variables.value at hv
      split at hv
      · exact absurd hv (by simp)
      · obtain rfl := Except.error.inj hv
        exact absurd hk Bool.false_ne_true
  | call hl hf =>
    unfold Scope.function at hf
    split at hf
    · exact absurd hf (by simp)
    · obtain rfl := Except.error.inj hf
      exact absurd hk Bool.false_ne_true
  | _ => exact absurd hk (by simp [Failure.kind, FailureKind.isOfFunction])

/-- The call that a closing parenthesis applies is one of the open calls. -/
lemma Accounted.raises_of_closing {scope : Scope} {t : Token} {f : Failure} {d : Evaluation}
    {c : Call} {calls : List Call} {args : List Float} {rest : Stack} (h : e.Accounted ts)
    (hp : e.phase = .expectOperator) (hl : t.lexeme = .close)
    (hd : (e.applyWhile scope (Order.atLeast 1)).outcome = .ok d) (hc : d.calls = c :: calls)
    (ht : d.values.top c.arguments = .ok (args, rest))
    (hf : c.function scope.vars args = .error f) : Raises scope e t f := by
  obtain ⟨d', hd', hda, hdp, hdc⟩ := h.applyWhile hp scope Nat.one_pos
  obtain rfl := Except.ok.inj (hd'.symm.trans hd)
  have hb := order_of_remaining_eq_cons (hdc.symm.trans hc)
  have hmem : c ∈ e.calls := mem_of_mem_remaining (k := 1) (by rw [← hdc, hc]; simp)
  obtain ⟨args', rest', ht', hn, -⟩ := hda.applyTop hdp hl hc hb
  obtain ⟨rfl, rfl⟩ := Prod.mk.inj (Except.ok.inj (ht'.symm.trans ht))
  exact .closing c args' hl hmem hb hn hf

/-- Only a function can raise a failure about counts. -/
lemma Accounted.raises {scope : Scope} {t : Token} {f : Failure} (h : e.Accounted ts)
    (hr : (e.read scope t).outcome = .error f) (hk : f.kind.isOfFunction = true) :
    Raises scope e t f := by
  cases h.fails hr with
  | value hp hv => exact hv.raises hk
  | named hp hn hv => exact hv.raises hk
  | closing hp hl hd hc ht hf => exact h.raises_of_closing hp hl hd hc ht hf
  | _ => exact absurd hk (by simp [Failure.kind, FailureKind.isOfFunction])

lemma Accounted.finish_error {scope : Scope} {f : Failure} (h : e.Accounted ts)
    (hr : (e.finish scope).outcome = .error f) : f.kind.isOfFunction = false := by
  cases hp : e.phase with
  | finished =>
    simp only [Evaluation.finish, hp, Traced.outcome_throw, Except.error.injEq] at hr
    subst hr
    rfl
  | expectValue =>
    simp only [Evaluation.finish, hp, Traced.outcome_throw, Except.error.injEq] at hr
    subst hr
    rfl
  | expectOperator =>
    rcases h.finish hp scope with ⟨x, hx, -, -⟩ | ⟨herr, -⟩
    · rw [hx] at hr
      exact absurd hr (by simp)
    · obtain rfl := Except.error.inj (herr.symm.trans hr)
      rfl

/-- Every state that can be reached is balanced, in whatever scopes its tokens were read. -/
theorem Reachable.balanced (h : Reachable ts e) : e.Balanced ts := by
  have hacc := h.accounted
  refine
    { size_values := ?_
      arguments_pos := fun c hc => (hacc.sound c hc).arguments_pos
      sign := ?_
      binary := ?_
      openCalls := ?_
      finished := ?_
      operator_ok := ?_
      applyWhile_ok := ?_
      read_error := fun scope t f hr hk => hacc.raises hr hk
      readAll_error := ?_
      finish_error := fun scope f hr => hacc.finish_error hr }
  · rw [hacc.size_eq]
    cases e.phase <;> rfl
  · intro c hc hu
    exact ((hacc.sound c hc).isOperator (by simp [hu])).eq_pendingSign hu
  · intro c hc hu hb
    exact ((hacc.sound c hc).isOperator hb).eq_pending hu
  · have ho := hacc.openArguments_eq
    simp only [Int.add_comm _ 1] at ho
    exact ho
  · intro hp
    have hc := hacc.finished hp
    have hs := hacc.size_eq
    rw [hc, hp] at hs
    refine ⟨hc, List.length_eq_zero_iff.mp ?_⟩
    simp only [held_nil, Phase.operands, Stack.size] at hs
    omega
  · intro c hc hb vars args hl
    exact ((hacc.sound c hc).isOperator hb).exists_value vars hl
  · intro hp scope k hk
    obtain ⟨d, hd, -⟩ := hacc.applyWhile hp scope hk
    exact ⟨d, hd⟩
  · intro scope us f hr hk
    obtain ⟨before, t, after, d, hus, hd, ht⟩ := readAll_error_iff.mp hr
    exact ⟨before, t, after, d, hus, hd, (hacc.readAll hd).raises ht hk⟩

/-- An open call under a sign and a power, when one of its arguments has been read. -/
theorem balanced_open_call :
    ∃ (ts : List Token) (e : Evaluation), Reachable ts e ∧ e.Balanced ts ∧
      ts.map (·.lexeme) = [.literal 2, .operator .pow, .operator .sub, .call "F", .literal 1,
        .comma] ∧
      e.calls.map (·.arguments) = [2, 1, 2] ∧ e.values.toList = [2, 1] := by
  let scope : Scope := ⟨{}, ⟨[("f", Primitive.max.function)]⟩⟩
  let ts : List Token := [⟨.literal 2, 0⟩, ⟨.operator .pow, 1⟩, ⟨.operator .sub, 2⟩,
    ⟨.call "F", 3⟩, ⟨.literal 1, 5⟩, ⟨.comma, 6⟩]
  let e : Evaluation := ⟨[⟨Primitive.max.function, .barrier, 2, "f"⟩, Operator.sub.pendingSign,
    Operator.pow.pending], ⟨[1, 2]⟩, .expectValue⟩
  have hr : (({} : Evaluation).readAll scope ts).outcome = .ok e := rfl
  have h : Reachable ts e := Reachable.readAll scope ts .start hr
  exact ⟨ts, e, h, Reachable.balanced h, rfl, rfl, rfl⟩

end Evaluation

end Calculator
