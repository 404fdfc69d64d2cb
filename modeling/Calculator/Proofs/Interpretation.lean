import Calculator.Proofs.Recognition

/-!
# Evaluations and trees

`p.evaluation scope` is the evaluation that a parse stands for: the trees of its frames and of its
operand are evaluated from the bottom, and their values are stacked. Reading a token leads from one
such evaluation to the next, with the same calls applied, so an evaluation computes the tree that
the grammar derives without ever building it.
-/

namespace Calculator

/-- Evaluates the trees of a frame and puts its call on the state. -/
def Frame.push (scope : Scope) (e : Evaluation) : Frame → Traced Evaluation
  | .sign op => return { e.pushCall op.pendingSign with phase := .expectValue }
  | .binary op l => do
    let x ← l.evaluate scope
    return { (e.pushValue x).pushCall op.pending with phase := .expectValue }
  | .juxtaposed l => do
    let x ← l.evaluate scope
    return { (e.pushValue x).pushCall Operator.imul.pending with phase := .expectValue }
  | .call s args => do
    let f ← Traced.ofExcept (scope.function (Unicode.lower s))
    let xs ← Tree.evaluateAll scope args
    return ⟨⟨f, .barrier, xs.length + 1, Unicode.lower s⟩ :: e.calls,
      ⟨xs.reverse ++ e.values.items⟩, .expectValue⟩

/-- The state of an evaluation with the given frames. -/
def pushFrames (scope : Scope) : List Frame → Traced Evaluation
  | [] => return {}
  | f :: fs => do
    let e ← pushFrames scope fs
    f.push scope e

/-- Puts a value on top and expects an operator. -/
def Evaluation.pushOperand (e : Evaluation) (x : Float) : Evaluation :=
  { e.pushValue x with phase := .expectOperator }

def Parse.evaluation (scope : Scope) (p : Parse) : Traced Evaluation :=
  match p.operand with
  | none => pushFrames scope p.frames
  | some t => do
    let e ← pushFrames scope p.frames
    let x ← t.evaluate scope
    return e.pushOperand x

lemma Frame.push_ok {scope : Scope} {f : Frame} {e d : Evaluation}
    (h : (f.push scope e).outcome = .ok d) :
    d.phase = .expectValue ∧ ∃ c, d.calls = c :: e.calls ∧ c.order = f.order := by
  cases f with
  | sign op =>
    obtain rfl := Except.ok.inj h
    exact ⟨rfl, _, rfl, rfl⟩
  | binary op l =>
    simp only [push, Traced.outcome_bind, bind_eq_ok_iff] at h
    obtain ⟨x, -, h⟩ := h
    obtain rfl := Except.ok.inj h
    exact ⟨rfl, _, rfl, rfl⟩
  | juxtaposed l =>
    simp only [push, Traced.outcome_bind, bind_eq_ok_iff] at h
    obtain ⟨x, -, h⟩ := h
    obtain rfl := Except.ok.inj h
    exact ⟨rfl, _, rfl, rfl⟩
  | call s args =>
    simp only [push, Traced.outcome_bind, bind_eq_ok_iff] at h
    obtain ⟨g, -, xs, -, h⟩ := h
    obtain rfl := Except.ok.inj h
    exact ⟨rfl, _, rfl, rfl⟩

lemma phase_of_pushFrames {scope : Scope} {fs : List Frame} {e : Evaluation}
    (h : (pushFrames scope fs).outcome = .ok e) : e.phase = .expectValue := by
  cases fs with
  | nil =>
    obtain rfl := Except.ok.inj h
    rfl
  | cons f fs =>
    rw [pushFrames, Traced.outcome_bind, bind_eq_ok_iff] at h
    obtain ⟨d, -, h⟩ := h
    exact (Frame.push_ok h).1

lemma Call.apply_of_top {c : Call} (scope : Scope) {values rest : Stack} {args : List Float}
    (h : values.top c.arguments = .ok (args, rest)) :
    c.apply scope values = scope.apply c.name c.function args >>= fun x => pure (rest.push x) := by
  simp only [apply, Scope.apply, h, Traced.ofExcept_ok, pure_bind, bind_assoc]

namespace Evaluation

variable {scope : Scope} {k : Nat} {c : Call} {calls : List Call} {e : Evaluation} {x y : Float}

lemma applyWhile_of_lt (hc : e.calls = c :: calls) (h : c.order.level < k) :
    e.applyWhile scope (Order.atLeast k) = pure e := by
  obtain ⟨calls, values, phase⟩ := e
  subst hc
  have hn : ¬c.order.atLeast k = true := fun hk => absurd (Order.atLeast_iff.mp hk) (by omega)
  simp only [applyWhile, applyCalls, if_neg hn, pure_bind]

lemma applyWhile_of_le {values rest : Stack} {args : List Float} {phase : Phase}
    (h : k ≤ c.order.level) (ht : values.top c.arguments = .ok (args, rest)) :
    applyWhile scope (Order.atLeast k) ⟨c :: calls, values, phase⟩ =
      scope.apply c.name c.function args >>= fun x =>
        applyWhile scope (Order.atLeast k) ⟨calls, rest.push x, phase⟩ := by
  have hk : c.order.atLeast k = true := Order.atLeast_iff.mpr h
  simp only [applyWhile, applyCalls, if_pos hk, Call.apply_of_top scope ht, bind_assoc, pure_bind]

lemma applyWhile_pending {op : Operator} (h : k ≤ op.order.level) :
    applyWhile scope (Order.atLeast k)
        (pushOperand { (e.pushValue x).pushCall op.pending with phase := .expectValue } y) =
      scope.apply op.name op.primitive.function [x, y] >>= fun z =>
        (e.pushOperand z).applyWhile scope (Order.atLeast k) :=
  applyWhile_of_le (c := op.pending) h (by rfl)

lemma applyWhile_pendingSign {op : Operator} (h : k ≤ Order.unary.level) :
    applyWhile scope (Order.atLeast k)
        (pushOperand { e.pushCall op.pendingSign with phase := .expectValue } x) =
      scope.apply op.name op.primitive.function [x] >>= fun z =>
        (e.pushOperand z).applyWhile scope (Order.atLeast k) :=
  applyWhile_of_le (c := op.pendingSign) h (by rfl)

end Evaluation

variable {scope : Scope}

/-- The top call is applied to the operand where the tree is put together. -/
lemma Frame.push_applyWhile {f : Frame} {k : Nat} (hk : 0 < k) (hf : k ≤ f.order.level)
    (e : Evaluation) (t : Tree) :
    (f.push scope e >>= fun d => t.evaluate scope >>= fun x =>
        (d.pushOperand x).applyWhile scope (Order.atLeast k)) =
      (f.close t).evaluate scope >>= fun x =>
        (e.pushOperand x).applyWhile scope (Order.atLeast k) := by
  cases f with
  | sign op =>
    simp only [push, close, Tree.evaluate, bind_assoc, pure_bind,
      Evaluation.applyWhile_pendingSign hf]
  | binary op l =>
    simp only [push, close, Tree.evaluate, bind_assoc, pure_bind, Evaluation.applyWhile_pending hf]
  | juxtaposed l =>
    have himul : k ≤ Operator.imul.order.level := hf
    simp only [push, close, Tree.evaluate, bind_assoc, pure_bind,
      Evaluation.applyWhile_pending himul]
  | call s args => exact absurd rfl (Order.ne_barrier_of_le hk hf)

/-- Applying pending calls is closing frames. -/
lemma evaluation_applyWhile {k : Nat} (hk : 0 < k) {fs gs : List Frame} {t u : Tree}
    (hr : reduce k fs t = (gs, u)) :
    (Parse.evaluation scope ⟨fs, some t⟩ >>= fun e => e.applyWhile scope (Order.atLeast k)) =
      Parse.evaluation scope ⟨gs, some u⟩ := by
  induction fs generalizing t with
  | nil =>
    obtain ⟨rfl, rfl⟩ := Prod.mk.inj hr
    simp only [Parse.evaluation, pushFrames, pure_bind, bind_assoc]
    rfl
  | cons f fs ih =>
    by_cases hf : k ≤ f.order.level
    · rw [reduce_cons_of_le hf] at hr
      rw [← ih hr]
      simp only [Parse.evaluation, pushFrames, bind_assoc, pure_bind]
      congr 1
      funext e
      exact Frame.push_applyWhile hk hf e t
    · -- The top frame stays, and its call stops the applications.
      rw [reduce_cons_of_lt (by omega)] at hr
      obtain ⟨rfl, rfl⟩ := Prod.mk.inj hr
      simp only [Parse.evaluation, pushFrames, bind_assoc, pure_bind]
      congr 1
      funext e
      apply Traced.bind_congr_of_outcome
      intro d hd
      obtain ⟨-, c, hc, ho⟩ := Frame.push_ok hd
      congr 1
      funext x
      exact Evaluation.applyWhile_of_lt hc (by rw [ho]; omega)

lemma phase_of_evaluation {fs : List Frame} {t : Tree} {e : Evaluation}
    (h : (Parse.evaluation scope ⟨fs, some t⟩).outcome = .ok e) : e.phase = .expectOperator := by
  simp only [Parse.evaluation, Traced.outcome_bind, bind_eq_ok_iff] at h
  obtain ⟨d, -, x, -, h⟩ := h
  obtain rfl := Except.ok.inj h
  rfl

lemma calls_of_evaluation {f : Frame} {fs : List Frame} {t : Tree} {e : Evaluation}
    (h : (Parse.evaluation scope ⟨f :: fs, some t⟩).outcome = .ok e) :
    ∃ c calls, e.calls = c :: calls := by
  simp only [Parse.evaluation, pushFrames, bind_assoc, Traced.outcome_bind, bind_eq_ok_iff] at h
  obtain ⟨b, -, d, hd, x, -, h⟩ := h
  obtain rfl := Except.ok.inj h
  obtain ⟨-, c, hc, -⟩ := Frame.push_ok hd
  exact ⟨c, b.calls, hc⟩

lemma eq_of_evaluation_nil {t : Tree} {e : Evaluation}
    (h : (Parse.evaluation scope ⟨[], some t⟩).outcome = .ok e) :
    ∃ x, e = ⟨[], ⟨[x]⟩, .expectOperator⟩ := by
  simp only [Parse.evaluation, pushFrames, pure_bind, Traced.outcome_bind, bind_eq_ok_iff] at h
  obtain ⟨x, -, h⟩ := h
  exact ⟨x, (Except.ok.inj h).symm⟩

lemma evaluation_readValue {fs : List Frame} {tok : Token} {p : Parse}
    (h : Parse.readValue fs tok = some p) :
    (pushFrames scope fs >>= fun e => e.readValue scope tok) = p.evaluation scope := by
  obtain ⟨lexeme, position⟩ := tok
  cases lexeme with
  | invalid q => exact absurd h (by simp [Parse.readValue])
  | comma => exact absurd h (by simp [Parse.readValue])
  | close => exact absurd h (by simp [Parse.readValue])
  | literal x =>
    obtain rfl := Option.some.inj h
    simp only [Parse.evaluation, Tree.evaluate, pure_bind]
    rfl
  | operator op =>
    by_cases ho : op.isSign = true
    · simp only [Parse.readValue, ho, if_true, Option.some.injEq] at h
      subst h
      apply Traced.bind_congr_of_outcome
      intro e he
      simp only [Evaluation.readValue, ho, if_true, Frame.push, Evaluation.pushCall,
        phase_of_pushFrames he]
    · exact absurd h (by simp [Parse.readValue, ho])
  | name s =>
    obtain rfl := Option.some.inj h
    rfl
  | call s =>
    obtain rfl := Option.some.inj h
    simp only [Parse.evaluation, pushFrames, Frame.push, Tree.evaluateAll, pure_bind]
    rfl

/-- A binary operator closes the frames in its reach and opens its own. -/
lemma evaluation_pushOperator {op : Operator} {fs gs : List Frame} {t u : Tree}
    (hr : reduce op.reach fs t = (gs, u)) :
    (Parse.evaluation scope ⟨fs, some t⟩ >>= fun e => e.pushOperator scope op) =
      pushFrames scope (.binary op u :: gs) := by
  simp only [Evaluation.pushOperator_eq]
  rw [← bind_assoc, evaluation_applyWhile op.reach_pos hr]
  simp only [Parse.evaluation, pushFrames, Frame.push, bind_assoc, pure_bind]
  rfl

lemma evaluation_juxtapose {fs : List Frame} {t : Tree} {tok : Token} {s : String} {p : Parse}
    (h : Parse.juxtapose fs t tok = some p) :
    (Parse.evaluation scope ⟨fs, some t⟩ >>= fun e => e.juxtapose scope s tok).quiet =
      (p.evaluation scope).quiet := by
  cases hr : reduce Operator.imul.reach fs t with
  | mk gs u =>
    simp only [Parse.juxtapose, hr] at h
    have hj : (Parse.evaluation scope ⟨fs, some t⟩ >>= fun e => e.juxtapose scope s tok).quiet =
        (Parse.evaluation scope ⟨fs, some t⟩ >>= fun e =>
          e.pushOperator scope .imul >>= fun d => d.readValue scope tok).quiet :=
      Traced.quiet_bind_congr rfl fun e _ => Traced.quiet_report_bind rfl _
    rw [hj, ← bind_assoc, evaluation_pushOperator hr, ← evaluation_readValue h]
    rfl

lemma Frame.exists_call {f : Frame} (h : f.order = .barrier) : ∃ s args, f = .call s args := by
  cases f with
  | sign op => exact absurd h (by simp [order])
  | binary op l => exact absurd h op.order_ne_barrier
  | juxtaposed l => exact absurd h (by simp [order])
  | call s args => exact ⟨s, args, rfl⟩

/-- What a comma or the end closes: everything up to an open call. -/
lemma reduce_one_cases (fs : List Frame) (t : Tree) :
    (∃ u, reduce 1 fs t = ([], u)) ∨
      ∃ s args below u, reduce 1 fs t = (.call s args :: below, u) := by
  cases hr : reduce 1 fs t with
  | mk gs u =>
    cases gs with
    | nil => exact .inl ⟨u, rfl⟩
    | cons f gs =>
      obtain ⟨s, args, rfl⟩ := f.exists_call (Order.eq_barrier_of_level (level_lt_of_reduce hr))
      exact .inr ⟨s, args, gs, u, rfl⟩

/-- Applying everything above the innermost open call, before a comma or a closing parenthesis. -/
lemma evaluation_applyTighter {fs gs : List Frame} {t u : Tree} (hr : reduce 1 fs t = (gs, u))
    {α : Type} (g : Evaluation → Traced α) :
    (Parse.evaluation scope ⟨fs, some t⟩ >>= fun e => e.applyTighter scope .barrier >>= g) =
      Parse.evaluation scope ⟨gs, some u⟩ >>= g := by
  simp only [Evaluation.applyTighter_barrier]
  rw [← bind_assoc, evaluation_applyWhile Nat.one_pos hr]

/-- A comma turns the operand into one more argument of the open call. -/
lemma evaluation_nextArgument (s : String) (args : List Tree) (below : List Frame) (u : Tree)
    (f : Failure) :
    (Parse.evaluation scope ⟨.call s args :: below, some u⟩ >>= fun d => match d.nextArgument with
      | none => Traced.throw f
      | some e => pure e) = pushFrames scope (.call s (args ++ [u]) :: below) := by
  simp only [Parse.evaluation, pushFrames, Frame.push, bind_assoc, pure_bind,
    Tree.evaluateAll_append_singleton]
  congr 1
  funext e
  congr 1
  funext g
  congr 1
  funext xs
  congr 1
  funext x
  simp only [Evaluation.nextArgument, Evaluation.pushOperand, Evaluation.pushValue, Stack.push,
    List.length_append, List.length_singleton, List.reverse_append, List.reverse_singleton,
    List.cons_append, List.nil_append, Int.natCast_add, Int.cast_ofNat_Int]

/-- A closing parenthesis turns the open call into the operand. -/
lemma evaluation_applyTop (s : String) (args : List Tree) (below : List Frame) (u : Tree) :
    (Parse.evaluation scope ⟨.call s args :: below, some u⟩ >>= fun d => d.applyTop scope >>=
        fun e => pure { e with phase := .expectOperator }) =
      Parse.evaluation scope ⟨below, some (.call s (args ++ [u]))⟩ := by
  simp only [Parse.evaluation, pushFrames, Frame.push, Tree.evaluate, bind_assoc, pure_bind,
    Tree.evaluateAll_append_singleton]
  congr 1
  funext e
  congr 1
  funext g
  congr 1
  funext xs
  congr 1
  funext x
  have ht : Stack.top ⟨x :: (xs.reverse ++ e.values.items)⟩ (xs.length + 1) =
      .ok (xs ++ [x], ⟨e.values.items⟩) := Stack.top_arguments xs e.values.items x
  have happly := Call.apply_of_top (c := ⟨g, .barrier, xs.length + 1, Unicode.lower s⟩) scope ht
  simp only [Evaluation.applyTop, Evaluation.pushOperand, Evaluation.pushValue, Stack.push, happly,
    bind_assoc, pure_bind]

lemma evaluation_read_operand (fs : List Frame) (t : Tree) (tok : Token) :
    (Parse.evaluation scope ⟨fs, some t⟩ >>= fun e => e.read scope tok).quiet =
      (Parse.evaluation scope ⟨fs, some t⟩ >>= fun e => e.readOperator scope tok).quiet := by
  refine Traced.quiet_bind_congr rfl fun e he => ?_
  simp only [Evaluation.read, phase_of_evaluation he]
  exact Traced.quiet_report_bind rfl _

/-- A token is read into the tree and into the stacks alike. -/
theorem evaluation_read (scope : Scope) {p p' : Parse} {tok : Token} (h : p.read tok = some p') :
    (p.evaluation scope >>= fun e => e.read scope tok).quiet = (p'.evaluation scope).quiet := by
  obtain ⟨fs, operand⟩ := p
  cases operand with
  | none =>
    rw [← evaluation_readValue h]
    refine Traced.quiet_bind_congr rfl fun e he => ?_
    simp only [Evaluation.read, phase_of_pushFrames he]
    exact Traced.quiet_report_bind rfl _
  | some t =>
    rw [evaluation_read_operand]
    obtain ⟨lexeme, position⟩ := tok
    cases lexeme with
    | invalid q => exact absurd h (by simp [Parse.read, Parse.readOperator])
    | literal x => exact absurd h (by simp [Parse.read, Parse.readOperator])
    | operator op =>
      cases hr : reduce op.reach fs t with
      | mk gs u =>
        simp only [Parse.read, Parse.readOperator, hr, Option.some.injEq] at h
        subst h
        exact congrArg Traced.quiet (evaluation_pushOperator hr)
    | name s => exact evaluation_juxtapose h
    | call s => exact evaluation_juxtapose h
    | comma =>
      rcases reduce_one_cases fs t with ⟨u, hr⟩ | ⟨s, args, below, u, hr⟩
      · exact absurd h (by simp [Parse.read, Parse.readOperator, Parse.innermost, hr])
      · simp only [Parse.read, Parse.readOperator, Parse.innermost, hr, Option.map_some,
          Option.some.injEq] at h
        subst h
        simp only [Evaluation.readOperator]
        rw [evaluation_applyTighter hr]
        exact congrArg Traced.quiet (evaluation_nextArgument s args below u _)
    | close =>
      rcases reduce_one_cases fs t with ⟨u, hr⟩ | ⟨s, args, below, u, hr⟩
      · exact absurd h (by simp [Parse.read, Parse.readOperator, Parse.innermost, hr])
      · simp only [Parse.read, Parse.readOperator, Parse.innermost, hr, Option.map_some,
          Option.some.injEq] at h
        subst h
        simp only [Evaluation.readOperator]
        rw [evaluation_applyTighter hr, ← evaluation_applyTop]
        refine Traced.quiet_bind_congr rfl fun d hd => ?_
        obtain ⟨c, calls, hc⟩ := calls_of_evaluation hd
        simp only [hc, List.isEmpty_cons, Bool.false_eq_true, if_false]

lemma evaluation_readAll_cons (t : Token) (ts : List Token) :
    Evaluation.readAll scope (t :: ts) =
      fun e => e.read scope t >>= Evaluation.readAll scope ts := by
  funext e
  exact Evaluation.readAll_cons t ts

lemma evaluation_readAll (scope : Scope) {ts : List Token} {p p' : Parse}
    (h : p.readAll ts = some p') :
    (p.evaluation scope >>= Evaluation.readAll scope ts).quiet = (p'.evaluation scope).quiet := by
  induction ts generalizing p with
  | nil =>
    obtain rfl := Option.some.inj h
    exact congrArg Traced.quiet (bind_pure (p.evaluation scope))
  | cons t ts ih =>
    rw [Parse.readAll_cons, Option.bind_eq_some_iff] at h
    obtain ⟨q, hq, h⟩ := h
    rw [evaluation_readAll_cons, ← bind_assoc, ← ih h]
    exact Traced.quiet_bind_congr (evaluation_read scope hq) fun _ _ => rfl

section errors

lemma exists_error_of_bind {α β : Type} {x : Traced α} {f : α → Traced β}
    (h : ∀ a, x.outcome = .ok a → ∃ g, (f a).outcome = .error g) :
    ∃ g, (x >>= f).outcome = .error g := by
  rw [Traced.outcome_bind]
  cases hx : x.outcome with
  | error g => exact ⟨g, rfl⟩
  | ok a => exact h a hx

lemma readValue_error {fs : List Frame} {tok : Token} (h : Parse.readValue fs tok = none)
    (e : Evaluation) : ∃ f, (e.readValue scope tok).outcome = .error f := by
  obtain ⟨lexeme, position⟩ := tok
  cases lexeme with
  | invalid q => exact ⟨_, rfl⟩
  | literal x => exact absurd h (by simp [Parse.readValue])
  | operator op =>
    by_cases ho : op.isSign = true
    · exact absurd h (by simp [Parse.readValue, ho])
    · refine ⟨.notSign op position, ?_⟩
      simp only [Evaluation.readValue, ho, Bool.false_eq_true, if_false, Traced.outcome_throw]
  | name s => exact absurd h (by simp [Parse.readValue])
  | call s => exact absurd h (by simp [Parse.readValue])
  | comma => exact ⟨_, rfl⟩
  | close => exact ⟨_, rfl⟩

lemma evaluation_read_error (scope : Scope) {p : Parse} {tok : Token} (h : p.read tok = none) :
    ∃ f, (p.evaluation scope >>= fun e => e.read scope tok).outcome = .error f := by
  obtain ⟨fs, operand⟩ := p
  cases operand with
  | none =>
    refine exists_error_of_bind fun e he => ?_
    rw [Evaluation.outcome_read_of_expectValue (phase_of_pushFrames he)]
    exact readValue_error h e
  | some t =>
    rw [← Traced.outcome_quiet, evaluation_read_operand, Traced.outcome_quiet]
    obtain ⟨lexeme, position⟩ := tok
    cases lexeme with
    | invalid q => exact exists_error_of_bind fun e _ => ⟨_, rfl⟩
    | literal x => exact exists_error_of_bind fun e _ => ⟨_, rfl⟩
    | operator op => exact absurd h (by simp [Parse.read, Parse.readOperator])
    | name s =>
      exact absurd h (by simp [Parse.read, Parse.readOperator, Parse.juxtapose, Parse.readValue])
    | call s =>
      exact absurd h (by simp [Parse.read, Parse.readOperator, Parse.juxtapose, Parse.readValue])
    | comma =>
      rcases reduce_one_cases fs t with ⟨u, hr⟩ | ⟨s, args, below, u, hr⟩
      · simp only [Evaluation.readOperator]
        rw [evaluation_applyTighter hr]
        refine exists_error_of_bind fun d hd => ?_
        obtain ⟨x, rfl⟩ := eq_of_evaluation_nil hd
        exact ⟨_, rfl⟩
      · exact absurd h (by simp [Parse.read, Parse.readOperator, Parse.innermost, hr])
    | close =>
      rcases reduce_one_cases fs t with ⟨u, hr⟩ | ⟨s, args, below, u, hr⟩
      · simp only [Evaluation.readOperator]
        rw [evaluation_applyTighter hr]
        refine exists_error_of_bind fun d hd => ?_
        obtain ⟨x, rfl⟩ := eq_of_evaluation_nil hd
        exact ⟨_, rfl⟩
      · exact absurd h (by simp [Parse.read, Parse.readOperator, Parse.innermost, hr])

lemma evaluation_readAll_error (scope : Scope) {ts : List Token} {p : Parse}
    (h : p.readAll ts = none) :
    ∃ f, (p.evaluation scope >>= Evaluation.readAll scope ts).outcome = .error f := by
  induction ts generalizing p with
  | nil => exact absurd h (by simp)
  | cons t ts ih =>
    rw [evaluation_readAll_cons, ← bind_assoc, Traced.outcome_bind]
    cases hq : p.read t with
    | none =>
      obtain ⟨f, hf⟩ := evaluation_read_error scope hq
      exact ⟨f, by rw [hf, error_bind]⟩
    | some q =>
      rw [Parse.readAll_cons, hq, Option.bind_some] at h
      obtain ⟨f, hf⟩ := ih h
      have hquiet := congrArg Traced.outcome (evaluation_read scope hq)
      rw [Traced.outcome_quiet, Traced.outcome_quiet] at hquiet
      rw [Traced.outcome_bind] at hf
      exact ⟨f, by rw [hquiet, hf]⟩

end errors

section result

variable {p : Parse} {t : Tree}

/-- The value that an evaluation ends with. -/
def Evaluation.result (scope : Scope) (e : Evaluation) : Traced Float := do
  let (x, _) ← e.finish scope
  return x

/-- The value of a state in which everything is applied, if it has no open call. -/
def Evaluation.settledValue (e : Evaluation) : Traced Float :=
  match e.calls, e.values.items with
  | [], [x] => return x
  | _, _ => Traced.throw .unclosed

lemma evaluation_result_operand {fs gs : List Frame} {u : Tree} (hr : reduce 1 fs u = (gs, t)) :
    Parse.evaluation scope ⟨fs, some u⟩ >>= Evaluation.result scope =
      Parse.evaluation scope ⟨gs, some t⟩ >>= Evaluation.settledValue := by
  rw [← evaluation_applyTighter hr]
  apply Traced.bind_congr_of_outcome
  intro e he
  simp only [Evaluation.result, Evaluation.finish, phase_of_evaluation he, bind_assoc]
  congr 1
  funext d
  obtain ⟨calls, ⟨items⟩, phase⟩ := d
  match calls, items with
  | [], [] => rfl
  | [], [x] => rfl
  | [], _ :: _ :: _ => rfl
  | _ :: _, _ => rfl

lemma evaluation_result (h : p.result = some t) :
    p.evaluation scope >>= Evaluation.result scope = t.evaluate scope := by
  obtain ⟨fs, operand⟩ := p
  cases operand with
  | none => exact absurd h (by simp [Parse.result])
  | some u =>
    rcases reduce_one_cases fs u with ⟨v, hr⟩ | ⟨s, args, below, v, hr⟩
    · obtain rfl : v = t := by simpa [Parse.result, hr] using h
      rw [evaluation_result_operand hr]
      simp only [Parse.evaluation, pushFrames, pure_bind, bind_assoc]
      exact bind_pure (v.evaluate scope)
    · exact absurd h (by simp [Parse.result, hr])

lemma evaluation_result_error (scope : Scope) (h : p.result = none) :
    ∃ f, (p.evaluation scope >>= Evaluation.result scope).outcome = .error f := by
  obtain ⟨fs, operand⟩ := p
  cases operand with
  | none =>
    refine exists_error_of_bind fun e he => ⟨.unfinished, ?_⟩
    simp only [Evaluation.result, Evaluation.finish, phase_of_pushFrames he]
    rfl
  | some u =>
    rcases reduce_one_cases fs u with ⟨v, hr⟩ | ⟨s, args, below, v, hr⟩
    · exact absurd h (by simp [Parse.result, hr])
    · rw [evaluation_result_operand hr]
      refine exists_error_of_bind fun d hd => ⟨.unclosed, ?_⟩
      obtain ⟨c, calls, hc⟩ := calls_of_evaluation hd
      simp only [Evaluation.settledValue, hc, Traced.outcome_throw]

end result

/-- A list of tokens that has a tree is evaluated to the value of the tree. -/
theorem evaluateTokens_of_parse (scope : Scope) {ts : List Token} {t : Tree}
    (h : parse ts = some t) :
    (scope.evaluateTokens ts).quiet = (t.evaluate scope).quiet := by
  obtain ⟨p, hp, hr⟩ := Option.bind_eq_some_iff.mp h
  have hread : (Evaluation.readAll scope ts {}).quiet = (p.evaluation scope).quiet :=
    evaluation_readAll scope hp
  rw [← evaluation_result hr]
  exact Traced.quiet_bind_congr hread fun _ _ => rfl

lemma evaluateTokens_error (scope : Scope) {ts : List Token} (h : parse ts = none) :
    ∃ f, (scope.evaluateTokens ts).outcome = .error f := by
  change ∃ f, (Evaluation.readAll scope ts {} >>= Evaluation.result scope).outcome = .error f
  rw [Traced.outcome_bind]
  have hresult := Option.bind_eq_none_iff.mp h
  cases hp : Parse.readAll ts {} with
  | none =>
    obtain ⟨f, hf⟩ := evaluation_readAll_error scope hp
    have hread : (Evaluation.readAll scope ts {}).outcome = .error f := hf
    exact ⟨f, by rw [hread, error_bind]⟩
  | some p =>
    obtain ⟨f, hf⟩ := evaluation_result_error scope (hresult p hp)
    have hquiet := congrArg Traced.outcome (evaluation_readAll scope hp)
    have hread : (Evaluation.readAll scope ts {}).outcome = (p.evaluation scope).outcome := hquiet
    rw [Traced.outcome_bind] at hf
    exact ⟨f, by rw [hread, hf]⟩

/-- The grammar has at most one tree for a list of tokens, and a list of tokens has the value `x`
exactly if the grammar derives it with a tree that has this value. -/
theorem evaluateTokens_ok_iff (scope : Scope) (ts : List Token) (x : Float) :
    ((scope.evaluateTokens ts).outcome = .ok x ↔
        ∃ t, Derives .sum ts t ∧ (t.evaluate scope).outcome = .ok x) ∧
      ∀ n t u, Derives n ts t → Derives n ts u → t = u := by
  refine ⟨?_, fun n t u => Derives.unique⟩
  constructor
  · intro hx
    cases ht : parse ts with
    | none =>
      obtain ⟨f, hf⟩ := evaluateTokens_error scope ht
      exact absurd (hf.symm.trans hx) (by simp)
    | some t =>
      have houtcome := congrArg Traced.outcome (evaluateTokens_of_parse scope ht)
      exact ⟨t, derives_iff.mpr ht, houtcome.symm.trans hx⟩
  · rintro ⟨t, ht, hx⟩
    have houtcome := congrArg Traced.outcome (evaluateTokens_of_parse scope ht.parse_eq)
    exact houtcome.trans hx

end Calculator
