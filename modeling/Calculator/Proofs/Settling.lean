import Calculator.Evaluation.Basic
import Calculator.Proofs.Traced
import Mathlib.Algebra.Ring.Int.Defs

/-!
# Applying pending operators

An operator's call takes as many values as it was pushed for and never fails. While a value is on
top, the stack holds one value more than the pending calls keep for later (`held`), so applying the
calls above a barrier always succeeds and leaves the calls from the first one that stays.
-/

namespace Calculator

/-- The lexemes that begin a value even where an operator is expected. -/
def Lexeme.isNamed : Lexeme → Bool
  | .name _ | .call _ => true
  | _ => false

/-- The call of an operator, between two values or before a single one. -/
inductive Call.IsOperator : Call → Prop
  | binary (op : Operator) : IsOperator op.pending
  | sign (op : Operator) (h : op.isSign = true) : IsOperator op.pendingSign

/-- What is true of every call that an evaluation pushes. -/
structure Call.Sound (c : Call) : Prop where
  arguments_pos : 1 ≤ c.arguments
  isOperator : c.order ≠ .barrier → c.IsOperator

/-- The count of values that the pending calls keep for later. -/
def held (calls : List Call) : Int :=
  (calls.map fun c => c.arguments - 1).sum

@[simp] lemma held_nil : held [] = 0 := rfl

@[simp] lemma held_cons (c : Call) (calls : List Call) :
    held (c :: calls) = (c.arguments - 1) + held calls := by
  simp [held]

lemma held_nonneg {calls : List Call} (h : ∀ c ∈ calls, c.Sound) : 0 ≤ held calls := by
  induction calls with
  | nil => simp
  | cons c calls ih =>
    have hc := (h c (by simp)).arguments_pos
    have hr := ih (List.forall_mem_cons.mp h).2
    rw [held_cons]
    omega

namespace Operator

lemma order_ne_barrier (op : Operator) : op.order ≠ .barrier := by
  cases op <;> decide

lemma order_ne_unary (op : Operator) : op.order ≠ .unary := by
  cases op <;> decide

end Operator

lemma Primitive.exists_call {f : Primitive} {args : List Float}
    (h : f.operation.arity.accepts args.length = true) : ∃ x, f.call args = .ok x := by
  rw [← isOk_call] at h
  cases hf : f.call args with
  | ok x => exact ⟨x, rfl⟩
  | error e => simp [hf, Except.isOk, Except.toBool] at h

namespace Call

lemma sound_pending (op : Operator) : op.pending.Sound :=
  ⟨by simp [Operator.pending], fun _ => .binary op⟩

lemma sound_pendingSign {op : Operator} (h : op.isSign = true) : op.pendingSign.Sound :=
  ⟨by simp [Operator.pendingSign], fun _ => .sign op h⟩

lemma IsOperator.exists_value {c : Call} (h : c.IsOperator) (vars : Variables) {args : List Float}
    (hl : (args.length : Int) = c.arguments) : ∃ x, c.function vars args = .ok x := by
  cases h with
  | binary op =>
    have h2 : args.length = 2 := by
      simp only [Operator.pending] at hl
      omega
    apply Primitive.exists_call
    cases op <;> simp [Operator.primitive, Primitive.operation, Operation.ofList,
      Operation.arity, Arity.accepts, h2]
  | sign op hs =>
    have h1 : args.length = 1 := by
      simp only [Operator.pendingSign] at hl
      omega
    apply Primitive.exists_call
    cases op <;> simp [Operator.isSign] at hs <;>
      simp [Operator.primitive, Primitive.operation, Operation.ofList,
        Operation.arity, Arity.accepts, h1]

lemma outcome_apply {c : Call} {scope : Scope} {values rest : Stack} {args : List Float}
    (h : values.top c.arguments = .ok (args, rest)) :
    (c.apply scope values).outcome = rest.push <$> c.function scope.vars args := by
  simp only [apply, h, Traced.outcome_bind, Traced.outcome_ofExcept, Traced.outcome_report,
    Traced.outcome_pure, ok_bind]
  cases c.function scope.vars args <;> rfl

end Call

namespace Stack

lemma top_of_le {s : Stack} {count : Int} (h0 : 0 ≤ count) (h : count ≤ s.size) :
    s.top count = .ok ((s.items.take count.toNat).reverse, ⟨s.items.drop count.toNat⟩) := by
  have hn : s.needed count = count.toNat := by
    cases count with
    | ofNat n => rfl
    | negSucc n => exact absurd h0 (by simp)
  have hl : (s.items.take count.toNat).length = count.toNat := by
    rw [List.length_take]
    simp only [size] at h
    omega
  simp only [top, hn, hl, Nat.lt_irrefl, if_false]

lemma top_arguments (done values : List Float) (x : Float) :
    top ⟨x :: (done.reverse ++ values)⟩ (done.length + 1) = .ok (done ++ [x], ⟨values⟩) := by
  have hn : ((done.length : Int) + 1).toNat = (x :: done.reverse).length := by
    rw [List.length_cons, List.length_reverse]
    omega
  have hs : (x :: (done.reverse ++ values)) = (x :: done.reverse) ++ values := rfl
  have hle : (done.length : Int) + 1 ≤ size ⟨x :: (done.reverse ++ values)⟩ := by
    simp only [size, List.length_cons, List.length_append, List.length_reverse]
    omega
  rw [top_of_le (by omega) hle]
  simp only [hn]
  rw [hs, List.take_left, List.drop_left, List.reverse_cons, List.reverse_reverse]

end Stack

namespace Call

/-- A call finds its values while one more is stacked than the pending calls keep, and the values
that are left bear the same relation to the calls below it. -/
lemma top_of_held {c : Call} {calls : List Call} {values : Stack} (h : ∀ c' ∈ c :: calls, c'.Sound)
    (hs : (values.size : Int) = held (c :: calls) + 1) :
    ∃ args rest, values.top c.arguments = .ok (args, rest) ∧ (args.length : Int) = c.arguments ∧
      ∀ x, ((rest.push x).size : Int) = held calls + 1 := by
  have hc := (h c (by simp)).arguments_pos
  have hr := held_nonneg (List.forall_mem_cons.mp h).2
  rw [held_cons] at hs
  have hn : c.arguments ≤ values.size := by omega
  refine ⟨_, _, Stack.top_of_le (by omega) hn, ?_, ?_⟩
  · rw [List.length_reverse, List.length_take]
    simp only [Stack.size] at hn
    omega
  · intro x
    simp only [Stack.push, Stack.size, List.length_cons, List.length_drop] at hs ⊢
    omega

end Call

/-- Whether an order binds at least as tightly as the level `k`. -/
def Order.atLeast (k : Nat) (o : Order) : Bool :=
  k ≤ o.level

lemma Order.atLeast_iff {k : Nat} {o : Order} : o.atLeast k = true ↔ k ≤ o.level := by
  simp [atLeast]

lemma Order.atLeast_barrier {k : Nat} (hk : 0 < k) : Order.barrier.atLeast k = false := by
  have h : ¬k ≤ Order.barrier.level := by
    simp only [level]
    omega
  exact decide_eq_false h

lemma Order.eq_barrier_of_level {o : Order} (h : o.level < 1) : o = .barrier := by
  cases o <;> simp [level] at h ⊢

lemma Order.ne_barrier_of_le {k : Nat} {o : Order} (hk : 0 < k) (h : k ≤ o.level) :
    o ≠ .barrier := by
  rintro rfl
  simp only [level] at h
  omega

/-- The calls that are left when those from the top of the level `k` and above are applied. -/
def remaining (k : Nat) (calls : List Call) : List Call :=
  calls.dropWhile fun c => c.order.atLeast k

section remaining

variable {k : Nat} {c : Call} {calls : List Call}

@[simp] lemma remaining_nil : remaining k [] = [] := rfl

lemma remaining_cons_of_le (h : k ≤ c.order.level) :
    remaining k (c :: calls) = remaining k calls :=
  List.dropWhile_cons_of_pos (Order.atLeast_iff.mpr h)

lemma remaining_cons_of_lt (h : c.order.level < k) : remaining k (c :: calls) = c :: calls :=
  List.dropWhile_cons_of_neg fun hc => absurd (Order.atLeast_iff.mp hc) (by omega)

lemma mem_of_mem_remaining (h : c ∈ remaining k calls) : c ∈ calls :=
  List.dropWhile_sublist _ |>.mem h

lemma filter_remaining (hk : 0 < k) :
    (remaining k calls).filter (·.order = .barrier) = calls.filter (·.order = .barrier) := by
  induction calls with
  | nil => rfl
  | cons c calls ih =>
    by_cases hc : k ≤ c.order.level
    · have hb := Order.ne_barrier_of_le hk hc
      rw [remaining_cons_of_le hc, ih]
      simp [hb]
    · rw [remaining_cons_of_lt (by omega)]

/-- Above the lowest level only a barrier stops the applications. -/
lemma order_of_remaining_eq_cons {calls' : List Call} (h : remaining 1 calls = c :: calls') :
    c.order = .barrier := by
  induction calls with
  | nil => simp at h
  | cons c' calls ih =>
    by_cases hc : 1 ≤ c'.order.level
    · rw [remaining_cons_of_le hc] at h
      exact ih h
    · rw [remaining_cons_of_lt (by omega)] at h
      obtain ⟨rfl, -⟩ := List.cons.inj h
      exact Order.eq_barrier_of_level (by omega)

end remaining

/-- The lowest level whose pending calls a binary operator applies before it waits itself. -/
def Operator.reach (op : Operator) : Nat :=
  match op.associativity with
  | .left => op.order.level
  | .right => op.order.level + 1

lemma Operator.reach_pos (op : Operator) : 0 < op.reach := by
  cases op <;> decide

namespace Evaluation

lemma pushOperator_eq (scope : Scope) (op : Operator) (e : Evaluation) :
    e.pushOperator scope op = do
      let d ← e.applyWhile scope (Order.atLeast op.reach)
      return { d.pushCall op.pending with phase := .expectValue } := by
  cases op <;> rfl

lemma applyTighter_barrier (scope : Scope) (e : Evaluation) :
    e.applyTighter scope .barrier = e.applyWhile scope (Order.atLeast 1) := rfl

lemma applyCalls_ok (scope : Scope) {k : Nat} (hk : 0 < k) {calls : List Call} {values : Stack}
    (h : ∀ c ∈ calls, c.Sound) (hs : (values.size : Int) = held calls + 1) :
    ∃ values', (applyCalls scope (Order.atLeast k) calls values).outcome =
        .ok (remaining k calls, values') ∧
      (values'.size : Int) = held (remaining k calls) + 1 := by
  induction calls generalizing values with
  | nil => exact ⟨values, rfl, hs⟩
  | cons c calls ih =>
    by_cases hc : k ≤ c.order.level
    · have hb := Order.ne_barrier_of_le hk hc
      obtain ⟨args, rest, ht, hl, hsize⟩ := Call.top_of_held h hs
      obtain ⟨x, hx⟩ := ((h c (by simp)).isOperator hb).exists_value scope.vars hl
      obtain ⟨values', hv, hs'⟩ := ih (List.forall_mem_cons.mp h).2 (hsize x)
      have ha : (c.apply scope values).outcome = .ok (rest.push x) := by
        rw [Call.outcome_apply ht, hx]
        rfl
      rw [remaining_cons_of_le hc]
      refine ⟨values', ?_, hs'⟩
      rw [applyCalls, if_pos (Order.atLeast_iff.mpr hc), Traced.outcome_bind, ha, ok_bind, hv]
    · rw [remaining_cons_of_lt (by omega)]
      refine ⟨values, ?_, hs⟩
      rw [applyCalls, if_neg fun h => hc (Order.atLeast_iff.mp h)]
      rfl

section reading

variable {scope : Scope} {e d : Evaluation} {t : Token}

lemma outcome_read_of_expectValue (hp : e.phase = .expectValue) :
    (e.read scope t).outcome = (e.readValue scope t).outcome := by
  simp only [read, hp, Traced.outcome_bind, Traced.outcome_report, ok_bind]

lemma outcome_read_of_expectOperator (hp : e.phase = .expectOperator) :
    (e.read scope t).outcome = (e.readOperator scope t).outcome := by
  simp only [read, hp, Traced.outcome_bind, Traced.outcome_report, ok_bind]

lemma outcome_read_of_finished (hp : e.phase = .finished) :
    (e.read scope t).outcome = .error .finished := by
  simp only [read, hp, Traced.outcome_bind, Traced.outcome_report, ok_bind, Traced.outcome_throw]

/-- A name or an open call where an operator is expected is read as a value after `imul`. -/
lemma outcome_readOperator_named (hn : t.lexeme.isNamed = true)
    (hd : (e.pushOperator scope .imul).outcome = .ok d) :
    (e.readOperator scope t).outcome = (d.readValue scope t).outcome := by
  have hj (s : String) : (e.juxtapose scope s t).outcome = (d.readValue scope t).outcome := by
    simp only [juxtapose, Traced.outcome_bind, Traced.outcome_report, hd, ok_bind]
  cases hl : t.lexeme with
  | name s =>
    simp only [readOperator, hl]
    exact hj s
  | call s =>
    simp only [readOperator, hl]
    exact hj s
  | _ => simp [hl, Lexeme.isNamed] at hn

lemma outcome_readOperator_comma (hl : t.lexeme = .comma)
    (hd : (e.applyWhile scope (Order.atLeast 1)).outcome = .ok d) :
    (e.readOperator scope t).outcome = match d.nextArgument with
      | none => .error (.strayComma t.position)
      | some e' => .ok e' := by
  simp only [readOperator, hl, applyTighter_barrier, Traced.outcome_bind, hd, ok_bind]
  cases d.nextArgument <;> rfl

lemma outcome_readOperator_close (hl : t.lexeme = .close)
    (hd : (e.applyWhile scope (Order.atLeast 1)).outcome = .ok d) :
    (e.readOperator scope t).outcome =
      if d.calls.isEmpty then .error (.strayClose t.position)
      else (fun e' : Evaluation => { e' with phase := .expectOperator }) <$>
        (d.applyTop scope).outcome := by
  simp only [readOperator, hl, applyTighter_barrier, Traced.outcome_bind, hd, ok_bind]
  split
  · rfl
  · rw [Traced.outcome_bind]
    cases (d.applyTop scope).outcome <;> rfl

lemma outcome_applyTop {c : Call} {calls : List Call} {args : List Float} {rest : Stack}
    (hc : e.calls = c :: calls) (ht : e.values.top c.arguments = .ok (args, rest)) :
    (e.applyTop scope).outcome =
      (fun x => { e with calls, values := rest.push x }) <$> c.function scope.vars args := by
  simp only [applyTop, hc, Traced.outcome_bind, Call.outcome_apply ht]
  cases c.function scope.vars args <;> rfl

end reading

section readAll

variable {scope : Scope} {e : Evaluation}

lemma readAll_cons (t : Token) (ts : List Token) :
    e.readAll scope (t :: ts) = e.read scope t >>= readAll scope ts := rfl

lemma readAll_append (ts us : List Token) :
    e.readAll scope (ts ++ us) = e.readAll scope ts >>= readAll scope us := by
  induction ts generalizing e with
  | nil => exact (pure_bind e (readAll scope us)).symm
  | cons t ts ih =>
    rw [List.cons_append, readAll_cons, readAll_cons, bind_assoc]
    congr 1
    funext e'
    exact ih

/-- What every token keeps of the tokens and the state so far, a list of tokens keeps. -/
theorem readAll_invariant {P : List Token → Evaluation → Prop}
    (hstep : ∀ ts d t d', P ts d → (d.read scope t).outcome = .ok d' → P (ts ++ [t]) d')
    {ts us : List Token} {e' : Evaluation} (h : P ts e)
    (hr : (e.readAll scope us).outcome = .ok e') : P (ts ++ us) e' := by
  induction us generalizing ts e with
  | nil =>
    obtain rfl := Except.ok.inj hr
    rwa [List.append_nil]
  | cons u us ih =>
    rw [readAll_cons, Traced.outcome_bind, bind_eq_ok_iff] at hr
    obtain ⟨d, hd, hr⟩ := hr
    have hu := ih (hstep ts e u d h hd) hr
    rwa [List.append_assoc] at hu

lemma readAll_error_iff {ts : List Token} {f : Failure} :
    (e.readAll scope ts).outcome = .error f ↔
      ∃ before t after e', ts = before ++ t :: after ∧
        (e.readAll scope before).outcome = .ok e' ∧ (e'.read scope t).outcome = .error f := by
  constructor
  · intro h
    induction ts generalizing e with
    | nil => exact absurd h (by simp [readAll])
    | cons t ts ih =>
      rw [readAll_cons, Traced.outcome_bind, bind_eq_error_iff] at h
      rcases h with h | ⟨e', he', h⟩
      · exact ⟨[], t, ts, e, rfl, rfl, h⟩
      · obtain ⟨before, u, after, d, rfl, hd, hu⟩ := ih h
        refine ⟨t :: before, u, after, d, rfl, ?_, hu⟩
        rw [readAll_cons, Traced.outcome_bind, he', ok_bind, hd]
  · rintro ⟨before, t, after, e', rfl, he', ht⟩
    rw [readAll_append, Traced.outcome_bind, he', ok_bind, readAll_cons, Traced.outcome_bind, ht,
      error_bind]

end readAll

end Evaluation

end Calculator
