import Calculator.Proofs.Reachable
import Mathlib.Data.List.Chain

/-!
# The shape of the pending calls

Barriers cut the pending calls into segments. In a segment the orders do not increase towards the
top: a sign is pushed onto whatever is pending, and a power onto a sign. What holds of every two
neighbours is that an operator that groups to the left stands on a call that binds looser
(`Order.StandsOn`). So a segment has at its bottom at most one such operator of each level, and
above them only signs and powers. `Reachable.segmented` says so of every state, and what is left on
top when calls are applied.
-/

namespace Calculator

namespace Order

/-- Whether the calls of this order are those of operators that group to the left. -/
def groupsLeft : Order → Bool
  | addSub | mulDiv | imul => true
  | barrier | unary | exp => false

/-- The upper of two neighbours can wait on top of the lower one. -/
def StandsOn (upper lower : Order) : Prop :=
  upper.groupsLeft = true → lower.level < upper.level

/-- The orders between two barriers, the top one first: signs and powers in any number, and below
them operators that group to the left, at most one of each level, the tighter above the looser. -/
def IsSegment (s : List Order) : Prop :=
  ∃ tight left, s = tight ++ left ∧ (∀ o ∈ tight, o = .unary ∨ o = .exp) ∧
    left.Sublist [.imul, .mulDiv, .addSub]

variable {o o' : Order} {s : List Order}

lemma isSegment_nil : IsSegment [] :=
  ⟨[], [], rfl, by simp, List.nil_sublist _⟩

lemma IsSegment.cons_tight (h : IsSegment s) (ho : o = .unary ∨ o = .exp) : IsSegment (o :: s) := by
  obtain ⟨tight, left, rfl, htight, hleft⟩ := h
  exact ⟨o :: tight, left, rfl, List.forall_mem_cons.mpr ⟨ho, htight⟩, hleft⟩

lemma sublist_of_head?_ne {s r : List Order} (h : s.Sublist (o :: r))
    (hne : ∀ o' ∈ s.head?, o' ≠ o) :
    s.Sublist r := by
  cases h with
  | cons _ h => exact h
  | cons_cons _ h => exact absurd rfl (hne o (by simp))

/-- Where the top of a segment binds looser than an operator that groups to the left, there are no
signs and no powers in the segment. -/
lemma IsSegment.cons_left (h : IsSegment s) (ho : o.groupsLeft = true)
    (htop : ∀ o' ∈ s.head?, o'.level < o.level) : IsSegment (o :: s) := by
  obtain ⟨tight, left, rfl, htight, hleft⟩ := h
  cases tight with
  | nil =>
    refine ⟨[], o :: left, rfl, by simp, ?_⟩
    have hne (a : Order) (ha : o.level ≤ a.level) : ∀ o' ∈ left.head?, o' ≠ a := by
      rintro o' ho' rfl
      exact absurd (htop o' ho') (by omega)
    cases o with
    | addSub =>
      have h1 := sublist_of_head?_ne hleft (hne .imul (by decide))
      have h2 := sublist_of_head?_ne h1 (hne .mulDiv (by decide))
      exact .cons _ (.cons _ (.cons_cons _ (sublist_of_head?_ne h2 (hne .addSub (by decide)))))
    | mulDiv =>
      have h1 := sublist_of_head?_ne hleft (hne .imul (by decide))
      exact .cons _ (.cons_cons _ (sublist_of_head?_ne h1 (hne .mulDiv (by decide))))
    | imul => exact .cons_cons _ (sublist_of_head?_ne hleft (hne .imul (by decide)))
    | _ => exact absurd ho (by decide)
  | cons o' tight =>
    have hlt := htop o' (by simp)
    rcases htight o' (by simp) with rfl | rfl
    · cases o <;> simp [groupsLeft, level] at ho hlt
    · cases o <;> simp [groupsLeft, level] at ho hlt

/-- What is on top of the first segment is on top of them all. -/
lemma mem_head?_of_splitOnP {orders top : List Order} {segments : List (List Order)}
    (h : orders.splitOnP (· = .barrier) = top :: segments) : ∀ o ∈ top.head?, o ∈ orders.head? := by
  cases orders with
  | nil =>
    obtain ⟨rfl, -⟩ := List.cons.inj h
    simp
  | cons o orders =>
    rw [List.splitOnP_cons_eq_if_modifyHead] at h
    split at h
    · obtain ⟨rfl, -⟩ := List.cons.inj h
      simp
    · obtain ⟨rest, segments', hrest⟩ :=
        List.exists_cons_of_ne_nil (List.splitOnP_ne_nil (· = Order.barrier) orders)
      rw [hrest] at h
      obtain ⟨rfl, -⟩ := List.cons.inj h
      exact fun _ ho => ho

/-- Where every order can stand on the one below it, barriers cut the orders into segments. -/
lemma isSegment_of_isChain {orders : List Order} (h : orders.IsChain StandsOn) :
    ∀ s ∈ orders.splitOnP (· = .barrier), IsSegment s := by
  -- an order that is put on top either opens a segment or becomes part of the first one
  induction orders with
  | nil => simpa using isSegment_nil
  | cons o orders ih =>
    have htail := ih h.tail
    rw [List.splitOnP_cons_eq_if_modifyHead]
    split
    · exact List.forall_mem_cons.mpr ⟨isSegment_nil, htail⟩
    · rename_i hb
      obtain ⟨top, segments, hsplit⟩ :=
        List.exists_cons_of_ne_nil (List.splitOnP_ne_nil (· = Order.barrier) orders)
      rw [hsplit] at htail ⊢
      obtain ⟨htop, hsegments⟩ := List.forall_mem_cons.mp htail
      have hlow (ho : o.groupsLeft = true) : ∀ o' ∈ top.head?, o'.level < o.level :=
        fun o' ho' => (List.isChain_cons.mp h).1 o' (mem_head?_of_splitOnP hsplit o' ho') ho
      refine List.forall_mem_cons.mpr ⟨?_, hsegments⟩
      cases o with
      | barrier => exact absurd (decide_eq_true rfl) hb
      | unary => exact htop.cons_tight (.inl rfl)
      | exp => exact htop.cons_tight (.inr rfl)
      | addSub => exact htop.cons_left rfl (hlow rfl)
      | mulDiv => exact htop.cons_left rfl (hlow rfl)
      | imul => exact htop.cons_left rfl (hlow rfl)

end Order

/-- Every pending call can stand on the one below it. -/
def Arranged (calls : List Call) : Prop :=
  calls.IsChain fun upper lower => upper.order.StandsOn lower.order

section arranged

variable {c : Call} {calls : List Call} {k : Nat}

lemma Arranged.isSegment (h : Arranged calls) :
    ∀ s ∈ (calls.map (·.order)).splitOnP (· = .barrier), Order.IsSegment s :=
  Order.isSegment_of_isChain ((List.isChain_map _).mpr h)

/-- Signs, powers and open calls can stand on anything. -/
lemma Arranged.cons (h : Arranged calls) (hc : c.order.groupsLeft = false) :
    Arranged (c :: calls) :=
  List.isChain_cons.mpr ⟨fun _ _ hleft => absurd hleft (by simp [hc]), h⟩

lemma remaining_suffix (k : Nat) (calls : List Call) : remaining k calls <:+ calls :=
  List.dropWhile_suffix _

lemma Arranged.remaining (h : Arranged calls) (k : Nat) : Arranged (remaining k calls) :=
  List.IsChain.suffix h (remaining_suffix k calls)

/-- The calls that are applied are all that bind as tightly, so the one that stays binds looser. -/
lemma level_lt_of_head?_remaining : ∀ c ∈ (remaining k calls).head?, c.order.level < k := by
  induction calls with
  | nil => simp
  | cons c calls ih =>
    by_cases hc : k ≤ c.order.level
    · rwa [remaining_cons_of_le hc]
    · rw [remaining_cons_of_lt (by omega)]
      intro c' hc'
      obtain rfl := Option.some.inj hc'
      omega

lemma Order.of_level_lt {o : Order} {op : Operator} (hop : op.associativity = .left)
    (h : o.level < op.order.level) : o = .barrier ∨ o.groupsLeft = true := by
  cases o <;> cases op <;>
    simp [Operator.associativity, Operator.order, level, groupsLeft] at hop h ⊢

lemma Operator.eq_pow_of_associativity {op : Operator} (h : op.associativity = .right) :
    op = .pow := by
  cases op <;> simp [associativity] at h ⊢

/-- An operator waits on what it has not applied. -/
lemma Arranged.cons_pending (h : Arranged calls) (op : Operator) :
    Arranged (op.pending :: Calculator.remaining op.reach calls) := by
  cases hop : op.associativity with
  | right =>
    obtain rfl := Operator.eq_pow_of_associativity hop
    exact (h.remaining _).cons rfl
  | left =>
    refine List.isChain_cons.mpr ⟨fun c hc _ => ?_, h.remaining _⟩
    have hlt := level_lt_of_head?_remaining c hc
    rwa [Operator.reach, hop] at hlt

end arranged

namespace Evaluation

variable {ts : List Token} {e e' : Evaluation} {scope : Scope} {t : Token}

lemma arranged_readValue (h : Arranged e.calls) (hr : (e.readValue scope t).outcome = .ok e') :
    Arranged e'.calls := by
  cases hl : t.lexeme with
  | invalid position => simp [readValue, hl] at hr
  | comma => simp [readValue, hl] at hr
  | close => simp [readValue, hl] at hr
  | literal x =>
    simp only [readValue, hl, Traced.outcome_pure, Except.ok.injEq] at hr
    subst hr
    exact h
  | operator op =>
    by_cases ho : op.isSign = true
    · simp only [readValue, hl, ho, if_true, Traced.outcome_pure, Except.ok.injEq] at hr
      subst hr
      exact h.cons rfl
    · simp [readValue, hl, ho] at hr
  | name s =>
    simp only [readValue, hl, Traced.outcome_bind, Traced.outcome_ofExcept, Traced.outcome_pure,
      bind_eq_ok_iff] at hr
    obtain ⟨x, -, hx⟩ := hr
    obtain rfl := Except.ok.inj hx
    exact h
  | call s =>
    simp only [readValue, hl, Traced.outcome_bind, Traced.outcome_ofExcept, Traced.outcome_pure,
      bind_eq_ok_iff] at hr
    obtain ⟨f, -, hf⟩ := hr
    obtain rfl := Except.ok.inj hf
    exact h.cons rfl

/-- A token that is read without fail leaves the calls arranged. -/
lemma Accounted.arranged_read (hacc : e.Accounted ts) (h : Arranged e.calls)
    (hr : (e.read scope t).outcome = .ok e') : Arranged e'.calls := by
  cases hp : e.phase with
  | finished =>
    rw [outcome_read_of_finished hp] at hr
    exact absurd hr (by simp)
  | expectValue =>
    rw [outcome_read_of_expectValue hp] at hr
    exact arranged_readValue h hr
  | expectOperator =>
    rw [outcome_read_of_expectOperator hp] at hr
    have hnamed (hn : t.lexeme.isNamed = true) : Arranged e'.calls := by
      obtain ⟨d, hd, -, -, hdc⟩ := hacc.pushOperator hp scope .imul
      rw [outcome_readOperator_named hn hd] at hr
      exact arranged_readValue (hdc ▸ h.cons_pending .imul) hr
    cases hl : t.lexeme with
    | invalid position => simp [readOperator, hl] at hr
    | literal x => simp [readOperator, hl] at hr
    | operator op =>
      obtain ⟨d, hd, -, -, hdc⟩ := hacc.pushOperator hp scope op
      simp only [readOperator, hl, hd, Except.ok.injEq] at hr
      subst hr
      exact hdc ▸ h.cons_pending op
    | name s => exact hnamed (by rw [hl]; rfl)
    | call s => exact hnamed (by rw [hl]; rfl)
    | comma =>
      obtain ⟨d, hd, -, -, hdc⟩ := hacc.applyWhile hp scope Nat.one_pos
      have hdr : Arranged d.calls := hdc ▸ h.remaining 1
      rw [outcome_readOperator_comma hl hd] at hr
      cases hc : d.calls with
      | nil => simp [Evaluation.nextArgument, hc] at hr
      | cons c calls =>
        simp only [Evaluation.nextArgument, hc, Except.ok.injEq] at hr
        subst hr
        rw [hc] at hdr
        have hb := order_of_remaining_eq_cons (hdc.symm.trans hc)
        exact Arranged.cons hdr.tail (by rw [hb]; rfl)
    | close =>
      obtain ⟨d, hd, hda, hdp, hdc⟩ := hacc.applyWhile hp scope Nat.one_pos
      have hdr : Arranged d.calls := hdc ▸ h.remaining 1
      rw [outcome_readOperator_close hl hd] at hr
      cases hc : d.calls with
      | nil => simp [hc] at hr
      | cons c calls =>
        have hb := order_of_remaining_eq_cons (hdc.symm.trans hc)
        obtain ⟨args, rest, ht, -, -⟩ := hda.applyTop hdp hl hc hb
        rw [outcome_applyTop hc ht] at hr
        simp only [hc, List.isEmpty_cons, Bool.false_eq_true, if_false] at hr
        cases hx : c.function scope.vars args with
        | error f => simp [hx] at hr
        | ok x =>
          simp only [hx, map_ok] at hr
          obtain rfl := Except.ok.inj hr
          rw [hc] at hdr
          exact hdr.tail

lemma Accounted.arranged_readAll {us : List Token} (hacc : e.Accounted ts) (h : Arranged e.calls)
    (hr : (e.readAll scope us).outcome = .ok e') : Arranged e'.calls := by
  have hkept := readAll_invariant (P := fun ts d => d.Accounted ts ∧ Arranged d.calls)
    (fun _ _ _ _ hd hread => ⟨(hd.1.read hread).1, hd.1.arranged_read hd.2 hread⟩) ⟨hacc, h⟩ hr
  exact hkept.2

/-- No call is pending once the value is taken. -/
lemma Accounted.calls_of_finish {x : Float} (h : e.Accounted ts)
    (hr : (e.finish scope).outcome = .ok (x, e')) : e'.calls = [] := by
  cases hp : e.phase with
  | finished => simp [Evaluation.finish, hp] at hr
  | expectValue => simp [Evaluation.finish, hp] at hr
  | expectOperator =>
    rcases h.finish hp scope with ⟨y, hy, -, -⟩ | ⟨herr, -⟩
    · obtain ⟨-, rfl⟩ := Prod.mk.inj (Except.ok.inj (hy.symm.trans hr))
      rfl
    · exact absurd (herr.symm.trans hr) (by simp)

/-- Whatever is read, every pending call can stand on the one below it. -/
theorem Reachable.arranged (h : Reachable ts e) : Arranged e.calls := by
  induction h with
  | start => exact List.isChain_nil
  | read scope t h hr ih => exact h.accounted.arranged_read ih hr
  | readAll scope us h hr ih => exact h.accounted.arranged_readAll ih hr
  | readText scope text h hr ih => exact h.accounted.arranged_readAll ih hr
  | finish scope h hr ih =>
    rw [h.accounted.calls_of_finish hr]
    exact List.isChain_nil

/-- The shape of the pending calls, and what is left when calls are applied: nothing is applied for
a power, an operator that groups to the left is left on a call that binds looser, and a comma, a
closing parenthesis or the end on an open call or on nothing. -/
structure Segmented (e : Evaluation) : Prop where
  segments : ∀ s ∈ (e.calls.map (·.order)).splitOnP (· = .barrier), Order.IsSegment s
  pow_applies_none : ∀ scope, e.applyTighter scope Operator.pow.order = pure e
  top_of_left : e.phase = .expectOperator → ∀ (scope : Scope) (op : Operator),
    op.associativity = .left → ∃ d, (e.applyFrom scope op.order).outcome = .ok d ∧
      d.calls <:+ e.calls ∧ ∀ c ∈ d.calls.head?,
        c.order = .barrier ∨ c.order.groupsLeft = true ∧ c.order.level < op.order.level
  top_of_barrier : e.phase = .expectOperator → ∀ scope : Scope,
    ∃ d, (e.applyTighter scope .barrier).outcome = .ok d ∧
      d.calls <:+ e.calls ∧ ∀ c ∈ d.calls.head?, c.order = .barrier

/-- Nothing binds tighter than a power. -/
lemma applyTighter_exp (scope : Scope) (e : Evaluation) : e.applyTighter scope .exp = pure e := by
  have hcalls : applyCalls scope (fun o => Order.exp.level < o.level) e.calls e.values =
      pure (e.calls, e.values) := by
    cases e.calls with
    | nil => rfl
    | cons c calls =>
      have hc : ¬Order.exp.level < c.order.level := by cases c.order <;> decide
      simp only [applyCalls, hc, decide_false, Bool.false_eq_true, if_false]
  rw [applyTighter, applyWhile, hcalls, pure_bind]

/-- Every state that can be reached has this shape. -/
theorem Reachable.segmented (h : Reachable ts e) : e.Segmented where
  segments := h.arranged.isSegment
  pow_applies_none := fun scope => applyTighter_exp scope e
  top_of_left := by
    intro hp scope op hop
    have hpos : 0 < op.order.level := by
      have hreach := op.reach_pos
      rwa [Operator.reach, hop] at hreach
    obtain ⟨d, hd, -, -, hdc⟩ := h.accounted.applyWhile hp scope hpos
    refine ⟨d, hd, hdc ▸ remaining_suffix _ _, fun c hc => ?_⟩
    rw [hdc] at hc
    have hlt := level_lt_of_head?_remaining c hc
    rcases Order.of_level_lt hop hlt with hb | hleft
    · exact .inl hb
    · exact .inr ⟨hleft, hlt⟩
  top_of_barrier := by
    intro hp scope
    obtain ⟨d, hd, -, -, hdc⟩ := h.accounted.applyWhile hp scope Nat.one_pos
    refine ⟨d, hd, hdc ▸ remaining_suffix _ _, fun c hc => ?_⟩
    rw [hdc] at hc
    exact Order.eq_barrier_of_level (level_lt_of_head?_remaining c hc)

/-- All operators that group to the left below an open call, and in the call a sign on a power. -/
theorem segmented_full :
    ∃ (ts : List Token) (e : Evaluation), Reachable ts e ∧ e.Segmented ∧
      ts.map (·.lexeme) = [.literal 1, .operator .add, .literal 2, .operator .mul, .literal 3,
        .call "F", .literal 4, .operator .pow, .operator .sub, .literal 5] ∧
      e.calls.map (·.order) = [.unary, .exp, .barrier, .imul, .mulDiv, .addSub] ∧
      e.phase = .expectOperator := by
  let scope : Scope := ⟨{}, ⟨[("f", Primitive.max.function)]⟩⟩
  let ts : List Token := [⟨.literal 1, 0⟩, ⟨.operator .add, 1⟩, ⟨.literal 2, 2⟩,
    ⟨.operator .mul, 3⟩, ⟨.literal 3, 4⟩, ⟨.call "F", 5⟩, ⟨.literal 4, 7⟩, ⟨.operator .pow, 8⟩,
    ⟨.operator .sub, 9⟩, ⟨.literal 5, 10⟩]
  let e : Evaluation := ⟨[Operator.sub.pendingSign, Operator.pow.pending,
    ⟨Primitive.max.function, .barrier, 1, "f"⟩, Operator.imul.pending, Operator.mul.pending,
    Operator.add.pending], ⟨[5, 4, 3, 2, 1]⟩, .expectOperator⟩
  have hr : (({} : Evaluation).readAll scope ts).outcome = .ok e := rfl
  have h : Reachable ts e := Reachable.readAll scope ts .start hr
  exact ⟨ts, e, h, Reachable.segmented h, rfl, rfl, rfl⟩

end Evaluation

end Calculator
