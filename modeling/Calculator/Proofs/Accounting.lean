import Calculator.Proofs.Settling

/-!
# Accounting for stacked values

Every state that an evaluation can reach holds as many values as its pending calls keep for later,
and one more while an operator is expected; an open call takes one value more than the commas read
directly inside of it. So no call ever lacks a value, and a token can fail only for a reason that
can be read off it, or because a function that the user named fails.
-/

namespace Calculator

/-- The values that a phase adds to those of the pending calls. -/
def Phase.operands : Phase → Int
  | .expectOperator => 1
  | .expectValue => 0
  | .finished => 0

/-- Whether a value is expected after the lexeme. -/
def Lexeme.awaitsValue : Lexeme → Bool
  | .operator _ | .call _ | .comma => true
  | _ => false

def Phase.after (l : Lexeme) : Phase :=
  if l.awaitsValue then .expectValue else .expectOperator

/-- The commas directly inside of each open call, the innermost call first. -/
def Token.countComma (counts : List Nat) (t : Token) : List Nat :=
  match t.lexeme with
  | .call _ => 0 :: counts
  | .comma => counts.modifyHead (· + 1)
  | .close => counts.tail
  | _ => counts

def openCommas (ts : List Token) : List Nat :=
  ts.foldl Token.countComma []

lemma openCommas_append_singleton (ts : List Token) (t : Token) :
    openCommas (ts ++ [t]) = t.countComma (openCommas ts) := by
  rw [openCommas, List.foldl_append]
  rfl

/-- The arguments that the open calls take, the innermost call first. -/
def openArguments (calls : List Call) : List Int :=
  (calls.filter (·.order = .barrier)).map (·.arguments)

lemma openArguments_remaining {k : Nat} (hk : 0 < k) (calls : List Call) :
    openArguments (remaining k calls) = openArguments calls := by
  rw [openArguments, filter_remaining hk]
  rfl

lemma openArguments_cons_of_ne {c : Call} (h : c.order ≠ .barrier) (calls : List Call) :
    openArguments (c :: calls) = openArguments calls := by
  simp [openArguments, h]

lemma openArguments_cons_of_eq {c : Call} (h : c.order = .barrier) (calls : List Call) :
    openArguments (c :: calls) = c.arguments :: openArguments calls := by
  simp [openArguments, h]

/-- No call is open when everything above the barriers can be applied. -/
lemma openArguments_eq_nil_iff {calls : List Call} :
    openArguments calls = [] ↔ remaining 1 calls = [] := by
  constructor
  · intro h
    cases hc : remaining 1 calls with
    | nil => rfl
    | cons c calls' =>
      rw [← openArguments_remaining Nat.one_pos, hc,
        openArguments_cons_of_eq (order_of_remaining_eq_cons hc)] at h
      exact absurd h (by simp)
  · intro h
    rw [← openArguments_remaining Nat.one_pos, h]
    rfl

namespace Evaluation

/-- The balance of an evaluation that has read the tokens `ts`. -/
structure Accounted (ts : List Token) (e : Evaluation) : Prop where
  sound : ∀ c ∈ e.calls, c.Sound
  size_eq : (e.values.size : Int) = held e.calls + e.phase.operands
  openArguments_eq : openArguments e.calls = (openCommas ts).map fun n : Nat => (n : Int) + 1
  finished : e.phase = .finished → e.calls = []

lemma accounted_start : Accounted [] {} :=
  ⟨by simp, rfl, rfl, by simp⟩

variable {ts : List Token} {e : Evaluation}

lemma Accounted.applyWhile (h : e.Accounted ts) (hp : e.phase = .expectOperator) (scope : Scope)
    {k : Nat} (hk : 0 < k) :
    ∃ d, (e.applyWhile scope (Order.atLeast k)).outcome = .ok d ∧ d.Accounted ts ∧
      d.phase = .expectOperator ∧ d.calls = remaining k e.calls := by
  have hs := h.size_eq
  rw [hp] at hs
  obtain ⟨values, hv, hs'⟩ := applyCalls_ok scope hk h.sound hs
  refine ⟨{ e with calls := remaining k e.calls, values }, ?_, ⟨?_, ?_, ?_, ?_⟩, hp, rfl⟩
  · rw [Evaluation.applyWhile, Traced.outcome_bind, hv]
    rfl
  · exact fun c hc => h.sound c (mem_of_mem_remaining hc)
  · simp only [hp]
    exact hs'
  · rw [← h.openArguments_eq]
    exact openArguments_remaining hk e.calls
  · simp [hp]

lemma Accounted.pushOperator (h : e.Accounted ts) (hp : e.phase = .expectOperator) (scope : Scope)
    (op : Operator) :
    ∃ d, (e.pushOperator scope op).outcome = .ok d ∧ d.Accounted ts ∧ d.phase = .expectValue ∧
      d.calls = op.pending :: remaining op.reach e.calls := by
  obtain ⟨d, hd, hda, hdp, hdc⟩ := h.applyWhile hp scope op.reach_pos
  refine ⟨{ d.pushCall op.pending with phase := .expectValue }, ?_, ⟨?_, ?_, ?_, ?_⟩, rfl, ?_⟩
  · rw [pushOperator_eq, Traced.outcome_bind, hd]
    rfl
  · exact List.forall_mem_cons.mpr ⟨Call.sound_pending op, hda.sound⟩
  · have hs := hda.size_eq
    rw [hdp] at hs
    simp only [pushCall, held_cons, Operator.pending, Phase.operands] at hs ⊢
    omega
  · rw [← hda.openArguments_eq]
    exact openArguments_cons_of_ne op.order_ne_barrier d.calls
  · simp
  · rw [← hdc]
    rfl

lemma Accounted.readValue {e' : Evaluation} {scope : Scope} {t : Token} (h : e.Accounted ts)
    (hp : e.phase = .expectValue) (hr : (e.readValue scope t).outcome = .ok e') :
    e'.Accounted (ts ++ [t]) ∧ e'.phase = .after t.lexeme := by
  have hs := h.size_eq
  rw [hp] at hs
  have hvalue (x : Float) (ht : t.countComma (openCommas ts) = openCommas ts) :
      Accounted (ts ++ [t]) { e.pushValue x with phase := .expectOperator } := by
    refine ⟨h.sound, ?_, ?_, by simp⟩
    · simp only [pushValue, Stack.push, Stack.size, List.length_cons, Phase.operands] at hs ⊢
      omega
    · rw [openCommas_append_singleton, ht]
      exact h.openArguments_eq
  cases hl : t.lexeme with
  | invalid position => simp [Evaluation.readValue, hl] at hr
  | comma => simp [Evaluation.readValue, hl] at hr
  | close => simp [Evaluation.readValue, hl] at hr
  | literal x =>
    simp only [Evaluation.readValue, hl, Traced.outcome_pure, Except.ok.injEq] at hr
    subst hr
    exact ⟨hvalue x (by simp [Token.countComma, hl]), rfl⟩
  | operator op =>
    by_cases ho : op.isSign = true
    · simp only [Evaluation.readValue, hl, ho, if_true, Traced.outcome_pure,
        Except.ok.injEq] at hr
      subst hr
      refine ⟨⟨?_, ?_, ?_, by simp [pushCall, hp]⟩, hp⟩
      · exact List.forall_mem_cons.mpr ⟨Call.sound_pendingSign ho, h.sound⟩
      · simp only [pushCall, held_cons, Operator.pendingSign, hp]
        omega
      · rw [openCommas_append_singleton, Token.countComma, hl, ← h.openArguments_eq]
        exact openArguments_cons_of_ne (by simp [Operator.pendingSign]) e.calls
    · simp [Evaluation.readValue, hl, ho] at hr
  | name s =>
    simp only [Evaluation.readValue, hl, Traced.outcome_bind, Traced.outcome_ofExcept,
      Traced.outcome_pure, bind_eq_ok_iff] at hr
    obtain ⟨x, -, hx⟩ := hr
    obtain rfl := Except.ok.inj hx
    exact ⟨hvalue x (by simp [Token.countComma, hl]), rfl⟩
  | call s =>
    simp only [Evaluation.readValue, hl, Traced.outcome_bind, Traced.outcome_ofExcept,
      Traced.outcome_pure, bind_eq_ok_iff] at hr
    obtain ⟨f, -, hf⟩ := hr
    obtain rfl := Except.ok.inj hf
    refine ⟨⟨?_, ?_, ?_, by simp⟩, rfl⟩
    · exact List.forall_mem_cons.mpr ⟨⟨by simp, by simp⟩, h.sound⟩
    · simp only [pushCall, held_cons, Phase.operands] at hs ⊢
      omega
    · rw [openCommas_append_singleton, Token.countComma, hl, List.map_cons,
        ← h.openArguments_eq]
      exact openArguments_cons_of_eq rfl e.calls

/-- A comma reached by a drained evaluation asks its open call for one more value. -/
lemma Accounted.nextArgument {t : Token} {c : Call} {calls : List Call} (h : e.Accounted ts)
    (hp : e.phase = .expectOperator) (hl : t.lexeme = .comma) (hc : e.calls = c :: calls)
    (hb : c.order = .barrier) :
    ∃ e', e.nextArgument = some e' ∧ e'.Accounted (ts ++ [t]) ∧ e'.phase = .expectValue := by
  have hs := h.size_eq
  have ha := h.openArguments_eq
  have hsound := h.sound
  rw [hc] at hs ha hsound
  rw [openArguments_cons_of_eq hb] at ha
  obtain ⟨n, counts, hn, hcn, hrest⟩ := List.map_eq_cons_iff.mp ha.symm
  have hpos := (hsound c (by simp)).arguments_pos
  refine ⟨⟨{ c with arguments := c.arguments + 1 } :: calls, e.values, .expectValue⟩, ?_,
    ⟨?_, ?_, ?_, by simp⟩, rfl⟩
  · simp only [Evaluation.nextArgument, hc]
  · have hnext : Call.Sound { c with arguments := c.arguments + 1 } :=
      ⟨by simp only; omega, fun hne => absurd hb hne⟩
    exact List.forall_mem_cons.mpr ⟨hnext, (List.forall_mem_cons.mp hsound).2⟩
  · simp only [hp, held_cons, Phase.operands] at hs ⊢
    omega
  · rw [openCommas_append_singleton, Token.countComma, hl, hn]
    refine (openArguments_cons_of_eq (by exact hb) calls).trans ?_
    simp only [List.modifyHead_cons, List.map_cons, hrest, ← hcn, Int.natCast_add,
      Int.cast_ofNat_Int]

/-- A closing parenthesis reached by a drained evaluation hands its open call all of its values. -/
lemma Accounted.applyTop {t : Token} {c : Call} {calls : List Call} (h : e.Accounted ts)
    (hp : e.phase = .expectOperator) (hl : t.lexeme = .close) (hc : e.calls = c :: calls)
    (hb : c.order = .barrier) :
    ∃ args rest, e.values.top c.arguments = .ok (args, rest) ∧ (args.length : Int) = c.arguments ∧
      ∀ x, Accounted (ts ++ [t]) ⟨calls, rest.push x, .expectOperator⟩ := by
  have hs := h.size_eq
  have ha := h.openArguments_eq
  have hsound := h.sound
  rw [hc] at hs ha hsound
  rw [hp] at hs
  rw [openArguments_cons_of_eq hb] at ha
  obtain ⟨args, rest, ht, hlen, hsize⟩ := Call.top_of_held hsound hs
  refine ⟨args, rest, ht, hlen, fun x => ⟨?_, hsize x, ?_, by simp⟩⟩
  · exact (List.forall_mem_cons.mp hsound).2
  · rw [openCommas_append_singleton, Token.countComma, hl]
    have htail := congrArg List.tail ha
    rwa [List.tail_cons, ← List.map_tail] at htail

/-- Whatever token is read without fail, the balance is kept. -/
theorem Accounted.read {e' : Evaluation} {scope : Scope} {t : Token} (h : e.Accounted ts)
    (hr : (e.read scope t).outcome = .ok e') :
    e'.Accounted (ts ++ [t]) ∧ e'.phase = .after t.lexeme := by
  cases hp : e.phase with
  | finished =>
    rw [outcome_read_of_finished hp] at hr
    exact absurd hr (by simp)
  | expectValue =>
    rw [outcome_read_of_expectValue hp] at hr
    exact h.readValue hp hr
  | expectOperator =>
    rw [outcome_read_of_expectOperator hp] at hr
    have hnamed (hn : t.lexeme.isNamed = true) :
        e'.Accounted (ts ++ [t]) ∧ e'.phase = .after t.lexeme := by
      obtain ⟨d, hd, hda, hdp, -⟩ := h.pushOperator hp scope .imul
      rw [outcome_readOperator_named hn hd] at hr
      exact hda.readValue hdp hr
    cases hl : t.lexeme with
    | invalid position => simp [readOperator, hl] at hr
    | literal x => simp [readOperator, hl] at hr
    | operator op =>
      obtain ⟨d, hd, hda, hdp, -⟩ := h.pushOperator hp scope op
      simp only [readOperator, hl, hd, Except.ok.injEq] at hr
      subst hr
      refine ⟨⟨hda.sound, hda.size_eq, ?_, hda.finished⟩, hdp⟩
      rw [openCommas_append_singleton, Token.countComma, hl]
      exact hda.openArguments_eq
    | name s => exact hl ▸ hnamed (by rw [hl]; rfl)
    | call s => exact hl ▸ hnamed (by rw [hl]; rfl)
    | comma =>
      obtain ⟨d, hd, hda, hdp, hdc⟩ := h.applyWhile hp scope Nat.one_pos
      rw [outcome_readOperator_comma hl hd] at hr
      cases hc : d.calls with
      | nil => simp [Evaluation.nextArgument, hc] at hr
      | cons c calls =>
        have hb := order_of_remaining_eq_cons (hdc.symm.trans hc)
        obtain ⟨d', hd', hda', hdp'⟩ := hda.nextArgument hdp hl hc hb
        rw [hd'] at hr
        obtain rfl := Except.ok.inj hr
        exact ⟨hda', hdp'⟩
    | close =>
      obtain ⟨d, hd, hda, hdp, hdc⟩ := h.applyWhile hp scope Nat.one_pos
      rw [outcome_readOperator_close hl hd] at hr
      cases hc : d.calls with
      | nil => simp [hc] at hr
      | cons c calls =>
        have hb := order_of_remaining_eq_cons (hdc.symm.trans hc)
        obtain ⟨args, rest, ht, -, hacc⟩ := hda.applyTop hdp hl hc hb
        rw [outcome_applyTop hc ht] at hr
        simp only [hc, List.isEmpty_cons, Bool.false_eq_true, if_false] at hr
        cases hx : c.function scope.vars args with
        | error f => simp [hx] at hr
        | ok x =>
          simp only [hx, map_ok] at hr
          obtain rfl := Except.ok.inj hr
          exact ⟨hacc x, rfl⟩

/-- What the end of an evaluation does, by the calls that stay when all others are applied. -/
lemma Accounted.finish (h : e.Accounted ts) (hp : e.phase = .expectOperator) (scope : Scope) :
    (∃ x, (e.finish scope).outcome = .ok (x, ⟨[], {}, .finished⟩) ∧ remaining 1 e.calls = [] ∧
      Accounted ts ⟨[], {}, .finished⟩) ∨
    ((e.finish scope).outcome = .error .unclosed ∧ remaining 1 e.calls ≠ []) := by
  obtain ⟨d, hd, hda, hdp, hdc⟩ := h.applyWhile hp scope Nat.one_pos
  have hs := hda.size_eq
  cases hc : d.calls with
  | nil =>
    left
    rw [hc, hdp] at hs
    simp only [held_nil, Phase.operands, Stack.size] at hs
    have hl : d.values.items.length = 1 := by omega
    obtain ⟨x, hx⟩ := List.length_eq_one_iff.mp hl
    refine ⟨x, ?_, hdc.symm.trans hc, ⟨by simp, rfl, ?_, by simp⟩⟩
    · simp only [Evaluation.finish, hp, applyTighter_barrier, Traced.outcome_bind, hd, ok_bind, hc,
        hx, Traced.outcome_pure]
    · have ha := hda.openArguments_eq
      rwa [hc] at ha
  | cons c calls =>
    right
    refine ⟨?_, by simp [← hdc, hc]⟩
    simp only [Evaluation.finish, hp, applyTighter_barrier, Traced.outcome_bind, hd, ok_bind, hc,
      Traced.outcome_throw]

/-- Why a token fails where a value is expected. -/
inductive FailsAsValue (scope : Scope) (t : Token) : Failure → Prop
  | invalid {position : Int} (hl : t.lexeme = .invalid position) :
    FailsAsValue scope t (.invalidToken position)
  | notSign {op : Operator} (hl : t.lexeme = .operator op) (ho : op.isSign = false) :
    FailsAsValue scope t (.notSign op t.position)
  | comma (hl : t.lexeme = .comma) : FailsAsValue scope t (.commaForValue t.position)
  | close (hl : t.lexeme = .close) : FailsAsValue scope t (.closeForValue t.position)
  | name {s : String} {f : Failure} (hl : t.lexeme = .name s) (hv : scope.valueOf s = .error f) :
    FailsAsValue scope t f
  | call {s : String} {f : Failure} (hl : t.lexeme = .call s)
      (hf : scope.function (Unicode.lower s) = .error f) : FailsAsValue scope t f

lemma readValue_error_iff {scope : Scope} {t : Token} {f : Failure} :
    (e.readValue scope t).outcome = .error f ↔ FailsAsValue scope t f := by
  constructor
  · intro hr
    cases hl : t.lexeme with
    | invalid position =>
      simp only [Evaluation.readValue, hl, Traced.outcome_throw, Except.error.injEq] at hr
      subst hr
      exact .invalid hl
    | literal x => simp [Evaluation.readValue, hl] at hr
    | operator op =>
      by_cases ho : op.isSign = true
      · simp [Evaluation.readValue, hl, ho] at hr
      · simp only [Evaluation.readValue, hl, ho, Bool.false_eq_true, if_false,
          Traced.outcome_throw, Except.error.injEq] at hr
        subst hr
        exact .notSign hl (by simpa using ho)
    | name s =>
      simp only [Evaluation.readValue, hl, Traced.outcome_bind, Traced.outcome_ofExcept,
        Traced.outcome_pure, bind_eq_error_iff, reduceCtorEq, and_false, exists_false,
        or_false] at hr
      exact .name hl hr
    | call s =>
      simp only [Evaluation.readValue, hl, Traced.outcome_bind, Traced.outcome_ofExcept,
        Traced.outcome_pure, bind_eq_error_iff, reduceCtorEq, and_false, exists_false,
        or_false] at hr
      exact .call hl hr
    | comma =>
      simp only [Evaluation.readValue, hl, Traced.outcome_throw, Except.error.injEq] at hr
      subst hr
      exact .comma hl
    | close =>
      simp only [Evaluation.readValue, hl, Traced.outcome_throw, Except.error.injEq] at hr
      subst hr
      exact .close hl
  · intro h
    cases h with
    | invalid hl => simp [Evaluation.readValue, hl]
    | notSign hl ho => simp [Evaluation.readValue, hl, ho]
    | comma hl => simp [Evaluation.readValue, hl]
    | close hl => simp [Evaluation.readValue, hl]
    | name hl hv => simp [Evaluation.readValue, hl, hv]
    | call hl hf => simp [Evaluation.readValue, hl, hf]

/-- Why a token fails after a state. Only `closing` and the names of `FailsAsValue` ask a function;
everything else is decided by the phase, the token and whether a call is open. -/
inductive Fails (scope : Scope) (e : Evaluation) (t : Token) : Failure → Prop
  | finished (hp : e.phase = .finished) : Fails scope e t .finished
  | value {f : Failure} (hp : e.phase = .expectValue) (hv : FailsAsValue scope t f) :
    Fails scope e t f
  | invalid {position : Int} (hp : e.phase = .expectOperator) (hl : t.lexeme = .invalid position) :
    Fails scope e t (.invalidToken position)
  | literal {x : Float} (hp : e.phase = .expectOperator) (hl : t.lexeme = .literal x) :
    Fails scope e t (.literalForOperator x t.position)
  | named {f : Failure} (hp : e.phase = .expectOperator) (hn : t.lexeme.isNamed = true)
      (hv : FailsAsValue scope t f) : Fails scope e t f
  | comma (hp : e.phase = .expectOperator) (hl : t.lexeme = .comma)
      (hc : openArguments e.calls = []) : Fails scope e t (.strayComma t.position)
  | close (hp : e.phase = .expectOperator) (hl : t.lexeme = .close)
      (hc : openArguments e.calls = []) : Fails scope e t (.strayClose t.position)
  | closing {d : Evaluation} {c : Call} {calls : List Call} {args : List Float} {rest : Stack}
      {f : Failure} (hp : e.phase = .expectOperator) (hl : t.lexeme = .close)
      (hd : (e.applyWhile scope (Order.atLeast 1)).outcome = .ok d) (hc : d.calls = c :: calls)
      (ht : d.values.top c.arguments = .ok (args, rest))
      (hf : c.function scope.vars args = .error f) : Fails scope e t f

lemma Accounted.fails {scope : Scope} {t : Token} {f : Failure} (h : e.Accounted ts)
    (hr : (e.read scope t).outcome = .error f) : Fails scope e t f := by
  cases hp : e.phase with
  | finished =>
    rw [outcome_read_of_finished hp] at hr
    obtain rfl := Except.error.inj hr
    exact .finished hp
  | expectValue =>
    rw [outcome_read_of_expectValue hp] at hr
    exact .value hp (readValue_error_iff.mp hr)
  | expectOperator =>
    rw [outcome_read_of_expectOperator hp] at hr
    have hnamed (hn : t.lexeme.isNamed = true) : Fails scope e t f := by
      obtain ⟨d, hd, -⟩ := h.pushOperator hp scope .imul
      rw [outcome_readOperator_named hn hd] at hr
      exact .named hp hn (readValue_error_iff.mp hr)
    cases hl : t.lexeme with
    | invalid position =>
      simp only [readOperator, hl, Traced.outcome_throw, Except.error.injEq] at hr
      subst hr
      exact .invalid hp hl
    | literal x =>
      simp only [readOperator, hl, Traced.outcome_throw, Except.error.injEq] at hr
      subst hr
      exact .literal hp hl
    | operator op =>
      obtain ⟨d, hd, -⟩ := h.pushOperator hp scope op
      simp [readOperator, hl, hd] at hr
    | name s => exact hnamed (by rw [hl]; rfl)
    | call s => exact hnamed (by rw [hl]; rfl)
    | comma =>
      obtain ⟨d, hd, -, -, hdc⟩ := h.applyWhile hp scope Nat.one_pos
      rw [outcome_readOperator_comma hl hd] at hr
      cases hc : d.calls with
      | nil =>
        simp only [Evaluation.nextArgument, hc, Except.error.injEq] at hr
        subst hr
        exact .comma hp hl (openArguments_eq_nil_iff.mpr (hdc.symm.trans hc))
      | cons c calls => simp [Evaluation.nextArgument, hc] at hr
    | close =>
      obtain ⟨d, hd, hda, hdp, hdc⟩ := h.applyWhile hp scope Nat.one_pos
      rw [outcome_readOperator_close hl hd] at hr
      cases hc : d.calls with
      | nil =>
        simp only [hc, List.isEmpty_nil, if_true, Except.error.injEq] at hr
        subst hr
        exact .close hp hl (openArguments_eq_nil_iff.mpr (hdc.symm.trans hc))
      | cons c calls =>
        have hb := order_of_remaining_eq_cons (hdc.symm.trans hc)
        obtain ⟨args, rest, ht, -, -⟩ := hda.applyTop hdp hl hc hb
        rw [outcome_applyTop hc ht] at hr
        simp only [hc, List.isEmpty_cons, Bool.false_eq_true, if_false] at hr
        cases hx : c.function scope.vars args with
        | error g =>
          simp only [hx, map_error, Except.error.injEq] at hr
          subst hr
          exact .closing hp hl hd hc ht hx
        | ok x => simp [hx] at hr

/-- Each of the listed reasons makes the token fail, and with no other failure. -/
lemma Accounted.error_of_fails {scope : Scope} {t : Token} {f : Failure} (h : e.Accounted ts)
    (hf : Fails scope e t f) : (e.read scope t).outcome = .error f := by
  cases hf with
  | finished hp => exact outcome_read_of_finished hp
  | value hp hv =>
    rw [outcome_read_of_expectValue hp]
    exact readValue_error_iff.mpr hv
  | invalid hp hl =>
    rw [outcome_read_of_expectOperator hp]
    simp only [readOperator, hl, Traced.outcome_throw]
  | literal hp hl =>
    rw [outcome_read_of_expectOperator hp]
    simp only [readOperator, hl, Traced.outcome_throw]
  | named hp hn hv =>
    obtain ⟨d, hd, -⟩ := h.pushOperator hp scope .imul
    rw [outcome_read_of_expectOperator hp, outcome_readOperator_named hn hd]
    exact readValue_error_iff.mpr hv
  | comma hp hl hc =>
    obtain ⟨d, hd, -, -, hdc⟩ := h.applyWhile hp scope Nat.one_pos
    rw [outcome_read_of_expectOperator hp, outcome_readOperator_comma hl hd]
    simp only [Evaluation.nextArgument, hdc, openArguments_eq_nil_iff.mp hc]
  | close hp hl hc =>
    obtain ⟨d, hd, -, -, hdc⟩ := h.applyWhile hp scope Nat.one_pos
    rw [outcome_read_of_expectOperator hp, outcome_readOperator_close hl hd]
    simp only [hdc, openArguments_eq_nil_iff.mp hc, List.isEmpty_nil, if_true]
  | closing hp hl hd hc ht hf =>
    rw [outcome_read_of_expectOperator hp, outcome_readOperator_close hl hd,
      outcome_applyTop hc ht, hf]
    simp [hc]

end Evaluation

end Calculator
