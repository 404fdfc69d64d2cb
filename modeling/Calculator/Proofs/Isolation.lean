import Calculator.Proofs.Grammar
import Calculator.Proofs.Reachable
import Mathlib.Data.List.Forall2

/-!
# Isolation of calls

`e.onTop calls values` is the state `e` on top of other pending calls and values. Where the topmost
call below is a barrier, a token that `e` can read is read in the same way over it, with the same
events: so the arguments of a call are evaluated as if each stood alone, and a call that is closed
leaves what a name with its value would leave.
-/

namespace Calculator

/-- Values below the others do not matter to a count that the others can meet. -/
lemma Stack.top_append {s rest : Stack} {count : Int} {args : List Float} (h0 : 0 ≤ count)
    (h : s.top count = .ok (args, rest)) (values : List Float) :
    Stack.top ⟨s.items ++ values⟩ count = .ok (args, ⟨rest.items ++ values⟩) := by
  have hle : count ≤ s.size := by
    have hok := Stack.isOk_top_iff.mp (by rw [h]; rfl : (s.top count).isOk = true)
    cases count with
    | ofNat n =>
      simp only [needed] at hok
      simp only [Int.ofNat_eq_natCast]
      omega
    | negSucc n => exact absurd h0 (by simp)
  have hlen : count.toNat ≤ s.items.length := by
    simp only [size] at hle
    omega
  rw [top_of_le h0 hle] at h
  obtain ⟨rfl, rfl⟩ := Prod.mk.inj (Except.ok.inj h)
  rw [top_of_le h0 (by simp only [size, List.length_append] at hle ⊢; omega)]
  simp only [List.take_append_of_le_length hlen, List.drop_append_of_le_length hlen]

lemma Call.apply_append {c : Call} {scope : Scope} {s rest : Stack} {args : List Float}
    (h0 : 0 ≤ c.arguments) (h : s.top c.arguments = .ok (args, rest)) (values : List Float) :
    c.apply scope ⟨s.items ++ values⟩ =
      (fun s' => (⟨s'.items ++ values⟩ : Stack)) <$> c.apply scope s := by
  simp only [apply, h, Stack.top_append h0 h values, Traced.ofExcept_ok, pure_bind, map_bind,
    map_pure]
  rfl

namespace Evaluation

/-- A state on top of pending calls and values that belong to what is around it. -/
def onTop (e : Evaluation) (calls : List Call) (values : List Float) : Evaluation :=
  ⟨e.calls ++ calls, ⟨e.values.items ++ values⟩, e.phase⟩

section onTop

variable {scope : Scope} {ts : List Token} {e : Evaluation} {t : Token} {c : Call}
  {below : List Call} {values : List Float}

lemma applyCalls_onTop {k : Nat} (hk : 0 < k) (hb : c.order = .barrier) {calls : List Call}
    {s : Stack} (h : ∀ c' ∈ calls, c'.Sound) (hs : (s.size : Int) = held calls + 1) :
    applyCalls scope (Order.atLeast k) (calls ++ c :: below) ⟨s.items ++ values⟩ =
      (fun r : List Call × Stack => (r.1 ++ c :: below, (⟨r.2.items ++ values⟩ : Stack))) <$>
        applyCalls scope (Order.atLeast k) calls s := by
  induction calls generalizing s with
  | nil =>
    have hc : ¬c.order.atLeast k = true := by
      rw [hb, Order.atLeast_barrier hk]
      decide
    simp only [List.nil_append, applyCalls, if_neg hc, map_pure]
  | cons c' calls ih =>
    by_cases hc : c'.order.atLeast k = true
    · obtain ⟨args, rest, ht, -, hsize⟩ := Call.top_of_held h hs
      have h0 := (h c' (by simp)).arguments_pos
      rw [List.cons_append, applyCalls, if_pos hc, applyCalls, if_pos hc,
        Call.apply_append (by omega) ht, bind_map_left, map_bind]
      apply Traced.bind_congr_of_outcome
      intro s' hs'
      rw [Call.outcome_apply ht] at hs'
      cases hx : c'.function scope.vars args with
      | error f => simp [hx] at hs'
      | ok x =>
        simp only [hx, map_ok] at hs'
        obtain rfl := Except.ok.inj hs'
        exact ih (List.forall_mem_cons.mp h).2 (hsize x)
    · rw [List.cons_append, applyCalls, if_neg hc, applyCalls, if_neg hc, map_pure]
      rfl

lemma applyWhile_onTop {k : Nat} (hk : 0 < k) (hb : c.order = .barrier) (h : e.Accounted ts)
    (hp : e.phase = .expectOperator) :
    (e.onTop (c :: below) values).applyWhile scope (Order.atLeast k) =
      (onTop · (c :: below) values) <$> e.applyWhile scope (Order.atLeast k) := by
  have hs := h.size_eq
  rw [hp] at hs
  simp only [applyWhile, onTop, applyCalls_onTop hk hb h.sound hs, bind_map_left, map_bind,
    map_pure]

lemma pushOperator_onTop (hb : c.order = .barrier) (h : e.Accounted ts)
    (hp : e.phase = .expectOperator) (op : Operator) :
    (e.onTop (c :: below) values).pushOperator scope op =
      (onTop · (c :: below) values) <$> e.pushOperator scope op := by
  simp only [pushOperator_eq, applyWhile_onTop op.reach_pos hb h hp, bind_map_left, map_bind,
    map_pure]
  rfl

/-- Where a value is expected, nothing on the stacks is looked at. -/
lemma readValue_onTop :
    (e.onTop (c :: below) values).readValue scope t =
      (onTop · (c :: below) values) <$> e.readValue scope t := by
  cases hl : t.lexeme with
  | operator op =>
    by_cases ho : op.isSign = true
    · simp only [readValue, hl, ho, if_true, map_pure]
      rfl
    · simp only [readValue, hl, ho, Bool.false_eq_true, if_false, Traced.map_throw]
  | name s =>
    simp only [readValue, hl, map_bind, map_pure]
    rfl
  | call s =>
    simp only [readValue, hl, map_bind, map_pure]
    rfl
  | literal x =>
    simp only [readValue, hl, map_pure]
    rfl
  | _ => simp only [readValue, hl, Traced.map_throw]

/-- A comma or a closing parenthesis is read without fail only inside of a call. -/
lemma Accounted.openArguments_ne_nil {e' : Evaluation} (h : e.Accounted ts)
    (hr : (e.read scope t).outcome = .ok e') (hl : t.lexeme = .comma ∨ t.lexeme = .close) :
    openArguments e.calls ≠ [] := by
  intro ho
  have hfails : ∃ f, Fails scope e t f := by
    cases hp : e.phase with
    | finished => exact ⟨_, .finished hp⟩
    | expectValue =>
      rcases hl with hl | hl
      · exact ⟨_, .value hp (.comma hl)⟩
      · exact ⟨_, .value hp (.close hl)⟩
    | expectOperator =>
      rcases hl with hl | hl
      · exact ⟨_, .comma hp hl ho⟩
      · exact ⟨_, .close hp hl ho⟩
  obtain ⟨f, hf⟩ := hfails
  rw [h.error_of_fails hf] at hr
  exact absurd hr (by simp)

lemma readOperator_onTop {e' : Evaluation} (hb : c.order = .barrier) (h : e.Accounted ts)
    (hp : e.phase = .expectOperator) (hr : (e.read scope t).outcome = .ok e') :
    (e.onTop (c :: below) values).readOperator scope t =
      (onTop · (c :: below) values) <$> e.readOperator scope t := by
  have hjuxtapose (s : String) : (e.onTop (c :: below) values).juxtapose scope s t =
      (onTop · (c :: below) values) <$> e.juxtapose scope s t := by
    simp only [juxtapose, pushOperator_onTop hb h hp, bind_map_left, map_bind, readValue_onTop]
  cases hl : t.lexeme with
  | invalid position => simp only [readOperator, hl, Traced.map_throw]
  | literal x => simp only [readOperator, hl, Traced.map_throw]
  | operator op => simp only [readOperator, hl, pushOperator_onTop hb h hp]
  | name s => simp only [readOperator, hl, hjuxtapose]
  | call s => simp only [readOperator, hl, hjuxtapose]
  | comma =>
    have hopen := h.openArguments_ne_nil hr (.inl hl)
    simp only [readOperator, hl, applyTighter_barrier, applyWhile_onTop Nat.one_pos hb h hp,
      bind_map_left, map_bind]
    apply Traced.bind_congr_of_outcome
    intro d hd
    obtain ⟨d', hd', -, -, hdc⟩ := h.applyWhile hp scope Nat.one_pos
    obtain rfl := Except.ok.inj (hd'.symm.trans hd)
    cases hc : d'.calls with
    | nil => exact absurd (openArguments_eq_nil_iff.mpr (hdc.symm.trans hc)) hopen
    | cons c' calls =>
      simp only [nextArgument, onTop, hc, List.cons_append, map_pure]
  | close =>
    have hopen := h.openArguments_ne_nil hr (.inr hl)
    simp only [readOperator, hl, applyTighter_barrier, applyWhile_onTop Nat.one_pos hb h hp,
      bind_map_left, map_bind]
    apply Traced.bind_congr_of_outcome
    intro d hd
    obtain ⟨d', hd', hda, hdp, hdc⟩ := h.applyWhile hp scope Nat.one_pos
    obtain rfl := Except.ok.inj (hd'.symm.trans hd)
    cases hc : d'.calls with
    | nil => exact absurd (openArguments_eq_nil_iff.mpr (hdc.symm.trans hc)) hopen
    | cons c' calls =>
      have hb' := order_of_remaining_eq_cons (hdc.symm.trans hc)
      obtain ⟨args, rest, ht, -, -⟩ := hda.applyTop hdp hl hc hb'
      have h0 := (hda.sound c' (by rw [hc]; simp)).arguments_pos
      simp only [onTop, hc, List.cons_append, List.isEmpty_cons, Bool.false_eq_true, if_false,
        Evaluation.applyTop, Call.apply_append (by omega) ht, bind_map_left, map_bind, map_pure,
        bind_assoc, pure_bind]

/-- A token that a state can read is read in the same way over a barrier. -/
theorem read_onTop {e' : Evaluation} (hb : c.order = .barrier) (h : e.Accounted ts)
    (hr : (e.read scope t).outcome = .ok e') :
    (e.onTop (c :: below) values).read scope t =
      (onTop · (c :: below) values) <$> e.read scope t := by
  have hphase : (e.onTop (c :: below) values).phase = e.phase := rfl
  cases hp : e.phase with
  | finished =>
    rw [outcome_read_of_finished hp] at hr
    exact absurd hr (by simp)
  | expectValue => simp only [read, hphase, hp, map_bind, readValue_onTop]
  | expectOperator => simp only [read, hphase, hp, map_bind, readOperator_onTop hb h hp hr]

theorem readAll_onTop {us : List Token} {e' : Evaluation} (hb : c.order = .barrier)
    (h : e.Accounted ts) (hr : (e.readAll scope us).outcome = .ok e') :
    (e.onTop (c :: below) values).readAll scope us =
      (onTop · (c :: below) values) <$> e.readAll scope us := by
  induction us generalizing ts e with
  | nil => simp only [readAll, map_pure]
  | cons u us ih =>
    rw [readAll_cons, Traced.outcome_bind, bind_eq_ok_iff] at hr
    obtain ⟨d, hd, hr⟩ := hr
    rw [readAll_cons, readAll_cons, read_onTop hb h hd, bind_map_left, map_bind]
    apply Traced.bind_congr_of_outcome
    intro d' hd'
    obtain rfl := Except.ok.inj (hd.symm.trans hd')
    exact ih (h.read hd).1 hr

end onTop

section arguments

variable {scope : Scope} {e d : Evaluation} {c : Call} {below : List Call} {values : List Float}

/-- The state in which a name or a call begins: a product is inserted where an operator is
expected. -/
def awaitValue (scope : Scope) (e : Evaluation) : Traced Evaluation :=
  match e.phase with
  | .expectOperator => e.pushOperator scope .imul
  | _ => pure e

/-- A name or an open call is read as a value after the product that it may need. -/
lemma read_named (scope : Scope) {t : Token} (hn : t.lexeme.isNamed = true)
    (hp : e.phase ≠ .finished) :
    (e.read scope t).outcome = (e.awaitValue scope >>= fun d => d.readValue scope t).outcome ∧
      (e.read scope t).applications =
        (e.awaitValue scope >>= fun d => d.readValue scope t).applications := by
  cases hphase : e.phase with
  | finished => exact absurd hphase hp
  | expectValue =>
    simp only [read, awaitValue, hphase]
    exact ⟨rfl, rfl⟩
  | expectOperator =>
    cases hl : t.lexeme with
    | name s =>
      simp only [read, awaitValue, hphase, readOperator, hl, juxtapose]
      exact ⟨rfl, rfl⟩
    | call s =>
      simp only [read, awaitValue, hphase, readOperator, hl, juxtapose]
      exact ⟨rfl, rfl⟩
    | _ => simp [hl, Lexeme.isNamed] at hn

/-- What it means that a list of tokens has a value: they leave one value when all calls above the
barrier are applied, and no open call. -/
lemma exists_of_evaluateTokens {ts : List Token} {x : Float}
    (hx : (scope.evaluateTokens ts).outcome = .ok x) :
    ∃ e : Evaluation, (readAll scope ts {}).outcome = .ok e ∧ e.Accounted ts ∧
      e.phase = .expectOperator ∧
      (e.applyWhile scope (Order.atLeast 1)).outcome = .ok ⟨[], ⟨[x]⟩, .expectOperator⟩ ∧
      (scope.evaluateTokens ts).applications = (readAll scope ts {}).applications ++
        (e.applyWhile scope (Order.atLeast 1)).applications := by
  simp only [Scope.evaluateTokens, Traced.outcome_bind, bind_eq_ok_iff] at hx
  obtain ⟨e, he, ⟨y, e'⟩, hfin, hy⟩ := hx
  obtain rfl := Except.ok.inj hy
  have hacc : e.Accounted ts := accounted_start.readAll he
  have hread : (scope.evaluateTokens ts).applications =
      (readAll scope ts {}).applications ++ (e.finish scope).applications := by
    rw [Scope.evaluateTokens, Traced.applications_bind he, Traced.applications_bind hfin]
    simp
  cases hp : e.phase with
  | finished => simp [Evaluation.finish, hp] at hfin
  | expectValue => simp [Evaluation.finish, hp] at hfin
  | expectOperator =>
    obtain ⟨d, hd, -, hdp, -⟩ := hacc.applyWhile hp scope Nat.one_pos
    have hfinish : (e.finish scope).applications =
        (e.applyWhile scope (Order.atLeast 1)).applications := by
      simp only [Evaluation.finish, hp, applyTighter_barrier]
      rw [Traced.applications_bind hd]
      split <;> exact List.append_nil _
    simp only [Evaluation.finish, hp, applyTighter_barrier, Traced.outcome_bind, hd,
      ok_bind] at hfin
    split at hfin
    · rename_i y' hc hv
      obtain ⟨rfl, -⟩ := Prod.mk.inj (Except.ok.inj hfin)
      have hde : d = ⟨[], ⟨[y']⟩, .expectOperator⟩ := by
        rw [← hc, ← hv, ← hdp]
      exact ⟨e, he, hacc, hp, hde ▸ hd, by rw [hread, hfinish]⟩
    · exact absurd hfin (by simp)

lemma readAll_argument (below : List Call) (values : List Float) {ts : List Token} {x : Float}
    (hb : c.order = .barrier) (hx : (scope.evaluateTokens ts).outcome = .ok x) :
    ∃ e : Evaluation,
      ((onTop {} (c :: below) values).readAll scope ts).outcome = .ok e ∧
      e.phase = .expectOperator ∧
      (e.applyWhile scope (Order.atLeast 1)).outcome =
        .ok ⟨c :: below, ⟨x :: values⟩, .expectOperator⟩ ∧
      ((onTop {} (c :: below) values).readAll scope ts).applications ++
        (e.applyWhile scope (Order.atLeast 1)).applications =
          (scope.evaluateTokens ts).applications := by
  obtain ⟨e, he, hacc, hp, hd, happ⟩ := exists_of_evaluateTokens hx
  have hread : (onTop {} (c :: below) values).readAll scope ts =
      (onTop · (c :: below) values) <$> readAll scope ts {} := readAll_onTop hb accounted_start he
  have hsettle : (e.onTop (c :: below) values).applyWhile scope (Order.atLeast 1) =
      (onTop · (c :: below) values) <$> e.applyWhile scope (Order.atLeast 1) :=
    applyWhile_onTop Nat.one_pos hb hacc hp
  refine ⟨e.onTop (c :: below) values, ?_, hp, ?_, ?_⟩
  · rw [hread, Traced.outcome_map, he, map_ok]
  · rw [hsettle, Traced.outcome_map, hd, map_ok]
    rfl
  · rw [hread, hsettle, Traced.applications_map, Traced.applications_map, happ]

lemma read_comma {x : Float} (hp : e.phase = .expectOperator)
    (hd : (e.applyWhile scope (Order.atLeast 1)).outcome =
      .ok ⟨c :: below, ⟨x :: values⟩, .expectOperator⟩) (p : Int) :
    (e.read scope ⟨.comma, p⟩).outcome =
        .ok (onTop {} ({ c with arguments := c.arguments + 1 } :: below) (x :: values)) ∧
      (e.read scope ⟨.comma, p⟩).applications =
        (e.applyWhile scope (Order.atLeast 1)).applications := by
  constructor
  · rw [outcome_read_of_expectOperator hp, outcome_readOperator_comma rfl hd]
    rfl
  · simp only [read, hp, readOperator, applyTighter_barrier]
    change (e.applyWhile scope (Order.atLeast 1) >>= _).applications = _
    rw [Traced.applications_bind hd]
    exact List.append_nil _

lemma read_close {x : Float} {args : List Float} {rest : Stack} (hp : e.phase = .expectOperator)
    (hd : (e.applyWhile scope (Order.atLeast 1)).outcome =
      .ok ⟨c :: below, ⟨x :: values⟩, .expectOperator⟩)
    (ht : Stack.top ⟨x :: values⟩ c.arguments = .ok (args, rest)) (p : Int) :
    (e.read scope ⟨.close, p⟩).outcome =
        (fun y => (⟨below, rest.push y, .expectOperator⟩ : Evaluation)) <$>
          c.function scope.vars args ∧
      ∀ y, c.function scope.vars args = .ok y → (e.read scope ⟨.close, p⟩).applications =
        (e.applyWhile scope (Order.atLeast 1)).applications ++ [(c.name, args, y)] := by
  constructor
  · rw [outcome_read_of_expectOperator hp, outcome_readOperator_close rfl hd,
      outcome_applyTop rfl ht]
    cases c.function scope.vars args <;> rfl
  · intro y hy
    simp only [read, hp, readOperator, applyTighter_barrier]
    change (e.applyWhile scope (Order.atLeast 1) >>= _).applications = _
    rw [Traced.applications_bind hd]
    simp only [List.isEmpty_cons, Bool.false_eq_true, if_false, Evaluation.applyTop, Call.apply, ht,
      hy, Traced.ofExcept_ok, pure_bind]
    rfl

/-- The values of the arguments of a call, each evaluated alone. -/
def ArgumentValues (scope : Scope) (ts : List (List Token)) (xs : List Float) : Prop :=
  List.Forall₂ (fun t x => (scope.evaluateTokens t).outcome = .ok x) ts xs

/-- The arguments of an open call and the parenthesis that closes it: the function gets the values
that the arguments have alone, and nothing below the call is touched. The induction is on the
arguments; `done` are the values of those before the first one. -/
lemma readAll_arguments (f : Function) (name : String) (below : List Call)
    (values done : List Float) {first : List Token} {rest : List (Int × List Token)}
    {xs : List Float} (h : ArgumentValues scope (first :: rest.map (·.2)) xs) (q : Int) :
    let opened := onTop {} (⟨f, .barrier, done.length + 1, name⟩ :: below) (done.reverse ++ values)
    (opened.readAll scope (argumentTokens first rest ++ [⟨.close, q⟩])).outcome =
        (fun y => (⟨below, ⟨y :: values⟩, .expectOperator⟩ : Evaluation)) <$>
          f scope.vars (done ++ xs) ∧
      ∀ y, f scope.vars (done ++ xs) = .ok y →
        (opened.readAll scope (argumentTokens first rest ++ [⟨.close, q⟩])).applications =
          (first :: rest.map (·.2)).flatMap (fun t => (scope.evaluateTokens t).applications) ++
            [(name, done ++ xs, y)] := by
  intro opened
  induction rest generalizing first xs done with
  | nil =>
    obtain ⟨x, xs', hx, hnil, rfl⟩ := List.forall₂_cons_left_iff.mp h
    obtain rfl := List.forall₂_nil_left_iff.mp hnil
    obtain ⟨e, he, hp, hd, happ⟩ := readAll_argument below (done.reverse ++ values)
      (c := ⟨f, .barrier, done.length + 1, name⟩) rfl hx
    obtain ⟨hclose, hcalls⟩ := read_close hp hd (Stack.top_arguments done values x) q
    rw [argumentTokens_nil, readAll_append]
    constructor
    · rw [Traced.outcome_bind, he, ok_bind, readAll_cons, Traced.outcome_bind, hclose]
      change _ <$> f scope.vars (done ++ [x]) >>= _ = _
      cases f scope.vars (done ++ [x]) <;> rfl
    · intro y hy
      have hok := hclose.trans (congrArg _ hy)
      rw [Traced.applications_bind he, readAll_cons, Traced.applications_bind hok, hcalls y hy,
        ← List.append_assoc, ← List.append_assoc, happ]
      simp [readAll]
  | cons r rest ih =>
    obtain ⟨p, next⟩ := r
    obtain ⟨x, xs', hx, hrest, rfl⟩ := List.forall₂_cons_left_iff.mp h
    obtain ⟨e, he, hp, hd, happ⟩ := readAll_argument below (done.reverse ++ values)
      (c := ⟨f, .barrier, done.length + 1, name⟩) rfl hx
    obtain ⟨hcomma, hcalls⟩ := read_comma hp hd p
    have hnext : onTop {} (⟨f, .barrier, (done ++ [x]).length + 1, name⟩ :: below)
        ((done ++ [x]).reverse ++ values) =
        onTop {} (⟨f, .barrier, (done.length : Int) + 1 + 1, name⟩ :: below)
          (x :: (done.reverse ++ values)) := by
      simp
    obtain ⟨houtcome, happs⟩ := ih (done ++ [x]) hrest
    rw [hnext, List.append_assoc, List.singleton_append] at houtcome happs
    rw [argumentTokens_cons, List.append_assoc, List.cons_append, readAll_append]
    constructor
    · rw [Traced.outcome_bind, he, ok_bind, readAll_cons, Traced.outcome_bind, hcomma, ok_bind]
      exact houtcome
    · intro y hy
      rw [Traced.applications_bind he, readAll_cons, Traced.applications_bind hcomma, hcalls,
        happs y hy, ← List.append_assoc, happ]
      simp

/-- A call that is still open lies in the state, with untouched calls and values below it. -/
def KeepsBelow (f : Function) (name : String) (below : List Call) (values : List Float)
    (e : Evaluation) : Prop :=
  ∃ calls above arguments, e.calls = calls ++ ⟨f, .barrier, arguments, name⟩ :: below ∧
    e.values.items = above ++ values

lemma readAll_ok_of_prefix {ts before : List Token} {e' : Evaluation} (h : before <+: ts)
    (hr : (e.readAll scope ts).outcome = .ok e') :
    ∃ d, (e.readAll scope before).outcome = .ok d := by
  obtain ⟨after, rfl⟩ := h
  rw [readAll_append, Traced.outcome_bind, bind_eq_ok_iff] at hr
  obtain ⟨d, hd, -⟩ := hr
  exact ⟨d, hd⟩

lemma readAll_argument_prefix {f : Function} {name : String} {ts before : List Token} {x : Float}
    {n : Int} (above : List Float) (hx : (scope.evaluateTokens ts).outcome = .ok x)
    (hbefore : before <+: ts) :
    ∃ d, ((onTop {} (⟨f, .barrier, n, name⟩ :: below) (above ++ values)).readAll scope
      before).outcome = .ok d ∧ d.KeepsBelow f name below values := by
  obtain ⟨e, he, -⟩ := exists_of_evaluateTokens hx
  obtain ⟨d, hd⟩ := readAll_ok_of_prefix hbefore he
  refine ⟨d.onTop (⟨f, .barrier, n, name⟩ :: below) (above ++ values), ?_, d.calls,
    d.values.items ++ above, n, rfl, (List.append_assoc ..).symm⟩
  rw [readAll_onTop rfl accounted_start hd, Traced.outcome_map, hd, map_ok]

/-- Up to the closing parenthesis everything succeeds, and the call stays in its place. -/
lemma readAll_before_close (f : Function) (name : String) (below : List Call)
    (values done : List Float) {first before : List Token} {rest : List (Int × List Token)}
    {xs : List Float} (h : ArgumentValues scope (first :: rest.map (·.2)) xs)
    (hbefore : before <+: argumentTokens first rest) :
    ∃ d, ((onTop {} (⟨f, .barrier, done.length + 1, name⟩ :: below)
      (done.reverse ++ values)).readAll scope before).outcome = .ok d ∧
      d.KeepsBelow f name below values := by
  induction rest generalizing first xs done before with
  | nil =>
    obtain ⟨x, xs', hx, -, -⟩ := List.forall₂_cons_left_iff.mp h
    rw [argumentTokens_nil] at hbefore
    exact readAll_argument_prefix done.reverse hx hbefore
  | cons r rest ih =>
    obtain ⟨p, next⟩ := r
    obtain ⟨x, xs', hx, hrest, rfl⟩ := List.forall₂_cons_left_iff.mp h
    rw [argumentTokens_cons] at hbefore
    rcases List.prefix_or_prefix_of_prefix hbefore (List.prefix_append ..) with hin | ⟨more, rfl⟩
    · exact readAll_argument_prefix done.reverse hx hin
    · rw [List.prefix_append_right_inj] at hbefore
      cases more with
      | nil =>
        rw [List.append_nil]
        exact readAll_argument_prefix done.reverse hx List.prefix_rfl
      | cons t more =>
        obtain ⟨rfl, hmore⟩ := List.cons_prefix_cons.mp hbefore
        obtain ⟨e, he, hp, hd, -⟩ := readAll_argument below (done.reverse ++ values)
          (c := ⟨f, .barrier, done.length + 1, name⟩) rfl hx
        obtain ⟨d, hread, hkeeps⟩ := ih (done ++ [x]) hrest hmore
        refine ⟨d, ?_, hkeeps⟩
        rw [readAll_append, Traced.outcome_bind, he, ok_bind, readAll_cons, Traced.outcome_bind,
          (read_comma hp hd p).1, ok_bind, ← hread]
        simp

lemma exists_awaitValue {ts : List Token} (h : e.Accounted ts) (hp : e.phase ≠ .finished)
    (scope : Scope) : ∃ base, (e.awaitValue scope).outcome = .ok base := by
  cases hphase : e.phase with
  | finished => exact absurd hphase hp
  | expectValue =>
    refine ⟨e, ?_⟩
    simp only [awaitValue, hphase, Traced.outcome_pure]
  | expectOperator =>
    obtain ⟨d, hd, -⟩ := h.pushOperator hphase scope .imul
    refine ⟨d, ?_⟩
    simp only [awaitValue, hphase, hd]

lemma read_call {base : Evaluation} {f : Function} {name : String} (hp : e.phase ≠ .finished)
    (hbase : (e.awaitValue scope).outcome = .ok base)
    (hf : scope.function (Unicode.lower name) = .ok f) (p : Int) :
    (e.read scope ⟨.call name, p⟩).outcome =
        .ok (onTop {} (⟨f, .barrier, 1, Unicode.lower name⟩ :: base.calls) base.values.items) ∧
      (e.read scope ⟨.call name, p⟩).applications = (e.awaitValue scope).applications := by
  have hopen := read_named scope (t := ⟨.call name, p⟩) rfl hp
  constructor
  · rw [hopen.1, Traced.outcome_bind, hbase, ok_bind]
    simp only [readValue, hf, Traced.ofExcept_ok, pure_bind]
    rfl
  · rw [hopen.2, Traced.applications_bind hbase]
    simp only [readValue, hf, Traced.ofExcept_ok, pure_bind]
    exact List.append_nil _

lemma readAll_call {base : Evaluation} {f : Function} {name : String} {first : List Token}
    {rest : List (Int × List Token)} {xs : List Float} (hp : e.phase ≠ .finished)
    (hbase : (e.awaitValue scope).outcome = .ok base)
    (hf : scope.function (Unicode.lower name) = .ok f)
    (hxs : ArgumentValues scope (first :: rest.map (·.2)) xs) (p q : Int) :
    (e.readAll scope (⟨.call name, p⟩ :: argumentTokens first rest ++ [⟨.close, q⟩])).outcome =
      (fun y => (⟨base.calls, base.values.push y, .expectOperator⟩ : Evaluation)) <$>
        f scope.vars xs := by
  have hread := (readAll_arguments f (Unicode.lower name) base.calls base.values.items [] hxs q).1
  rw [List.cons_append, readAll_cons, Traced.outcome_bind, (read_call hp hbase hf p).1, ok_bind]
  exact hread

/-- A call with arguments that have values alone, read from any state that can be reached. Its
function is applied once, to these values; if it fails, the closing parenthesis fails; if it has a
value, the state is the one that a bare name with this value leads to. Until then the call keeps its
place, with the calls and values of the state below it. -/
theorem Reachable.call_isolated {past : List Token} (h : e.Reachable past)
    (hp : e.phase ≠ .finished) {name : String} {f : Function}
    (hf : scope.function (Unicode.lower name) = .ok f) {first : List Token}
    {rest : List (Int × List Token)} {xs : List Float}
    (hxs : ArgumentValues scope (first :: rest.map (·.2)) xs) (p q : Int) :
    ∃ base, (e.awaitValue scope).outcome = .ok base ∧
      (∀ before, before <+: argumentTokens first rest →
        ∃ d, (e.readAll scope (⟨.call name, p⟩ :: before)).outcome = .ok d ∧
          d.KeepsBelow f (Unicode.lower name) base.calls base.values.items) ∧
      (e.readAll scope (⟨.call name, p⟩ :: argumentTokens first rest ++ [⟨.close, q⟩])).outcome =
        (fun y => (⟨base.calls, base.values.push y, .expectOperator⟩ : Evaluation)) <$>
          f scope.vars xs ∧
      ∀ y, f scope.vars xs = .ok y →
        (∀ m r, scope.valueOf m = .ok y → (e.read scope ⟨.name m, r⟩).outcome =
          .ok ⟨base.calls, base.values.push y, .expectOperator⟩) ∧
        (e.readAll scope
            (⟨.call name, p⟩ :: argumentTokens first rest ++ [⟨.close, q⟩])).applications =
          (e.awaitValue scope).applications ++
            (first :: rest.map (·.2)).flatMap (fun t => (scope.evaluateTokens t).applications) ++
            [(Unicode.lower name, xs, y)] := by
  obtain ⟨base, hbase⟩ := exists_awaitValue h.accounted hp scope
  obtain ⟨hopened, hopenedApplications⟩ := read_call hp hbase hf p
  have happlications :=
    (readAll_arguments f (Unicode.lower name) base.calls base.values.items [] hxs q).2
  refine ⟨base, hbase, ?_, ?_, ?_⟩
  · intro before hbefore
    obtain ⟨d, hd, hkeeps⟩ := readAll_before_close f (Unicode.lower name) base.calls
      base.values.items [] hxs hbefore
    refine ⟨d, ?_, hkeeps⟩
    rw [readAll_cons, Traced.outcome_bind, hopened, ok_bind]
    exact hd
  · exact readAll_call hp hbase hf hxs p q
  · intro y hy
    constructor
    · intro m r hm
      rw [(read_named scope (t := ⟨.name m, r⟩) rfl hp).1, Traced.outcome_bind, hbase,
        ok_bind]
      simp only [readValue, hm, Traced.ofExcept_ok, pure_bind]
      rfl
    · rw [List.cons_append, readAll_cons, Traced.applications_bind hopened, hopenedApplications,
        List.append_assoc]
      exact congrArg _ (happlications y hy)

/-- A call of two arguments right after a literal, which it multiplies. -/
theorem call_isolated_after_literal :
    ∃ (scope : Scope) (e base : Evaluation) (f : Function),
      e.Reachable [⟨.literal 2, 0⟩] ∧ e.phase = .expectOperator ∧
      scope.function (Unicode.lower "F") = .ok f ∧
      ArgumentValues scope [[⟨.literal 1, 3⟩], [⟨.literal 3, 5⟩]] [1, 3] ∧
      (e.awaitValue scope).outcome = .ok base ∧ base.calls.map (·.name) = ["imul"] ∧
      (e.readAll scope [⟨.call "F", 1⟩, ⟨.literal 1, 3⟩, ⟨.comma, 4⟩, ⟨.literal 3, 5⟩,
        ⟨.close, 6⟩]).outcome = .ok ⟨base.calls, base.values.push (.ofNat 2), .expectOperator⟩ := by
  let f : Function := fun _ args => .ok (.ofNat args.length)
  let scope : Scope := ⟨{}, ⟨[("f", f)]⟩⟩
  let e : Evaluation := ⟨[], ⟨[2]⟩, .expectOperator⟩
  have hr : (({} : Evaluation).read scope ⟨.literal 2, 0⟩).outcome = .ok e := rfl
  have h : e.Reachable [⟨.literal 2, 0⟩] := .read scope _ .start hr
  have hf : scope.function (Unicode.lower "F") = .ok f := rfl
  let rest : List (Int × List Token) := [(4, [⟨.literal 3, 5⟩])]
  have hxs : ArgumentValues scope ([⟨.literal 1, 3⟩] :: rest.map (·.2)) [1, 3] :=
    .cons rfl (.cons rfl .nil)
  obtain ⟨base, hbase, -, hread, -⟩ := Reachable.call_isolated h (by decide) hf hxs 1 6
  have hcalls : base.calls.map (·.name) = ["imul"] := by
    have he : (e.awaitValue scope).outcome =
      .ok ⟨[Operator.imul.pending], ⟨[2]⟩, .expectValue⟩ := rfl
    obtain rfl := Except.ok.inj (he.symm.trans hbase)
    rfl
  exact ⟨scope, e, base, f, h, rfl, hf, hxs, hbase, hcalls, hread⟩

end arguments

end Evaluation

end Calculator
