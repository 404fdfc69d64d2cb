import Calculator.Proofs.Faults
import Mathlib.Data.List.Forall2

/-!
# The calls that are applied

A text is evaluated in one pass, and its calls are applied as soon as they can be. Still they are
applied in the post-order of its tree: each operator, sign, group and call once, after its children
and before everything to the right of it. During a run, every call is either pending or applied.
-/

namespace Calculator

/-- A call as the log tells it: its name, its arguments and its value. -/
abbrev Application := String × List Float × Float

namespace Scope

variable {scope : Scope} {name : String} {f : Function} {args : List Float} {x : Float}

lemma outcome_apply : (scope.apply name f args).outcome = .ok x ↔ f scope.vars args = .ok x := by
  unfold apply
  cases hf : f scope.vars args with
  | error e => simp
  | ok y => simp

lemma applications_apply (h : f scope.vars args = .ok x) :
    (scope.apply name f args).applications = [(name, args, x)] := by
  unfold apply
  rw [h]
  rfl

end Scope

namespace Tree

def children : Tree → List Tree
  | literal _ | name _ => []
  | call _ args => args
  | sign _ t => [t]
  | binary _ l r | juxtaposed l r => [l, r]

/-- What a node calls, if it calls something. A name has its value and calls nothing. -/
def head? (scope : Scope) : Tree → Option (String × Except Failure Function)
  | literal _ | name _ => none
  | call s _ => some (Unicode.lower s, scope.function (Unicode.lower s))
  | sign op _ | binary op _ _ => some (op.name, .ok op.primitive.function)
  | juxtaposed _ _ => some (Operator.imul.name, .ok Operator.imul.primitive.function)

mutual

/-- The nodes that call something, each one after those below it, from the left to the right. -/
def postorder : Tree → List Tree
  | literal _ | name _ => []
  | call s args => postorderAll args ++ [call s args]
  | sign op t => t.postorder ++ [sign op t]
  | binary op l r => l.postorder ++ r.postorder ++ [binary op l r]
  | juxtaposed l r => l.postorder ++ r.postorder ++ [juxtaposed l r]

def postorderAll : List Tree → List Tree
  | [] => []
  | t :: ts => t.postorder ++ postorderAll ts

end

/-- The application of a node: what the node calls has the node's value on those of its children. -/
structure IsApplied (scope : Scope) (t : Tree) (a : Application) : Prop where
  head : ∃ f, t.head? scope = some (a.1, .ok f) ∧ f scope.vars a.2.1 = .ok a.2.2
  arguments : List.Forall₂ (fun c x => (c.evaluate scope).outcome = .ok x) t.children a.2.1
  value : (t.evaluate scope).outcome = .ok a.2.2

variable {scope : Scope} {t : Tree} {x : Float}

lemma sizeOf_lt_of_mem_children {c : Tree} (h : c ∈ t.children) : sizeOf c < sizeOf t := by
  cases t with
  | literal x => exact absurd h List.not_mem_nil
  | name s => exact absurd h List.not_mem_nil
  | call s args =>
    have hlt : sizeOf c < sizeOf args := List.sizeOf_lt_of_mem h
    simp only [call.sizeOf_spec]
    omega
  | sign op t =>
    obtain rfl := List.mem_singleton.mp h
    simp only [sign.sizeOf_spec]
    omega
  | binary op l r =>
    simp only [binary.sizeOf_spec]
    rcases List.mem_pair.mp h with rfl | rfl <;> omega
  | juxtaposed l r =>
    simp only [juxtaposed.sizeOf_spec]
    rcases List.mem_pair.mp h with rfl | rfl <;> omega

@[elab_as_elim]
lemma induction_children {P : Tree → Prop} (h : ∀ t, (∀ c ∈ t.children, P c) → P t) (t : Tree) :
    P t := by
  induction hn : sizeOf t using Nat.strongRecOn generalizing t with
  | ind n ih =>
    subst hn
    exact h t fun c hc => ih (sizeOf c) (sizeOf_lt_of_mem_children hc) c rfl

lemma evaluateAll_pair (scope : Scope) (l r : Tree) :
    evaluateAll scope [l, r] = do
      let x ← l.evaluate scope
      let y ← r.evaluate scope
      return [x, y] := by
  simp only [evaluateAll, bind_assoc, pure_bind]

/-- Every node that calls something is evaluated in the same way. -/
lemma evaluate_of_head? {name : String} {f : Except Failure Function}
    (h : t.head? scope = some (name, f)) :
    t.evaluate scope = Traced.ofExcept f >>= fun g =>
      evaluateAll scope t.children >>= scope.apply name g := by
  cases t with
  | literal x => exact absurd h (by simp [head?])
  | name s => exact absurd h (by simp [head?])
  | call s args =>
    obtain ⟨rfl, rfl⟩ := Prod.mk.inj (Option.some.inj h)
    simp only [evaluate, children]
  | sign op t =>
    obtain ⟨rfl, rfl⟩ := Prod.mk.inj (Option.some.inj h)
    simp only [evaluate, children, evaluateAll, Traced.ofExcept_ok, pure_bind, bind_assoc]
  | binary op l r =>
    obtain ⟨rfl, rfl⟩ := Prod.mk.inj (Option.some.inj h)
    simp only [evaluate, children, evaluateAll_pair, Traced.ofExcept_ok, pure_bind, bind_assoc]
  | juxtaposed l r =>
    obtain ⟨rfl, rfl⟩ := Prod.mk.inj (Option.some.inj h)
    simp only [evaluate, children, evaluateAll_pair, Traced.ofExcept_ok, pure_bind, bind_assoc]

lemma postorder_of_head? {r : String × Except Failure Function} (h : t.head? scope = some r) :
    t.postorder = postorderAll t.children ++ [t] := by
  cases t with
  | literal x => exact absurd h (by simp [head?])
  | name s => exact absurd h (by simp [head?])
  | call s args => simp only [postorder, children]
  | sign op t => simp only [postorder, postorderAll, children, List.append_nil]
  | binary op l r => simp only [postorder, postorderAll, children, List.append_nil]
  | juxtaposed l r => simp only [postorder, postorderAll, children, List.append_nil]

lemma applications_of_head?_eq_none (h : t.head? scope = none) :
    t.postorder = [] ∧ (t.evaluate scope).applications = [] := by
  cases t with
  | literal x => simp [postorder, evaluate]
  | name s =>
    simp only [postorder, evaluate, true_and]
    rfl
  | _ => exact absurd h (by simp [head?])

lemma isApplied_evaluateAll {ts : List Tree} {xs : List Float}
    (h : ∀ t ∈ ts, ∀ x, (t.evaluate scope).outcome = .ok x →
      List.Forall₂ (IsApplied scope) t.postorder (t.evaluate scope).applications)
    (hxs : (evaluateAll scope ts).outcome = .ok xs) :
    List.Forall₂ (fun t x => (t.evaluate scope).outcome = .ok x) ts xs ∧
      List.Forall₂ (IsApplied scope) (postorderAll ts) (evaluateAll scope ts).applications := by
  induction ts generalizing xs with
  | nil =>
    obtain rfl := Except.ok.inj hxs
    simp only [evaluateAll, postorderAll, Traced.applications_pure, List.Forall₂.nil, and_self]
  | cons t ts ih =>
    obtain ⟨ht, hts⟩ := List.forall_mem_cons.mp h
    simp only [evaluateAll, Traced.outcome_bind, bind_eq_ok_iff] at hxs
    obtain ⟨x, hx, ys, hys, hxs⟩ := hxs
    obtain rfl := Except.ok.inj hxs
    obtain ⟨hvalues, happlied⟩ := ih hts hys
    refine ⟨.cons hx hvalues, ?_⟩
    simp only [evaluateAll, postorderAll, Traced.applications_bind hx, Traced.applications_bind hys,
      Traced.applications_pure, List.append_nil]
    exact List.rel_append (ht x hx) happlied

theorem isApplied_evaluate (t : Tree) (x : Float) (h : (t.evaluate scope).outcome = .ok x) :
    List.Forall₂ (IsApplied scope) t.postorder (t.evaluate scope).applications := by
  induction t using induction_children generalizing x with
  | h t ih =>
    cases ht : t.head? scope with
    | none =>
      obtain ⟨hpost, happ⟩ := applications_of_head?_eq_none ht
      rw [hpost, happ]
      exact .nil
    | some r =>
      obtain ⟨name, f⟩ := r
      have hval := h
      rw [evaluate_of_head? ht] at h ⊢
      simp only [Traced.outcome_bind, bind_eq_ok_iff, Traced.outcome_ofExcept] at h
      obtain ⟨g, rfl, xs, hxs, hx⟩ := h
      have hg : g scope.vars xs = .ok x := Scope.outcome_apply.mp hx
      obtain ⟨hvalues, happlied⟩ := isApplied_evaluateAll ih hxs
      have hnode : IsApplied scope t (name, xs, x) := ⟨⟨g, ht, hg⟩, hvalues, hval⟩
      rw [Traced.ofExcept_ok, pure_bind, Traced.applications_bind hxs,
        Scope.applications_apply hg, postorder_of_head? ht]
      exact List.rel_append happlied (.cons hnode .nil)

end Tree

def Lexeme.isOperator : Lexeme → Bool
  | .operator _ => true
  | _ => false

/-- How many calls are entered by tokens that are read in the given phases: one for each operator
and for each open call, and a product for each name or call in the place of an operator. -/
def entered (history : List (Phase × Token)) : Nat :=
  history.countP (·.2.lexeme.isOperator) + history.countP (·.2.lexeme.isCall) +
    history.countP (fun r => r.1 = .expectOperator ∧ r.2.lexeme.isNamed = true)

lemma entered_append (history history' : List (Phase × Token)) :
    entered (history ++ history') = entered history + entered history' := by
  unfold entered
  simp only [List.countP_append]
  omega

lemma entered_singleton (p : Phase) (t : Token) :
    entered [(p, t)] = (if t.lexeme.isOperator = true then 1 else 0) +
      (if t.lexeme.isCall = true then 1 else 0) +
      if p = .expectOperator ∧ t.lexeme.isNamed = true then 1 else 0 := by
  simp only [entered, List.countP_singleton, decide_eq_true_eq]

lemma Call.length_applications {c : Call} {scope : Scope} {values values' : Stack}
    (h : (c.apply scope values).outcome = .ok values') :
    (c.apply scope values).applications.length = 1 := by
  cases ht : values.top c.arguments with
  | error f => exact absurd h (by simp [apply, ht])
  | ok r =>
    obtain ⟨args, rest⟩ := r
    rw [apply_of_top scope ht] at h ⊢
    rw [Traced.outcome_bind, bind_eq_ok_iff] at h
    obtain ⟨x, hx, -⟩ := h
    rw [Traced.applications_bind hx, Scope.applications_apply (Scope.outcome_apply.mp hx)]
    rfl

namespace Evaluation

/-- If the computation succeeds, the calls pending before it and `n` others are pending or have been
applied. -/
def Enters (n : Nat) (e : Evaluation) (x : Traced Evaluation) : Prop :=
  ∀ d, x.outcome = .ok d → x.applications.length + d.calls.length = e.calls.length + n

variable {scope : Scope} {e d : Evaluation} {t : Token} {m n : Nat}

section Enters

lemma enters_pure (h : d.calls.length = e.calls.length + n) : Enters n e (pure d) := by
  intro d' hd'
  obtain rfl := Except.ok.inj hd'
  rw [Traced.applications_pure, List.length_nil, Nat.zero_add]
  exact h

lemma enters_throw (f : Failure) : Enters n e (Traced.throw f) :=
  fun d hd => absurd hd (by simp)

lemma Enters.bind {x : Traced Evaluation} {f : Evaluation → Traced Evaluation}
    (h : Enters m e x) (hf : ∀ d, Enters n d (f d)) : Enters (m + n) e (x >>= f) := by
  intro d hd
  rw [Traced.outcome_bind, bind_eq_ok_iff] at hd
  obtain ⟨d', hd', hd⟩ := hd
  have hx := h d' hd'
  have hfd := hf d' d hd
  rw [Traced.applications_bind hd', List.length_append]
  omega

lemma enters_bind {α : Type} {x : Traced α} {f : α → Traced Evaluation}
    (hx : x.applications = []) (hf : ∀ a, Enters n e (f a)) : Enters n e (x >>= f) := by
  intro d hd
  rw [Traced.outcome_bind, bind_eq_ok_iff] at hd
  obtain ⟨a, ha, hd⟩ := hd
  rw [Traced.applications_bind ha, hx, List.nil_append]
  exact hf a d hd

lemma length_applyCalls {p : Order → Bool} {calls : List Call} {values : Stack}
    {r : List Call × Stack} (h : (applyCalls scope p calls values).outcome = .ok r) :
    (applyCalls scope p calls values).applications.length + r.1.length = calls.length := by
  induction calls generalizing values with
  | nil =>
    obtain rfl := Except.ok.inj h
    rfl
  | cons c calls ih =>
    rw [applyCalls] at h ⊢
    split at h
    · rename_i hc
      rw [Traced.outcome_bind, bind_eq_ok_iff] at h
      obtain ⟨values', hv, h⟩ := h
      have hrest := ih h
      have hone := Call.length_applications hv
      rw [if_pos hc, Traced.applications_bind hv, List.length_append, List.length_cons]
      omega
    · rename_i hc
      obtain rfl := Except.ok.inj h
      rw [if_neg hc]
      exact Nat.zero_add _

lemma enters_applyWhile (scope : Scope) (p : Order → Bool) (e : Evaluation) :
    Enters 0 e (e.applyWhile scope p) := by
  intro d hd
  unfold applyWhile at hd ⊢
  rw [Traced.outcome_bind, bind_eq_ok_iff] at hd
  obtain ⟨r, hr, hd⟩ := hd
  obtain rfl := Except.ok.inj hd
  have hlength := length_applyCalls hr
  rw [Traced.applications_bind hr, Traced.applications_pure, List.append_nil]
  exact hlength

lemma enters_applyTop (scope : Scope) (e : Evaluation) : Enters 0 e (e.applyTop scope) := by
  unfold applyTop
  cases hc : e.calls with
  | nil => exact enters_throw _
  | cons c calls =>
    intro d hd
    simp only [Traced.outcome_bind, bind_eq_ok_iff] at hd
    obtain ⟨values, hv, hd⟩ := hd
    obtain rfl := Except.ok.inj hd
    have hone := Call.length_applications hv
    rw [Traced.applications_bind hv, Traced.applications_pure, List.append_nil, hc,
      List.length_cons]
    exact (congrArg (· + calls.length) hone).trans (Nat.add_comm ..)

lemma enters_pushOperator (scope : Scope) (op : Operator) (e : Evaluation) :
    Enters 1 e (e.pushOperator scope op) := by
  rw [pushOperator_eq]
  have hpush (d : Evaluation) :
      Enters 1 d (pure { d.pushCall op.pending with phase := .expectValue }) := enters_pure rfl
  exact (enters_applyWhile scope _ e).bind hpush

lemma enters_readValue (scope : Scope) (t : Token) (e : Evaluation) :
    Enters (entered [(.expectValue, t)]) e (e.readValue scope t) := by
  unfold Evaluation.readValue
  rw [entered_singleton]
  cases t.lexeme with
  | invalid position => exact enters_throw _
  | literal x => exact enters_pure rfl
  | operator op =>
    by_cases ho : op.isSign = true
    · simp only [ho, if_true]
      exact enters_pure rfl
    · simp only [ho]
      exact enters_throw _
  | name s => exact enters_bind rfl fun x => enters_pure rfl
  | call s => exact enters_bind rfl fun f => enters_pure rfl
  | comma => exact enters_throw _
  | close => exact enters_throw _

/-- A value in the place of an operator enters a product first. -/
lemma enters_juxtapose (scope : Scope) (s : String) (t : Token) (e : Evaluation) :
    Enters (1 + entered [(.expectValue, t)]) e (e.juxtapose scope s t) := by
  unfold juxtapose
  apply enters_bind rfl
  intro _
  exact (enters_pushOperator scope .imul e).bind (enters_readValue scope t)

lemma enters_readOperator (scope : Scope) (t : Token) (e : Evaluation) :
    Enters (entered [(.expectOperator, t)]) e (e.readOperator scope t) := by
  unfold Evaluation.readOperator
  have hjuxtapose (s : String) := enters_juxtapose scope s t e
  rw [entered_singleton] at hjuxtapose ⊢
  cases hl : t.lexeme with
  | invalid position => exact enters_throw _
  | literal x => exact enters_throw _
  | operator op => exact enters_pushOperator scope op e
  | name s =>
    rw [hl] at hjuxtapose
    exact hjuxtapose s
  | call s =>
    rw [hl] at hjuxtapose
    exact hjuxtapose s
  | comma =>
    apply (enters_applyWhile scope _ e).bind
    intro d
    cases hd : d.nextArgument with
    | none => exact enters_throw _
    | some d' =>
      apply enters_pure
      unfold Evaluation.nextArgument at hd
      split at hd
      · exact absurd hd (by simp)
      · rename_i c calls hc
        obtain rfl := Option.some.inj hd
        rw [hc]
        rfl
  | close =>
    apply (enters_applyWhile scope _ e).bind
    intro d
    by_cases hempty : d.calls.isEmpty = true
    · rw [if_pos hempty]
      exact enters_throw _
    · rw [if_neg hempty]
      have hphase (d' : Evaluation) : Enters 0 d' (pure { d' with phase := .expectOperator }) :=
        enters_pure rfl
      exact (enters_applyTop scope d).bind hphase

lemma enters_read (scope : Scope) (t : Token) (e : Evaluation) :
    Enters (entered [(e.phase, t)]) e (e.read scope t) := by
  unfold Evaluation.read
  apply enters_bind rfl
  intro _
  cases hp : e.phase with
  | expectOperator => exact enters_readOperator scope t e
  | expectValue => exact enters_readValue scope t e
  | finished => exact enters_throw _

end Enters

lemma length_applications_finish {x : Float} (h : (e.finish scope).outcome = .ok (x, d)) :
    d.calls = [] ∧ (e.finish scope).applications.length = e.calls.length := by
  unfold Evaluation.finish at h ⊢
  cases hp : e.phase with
  | finished => exact absurd h (by simp [hp])
  | expectValue => exact absurd h (by simp [hp])
  | expectOperator =>
    simp only [hp, Traced.outcome_bind, bind_eq_ok_iff] at h
    obtain ⟨e', he', h⟩ := h
    have happlied := enters_applyWhile scope _ e e' he'
    rw [Traced.applications_bind he']
    split at h
    · rename_i x' hc hv
      obtain ⟨-, rfl⟩ := Prod.mk.inj (Except.ok.inj h)
      rw [hc] at happlied
      simp only [hc, Traced.applications_pure, List.append_nil, true_and]
      exact happlied
    · exact absurd h (by simp)

/-- A run without a fail: the tokens so far, each with the phase in which it was read, the calls that
were applied, and the state that is reached. -/
inductive Run : List (Phase × Token) → List Application → Evaluation → Prop
  | start : Run [] [] {}
  | read {history : List (Phase × Token)} {applied : List Application} {e d : Evaluation}
      (scope : Scope) (t : Token) (h : Run history applied e)
      (hd : (e.read scope t).outcome = .ok d) :
    Run (history ++ [(e.phase, t)]) (applied ++ (e.read scope t).applications) d
  | finish {history : List (Phase × Token)} {applied : List Application} {e d : Evaluation}
      {x : Float} (scope : Scope) (h : Run history applied e)
      (hd : (e.finish scope).outcome = .ok (x, d)) :
    Run history (applied ++ (e.finish scope).applications) d

variable {history : List (Phase × Token)} {applied : List Application} {ts : List Token}

lemma Run.readAll (h : Run history applied e) (hd : (e.readAll scope ts).outcome = .ok d) :
    ∃ history', history'.map (·.2) = ts ∧
      Run (history ++ history') (applied ++ (e.readAll scope ts).applications) d := by
  induction ts generalizing history applied e with
  | nil =>
    obtain rfl := Except.ok.inj hd
    exact ⟨[], rfl, by simpa [Evaluation.readAll] using h⟩
  | cons t ts ih =>
    rw [readAll_cons] at hd ⊢
    rw [Traced.outcome_bind, bind_eq_ok_iff] at hd
    obtain ⟨e', he', hd⟩ := hd
    obtain ⟨history', hts, hrun⟩ := ih (h.read scope t he') hd
    refine ⟨(e.phase, t) :: history', congrArg (t :: ·) hts, ?_⟩
    rw [Traced.applications_bind he', ← List.append_assoc]
    simpa using hrun

lemma Run.length_applied (h : Run history applied e) :
    applied.length + e.calls.length = entered history := by
  induction h with
  | start => rfl
  | read scope t _ hd ih =>
    have hread := enters_read scope t _ _ hd
    rw [List.length_append, entered_append]
    omega
  | finish scope _ hd ih =>
    obtain ⟨hcalls, hfinish⟩ := length_applications_finish hd
    rw [List.length_append, hcalls, List.length_nil]
    omega

end Evaluation

open Evaluation (Run length_applications_finish)

/-- A text that has a value applies the calls of its tree in post-order, each of them once and to the
values of its children, however the calls were set off. While it is read, and in any run without a
fail, the calls that are applied and those that are pending are as many as the tokens have entered. -/
theorem Scope.evaluate_applications (scope : Scope) :
    (∀ text x, (scope.evaluate text).outcome = .ok x →
      ∃ t, Derives .sum (Token.scan text) t ∧ (t.evaluate scope).outcome = .ok x ∧
        List.Forall₂ (Tree.IsApplied scope) t.postorder (scope.evaluate text).applications ∧
        ∃ history e, history.map (·.2) = Token.scan text ∧ e.calls = [] ∧
          Run history (scope.evaluate text).applications e) ∧
      ∀ history applied e, Run history applied e →
        applied.length + e.calls.length = entered history := by
  refine ⟨?_, fun history applied e h => h.length_applied⟩
  intro text x hx
  obtain ⟨t, ht, hvalue⟩ := (evaluateTokens_ok_iff scope _ x).1.mp hx
  refine ⟨t, ht, hvalue, ?_, ?_⟩
  · have hquiet := evaluateTokens_of_parse scope ht.parse_eq
    have happlications : (scope.evaluate text).applications = (t.evaluate scope).applications := by
      rw [← Traced.applications_quiet, ← Traced.applications_quiet (t.evaluate scope)]
      exact congrArg Traced.applications hquiet
    rw [happlications]
    exact t.isApplied_evaluate x hvalue
  · unfold Scope.evaluate evaluateTokens at hx ⊢
    simp only [Traced.outcome_bind, bind_eq_ok_iff] at hx
    obtain ⟨e, he, ⟨y, d⟩, hd, -⟩ := hx
    obtain ⟨history, hts, hrun⟩ := Run.start.readAll he
    obtain ⟨hcalls, -⟩ := length_applications_finish hd
    refine ⟨history, d, hts, hcalls, ?_⟩
    rw [Traced.applications_bind he, Traced.applications_bind hd, Traced.applications_pure,
      List.append_nil]
    exact hrun.finish scope hd

end Calculator
