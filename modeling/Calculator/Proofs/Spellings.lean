import Calculator.Proofs.Isolation
import Mathlib.Data.List.Forall2

/-!
# Names in other capitals

A token can be respelled: its name may be written in other capitals. An evaluation reads respelled
tokens alike. It applies the same calls, reaches the same states and has the same value; if it
fails, only an unknown variable is named as it is spelled.
-/

namespace Calculator

/-- The same lexeme, with its name in other capitals. -/
inductive Lexeme.Respelled : Lexeme → Lexeme → Prop
  | same (l : Lexeme) : Respelled l l
  | name {s s' : String} (h : Unicode.lower s = Unicode.lower s') : Respelled (.name s) (.name s')
  | call {s s' : String} (h : Unicode.lower s = Unicode.lower s') : Respelled (.call s) (.call s')

structure Token.Respelled (t t' : Token) : Prop where
  lexeme : t.lexeme.Respelled t'.lexeme
  position : t.position = t'.position

/-- The failures differ at most in the capitals of the variable that is unknown. -/
inductive Failure.Respelled : Failure → Failure → Prop
  | same (f : Failure) : Respelled f f
  | unknownVariable {s s' : String} (h : Unicode.lower s = Unicode.lower s') :
    Respelled (.unknownVariable s) (.unknownVariable s')

lemma Failure.Respelled.kind_eq {f g : Failure} (h : f.Respelled g) : f.kind = g.kind := by
  cases h with
  | same => rfl
  | unknownVariable _ => rfl

/-- The computations apply the same calls and end alike, failures respelled. -/
structure Traced.Respelled {α : Type} (x y : Traced α) : Prop where
  applications : x.applications = y.applications
  outcome : (∃ a, x.outcome = .ok a ∧ y.outcome = .ok a) ∨
    ∃ f g, x.outcome = .error f ∧ y.outcome = .error g ∧ f.Respelled g

namespace Traced

variable {α β : Type} {x y : Traced α} {f g : α → Traced β}

lemma applications_bind_error {e : Failure} (h : x.outcome = .error e) (f : α → Traced β) :
    (x >>= f).applications = x.applications := by
  rw [applications, applications, events_bind_error h]

lemma Respelled.rfl : x.Respelled x := by
  refine ⟨Eq.refl _, ?_⟩
  cases h : x.outcome with
  | ok a => exact .inl ⟨a, Eq.refl _, Eq.refl _⟩
  | error e => exact .inr ⟨e, e, Eq.refl _, Eq.refl _, .same e⟩

lemma Respelled.bind (h : x.Respelled y) (hfg : ∀ a, (f a).Respelled (g a)) :
    (x >>= f).Respelled (y >>= g) := by
  rcases h.outcome with ⟨a, hx, hy⟩ | ⟨e, e', hx, hy, he⟩
  · refine ⟨?_, ?_⟩
    · rw [applications_bind hx, applications_bind hy, h.applications, (hfg a).applications]
    · rw [outcome_bind, outcome_bind, hx, hy]
      exact (hfg a).outcome
  · refine ⟨?_, .inr ⟨e, e', ?_, ?_, he⟩⟩
    · rw [applications_bind_error hx, applications_bind_error hy, h.applications]
    · rw [outcome_bind, hx, error_bind]
    · rw [outcome_bind, hy, error_bind]

/-- A report that is not about a call may differ. -/
lemma respelled_report {e e' : Event} (h : e.isApplied = false) (h' : e'.isApplied = false) :
    (report e).Respelled (report e') := by
  refine ⟨?_, .inl ⟨(), Eq.refl _, Eq.refl _⟩⟩
  rw [← applications_quiet, ← applications_quiet (report e')]
  simp [quiet, h, h']

end Traced

lemma Scope.respelled_valueOf (scope : Scope) {s s' : String}
    (h : Unicode.lower s = Unicode.lower s') :
    (Traced.ofExcept (scope.valueOf s)).Respelled (Traced.ofExcept (scope.valueOf s')) := by
  have hfunction : scope.functions.get? s = scope.functions.get? s' := by
    unfold NameTable.get?
    rw [h]
  have hvariable : scope.vars.get? s = scope.vars.get? s' := by
    unfold NameTable.get?
    rw [h]
  unfold valueOf
  rw [hfunction]
  cases scope.functions.get? s' with
  | some f => exact .rfl
  | none =>
    simp only [Variables.value, hvariable]
    cases scope.vars.get? s' with
    | some x => exact .rfl
    | none => exact ⟨rfl, .inr ⟨_, _, rfl, rfl, .unknownVariable h⟩⟩

namespace Evaluation

variable {t t' : Token} {ts ts' : List Token}

lemma respelled_readValue (scope : Scope) (h : t.Respelled t') (e : Evaluation) :
    (e.readValue scope t).Respelled (e.readValue scope t') := by
  obtain ⟨l, p⟩ := t
  obtain ⟨l', p'⟩ := t'
  obtain ⟨hl, hp⟩ := h
  obtain rfl : p = p' := hp
  cases hl with
  | same => exact .rfl
  | name hs =>
    simp only [readValue]
    exact (scope.respelled_valueOf hs).bind fun _ => .rfl
  | call hs =>
    simp only [readValue, hs]
    exact .rfl

lemma respelled_readOperator (scope : Scope) (h : t.Respelled t') (e : Evaluation) :
    (e.readOperator scope t).Respelled (e.readOperator scope t') := by
  have hjuxtapose (s s' : String) :
      (e.juxtapose scope s t).Respelled (e.juxtapose scope s' t') := by
    unfold juxtapose
    refine (Traced.respelled_report rfl rfl).bind fun _ => ?_
    exact Traced.Respelled.rfl.bind fun d => respelled_readValue scope h d
  obtain ⟨l, p⟩ := t
  obtain ⟨l', p'⟩ := t'
  obtain ⟨hl, hp⟩ := h
  obtain rfl : p = p' := hp
  cases hl with
  | same => exact .rfl
  | name hs => exact hjuxtapose _ _
  | call hs => exact hjuxtapose _ _

/-- A token is read alike in whatever capitals its name is written. -/
theorem respelled_read (scope : Scope) (h : t.Respelled t') (e : Evaluation) :
    (e.read scope t).Respelled (e.read scope t') := by
  unfold read
  refine (Traced.respelled_report rfl rfl).bind fun _ => ?_
  cases e.phase with
  | expectOperator => exact respelled_readOperator scope h e
  | expectValue => exact respelled_readValue scope h e
  | finished => exact .rfl

theorem respelled_readAll (scope : Scope) (h : List.Forall₂ Token.Respelled ts ts')
    (e : Evaluation) : (e.readAll scope ts).Respelled (e.readAll scope ts') := by
  induction h generalizing e with
  | nil => exact .rfl
  | cons ht _ ih =>
    rw [readAll_cons, readAll_cons]
    exact (respelled_read scope ht e).bind fun d => ih d

end Evaluation

lemma Scope.respelled_evaluateTokens (scope : Scope) {ts ts' : List Token}
    (h : List.Forall₂ Token.Respelled ts ts') :
    (scope.evaluateTokens ts).Respelled (scope.evaluateTokens ts') := by
  unfold evaluateTokens
  exact (Evaluation.respelled_readAll scope h {}).bind fun _ => .rfl

end Calculator
