import Calculator.Proofs.Faults

/-!
# Evaluation in two scopes

A pure function does not look at the variables of its scope. While all pending functions are pure,
what a token does depends on the scope only by the name that the token reads: in two scopes that
agree on it (`Lexeme.SameIn`) the token is read with the same events and the same outcome.
-/

namespace Calculator

/-- The function does not look at the variables of its scope. -/
def Function.IsPure (f : Function) : Prop :=
  ∀ vars vars' args, f vars args = f vars' args

def Scope.IsPure (scope : Scope) : Prop :=
  ∀ name f, scope.functions.get? name = some f → f.IsPure

/-- The key under which a scope is asked for the name of a lexeme. -/
def Lexeme.key? : Lexeme → Option String
  | .name s | .call s => some (Unicode.lower s)
  | _ => none

/-- The name of the lexeme, if it has one, stands for the same in both scopes. -/
def Lexeme.SameIn (scope scope' : Scope) : Lexeme → Prop
  | .name s => scope.valueOf s = scope'.valueOf s
  | .call s => scope.function (Unicode.lower s) = scope'.function (Unicode.lower s)
  | _ => True

lemma Primitive.isPure_function (f : Primitive) : f.function.IsPure := fun _ _ _ => rfl

/-- What holds of all values of a list holds of whatever is found when they are set. -/
lemma NameTable.of_get?_foldl {α : Type} {P : α → Prop} {l : List (String × α)}
    {t : NameTable α} {name : String} {a : α} (h : ∀ p ∈ l, P p.2)
    (ht : ∀ b, t.get? name = some b → P b)
    (ha : (l.foldl (fun t p => t.set p.1 p.2) t).get? name = some a) : P a := by
  induction l generalizing t with
  | nil => exact ht a ha
  | cons p l ih =>
    obtain ⟨hp, hl⟩ := List.forall_mem_cons.mp h
    refine ih hl ?_ ha
    intro b hb
    rw [get?_set] at hb
    split at hb
    · rwa [← Option.some.inj hb]
    · exact ht b hb

lemma Scope.isPure_initial : initial.IsPure := by
  intro name f hf
  have hall : ∀ p ∈ Primitive.catalogue.map (fun p => (p.1, p.2.function)), p.2.IsPure := by
    intro p hp
    obtain ⟨q, -, rfl⟩ := List.mem_map.mp hp
    exact q.2.isPure_function
  have hnone : ∀ g : Function, ({} : NameTable Function).get? name = some g → g.IsPure :=
    fun g hg => absurd hg (by simp [NameTable.get?, NameTable.find?])
  exact NameTable.of_get?_foldl hall hnone hf

/-- A variable matters only to the lexemes with its name. -/
lemma Scope.IsPure.sameIn_assign {scope : Scope} {l : Lexeme} {name : String} (h : scope.IsPure)
    (hl : l.key? ≠ some (Unicode.lower name)) (x : Float) :
    l.SameIn scope (scope.assign name x) := by
  cases l with
  | name s =>
    have hne : ¬Unicode.lower name = Unicode.lower s := fun heq => hl (congrArg some heq.symm)
    have hvars : (scope.assign name x).vars.get? s = scope.vars.get? s := by
      rw [assign, NameTable.get?_set, if_neg hne]
    have hfunctions : (scope.assign name x).functions = scope.functions := rfl
    rw [Lexeme.SameIn, valueOf, valueOf, hfunctions]
    cases hg : scope.functions.get? s with
    | some f => exact h s f hg _ _ []
    | none => simp only [Variables.value, hvars]
  | call s => rfl
  | _ => trivial

lemma Call.apply_congr {c : Call} (h : c.function.IsPure) (scope scope' : Scope) (values : Stack) :
    c.apply scope values = c.apply scope' values := by
  simp only [apply, h scope.vars scope'.vars]

namespace Evaluation

/-- All pending functions are pure. -/
def IsPure (e : Evaluation) : Prop :=
  ∀ c ∈ e.calls, c.function.IsPure

lemma isPure_start : IsPure {} := fun _ hc => absurd hc (by simp)

variable {p : Order → Bool} {calls : List Call} {values : Stack} {e d : Evaluation} {t : Token}
  {ts : List Token} {scope scope' : Scope}

section preservation

lemma subset_of_applyCalls {r : List Call × Stack}
    (h : (applyCalls scope p calls values).outcome = .ok r) : r.1 ⊆ calls := by
  induction calls generalizing values with
  | nil =>
    obtain rfl := Except.ok.inj h
    exact List.Subset.refl _
  | cons c calls ih =>
    rw [applyCalls] at h
    split at h
    · rw [Traced.outcome_bind, bind_eq_ok_iff] at h
      obtain ⟨values', -, h⟩ := h
      exact List.subset_cons_of_subset c (ih h)
    · obtain rfl := Except.ok.inj h
      exact List.Subset.refl _

lemma IsPure.applyWhile (h : e.IsPure) (hd : (e.applyWhile scope p).outcome = .ok d) :
    d.IsPure := by
  rw [Evaluation.applyWhile, Traced.outcome_bind, bind_eq_ok_iff] at hd
  obtain ⟨r, hr, hd⟩ := hd
  obtain rfl := Except.ok.inj hd
  exact fun c hc => h c (subset_of_applyCalls hr hc)

lemma IsPure.applyTop (h : e.IsPure) (hd : (e.applyTop scope).outcome = .ok d) : d.IsPure := by
  rw [Evaluation.applyTop] at hd
  split at hd
  · exact absurd hd (by simp)
  · rename_i c calls hc
    rw [Traced.outcome_bind, bind_eq_ok_iff] at hd
    obtain ⟨values, -, hd⟩ := hd
    obtain rfl := Except.ok.inj hd
    exact fun c' hc' => h c' (by rw [hc]; exact List.mem_cons_of_mem c hc')

lemma IsPure.nextArgument (h : e.IsPure) (hd : e.nextArgument = some d) : d.IsPure := by
  rw [Evaluation.nextArgument] at hd
  split at hd
  · exact absurd hd (by simp)
  · rename_i c calls hc
    obtain rfl := Option.some.inj hd
    rw [IsPure, hc] at h
    obtain ⟨hc, hcalls⟩ := List.forall_mem_cons.mp h
    exact List.forall_mem_cons.mpr ⟨hc, hcalls⟩

lemma IsPure.pushOperator {op : Operator} (h : e.IsPure)
    (hd : (e.pushOperator scope op).outcome = .ok d) : d.IsPure := by
  rw [pushOperator_eq, Traced.outcome_bind, bind_eq_ok_iff] at hd
  obtain ⟨e', he', hd⟩ := hd
  obtain rfl := Except.ok.inj hd
  exact List.forall_mem_cons.mpr ⟨op.primitive.isPure_function, h.applyWhile he'⟩

lemma IsPure.readValue (h : e.IsPure) (hscope : scope.IsPure)
    (hd : (e.readValue scope t).outcome = .ok d) : d.IsPure := by
  cases hl : t.lexeme with
  | literal x =>
    simp only [Evaluation.readValue, hl] at hd
    obtain rfl := Except.ok.inj hd
    exact h
  | operator op =>
    by_cases ho : op.isSign = true
    · simp only [Evaluation.readValue, hl, ho, if_true] at hd
      obtain rfl := Except.ok.inj hd
      exact List.forall_mem_cons.mpr ⟨op.primitive.isPure_function, h⟩
    · simp [Evaluation.readValue, hl, ho] at hd
  | name s =>
    simp only [Evaluation.readValue, hl, Traced.outcome_bind, bind_eq_ok_iff] at hd
    obtain ⟨x, -, hd⟩ := hd
    obtain rfl := Except.ok.inj hd
    exact h
  | call s =>
    simp only [Evaluation.readValue, hl, Traced.outcome_bind, Traced.outcome_ofExcept,
      bind_eq_ok_iff] at hd
    obtain ⟨f, hf, hd⟩ := hd
    obtain rfl := Except.ok.inj hd
    exact List.forall_mem_cons.mpr ⟨hscope _ f (function_ok_iff.mp hf), h⟩
  | _ => simp [Evaluation.readValue, hl] at hd

lemma IsPure.readOperator (h : e.IsPure) (hscope : scope.IsPure)
    (hd : (e.readOperator scope t).outcome = .ok d) : d.IsPure := by
  have hjuxtapose (s : String) (hd : (e.juxtapose scope s t).outcome = .ok d) : d.IsPure := by
    simp only [juxtapose, Traced.outcome_bind, Traced.outcome_report, ok_bind,
      bind_eq_ok_iff] at hd
    obtain ⟨e', he', hd⟩ := hd
    exact (h.pushOperator he').readValue hscope hd
  cases hl : t.lexeme with
  | operator op =>
    simp only [Evaluation.readOperator, hl] at hd
    exact h.pushOperator hd
  | name s =>
    simp only [Evaluation.readOperator, hl] at hd
    exact hjuxtapose s hd
  | call s =>
    simp only [Evaluation.readOperator, hl] at hd
    exact hjuxtapose s hd
  | comma =>
    simp only [Evaluation.readOperator, hl, applyTighter_barrier, Traced.outcome_bind,
      bind_eq_ok_iff] at hd
    obtain ⟨e', he', hd⟩ := hd
    split at hd
    · exact absurd hd (by simp)
    · rename_i e'' he''
      obtain rfl := Except.ok.inj hd
      exact (h.applyWhile he').nextArgument he''
  | close =>
    simp only [Evaluation.readOperator, hl, applyTighter_barrier, Traced.outcome_bind,
      bind_eq_ok_iff] at hd
    obtain ⟨e', he', hd⟩ := hd
    split at hd
    · exact absurd hd (by simp)
    · rw [Traced.outcome_bind, bind_eq_ok_iff] at hd
      obtain ⟨e'', he'', hd⟩ := hd
      obtain rfl := Except.ok.inj hd
      have hpure : e''.IsPure := (h.applyWhile he').applyTop he''
      exact hpure
  | _ => simp [Evaluation.readOperator, hl] at hd

/-- The functions of a pure scope keep an evaluation pure. -/
theorem IsPure.read (h : e.IsPure) (hscope : scope.IsPure)
    (hd : (e.read scope t).outcome = .ok d) : d.IsPure := by
  cases hp : e.phase with
  | finished =>
    rw [outcome_read_of_finished hp] at hd
    exact absurd hd (by simp)
  | expectValue =>
    rw [outcome_read_of_expectValue hp] at hd
    exact h.readValue hscope hd
  | expectOperator =>
    rw [outcome_read_of_expectOperator hp] at hd
    exact h.readOperator hscope hd

lemma IsPure.readAll (h : e.IsPure) (hscope : scope.IsPure)
    (hd : (e.readAll scope ts).outcome = .ok d) : d.IsPure := by
  induction ts generalizing e with
  | nil =>
    obtain rfl := Except.ok.inj hd
    exact h
  | cons t ts ih =>
    rw [readAll_cons, Traced.outcome_bind, bind_eq_ok_iff] at hd
    obtain ⟨e', he', hd⟩ := hd
    exact ih (h.read hscope he') hd

end preservation

section congruence

lemma applyCalls_congr (h : ∀ c ∈ calls, c.function.IsPure) (scope scope' : Scope) :
    applyCalls scope p calls values = applyCalls scope' p calls values := by
  induction calls generalizing values with
  | nil => rfl
  | cons c calls ih =>
    obtain ⟨hc, hcalls⟩ := List.forall_mem_cons.mp h
    simp only [applyCalls, Call.apply_congr hc scope scope', ih hcalls]

lemma IsPure.applyWhile_congr (h : e.IsPure) (scope scope' : Scope) :
    e.applyWhile scope p = e.applyWhile scope' p := by
  simp only [Evaluation.applyWhile, applyCalls_congr h scope scope']

lemma IsPure.applyTop_congr (h : e.IsPure) (scope scope' : Scope) :
    e.applyTop scope = e.applyTop scope' := by
  cases hc : e.calls with
  | nil => simp only [Evaluation.applyTop, hc]
  | cons c calls =>
    have hpure : c.function.IsPure := h c (by simp [hc])
    simp only [Evaluation.applyTop, hc, Call.apply_congr hpure scope scope']

lemma IsPure.pushOperator_congr (h : e.IsPure) (scope scope' : Scope) (op : Operator) :
    e.pushOperator scope op = e.pushOperator scope' op := by
  simp only [pushOperator_eq, h.applyWhile_congr scope scope']

lemma readValue_congr (ht : t.lexeme.SameIn scope scope') :
    e.readValue scope t = e.readValue scope' t := by
  cases hl : t.lexeme with
  | name s =>
    rw [hl] at ht
    simp only [Evaluation.readValue, hl, show scope.valueOf s = scope'.valueOf s from ht]
  | call s =>
    rw [hl] at ht
    simp only [Evaluation.readValue, hl,
      show scope.function (Unicode.lower s) = scope'.function (Unicode.lower s) from ht]
  | _ => simp only [Evaluation.readValue, hl]

lemma IsPure.readOperator_congr (h : e.IsPure) (ht : t.lexeme.SameIn scope scope') :
    e.readOperator scope t = e.readOperator scope' t := by
  have hjuxtapose (s : String) : e.juxtapose scope s t = e.juxtapose scope' s t := by
    simp only [juxtapose, h.pushOperator_congr scope scope', readValue_congr ht]
  cases hl : t.lexeme with
  | operator op => simp only [Evaluation.readOperator, hl, h.pushOperator_congr scope scope']
  | name s => simp only [Evaluation.readOperator, hl, hjuxtapose]
  | call s => simp only [Evaluation.readOperator, hl, hjuxtapose]
  | comma =>
    simp only [Evaluation.readOperator, hl, applyTighter_barrier, h.applyWhile_congr scope scope']
  | close =>
    simp only [Evaluation.readOperator, hl, applyTighter_barrier, h.applyWhile_congr scope scope']
    apply Traced.bind_congr_of_outcome
    intro d hd
    rw [(h.applyWhile hd).applyTop_congr scope scope']
  | _ => simp only [Evaluation.readOperator, hl]

/-- A token whose name stands for the same in both scopes is read alike. -/
theorem IsPure.read_congr (h : e.IsPure) (ht : t.lexeme.SameIn scope scope') :
    e.read scope t = e.read scope' t := by
  simp only [Evaluation.read, h.readOperator_congr ht, readValue_congr ht]

/-- Only the names that are read matter. -/
theorem IsPure.readAll_congr (h : e.IsPure) (hscope : scope.IsPure)
    (hts : ∀ t ∈ ts, t.lexeme.SameIn scope scope') : e.readAll scope ts = e.readAll scope' ts := by
  induction ts generalizing e with
  | nil => rfl
  | cons t ts ih =>
    obtain ⟨ht, hts⟩ := List.forall_mem_cons.mp hts
    rw [readAll_cons, readAll_cons, ← h.read_congr ht]
    apply Traced.bind_congr_of_outcome
    intro d hd
    exact ih (h.read hscope hd) hts

lemma IsPure.finish_congr (h : e.IsPure) (scope scope' : Scope) :
    e.finish scope = e.finish scope' := by
  simp only [Evaluation.finish, applyTighter_barrier, h.applyWhile_congr scope scope']

end congruence

end Evaluation

end Calculator
