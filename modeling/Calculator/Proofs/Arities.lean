import Calculator.Proofs.Faults
import Calculator.Proofs.Histories

/-!
# How many arguments the primitive functions take

`Primitive.arity` lists how many arguments each function takes. A call on any other number of
arguments fails, and nothing else makes a call of a primitive function fail. In an expression the
number of arguments comes from the commas, which always make at least one, or from a bare name,
which makes none. While no function is defined, these counts and the shape of the expression are all
that can go wrong.
-/

namespace Calculator

namespace Primitive

/-- How many arguments each primitive function takes. -/
def arity : Primitive → Arity
  | pi | tau | e => .exactly 0
  | div | rem | pow | atan2 => .exactly 2
  | sub | round | log => .oneOrTwo
  | add | mul | min | max | mean | median | range | var | stddev => .atLeastOne
  | _ => .exactly 1

lemma arity_operation (f : Primitive) : f.operation.arity = f.arity := by
  cases f <;> rfl

lemma call_of_accepts {f : Primitive} {args : List Float}
    (h : f.arity.accepts args.length = true) : ∃ x, f.call args = .ok x := by
  rw [← arity_operation] at h
  exact exists_call h

lemma call_of_rejects {f : Primitive} {args : List Float}
    (h : f.arity.accepts args.length = false) :
    f.call args = .error (.argumentCount f.label f.arity args.length) := by
  rw [← arity_operation, ← Operation.isSome_value?, Option.isSome_eq_false_iff,
    Option.isNone_iff_eq_none] at h
  simp only [call, h, arity_operation]

lemma eq_of_call_error {f : Primitive} {args : List Float} {e : Failure}
    (h : f.call args = .error e) : e = .argumentCount f.label f.arity args.length := by
  cases ha : f.arity.accepts args.length with
  | true =>
    obtain ⟨x, hx⟩ := call_of_accepts ha
    exact absurd (hx.symm.trans h) (by simp)
  | false => exact Except.error.inj (h.symm.trans (call_of_rejects ha))

lemma accepts_of_call_ok {f : Primitive} {args : List Float} {x : Float}
    (h : f.call args = .ok x) : f.arity.accepts args.length = true := by
  by_contra hr
  exact absurd (h.symm.trans (call_of_rejects (by simpa using hr))) (by simp)

end Primitive

/-- The primitive function that a name has from the start. -/
def Primitive.ofName? (name : String) : Option Primitive :=
  catalogue.lookup (Unicode.lower name)

/-- A scope with the given variables in which no function has been defined. -/
def Scope.ofVariables (vars : Variables) : Scope :=
  ⟨vars, initial.functions⟩

lemma Scope.get?_functions_ofVariables (vars : Variables) (name : String) :
    (ofVariables vars).functions.get? name = (Primitive.ofName? name).map Primitive.function :=
  get?_initial_functions name

lemma Primitive.ofName?_lower (name : String) : ofName? (Unicode.lower name) = ofName? name := by
  rw [ofName?, ofName?, Unicode.lower_lower]

section calls

variable {scope : Scope}

lemma exists_evaluate_of_evaluateAll {ts : List Tree} {xs : List Float}
    (h : (Tree.evaluateAll scope ts).outcome = .ok xs) :
    xs.length = ts.length ∧ ∀ t ∈ ts, ∃ x, (t.evaluate scope).outcome = .ok x := by
  induction ts generalizing xs with
  | nil =>
    obtain rfl := Except.ok.inj h
    exact ⟨rfl, by simp⟩
  | cons t ts ih =>
    simp only [Tree.evaluateAll, Traced.outcome_bind, bind_eq_ok_iff] at h
    obtain ⟨x, hx, ys, hys, h⟩ := h
    obtain rfl := Except.ok.inj h
    obtain ⟨hlength, hall⟩ := ih hys
    exact ⟨congrArg (· + 1) hlength, List.forall_mem_cons.mpr ⟨⟨x, hx⟩, hall⟩⟩

/-- The function that the token opens has a value at some arguments, of which there is one. -/
def Token.Applies (scope : Scope) (t : Token) : Prop :=
  ∀ s, t.lexeme = .call s → ∃ g args y, scope.functions.get? (Unicode.lower s) = some g ∧
    args ≠ [] ∧ g scope.vars args = .ok y

lemma Token.applies_of_ne {t : Token} (h : ∀ s, t.lexeme ≠ .call s) : t.Applies scope :=
  fun s hs => absurd hs (h s)

lemma Token.applies_argumentTokens {first : List Token} {rest : List (Int × List Token)}
    (hfirst : ∀ t ∈ first, t.Applies scope) (hrest : ∀ a ∈ rest, ∀ t ∈ a.2, t.Applies scope) :
    ∀ t ∈ argumentTokens first rest, t.Applies scope := by
  intro t ht
  rcases List.mem_append.mp ht with ht | ht
  · exact hfirst t ht
  · obtain ⟨a, ha, ht⟩ := List.mem_flatMap.mp ht
    rcases List.mem_cons.mp ht with rfl | ht
    · exact applies_of_ne (by simp)
    · exact hrest a ha t ht

/-- Where an expression has a value, each of its calls was applied, on one argument at least. -/
lemma Derives.applies {n : Nonterminal} {ts : List Token} {u : Tree} {x : Float}
    (h : Derives n ts u) (hx : (u.evaluate scope).outcome = .ok x) :
    ∀ t ∈ ts, t.Applies scope := by
  induction h generalizing x with
  | unit _ _ ih => exact ih hx
  | binary p _ _ ihl ihr =>
    simp only [Tree.evaluate, Traced.outcome_bind, bind_eq_ok_iff] at hx
    obtain ⟨y, hy, z, hz, -⟩ := hx
    refine List.forall_mem_append.mpr ⟨ihl hy, List.forall_mem_cons.mpr ⟨?_, ihr hz⟩⟩
    exact Token.applies_of_ne (by simp)
  | juxtaposed _ _ _ ihl ihr =>
    simp only [Tree.evaluate, Traced.outcome_bind, bind_eq_ok_iff] at hx
    obtain ⟨y, hy, z, hz, -⟩ := hx
    exact List.forall_mem_append.mpr ⟨ihl hy, ihr hz⟩
  | sign p _ _ ih =>
    simp only [Tree.evaluate, Traced.outcome_bind, bind_eq_ok_iff] at hx
    obtain ⟨y, hy, -⟩ := hx
    exact List.forall_mem_cons.mpr ⟨Token.applies_of_ne (by simp), ih hy⟩
  | literal y p => exact List.forall_mem_singleton.mpr (Token.applies_of_ne (by simp))
  | name s p => exact List.forall_mem_singleton.mpr (Token.applies_of_ne (by simp))
  | @call first u rest s p q _ _ ihfirst ihrest =>
    simp only [Tree.evaluate, Scope.apply, Traced.outcome_bind, Traced.outcome_ofExcept,
      bind_eq_ok_iff] at hx
    obtain ⟨g, hg, xs, hxs, y, hy, -⟩ := hx
    obtain ⟨hlength, hall⟩ := exists_evaluate_of_evaluateAll hxs
    obtain ⟨⟨y', hy'⟩, hvalues⟩ := List.forall_mem_cons.mp hall
    rw [List.cons_append, List.forall_mem_cons, List.forall_mem_append]
    refine ⟨?_, Token.applies_argumentTokens (ihfirst hy') ?_, ?_⟩
    · intro s' hs'
      obtain rfl := Lexeme.call.inj hs'
      refine ⟨g, xs, y, function_ok_iff.mp hg, ?_, hy⟩
      rintro rfl
      exact absurd hlength (by simp)
    · intro a ha
      obtain ⟨b, hb, rfl⟩ := List.mem_map.mp ha
      obtain ⟨z, hz⟩ := hvalues b.tree (List.mem_map_of_mem hb)
      exact ihrest b hb hz
    · exact List.forall_mem_singleton.mpr (Token.applies_of_ne (by simp))

lemma applies_of_evaluateTokens {ts : List Token} {x : Float}
    (hx : (scope.evaluateTokens ts).outcome = .ok x) : ∀ t ∈ ts, t.Applies scope := by
  cases ht : parse ts with
  | none =>
    obtain ⟨f, hf⟩ := evaluateTokens_error scope ht
    exact absurd (hf.symm.trans hx) (by simp)
  | some u =>
    have hu := congrArg Traced.outcome (evaluateTokens_of_parse scope ht)
    exact (derives_iff.mpr ht).applies (hu.symm.trans hx)

/-- A call without arguments fails at its closing parenthesis, whatever its function is. -/
lemma Evaluation.readAll_empty_call {e : Evaluation} {past : List Token} (h : e.Accounted past)
    (hp : e.phase ≠ .finished) {s : String} {g : Function}
    (hg : scope.functions.get? (Unicode.lower s) = some g) (p q : Int) :
    (e.readAll scope [⟨.call s, p⟩, ⟨.close, q⟩]).outcome = .error (.closeForValue q) := by
  obtain ⟨base, hbase⟩ := exists_awaitValue h hp scope
  rw [readAll_cons, Traced.outcome_bind, (read_call hp hbase (function_ok_iff.mpr hg) p).1,
    ok_bind]
  rfl

/-- A call of which the arguments have values, as a whole expression. -/
lemma outcome_evaluateTokens_call {s : String} {g : Function} {first : List Token}
    {rest : List (Int × List Token)} {xs : List Float}
    (hg : scope.functions.get? (Unicode.lower s) = some g)
    (hxs : Evaluation.ArgumentValues scope (first :: rest.map (·.2)) xs) (p q : Int) :
    (scope.evaluateTokens (⟨.call s, p⟩ :: argumentTokens first rest ++ [⟨.close, q⟩])).outcome =
      g scope.vars xs := by
  have hbase : (Evaluation.awaitValue scope {}).outcome = .ok {} := rfl
  have hread := Evaluation.readAll_call (by simp) hbase (function_ok_iff.mpr hg) hxs p q
  rw [Scope.evaluateTokens, Traced.outcome_bind, hread]
  cases g scope.vars xs with
  | ok y => rfl
  | error f => rfl

end calls

section primitives

variable {vars : Variables}

/-- The kinds of failure of an expression in a scope in which no function has been defined. -/
def Failure.expected : List FailureKind :=
  [.invalidToken, .grammar, .unknownName, .argumentCount, .unbalanced, .incomplete]

lemma kind_mem_of_function_error {s : String} {g : Function} {args : List Float} {f : Failure}
    (hg : (Scope.ofVariables vars).functions.get? s = some g) (hf : g vars args = .error f) :
    f.kind ∈ Failure.expected := by
  rw [Scope.get?_functions_ofVariables, Option.map_eq_some_iff] at hg
  obtain ⟨k, -, rfl⟩ := hg
  obtain rfl := Primitive.eq_of_call_error hf
  simp [Failure.kind, Failure.expected]

lemma Fault.kind_mem {past : List Token} {t : Token} {f : Failure}
    (h : Fault (Scope.ofVariables vars) past t f) : f.kind ∈ Failure.expected := by
  cases h with
  | constant _ hg hf => exact kind_mem_of_function_error hg hf
  | closed _ _ hg _ hf => exact kind_mem_of_function_error hg hf
  | _ => simp [Failure.kind, Failure.expected]

lemma Diagnosis.kind_mem {ts : List Token} {f : Failure}
    (h : Diagnosis (Scope.ofVariables vars) ts f) : f.kind ∈ Failure.expected := by
  cases h with
  | fault _ _ hf => exact hf.kind_mem
  | unfinished _ _ => decide
  | unclosed _ _ _ => decide

/-- What the numbers of arguments of the primitive functions mean in a scope. -/
structure Scope.AritiesKept (scope : Scope) : Prop where
  /-- A function looks at nothing but the number of its arguments to fail. -/
  call : ∀ p ∈ Primitive.catalogue, ∀ (vars : Variables) (args : List Float),
    (p.2.arity.accepts args.length = true → ∃ x, p.2.function vars args = .ok x) ∧
      (p.2.arity.accepts args.length = false →
        p.2.function vars args = .error (.argumentCount p.2.label p.2.arity args.length))
  /-- In every state of an expression in which a token can follow, a call on arguments that have
  values has a value or fails as its function does on as many arguments. -/
  readAll_call : ∀ {past : List Token} {e : Evaluation}, e.Reachable past → e.phase ≠ .finished →
    ∀ {s : String} {f : Primitive}, Primitive.ofName? s = some f →
    ∀ {first : List Token} {rest : List (Int × List Token)} {xs : List Float},
      Evaluation.ArgumentValues scope (first :: rest.map (·.2)) xs → ∀ p q : Int,
      let call : List Token := ⟨.call s, p⟩ :: argumentTokens first rest ++ [⟨.close, q⟩]
      (f.arity.accepts (rest.length + 1) = true → ∃ x, f.call xs = .ok x ∧
          (scope.evaluateTokens call).outcome = .ok x ∧
          ∃ base, (e.awaitValue scope).outcome = .ok base ∧ (e.readAll scope call).outcome =
            .ok ⟨base.calls, base.values.push x, .expectOperator⟩) ∧
        (f.arity.accepts (rest.length + 1) = false →
          (scope.evaluateTokens call).outcome =
              .error (.argumentCount f.label f.arity (rest.length + 1)) ∧
            (e.readAll scope call).outcome =
              .error (.argumentCount f.label f.arity (rest.length + 1)))
  /-- Parentheses cannot be empty, whatever functions have been defined. -/
  readAll_empty_call : ∀ {past : List Token} {e : Evaluation}, e.Reachable past →
    e.phase ≠ .finished → ∀ (scope' : Scope) (s : String), scope'.defines (Unicode.lower s) = true →
    ∀ p q : Int,
      (e.readAll scope' [⟨.call s, p⟩, ⟨.close, q⟩]).outcome = .error (.closeForValue q)
  /-- An expression that has a value calls no constant. -/
  not_constant : ∀ {ts : List Token} {x : Float}, (scope.evaluateTokens ts).outcome = .ok x →
    ∀ t ∈ ts, ∀ s f, t.lexeme = .call s → Primitive.ofName? s = some f → f.arity ≠ .exactly 0
  /-- A bare name of a primitive function has a value only if it is a constant. -/
  read_name : ∀ {past : List Token} {e : Evaluation}, e.Reachable past → e.phase ≠ .finished →
    ∀ {s : String} {f : Primitive}, Primitive.ofName? s = some f → ∀ p : Int,
      (f.arity = .exactly 0 → ∃ x, f.call [] = .ok x ∧
          ∃ base, (e.awaitValue scope).outcome = .ok base ∧ (e.read scope ⟨.name s, p⟩).outcome =
            .ok ⟨base.calls, base.values.push x, .expectOperator⟩) ∧
        (f.arity ≠ .exactly 0 →
          (e.read scope ⟨.name s, p⟩).outcome = .error (.argumentCount f.label f.arity 0))
  evaluate : ∀ text : String, (∃ x, (scope.evaluate text).outcome = .ok x) ∨
    ∃ f, (scope.evaluate text).outcome = .error f ∧ f.kind ∈ Failure.expected

lemma Arity.accepts_zero_iff {a : Arity} : a.accepts 0 = true ↔ a = .exactly 0 := by
  cases a with
  | exactly n => simpa [accepts] using eq_comm
  | oneOrTwo => simp [accepts]
  | atLeastOne => simp [accepts]

lemma Scope.readAll_call_ofVariables {e : Evaluation} {past : List Token} (h : e.Accounted past)
    (hp : e.phase ≠ .finished) {s : String} {f : Primitive} (hf : Primitive.ofName? s = some f)
    {first : List Token} {rest : List (Int × List Token)} {xs : List Float}
    (hxs : Evaluation.ArgumentValues (ofVariables vars) (first :: rest.map (·.2)) xs) (p q : Int) :
    ∃ base, (e.awaitValue (ofVariables vars)).outcome = .ok base ∧
      (e.readAll (ofVariables vars)
          (⟨.call s, p⟩ :: argumentTokens first rest ++ [⟨.close, q⟩])).outcome =
        (fun y => (⟨base.calls, base.values.push y, .expectOperator⟩ : Evaluation)) <$> f.call xs ∧
      ((ofVariables vars).evaluateTokens
          (⟨.call s, p⟩ :: argumentTokens first rest ++ [⟨.close, q⟩])).outcome = f.call xs := by
  have hg : (ofVariables vars).functions.get? (Unicode.lower s) = some f.function := by
    rw [get?_functions_ofVariables, Primitive.ofName?_lower, hf, Option.map_some]
  obtain ⟨base, hbase⟩ := Evaluation.exists_awaitValue h hp (ofVariables vars)
  exact ⟨base, hbase, Evaluation.readAll_call hp hbase (function_ok_iff.mpr hg) hxs p q,
    outcome_evaluateTokens_call hg hxs p q⟩

lemma Scope.read_name_ofVariables {e : Evaluation} {past : List Token} (h : e.Accounted past)
    (hp : e.phase ≠ .finished) {s : String} {f : Primitive} (hf : Primitive.ofName? s = some f)
    (p : Int) :
    ∃ base, (e.awaitValue (ofVariables vars)).outcome = .ok base ∧
      (e.read (ofVariables vars) ⟨.name s, p⟩).outcome =
        (fun y => (⟨base.calls, base.values.push y, .expectOperator⟩ : Evaluation)) <$>
          f.call [] := by
  have hvalue : (ofVariables vars).valueOf s = f.call [] := by
    rw [valueOf, get?_functions_ofVariables, hf]
    rfl
  obtain ⟨base, hbase⟩ := Evaluation.exists_awaitValue h hp (ofVariables vars)
  refine ⟨base, hbase, ?_⟩
  rw [(Evaluation.read_named _ (t := ⟨.name s, p⟩) rfl hp).1, Traced.outcome_bind, hbase, ok_bind]
  simp only [Evaluation.readValue, hvalue]
  cases f.call [] with
  | ok x => rfl
  | error e => rfl

/-- Without functions of the user, numbers of arguments are all that primitive functions fail for,
in calls and in expressions, and every text has a value or one of the expected failures. -/
theorem Scope.arities_kept (vars : Variables) : (ofVariables vars).AritiesKept where
  call p _ _ _ := ⟨Primitive.call_of_accepts, Primitive.call_of_rejects⟩
  readAll_call {past e} h hp {s f} hf {first rest xs} hxs p q := by
    obtain ⟨base, hbase, hread, hevaluate⟩ := readAll_call_ofVariables h.accounted hp hf hxs p q
    have hlength : rest.length + 1 = xs.length := by simpa using hxs.length_eq
    rw [hlength]
    constructor
    · intro ha
      obtain ⟨x, hx⟩ := Primitive.call_of_accepts ha
      rw [hx] at hread hevaluate
      exact ⟨x, hx, hevaluate, base, hbase, hread⟩
    · intro hr
      rw [Primitive.call_of_rejects hr] at hread hevaluate
      exact ⟨hevaluate, hread⟩
  readAll_empty_call h hp scope' s hs p q := by
    obtain ⟨g, hg⟩ := Option.isSome_iff_exists.mp hs
    exact Evaluation.readAll_empty_call h.accounted hp hg p q
  not_constant hx t ht s f hl hf hconstant := by
    obtain ⟨g, args, y, hg, hargs, hy⟩ := applies_of_evaluateTokens hx t ht s hl
    rw [get?_functions_ofVariables, Primitive.ofName?_lower, hf] at hg
    obtain rfl := Option.some.inj hg
    have haccepts := Primitive.accepts_of_call_ok hy
    rw [hconstant] at haccepts
    exact hargs (List.length_eq_zero_iff.mp (by simpa [Arity.accepts] using haccepts))
  read_name h hp s f hf p := by
    obtain ⟨base, hbase, hread⟩ := read_name_ofVariables h.accounted hp hf p
    constructor
    · intro hconstant
      have hok : ∃ x, f.call [] = .ok x :=
        Primitive.call_of_accepts (Arity.accepts_zero_iff.mpr hconstant)
      obtain ⟨x, hx⟩ := hok
      rw [hx] at hread
      exact ⟨x, hx, base, hbase, hread⟩
    · intro hne
      have hr : f.arity.accepts 0 = false := by
        simpa using mt Arity.accepts_zero_iff.mp hne
      have herror : f.call [] = .error (.argumentCount f.label f.arity 0) :=
        Primitive.call_of_rejects hr
      rwa [herror] at hread
  evaluate text := by
    rcases exists_diagnosis (ofVariables vars) (Token.scan text) with ⟨f, hf⟩ | ⟨-, -, -, x, hx⟩
    · exact .inr ⟨f, hf.outcome, hf.kind_mem⟩
    · exact .inl ⟨x, hx⟩

end primitives

end Calculator
