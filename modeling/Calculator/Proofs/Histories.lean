import Calculator.Proofs.Spellings
import Calculator.Proofs.Updates

/-!
# Scopes by their history

A scope is made with some variables and is updated since. `History.value?` and
`History.function?` say from these writes alone what a name stands for: the last write under a name
with the same small letters decides, and where there is none the name has its meaning from the
start. Every way to ask a scope for a name gives that answer.
-/

namespace Calculator

/-- What the last binding of a name binds it to, in whatever capitals it is written. -/
def lastBinding? {α : Type} (l : List (String × α)) (name : String) : Option α :=
  (l.reverse.find? fun p => Unicode.lower p.1 = Unicode.lower name).map (·.2)

namespace Update

def assignment? : Update → Option (String × Float)
  | assign name x => some (name, x)
  | define _ _ => none

def definition? : Update → Option (String × Function)
  | assign _ _ => none
  | define name f => some (name, f)

end Update

/-- The variables that a scope is made with, and its updates since. -/
structure History where
  vars : List (String × Float) := []
  updates : List Update := []

namespace History

/-- The scope that a history leads to. -/
def scope (h : History) : Scope :=
  h.updates.foldl Update.apply (h.vars.foldl (fun s p => s.assign p.1 p.2) Scope.initial)

def assignments (h : History) : List (String × Float) :=
  h.vars ++ h.updates.filterMap Update.assignment?

def definitions (h : History) : List (String × Function) :=
  h.updates.filterMap Update.definition?

/-- The value of a variable. The variable `ans` has one from the start. -/
def value? (h : History) (name : String) : Option Float :=
  (lastBinding? h.assignments name).or (if Unicode.lower name = "ans" then some 0.0 else none)

/-- The function of a name. The primitive functions are there from the start. -/
def function? (h : History) (name : String) : Option Function :=
  (lastBinding? h.definitions name).or
    ((Primitive.catalogue.lookup (Unicode.lower name)).map Primitive.function)

end History

section tables

variable {α : Type}

lemma lastBinding?_cons (p : String × α) (l : List (String × α)) (name : String) :
    lastBinding? (p :: l) name =
      (lastBinding? l name).or
        (if Unicode.lower p.1 = Unicode.lower name then some p.2 else none) := by
  unfold lastBinding?
  rw [List.reverse_cons, List.find?_append]
  cases l.reverse.find? fun p => Unicode.lower p.1 = Unicode.lower name with
  | some q => rfl
  | none =>
    by_cases h : Unicode.lower p.1 = Unicode.lower name
    · simp [h]
    · simp [h]

/-- Where no two names of a list are the same in small letters, the last binding is the only one. -/
lemma lastBinding?_of_nodup {l : List (String × α)} (hlower : ∀ p ∈ l, Unicode.lower p.1 = p.1)
    (hnodup : (l.map (·.1)).Nodup) (name : String) :
    lastBinding? l name = l.lookup (Unicode.lower name) := by
  induction l with
  | nil => rfl
  | cons p l ih =>
    obtain ⟨hp, hl⟩ := List.forall_mem_cons.mp hlower
    rw [List.map_cons, List.nodup_cons] at hnodup
    obtain ⟨hmem, hrest⟩ := hnodup
    obtain ⟨key, a⟩ := p
    rw [lastBinding?_cons, ih hl hrest, hp, List.lookup_cons]
    by_cases h : key = Unicode.lower name
    · have hnone : l.lookup (Unicode.lower name) = none := by
        rw [List.lookup_eq_none_iff]
        intro q hq
        have hne : Unicode.lower name ≠ q.1 := by
          rintro heq
          exact hmem (List.mem_map.mpr ⟨q, hq, (h.trans heq).symm⟩)
        simpa using hne
      simp [hnone, h]
    · have hne : (Unicode.lower name == key) = false := by simpa using Ne.symm h
      simp [hne, h]

lemma lookup_map {β : Type} (f : α → β) (l : List (String × α)) (key : String) :
    (l.map fun p => (p.1, f p.2)).lookup key = (l.lookup key).map f := by
  induction l with
  | nil => rfl
  | cons p l ih =>
    rw [List.map_cons, List.lookup_cons, List.lookup_cons]
    split
    · rfl
    · exact ih

namespace NameTable

/-- Names that are set one after the other: the last one counts, and before all of them the table
as it was. -/
lemma get?_foldl_set (t : NameTable α) (l : List (String × α)) (name : String) :
    (l.foldl (fun t p => t.set p.1 p.2) t).get? name =
      (lastBinding? l name).or (t.get? name) := by
  induction l generalizing t with
  | nil => rfl
  | cons p l ih =>
    rw [List.foldl_cons, ih, get?_set, lastBinding?_cons, Option.or_assoc]
    congr 1
    split
    · rfl
    · rfl

/-- Every name of the table is in small letters. -/
def IsLowered (t : NameTable α) : Prop :=
  ∀ key ∈ t.keys, Unicode.lower key = key

lemma mem_keys_insert {key k : String} {a : α} {l : List (String × α)}
    (h : k ∈ (insert key a l).map (·.1)) : k = key ∨ k ∈ l.map (·.1) := by
  induction l with
  | nil => simpa [insert] using h
  | cons p l ih =>
    obtain ⟨k', b⟩ := p
    unfold insert at h
    split at h
    · rename_i heq
      subst heq
      exact .inr h
    · split at h
      · exact List.mem_cons.mp h
      · rcases List.mem_cons.mp h with rfl | h
        · exact .inr List.mem_cons_self
        · exact (ih h).imp_right (List.mem_cons_of_mem k')

lemma IsLowered.set {t : NameTable α} (h : t.IsLowered) (name : String) (a : α) :
    (t.set name a).IsLowered := by
  intro key hkey
  rcases mem_keys_insert hkey with rfl | hkey
  · exact Unicode.lower_lower name
  · exact h key hkey

lemma IsLowered.foldl_set {t : NameTable α} (h : t.IsLowered) (l : List (String × α)) :
    (l.foldl (fun t p => t.set p.1 p.2) t).IsLowered := by
  induction l generalizing t with
  | nil => exact h
  | cons p l ih => exact ih (h.set p.1 p.2)

lemma isLowered_empty : ({} : NameTable α).IsLowered :=
  fun key hkey => absurd hkey (by simp [keys])

end NameTable

end tables

namespace Scope

lemma get?_initial_vars (name : String) :
    initial.vars.get? name = if Unicode.lower name = "ans" then some 0.0 else none := by
  have hans : Unicode.lower "ans" = "ans" := by decide
  have hset : initial.vars = NameTable.set {} "ans" 0.0 := rfl
  rw [hset, NameTable.get?_set, hans]
  simp only [eq_comm]
  rfl

lemma get?_initial_functions (name : String) :
    initial.functions.get? name =
      (Primitive.catalogue.lookup (Unicode.lower name)).map Primitive.function := by
  let named := Primitive.catalogue.map fun p => (p.1, p.2.function)
  have hkeys : named.map (·.1) = Primitive.catalogue.map (·.1) := List.map_map
  have hlower : ∀ p ∈ named, Unicode.lower p.1 = p.1 := by
    have hall : ∀ key ∈ named.map (·.1), Unicode.lower key = key := by
      rw [hkeys]
      decide
    exact fun p hp => hall p.1 (List.mem_map_of_mem hp)
  have hnodup : (named.map (·.1)).Nodup := by
    rw [hkeys]
    decide
  have hset : initial.functions = named.foldl (fun t p => t.set p.1 p.2) {} := rfl
  have hnone : ({} : NameTable Function).get? name = none := rfl
  rw [hset, NameTable.get?_foldl_set, hnone, Option.or_none, lastBinding?_of_nodup hlower hnodup]
  exact lookup_map Primitive.function _ _

lemma isLowered_initial_vars : initial.vars.IsLowered :=
  NameTable.isLowered_empty.foldl_set _

lemma isLowered_initial_functions : initial.functions.IsLowered :=
  NameTable.isLowered_empty.foldl_set _

lemma vars_foldl_assign (s : Scope) (l : List (String × Float)) :
    (l.foldl (fun s p => s.assign p.1 p.2) s).vars =
      l.foldl (fun t p => t.set p.1 p.2) s.vars :=
  (List.foldl_hom Scope.vars fun _ _ => rfl).symm

lemma functions_foldl_assign (s : Scope) (l : List (String × Float)) :
    (l.foldl (fun s p => s.assign p.1 p.2) s).functions = s.functions :=
  (List.foldl_hom Scope.functions fun _ _ => rfl).symm.trans (List.foldl_fixed l)

lemma vars_foldl_apply (s : Scope) (us : List Update) :
    (us.foldl Update.apply s).vars =
      (us.filterMap Update.assignment?).foldl (fun t p => t.set p.1 p.2) s.vars := by
  rw [List.foldl_filterMap]
  refine (List.foldl_hom Scope.vars fun s u => ?_).symm
  cases u with
  | assign name x => rfl
  | define name f => rfl

lemma functions_foldl_apply (s : Scope) (us : List Update) :
    (us.foldl Update.apply s).functions =
      (us.filterMap Update.definition?).foldl (fun t p => t.set p.1 p.2) s.functions := by
  rw [List.foldl_filterMap]
  refine (List.foldl_hom Scope.functions fun s u => ?_).symm
  cases u with
  | assign name x => rfl
  | define name f => rfl

end Scope

namespace History

variable (h : History)

lemma vars_scope :
    h.scope.vars = h.assignments.foldl (fun t p => t.set p.1 p.2) Scope.initial.vars := by
  rw [scope, Scope.vars_foldl_apply, Scope.vars_foldl_assign, assignments, List.foldl_append]

lemma functions_scope :
    h.scope.functions = h.definitions.foldl (fun t p => t.set p.1 p.2) Scope.initial.functions := by
  rw [scope, Scope.functions_foldl_apply, Scope.functions_foldl_assign, definitions]

lemma get?_vars (name : String) : h.scope.vars.get? name = h.value? name := by
  rw [vars_scope, NameTable.get?_foldl_set, Scope.get?_initial_vars, value?]

lemma get?_functions (name : String) : h.scope.functions.get? name = h.function? name := by
  rw [functions_scope, NameTable.get?_foldl_set, Scope.get?_initial_functions, function?]

lemma function?_lower (name : String) : h.function? (Unicode.lower name) = h.function? name := by
  simp only [← get?_functions, NameTable.get?, Unicode.lower_lower]

lemma value_scope (name : String) :
    h.scope.vars.value name =
      match h.value? name with
      | some x => .ok x
      | none => .error (.unknownVariable name) := by
  cases hx : h.value? name <;> simp only [Variables.value, get?_vars, hx]

lemma function_scope (name : String) :
    h.scope.function name =
      match h.function? name with
      | some f => .ok f
      | none => .error (.unknownFunction name) := by
  cases hf : h.function? name <;> simp only [Scope.function, get?_functions, hf]

lemma valueOf_scope (name : String) :
    h.scope.valueOf name =
      match h.function? name with
      | some f => f h.scope.vars []
      | none => h.scope.vars.value name := by
  cases hf : h.function? name <;> simp only [Scope.valueOf, get?_functions, hf]

lemma isLowered_vars : h.scope.vars.IsLowered := by
  rw [vars_scope]
  exact Scope.isLowered_initial_vars.foldl_set _

lemma isLowered_functions : h.scope.functions.IsLowered := by
  rw [functions_scope]
  exact Scope.isLowered_initial_functions.foldl_set _

/-- Every way to a name in the scope of a history gives what the history says. -/
structure NamesAgree : Prop where
  value : ∀ m, h.scope.vars.value m =
    match h.value? m with
    | some x => .ok x
    | none => .error (.unknownVariable m)
  defines : ∀ m, h.scope.defines m = (h.function? m).isSome
  function : ∀ m, h.scope.function m =
    match h.function? m with
    | some f => .ok f
    | none => .error (.unknownFunction m)
  lower_vars : ∀ key ∈ h.scope.vars.keys, Unicode.lower key = key
  lower_functions : ∀ key ∈ h.scope.functions.keys, Unicode.lower key = key
  /-- In every state of an expression in which a token can follow, a call opens the function of its
  name, and a bare name is the call of this function on no arguments before it is a variable. -/
  read : ∀ {past : List Token} {e : Evaluation}, e.Reachable past → e.phase ≠ .finished →
    ∃ base, (e.awaitValue h.scope).outcome = .ok base ∧ ∀ (m : String) (p : Int),
      (e.read h.scope ⟨.call m, p⟩).outcome =
          (match h.function? m with
          | some f =>
            .ok ⟨⟨f, .barrier, 1, Unicode.lower m⟩ :: base.calls, base.values, .expectValue⟩
          | none => .error (.unknownFunction (Unicode.lower m))) ∧
        (e.read h.scope ⟨.name m, p⟩).outcome =
          (fun x => (⟨base.calls, base.values.push x, .expectOperator⟩ : Evaluation)) <$>
            match h.function? m, h.value? m with
            | some f, _ => f h.scope.vars []
            | none, some x => .ok x
            | none, none => .error (.unknownVariable m)
  readAll_respelled : ∀ {ts ts' : List Token}, List.Forall₂ Token.Respelled ts ts' →
    ∀ e : Evaluation, (e.readAll h.scope ts).Respelled (e.readAll h.scope ts')
  evaluateTokens_respelled : ∀ {ts ts' : List Token}, List.Forall₂ Token.Respelled ts ts' →
    (h.scope.evaluateTokens ts).Respelled (h.scope.evaluateTokens ts')

lemma readValue_call (e : Evaluation) (m : String) (p : Int) :
    (e.readValue h.scope ⟨.call m, p⟩).outcome =
      match h.function? m with
      | some f => .ok ⟨⟨f, .barrier, 1, Unicode.lower m⟩ :: e.calls, e.values, .expectValue⟩
      | none => .error (.unknownFunction (Unicode.lower m)) := by
  simp only [Evaluation.readValue, function_scope, function?_lower]
  cases h.function? m with
  | some f => rfl
  | none => rfl

lemma readValue_name (e : Evaluation) (m : String) (p : Int) :
    (e.readValue h.scope ⟨.name m, p⟩).outcome =
      (fun x => (⟨e.calls, e.values.push x, .expectOperator⟩ : Evaluation)) <$>
        match h.function? m, h.value? m with
        | some f, _ => f h.scope.vars []
        | none, some x => .ok x
        | none, none => .error (.unknownVariable m) := by
  simp only [Evaluation.readValue, valueOf_scope, value_scope, Traced.outcome_bind]
  cases h.function? m with
  | some f =>
    cases f h.scope.vars [] with
    | ok x => rfl
    | error e => rfl
  | none =>
    cases h.value? m with
    | some x => rfl
    | none => rfl

/-- A scope is its history: the tables of names are maps in which the last write wins, without
regard to capitals, and names in an expression go by them alone. -/
theorem names_agree : h.NamesAgree where
  value := h.value_scope
  defines m := by rw [Scope.defines, NameTable.contains, get?_functions]
  function := h.function_scope
  lower_vars := h.isLowered_vars
  lower_functions := h.isLowered_functions
  read hreach hp := by
    obtain ⟨base, hbase⟩ := Evaluation.exists_awaitValue hreach.accounted hp h.scope
    refine ⟨base, hbase, fun m p => ⟨?_, ?_⟩⟩
    · rw [(Evaluation.read_named h.scope (t := ⟨.call m, p⟩) rfl hp).1, Traced.outcome_bind, hbase,
        ok_bind, readValue_call]
    · rw [(Evaluation.read_named h.scope (t := ⟨.name m, p⟩) rfl hp).1, Traced.outcome_bind, hbase,
        ok_bind, readValue_name]
  readAll_respelled hts := Evaluation.respelled_readAll h.scope hts
  evaluateTokens_respelled hts := h.scope.respelled_evaluateTokens hts

end History

end Calculator
