import Calculator.Proofs.Scopes

/-!
# Updates between tokens

The scope in which an expression is read may change before the expression is complete. A name is
bound when its token is read: an update matters only to later tokens that ask for the name that it
binds. While no such token follows, updates can wait until everything is read.
-/

namespace Calculator

inductive Update where
  | assign (name : String) (x : Float)
  | define (name : String) (f : Function)

namespace Update

def apply (scope : Scope) : Update → Scope
  | assign name x => scope.assign name x
  | define name f => scope.define name f

/-- The function that is bound, if there is one, does not look at the variables of its scope. -/
def IsPure : Update → Prop
  | assign _ _ => True
  | define _ f => f.IsPure

/-- The lexeme asks for the name that the update binds. Calls and groups never ask for a variable. -/
def Concerns : Update → Lexeme → Prop
  | assign name _, .name s => Unicode.lower s = Unicode.lower name
  | define name _, .name s => Unicode.lower s = Unicode.lower name
  | define name _, .call s => Unicode.lower s = Unicode.lower name
  | _, _ => False

variable {u : Update} {scope : Scope} {l : Lexeme}

lemma isPure_apply (hu : u.IsPure) (h : scope.IsPure) : (u.apply scope).IsPure := by
  cases u with
  | assign name x => exact h
  | define name f =>
    intro m g hg
    unfold apply Scope.define at hg
    rw [NameTable.get?_set] at hg
    split at hg
    · rwa [← Option.some.inj hg]
    · exact h m g hg

lemma sameIn_apply (h : scope.IsPure) (hl : ¬u.Concerns l) : l.SameIn scope (u.apply scope) := by
  cases u with
  | assign name x =>
    cases l with
    | name s =>
      apply h.sameIn_assign
      intro hkey
      exact hl (Option.some.inj hkey)
    | call s => exact rfl
    | _ => trivial
  | define name f =>
    have hget {s : String} (hne : ¬Unicode.lower s = Unicode.lower name) :
        (scope.define name f).functions.get? s = scope.functions.get? s := by
      unfold Scope.define
      rw [NameTable.get?_set, if_neg (Ne.symm hne)]
    cases l with
    | name s =>
      have hs := hget hl
      change scope.valueOf s = (scope.define name f).valueOf s
      unfold Scope.valueOf
      rw [hs]
      rfl
    | call s =>
      have hs : (scope.define name f).functions.get? (Unicode.lower s) =
          scope.functions.get? (Unicode.lower s) := by
        apply hget
        rw [Unicode.lower_lower]
        exact hl
      change scope.function (Unicode.lower s) = (scope.define name f).function (Unicode.lower s)
      unfold Scope.function
      rw [hs]
    | _ => trivial

end Update

/-- What can happen to an expression and its scope before the value is taken. -/
inductive Action where
  | read (ts : List Token)
  | update (u : Update)

namespace Action

def tokens : Action → List Token
  | read ts => ts
  | update _ => []

def updates : Action → List Update
  | read _ => []
  | update u => [u]

/-- No token of the second action asks for what the first one binds. -/
def Spares (a b : Action) : Prop :=
  ∀ u ∈ a.updates, ∀ t ∈ b.tokens, ¬u.Concerns t.lexeme

end Action

/-- An expression in progress, which may have failed, and the scope as it is now. -/
structure Progress where
  scope : Scope
  evaluation : Traced Evaluation

namespace Progress

def start (scope : Scope) : Progress :=
  ⟨scope, pure {}⟩

/-- Reads tokens in the scope as it is now. After a failure nothing more is read. -/
def read (s : Progress) (ts : List Token) : Progress :=
  { s with evaluation := s.evaluation >>= Evaluation.readAll s.scope ts }

def update (s : Progress) (u : Update) : Progress :=
  { s with scope := u.apply s.scope }

def act (s : Progress) : Action → Progress
  | .read ts => s.read ts
  | .update u => s.update u

def updateAll (s : Progress) (us : List Update) : Progress :=
  us.foldl update s

def run (s : Progress) (actions : List Action) : Progress :=
  actions.foldl act s

/-- The value, and the finished evaluation. -/
def result (s : Progress) : Traced (Float × Evaluation) :=
  s.evaluation >>= Evaluation.finish s.scope

/-- What is reached while all functions that are bound depend on their arguments only. -/
inductive Reached : Progress → Prop
  | start {scope : Scope} (h : scope.IsPure) : Reached (start scope)
  | read {s : Progress} (h : Reached s) (ts : List Token) : Reached (s.read ts)
  | update {s : Progress} {u : Update} (h : Reached s) (hu : u.IsPure) : Reached (s.update u)

/-- The functions of the scope and of the pending calls are pure. -/
structure IsPure (s : Progress) : Prop where
  scope : s.scope.IsPure
  evaluation : ∀ e, s.evaluation.outcome = .ok e → e.IsPure

variable {s : Progress} {u : Update} {ts : List Token} {actions : List Action}

lemma IsPure.read (h : s.IsPure) (ts : List Token) : (s.read ts).IsPure where
  scope := h.scope
  evaluation := by
    intro d hd
    unfold Progress.read at hd
    rw [Traced.outcome_bind, bind_eq_ok_iff] at hd
    obtain ⟨e, he, hd⟩ := hd
    exact (h.evaluation e he).readAll h.scope hd

lemma IsPure.update (h : s.IsPure) (hu : u.IsPure) : (s.update u).IsPure where
  scope := u.isPure_apply hu h.scope
  evaluation := h.evaluation

lemma Reached.isPure (h : Reached s) : s.IsPure := by
  induction h with
  | start h =>
    refine ⟨h, ?_⟩
    intro e he
    obtain rfl := Except.ok.inj he
    exact Evaluation.isPure_start
  | read _ ts ih => exact ih.read ts
  | update _ hu ih => exact ih.update hu

lemma read_nil (s : Progress) : s.read [] = s := by
  unfold read
  rw [show Evaluation.readAll s.scope [] = pure from rfl, bind_pure]

lemma read_read (s : Progress) (ts us : List Token) : (s.read ts).read us = s.read (ts ++ us) := by
  have happend : Evaluation.readAll s.scope (ts ++ us) =
      fun e => Evaluation.readAll s.scope ts e >>= Evaluation.readAll s.scope us := by
    funext e
    exact Evaluation.readAll_append ..
  unfold read
  rw [happend, bind_assoc]

lemma IsPure.update_read (h : s.IsPure) (hts : ∀ t ∈ ts, ¬u.Concerns t.lexeme) :
    (s.update u).read ts = (s.read ts).update u := by
  have hread : s.evaluation >>= Evaluation.readAll (u.apply s.scope) ts =
      s.evaluation >>= Evaluation.readAll s.scope ts := by
    apply Traced.bind_congr_of_outcome
    intro e he
    have hsame : ∀ t ∈ ts, t.lexeme.SameIn s.scope (u.apply s.scope) := fun t ht =>
      u.sameIn_apply h.scope (hts t ht)
    exact ((h.evaluation e he).readAll_congr h.scope hsame).symm
  unfold Progress.update Progress.read
  rw [hread]

/-- The pending calls need nothing more from the scope. -/
lemma IsPure.result_update (h : s.IsPure) (u : Update) : (s.update u).result = s.result := by
  apply Traced.bind_congr_of_outcome
  intro e he
  exact (h.evaluation e he).finish_congr (u.apply s.scope) s.scope

lemma IsPure.result_updateAll {us : List Update} (h : s.IsPure) (hus : ∀ u ∈ us, u.IsPure) :
    (s.updateAll us).result = s.result := by
  induction us generalizing s with
  | nil => rfl
  | cons u us ih =>
    obtain ⟨hu, hus⟩ := List.forall_mem_cons.mp hus
    calc (s.updateAll (u :: us)).result
        = ((s.update u).updateAll us).result := rfl
      _ = (s.update u).result := ih (h.update hu) hus
      _ = s.result := h.result_update u

lemma IsPure.run_eq (h : s.IsPure) (hpure : ∀ u ∈ actions.flatMap Action.updates, u.IsPure)
    (hspares : actions.Pairwise Action.Spares) :
    s.run actions =
      (s.read (actions.flatMap Action.tokens)).updateAll (actions.flatMap Action.updates) := by
  induction actions generalizing s with
  | nil => exact s.read_nil.symm
  | cons action actions ih =>
    obtain ⟨hfirst, hrest⟩ := List.pairwise_cons.mp hspares
    cases action with
    | read ts =>
      have hrun : (s.read ts).run actions = _ := ih (h.read ts) hpure hrest
      rw [read_read] at hrun
      exact hrun
    | update u =>
      obtain ⟨hu, hpure⟩ := List.forall_mem_cons.mp hpure
      have htokens : ∀ t ∈ actions.flatMap Action.tokens, ¬u.Concerns t.lexeme := by
        intro t ht
        obtain ⟨action, haction, ht⟩ := List.mem_flatMap.mp ht
        exact hfirst action haction u (List.mem_singleton.mpr rfl) t ht
      have hrun : (s.update u).run actions = _ := ih (h.update hu) hpure hrest
      rw [h.update_read htokens] at hrun
      exact hrun

/-- A name is bound when its token is read. An update changes nothing for tokens that do not ask for
the name that it binds, nor for the value of what has been read: it can be made before or after
them. So, whatever is read and updated, as long as no token asks for a name that an update before it
has bound, the outcome is that of all tokens in the scope as it was, and the value as well. -/
theorem Reached.update_comm (h : Reached s) :
    (∀ u ts, (∀ t ∈ ts, ¬u.Concerns t.lexeme) →
      (s.update u).read ts = (s.read ts).update u ∧
        ((s.update u).read ts).result = (s.read ts).result) ∧
      (∀ u, (s.update u).result = s.result) ∧
      ∀ actions, (∀ u ∈ actions.flatMap Action.updates, u.IsPure) →
        actions.Pairwise Action.Spares →
        s.run actions =
            (s.read (actions.flatMap Action.tokens)).updateAll
              (actions.flatMap Action.updates) ∧
          (s.run actions).result = (s.read (actions.flatMap Action.tokens)).result := by
  have hpure := h.isPure
  refine ⟨?_, hpure.result_update, ?_⟩
  · intro u ts hts
    have hcomm : (s.update u).read ts = (s.read ts).update u := hpure.update_read hts
    refine ⟨hcomm, ?_⟩
    rw [hcomm]
    exact (hpure.read ts).result_update u
  · intro actions hupdates hspares
    have hrun := hpure.run_eq hupdates hspares
    refine ⟨hrun, ?_⟩
    rw [hrun]
    exact (hpure.read _).result_updateAll hupdates

/-- The function of an open call is bound anew before its arguments are complete. -/
theorem update_comm_open_call :
    ∃ (s : Progress) (u : Update) (ts : List Token), Reached s ∧
      s.evaluation.outcome.map (fun e => e.calls.map (·.name)) = .ok ["f"] ∧
      (∃ f, u = .define "F" f) ∧ ts.map (·.lexeme) = [.comma, .literal 2, .close] ∧
      (s.update u).read ts = (s.read ts).update u ∧
      ((s.update u).read ts).result = (s.read ts).result := by
  let scope : Scope := ⟨{}, ⟨[("f", Primitive.max.function)]⟩⟩
  let s := (start scope).read [⟨.call "F", 0⟩, ⟨.literal 1, 2⟩]
  let u : Update := .define "F" Primitive.min.function
  let ts : List Token := [⟨.comma, 3⟩, ⟨.literal 2, 4⟩, ⟨.close, 5⟩]
  have hpure : scope.IsPure := by
    intro name f hf
    unfold NameTable.get? NameTable.find? at hf
    split at hf
    · obtain rfl := Option.some.inj hf
      exact Primitive.max.isPure_function
    · exact absurd hf (by simp [NameTable.find?])
  have hs : Reached s := (Reached.start hpure).read _
  have hts : ∀ t ∈ ts, ¬u.Concerns t.lexeme := by
    intro t ht
    simp only [ts, List.mem_cons, List.not_mem_nil, or_false] at ht
    rcases ht with rfl | rfl | rfl
    · exact id
    · exact id
    · exact id
  have hcomm := (Reached.update_comm hs).1 u ts hts
  exact ⟨s, u, ts, hs, rfl, ⟨_, rfl⟩, rfl, hcomm⟩

end Progress

end Calculator
