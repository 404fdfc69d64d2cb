import Calculator.Evaluation.Trace
import Mathlib.Tactic.Lemma

/-!
# Laws of traced computations

How a chain of traced computations succeeds and fails, and that the chains form a lawful monad, so
that two of them can be compared with their events. `quiet` keeps of a log only the calls that were
applied, and `applications` lists them.
-/

namespace Calculator

@[simp] lemma ok_bind {ε α β : Type} (a : α) (f : α → Except ε β) :
    ((.ok a : Except ε α) >>= f) = f a := rfl

@[simp] lemma error_bind {ε α β : Type} (e : ε) (f : α → Except ε β) :
    ((.error e : Except ε α) >>= f) = .error e := rfl

@[simp] lemma map_ok {ε α β : Type} (f : α → β) (a : α) :
    (f <$> (.ok a : Except ε α)) = .ok (f a) := rfl

@[simp] lemma map_error {ε α β : Type} (f : α → β) (e : ε) :
    (f <$> (.error e : Except ε α)) = .error e := rfl

lemma bind_eq_ok_iff {ε α β : Type} {x : Except ε α} {f : α → Except ε β} {b : β} :
    (x >>= f) = .ok b ↔ ∃ a, x = .ok a ∧ f a = .ok b := by
  cases x with
  | error e => simp
  | ok a => simp

lemma bind_eq_error_iff {ε α β : Type} {x : Except ε α} {f : α → Except ε β} {e : ε} :
    (x >>= f) = .error e ↔ x = .error e ∨ ∃ a, x = .ok a ∧ f a = .error e := by
  cases x with
  | error e' => simp
  | ok a => simp

def Event.isApplied : Event → Bool
  | .applied .. => true
  | _ => false

namespace Traced

variable {α β : Type}

@[ext] lemma ext {x y : Traced α} (he : x.events = y.events) (ho : x.outcome = y.outcome) :
    x = y := by
  cases x
  cases y
  simp_all

lemma events_bind (x : Traced α) (f : α → Traced β) :
    (x >>= f).events = x.events ++ match x.outcome with
      | .ok a => (f a).events
      | .error _ => [] := by
  cases h : x.outcome with
  | ok a => exact events_bind_ok h f
  | error e => rw [events_bind_error h f, List.append_nil]

@[simp] lemma outcome_map (f : α → β) (x : Traced α) :
    (f <$> x).outcome = f <$> x.outcome := by
  change (x >>= fun a => pure (f a)).outcome = _
  rw [outcome_bind]
  cases x.outcome <;> rfl

@[simp] lemma events_map (f : α → β) (x : Traced α) : (f <$> x).events = x.events := by
  change (x >>= fun a => pure (f a)).events = _
  rw [events_bind]
  cases x.outcome <;> simp

instance : LawfulMonad Traced := .mk' Traced
  (fun x => by
    apply ext
    · exact events_map id x
    · rw [outcome_map]
      cases x.outcome <;> rfl)
  (fun a f => by
    apply ext
    · rw [events_bind]
      simp
    · simp)
  (fun x f g => by
    apply ext
    · rw [events_bind, events_bind, events_bind, outcome_bind]
      cases x.outcome with
      | error e => simp
      | ok a => simp [events_bind]
    · rw [outcome_bind, outcome_bind, outcome_bind]
      cases x.outcome <;> simp)

/-- Only what the first computation can hand over matters to a chain. -/
lemma bind_congr_of_outcome {x : Traced α} {f g : α → Traced β}
    (h : ∀ a, x.outcome = .ok a → f a = g a) : x >>= f = x >>= g := by
  apply ext
  · rw [events_bind, events_bind]
    cases hx : x.outcome with
    | error e => rfl
    | ok a => simp only [h a hx]
  · rw [outcome_bind, outcome_bind]
    cases hx : x.outcome with
    | error e => rfl
    | ok a => simp only [ok_bind, h a hx]

@[simp] lemma ofExcept_ok (a : α) : ofExcept (.ok a) = pure a := rfl

@[simp] lemma map_throw (f : α → β) (e : Failure) : f <$> (throw e : Traced α) = throw e := rfl

/-- The calls that were applied, with their arguments and values. -/
def applications (x : Traced α) : List (String × List Float × Float) :=
  x.events.filterMap fun
    | .applied name args value => some (name, args, value)
    | _ => none

@[simp] lemma applications_pure (a : α) : (pure a : Traced α).applications = [] := rfl

@[simp] lemma applications_map (f : α → β) (x : Traced α) :
    (f <$> x).applications = x.applications := by
  rw [applications, events_map]
  rfl

lemma applications_bind {x : Traced α} {a : α} (h : x.outcome = .ok a) (f : α → Traced β) :
    (x >>= f).applications = x.applications ++ (f a).applications := by
  rw [applications, events_bind_ok h, List.filterMap_append]
  rfl

/-- The same computation without the reports that are not about an applied call. -/
def quiet (x : Traced α) : Traced α :=
  ⟨x.events.filter Event.isApplied, x.outcome⟩

@[simp] lemma outcome_quiet (x : Traced α) : x.quiet.outcome = x.outcome := rfl

@[simp] lemma applications_quiet (x : Traced α) : x.quiet.applications = x.applications := by
  unfold applications quiet
  rw [List.filterMap_filter]
  congr 1
  funext e
  cases e <;> rfl

lemma quiet_bind (x : Traced α) (f : α → Traced β) :
    (x >>= f).quiet = x.quiet >>= fun a => (f a).quiet := by
  apply ext
  · rw [quiet, events_bind, events_bind, List.filter_append, outcome_quiet]
    cases x.outcome <;> rfl
  · simp

lemma quiet_bind_congr {x y : Traced α} {f g : α → Traced β} (hxy : x.quiet = y.quiet)
    (hfg : ∀ a, x.outcome = .ok a → (f a).quiet = (g a).quiet) :
    (x >>= f).quiet = (y >>= g).quiet := by
  rw [quiet_bind, quiet_bind, ← hxy]
  exact bind_congr_of_outcome hfg

/-- A report in front that is not about a call does not show. -/
lemma quiet_report_bind {e : Event} (h : e.isApplied = false) (f : Unit → Traced α) :
    (report e >>= f).quiet = (f ()).quiet := by
  apply ext
  · rw [quiet, events_bind_ok (outcome_report e), events_report, List.filter_append]
    simp [h, quiet]
  · simp

end Traced

end Calculator
