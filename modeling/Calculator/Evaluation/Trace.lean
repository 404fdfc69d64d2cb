import Calculator.Failure
import Calculator.Token.Basic

/-!
# The log

What the evaluator reports while it works, and computations that keep their reports: a `Traced`
computation has the events up to its end, whether it ends with a value or with an error. Both are
parts of one definition, so a fact about values needs no word about events.
-/

namespace Calculator

/-- What an evaluation waits for. -/
inductive Phase where
  | expectValue
  | expectOperator
  | finished
  deriving Repr, DecidableEq

def Phase.name : Phase → String
  | expectValue => "EXPECT_VALUE"
  | expectOperator => "EXPECT_OPERATOR"
  | finished => "FINISHED"

/-- What the log can tell. -/
inductive Event where
  | parsing (token : Token) (phase : Phase)
  /-- A product is inserted before a name or a call. -/
  | juxtaposed (name : String)
  | applied (name : String) (args : List Float) (value : Float)
  | replaced (name : String)
  | failed (line : String) (error : Failure)
  | unhandled (line : String)

namespace Event

def argumentList (args : List Float) : String :=
  match args.map fun x => String.ofList (Numeral.full x) with
  | [a] => "(" ++ a ++ ",)"
  | l => "(" ++ ", ".intercalate l ++ ")"

/-- The log line of an event: its level, its source and the message. -/
def line : Event → String
  | parsing token phase =>
    s!"DEBUG pupil.expression: Parsing {token.describe} in state {phase.name}"
  | juxtaposed name =>
    "DEBUG pupil.expression: Inserting implicit multiplication before " ++ Text.quote name
  | applied name args value =>
    "DEBUG pupil.expression: Applied " ++ (if name = "" then "group" else name) ++
      argumentList args ++ " -> " ++ String.ofList (Numeral.full value)
  | replaced name => "INFO pupil.environment: Replacing function " ++ Text.quote name
  | failed text error =>
    "INFO pupil.repl: Evaluation of " ++ Text.quote text ++ " failed: " ++ error.message
  | unhandled text => "ERROR pupil.repl: Unhandled error evaluating " ++ Text.quote text

end Event

/-- A computation with the events that it reported. -/
structure Traced (α : Type) where
  events : List Event
  outcome : Except Failure α

namespace Traced

variable {α β : Type}

protected def pure (a : α) : Traced α :=
  ⟨[], .ok a⟩

protected def bind (x : Traced α) (f : α → Traced β) : Traced β :=
  match x.outcome with
  | .ok a =>
    let y := f a
    ⟨x.events ++ y.events, y.outcome⟩
  | .error e => ⟨x.events, .error e⟩

instance : Monad Traced where
  pure := Traced.pure
  bind := Traced.bind

def throw (e : Failure) : Traced α :=
  ⟨[], .error e⟩

def report (e : Event) : Traced Unit :=
  ⟨[e], .ok ()⟩

def ofExcept (x : Except Failure α) : Traced α :=
  ⟨[], x⟩

@[simp] theorem outcome_pure (a : α) : (pure a : Traced α).outcome = .ok a := rfl

@[simp] theorem outcome_throw (e : Failure) : (throw e : Traced α).outcome = .error e := rfl

@[simp] theorem outcome_report (e : Event) : (report e).outcome = .ok () := rfl

@[simp] theorem outcome_ofExcept (x : Except Failure α) : (ofExcept x).outcome = x := rfl

@[simp] theorem outcome_bind (x : Traced α) (f : α → Traced β) :
    (x >>= f).outcome = x.outcome >>= fun a => (f a).outcome := by
  change (Traced.bind x f).outcome = _
  unfold Traced.bind
  cases x.outcome <;> rfl

@[simp] theorem events_pure (a : α) : (pure a : Traced α).events = [] := rfl

@[simp] theorem events_throw (e : Failure) : (throw e : Traced α).events = [] := rfl

@[simp] theorem events_report (e : Event) : (report e).events = [e] := rfl

@[simp] theorem events_ofExcept (x : Except Failure α) : (ofExcept x).events = [] := rfl

theorem events_bind_ok {x : Traced α} {a : α} (h : x.outcome = .ok a) (f : α → Traced β) :
    (x >>= f).events = x.events ++ (f a).events := by
  change (Traced.bind x f).events = _
  simp [Traced.bind, h]

theorem events_bind_error {x : Traced α} {e : Failure} (h : x.outcome = .error e)
    (f : α → Traced β) : (x >>= f).events = x.events := by
  change (Traced.bind x f).events = _
  simp [Traced.bind, h]

end Traced

end Calculator
