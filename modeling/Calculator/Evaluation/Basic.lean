import Calculator.Evaluation.Stack
import Calculator.Evaluation.Trace
import Calculator.Scope
import Calculator.Token.Scan

/-!
# Evaluations

An expression is evaluated while its tokens are read, in one pass and without a tree. An evaluation
keeps two stacks: the calls that wait for arguments and the values computed so far. A call is
applied as soon as the next operator binds no tighter than it. Open calls and groups are barriers
below every operator, so an operator inside of them never reaches what is outside; a comma applies
all calls above the barrier and a closing parenthesis the barrier's own call as well.
-/

namespace Calculator

/-- An operator, a sign or a function that waits for its last argument. -/
structure Call where
  function : Function
  order : Order
  /-- The count of values it will take. -/
  arguments : Int
  name : String

/-- What is pending and what is computed. The calls are listed from the top of their stack. -/
structure Evaluation where
  calls : List Call := []
  values : Stack := {}
  phase : Phase := .expectValue

/-- The pending call of an operator between two values. -/
def Operator.pending (op : Operator) : Call :=
  ⟨op.primitive.function, op.order, 2, op.name⟩

/-- The pending call of a sign. -/
def Operator.pendingSign (op : Operator) : Call :=
  ⟨op.primitive.function, .unary, 1, op.name⟩

/-- Replaces the arguments on the stack by the value of the call. -/
def Call.apply (call : Call) (scope : Scope) (values : Stack) : Traced Stack := do
  let (args, rest) ← Traced.ofExcept (values.top call.arguments)
  let x ← Traced.ofExcept (call.function scope.vars args)
  Traced.report (.applied call.name args x)
  return rest.push x

namespace Evaluation

/-- Applies the calls from the top of the stack for as long as their orders satisfy `p`. -/
def applyCalls (scope : Scope) (p : Order → Bool) :
    List Call → Stack → Traced (List Call × Stack)
  | [], values => return ([], values)
  | call :: calls, values =>
    if p call.order then do
      let values ← call.apply scope values
      applyCalls scope p calls values
    else return (call :: calls, values)

def applyWhile (scope : Scope) (p : Order → Bool) (e : Evaluation) : Traced Evaluation := do
  let (calls, values) ← applyCalls scope p e.calls e.values
  return { e with calls, values }

/-- Applies the calls that bind at least as tightly as `order`. -/
def applyFrom (scope : Scope) (order : Order) (e : Evaluation) : Traced Evaluation :=
  e.applyWhile scope fun o => order.level ≤ o.level

/-- Applies the calls that bind tighter than `order`. -/
def applyTighter (scope : Scope) (order : Order) (e : Evaluation) : Traced Evaluation :=
  e.applyWhile scope fun o => order.level < o.level

/-- Applies the top call. -/
def applyTop (scope : Scope) (e : Evaluation) : Traced Evaluation :=
  match e.calls with
  | [] => Traced.throw .noPendingCall
  | call :: calls => do
    let values ← call.apply scope e.values
    return { e with calls, values }

def pushCall (e : Evaluation) (call : Call) : Evaluation :=
  { e with calls := call :: e.calls }

def pushValue (e : Evaluation) (x : Float) : Evaluation :=
  { e with values := e.values.push x }

/-- A binary operator applies what binds tighter, and if it groups to the left also what binds as
tightly. -/
def pushOperator (scope : Scope) (op : Operator) (e : Evaluation) : Traced Evaluation := do
  let e ← match op.associativity with
    | .left => e.applyFrom scope op.order
    | .right => e.applyTighter scope op.order
  return { e.pushCall op.pending with phase := .expectValue }

/-- Reads a token where a value is expected. -/
def readValue (scope : Scope) (t : Token) (e : Evaluation) : Traced Evaluation :=
  match t.lexeme with
  | .invalid position => Traced.throw (.invalidToken position)
  | .literal x => return { e.pushValue x with phase := .expectOperator }
  | .operator op =>
    if op.isSign then return e.pushCall op.pendingSign
    else Traced.throw (.notSign op t.position)
  | .name s => do
    let x ← Traced.ofExcept (scope.valueOf s)
    return { e.pushValue x with phase := .expectOperator }
  | .call s => do
    let name := Unicode.lower s
    let f ← Traced.ofExcept (scope.function name)
    return { e.pushCall ⟨f, .barrier, 1, name⟩ with phase := .expectValue }
  | .comma => Traced.throw (.commaForValue t.position)
  | .close => Traced.throw (.closeForValue t.position)

/-- One more argument for the top call. -/
def nextArgument (e : Evaluation) : Option Evaluation :=
  match e.calls with
  | [] => none
  | call :: calls =>
    some { e with
      calls := { call with arguments := call.arguments + 1 } :: calls
      phase := .expectValue }

/-- Multiplies by the value that a name or a call begins. -/
def juxtapose (scope : Scope) (name : String) (t : Token) (e : Evaluation) :
    Traced Evaluation := do
  Traced.report (.juxtaposed name)
  let e ← e.pushOperator scope .imul
  e.readValue scope t

/-- Reads a token where an operator is expected. -/
def readOperator (scope : Scope) (t : Token) (e : Evaluation) : Traced Evaluation :=
  match t.lexeme with
  | .invalid position => Traced.throw (.invalidToken position)
  | .literal x => Traced.throw (.literalForOperator x t.position)
  | .operator op => e.pushOperator scope op
  | .name s => e.juxtapose scope s t
  | .call s => e.juxtapose scope s t
  | .comma => do
    let e ← e.applyTighter scope .barrier
    match e.nextArgument with
    | none => Traced.throw (.strayComma t.position)
    | some e => return e
  | .close => do
    let e ← e.applyTighter scope .barrier
    if e.calls.isEmpty then Traced.throw (.strayClose t.position)
    else do
      let e ← e.applyTop scope
      return { e with phase := .expectOperator }

/-- Reads the next token. Once the value is taken no token can follow. -/
def read (scope : Scope) (t : Token) (e : Evaluation) : Traced Evaluation := do
  Traced.report (.parsing t e.phase)
  match e.phase with
  | .expectOperator => e.readOperator scope t
  | .expectValue => e.readValue scope t
  | .finished => Traced.throw .finished

def readAll (scope : Scope) : List Token → Evaluation → Traced Evaluation
  | [], e => return e
  | t :: ts, e => do
    let e ← e.read scope t
    readAll scope ts e

/-- Reads a text, which may be one of several pieces of an expression. -/
def readText (scope : Scope) (text : String) (e : Evaluation) : Traced Evaluation :=
  e.readAll scope (Token.scan text)

/-- Applies everything pending and takes the value, which finishes the evaluation. -/
def finish (scope : Scope) (e : Evaluation) : Traced (Float × Evaluation) :=
  match e.phase with
  | .finished => Traced.throw .resultTaken
  | .expectValue => Traced.throw .unfinished
  | .expectOperator => do
    let e ← e.applyTighter scope .barrier
    match e.calls, e.values.items with
    | [], [x] => return (x, { e with values := {}, phase := .finished })
    | _, _ => Traced.throw .unclosed

end Evaluation

namespace Scope

/-- The value of a list of tokens. -/
def evaluateTokens (scope : Scope) (ts : List Token) : Traced Float := do
  let e ← Evaluation.readAll scope ts {}
  let (x, _) ← e.finish scope
  return x

/-- The value of a text. -/
def evaluate (scope : Scope) (text : String) : Traced Float :=
  scope.evaluateTokens (Token.scan text)

end Scope

end Calculator
