import Calculator.Arithmetic.Operation
import Calculator.Elementary.Gamma
import Calculator.Failure
import Calculator.Statistics

/-!
# Primitive functions

The functions that are defined from the start. All arithmetic is that of IEEE 754, so a call fails
only if the number of its arguments is wrong, and then before anything is computed: `isOk_call`.
-/

namespace Calculator

inductive Primitive where
  | group
  | add
  | sub
  | mul
  | div
  | rem
  | pow
  | floor
  | ceil
  | round
  | abs
  | sqr
  | cube
  | sqrt
  | cbrt
  | min
  | max
  | gamma
  | fac
  | exp
  | exp2
  | expm1
  | ln
  | log
  | log2
  | log10
  | ln1p
  | e
  | mean
  | median
  | range
  | var
  | stddev
  | deg
  | rad
  | pi
  | tau
  | sin
  | cos
  | tan
  | asin
  | acos
  | atan
  | atan2
  | sinh
  | cosh
  | tanh
  deriving Repr, DecidableEq

namespace Primitive

open Binary64 Elementary

/-- Rounds to a number of decimals, which is cut down to a whole one. Beyond the range of exponents
there is nothing to round, or nothing left. -/
def roundTo (x places : Float) : Float :=
  if 308.0 < places && isFinite places then x
  else if places < -308.0 && isFinite places then signed (isNegative x) 0.0
  else
    match truncate? places with
    | some n => roundPlaces x n
    | none => nan

def operation : Primitive → Operation
  | group => .unary id
  | add => .ofList Statistics.sum
  | sub => .unaryOrBinary (- ·) (· - ·)
  | mul => .ofList Statistics.product
  | div => .binary (· / ·)
  | rem => .binary remainder
  | pow => .binary Elementary.pow
  | floor => .unary Binary64.floor
  | ceil => .unary Binary64.ceil
  | round => .unaryOrBinary roundEven roundTo
  | abs => .unary Float.abs
  | sqr => .unary fun x => x * x
  | cube => .unary fun x => x * x * x
  | sqrt => .unary Float.sqrt
  | cbrt => .unary Elementary.cbrt
  | min => .ofList Statistics.minimum
  | max => .ofList Statistics.maximum
  | gamma => .unary Elementary.gamma
  | fac => .unary fun x => Elementary.gamma (x + 1.0)
  | exp => .unary Elementary.exp
  | exp2 => .unary Elementary.exp2
  | expm1 => .unary Elementary.expm1
  | ln => .unary Elementary.log
  | log => .unaryOrBinary Elementary.log fun x base => Elementary.log x / Elementary.log base
  | log2 => .unary Elementary.log2
  | log10 => .unary Elementary.log10
  | ln1p => .unary Elementary.log1p
  | e => .constant 2.718281828459045
  | mean => .ofList Statistics.mean
  | median => .ofList Statistics.median
  | range => .ofList Statistics.range
  | var => .ofList Statistics.variance
  | stddev => .ofList Statistics.standardDeviation
  | deg => .unary (· * (180.0 / piNumber))
  | rad => .unary (· * (piNumber / 180.0))
  | pi => .constant piNumber
  | tau => .constant (2.0 * piNumber)
  | sin => .unary Elementary.sin
  | cos => .unary Elementary.cos
  | tan => .unary Elementary.tan
  | asin => .unary Elementary.asin
  | acos => .unary Elementary.acos
  | atan => .unary Elementary.atan
  | atan2 => .binary Elementary.atan2
  | sinh => .unary Elementary.sinh
  | cosh => .unary Elementary.cosh
  | tanh => .unary Elementary.tanh

/-- The functions by their names. The empty name is that of a group in parentheses. -/
def catalogue : List (String × Primitive) := [
  ("", group), ("add", add), ("sub", sub), ("mul", mul), ("div", div), ("rem", rem), ("pow", pow),
  ("floor", floor), ("ceil", ceil), ("round", round), ("abs", abs), ("sqr", sqr), ("cube", cube),
  ("sqrt", sqrt), ("cbrt", cbrt), ("min", min), ("max", max), ("gamma", gamma), ("fac", fac),
  ("exp", exp), ("exp2", exp2), ("expm1", expm1), ("ln", ln), ("log", log), ("log2", log2),
  ("log10", log10), ("ln1p", ln1p), ("e", e), ("mean", mean), ("median", median), ("range", range),
  ("var", var), ("stddev", stddev), ("stdev", stddev), ("deg", deg), ("rad", rad), ("pi", pi),
  ("tau", tau), ("sin", sin), ("cos", cos), ("tan", tan), ("asin", asin), ("acos", acos),
  ("atan", atan), ("atan2", atan2), ("sinh", sinh), ("cosh", cosh), ("tanh", tanh)]

/-- The name in a function's failures, the first of its names. -/
def label (f : Primitive) : String :=
  match catalogue.find? (·.2 = f) with
  | some ("", _) => "group"
  | some (name, _) => name
  | none => ""

def call (f : Primitive) (args : List Float) : Except Failure Float :=
  match f.operation.value? args with
  | some x => .ok x
  | none => .error (.argumentCount f.label f.operation.arity args.length)

/-- A call succeeds exactly when the number of arguments is right. -/
theorem isOk_call (f : Primitive) (args : List Float) :
    (f.call args).isOk = f.operation.arity.accepts args.length := by
  rw [← Operation.isSome_value?, call]
  cases f.operation.value? args <;> rfl

/-- All names that can be typed, in order. -/
def names : List String :=
  ((catalogue.map (·.1)).filter (· ≠ "")).mergeSort fun a b => a ≤ b

/-- The names of a function. -/
def aliases (f : Primitive) : List String :=
  ((catalogue.filter (·.2 = f)).map (·.1)).mergeSort fun a b => a ≤ b

end Primitive

/-- The function that an operator applies, whatever its name has been bound to since. -/
def Operator.primitive : Operator → Primitive
  | add => .add
  | sub => .sub
  | mul | imul => .mul
  | div => .div
  | rem => .rem
  | pow => .pow

end Calculator
