/-!
# Operations and their arity

An operation is a function of numbers in a form that fixes how many arguments it takes. It has a
value exactly at the lists of a right length: `isSome_value?`.
-/

namespace Calculator

/-- How many arguments a function takes. -/
inductive Arity where
  | exactly (n : Nat)
  | oneOrTwo
  | atLeastOne
  deriving Repr, DecidableEq

def Arity.accepts : Arity → Nat → Bool
  | exactly n, k => k == n
  | oneOrTwo, k => k == 1 || k == 2
  | atLeastOne, k => k != 0

/-- A function by the number of its arguments; `many` takes the first argument and the others. -/
inductive Operation where
  | constant (value : Float)
  | unary (f : Float → Float)
  | binary (f : Float → Float → Float)
  | unaryOrBinary (f : Float → Float) (g : Float → Float → Float)
  | many (f : Float → List Float → Float)

namespace Operation

def arity : Operation → Arity
  | constant _ => .exactly 0
  | unary _ => .exactly 1
  | binary _ => .exactly 2
  | unaryOrBinary .. => .oneOrTwo
  | many _ => .atLeastOne

/-- The value at a list of arguments, if it has a right length. -/
def value? : Operation → List Float → Option Float
  | constant x, [] => some x
  | unary f, [a] => some (f a)
  | binary f, [a, b] => some (f a b)
  | unaryOrBinary f _, [a] => some (f a)
  | unaryOrBinary _ g, [a, b] => some (g a b)
  | many f, a :: r => some (f a r)
  | _, _ => none

/-- A function of a list with at least one item. -/
def ofList (f : List Float → Float) : Operation :=
  many fun a r => f (a :: r)

theorem isSome_value? (op : Operation) (args : List Float) :
    (op.value? args).isSome = op.arity.accepts args.length := by
  rcases op with _ | _ | _ | _ | _ <;> rcases args with _ | ⟨a, _ | ⟨b, _ | ⟨c, r⟩⟩⟩ <;>
    simp [value?, arity, Arity.accepts]

end Operation

end Calculator
