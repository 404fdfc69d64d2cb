import Calculator.Text.Quoted

/-!
# Operators

The binary operators, how tightly each binds and to which side it groups. Implicit multiplication
has no symbol: it stands between two values that are written next to each other.
-/

namespace Calculator

inductive Operator where
  | add
  | sub
  | mul
  | div
  | rem
  | imul
  | pow
  deriving Repr, DecidableEq

/-- How tightly a pending call binds, the loosest first. Signs bind tighter than implicit
multiplication and looser than powers; an open call keeps everything below it out of reach. -/
inductive Order where
  | barrier
  | addSub
  | mulDiv
  | imul
  | unary
  | exp
  deriving Repr, DecidableEq

def Order.level : Order → Nat
  | barrier => 0
  | addSub => 1
  | mulDiv => 2
  | imul => 3
  | unary => 4
  | exp => 5

inductive Associativity where
  | left
  | right
  deriving Repr, DecidableEq

namespace Operator

def symbol : Operator → String
  | add => "+"
  | sub => "-"
  | mul => "*"
  | div => "/"
  | rem => "%"
  | imul => ""
  | pow => "^"

/-- The name of an operator's pending calls. -/
def name : Operator → String
  | add => "add"
  | sub => "sub"
  | mul => "mul"
  | div => "div"
  | rem => "rem"
  | imul => "imul"
  | pow => "pow"

def capitalName : Operator → String
  | add => "ADD"
  | sub => "SUB"
  | mul => "MUL"
  | div => "DIV"
  | rem => "REM"
  | imul => "IMUL"
  | pow => "POW"

def order : Operator → Order
  | add | sub => .addSub
  | mul | div | rem => .mulDiv
  | imul => .imul
  | pow => .exp

def associativity : Operator → Associativity
  | pow => .right
  | _ => .left

/-- Whether the operator can stand before a single value, as a sign. -/
def isSign : Operator → Bool
  | add | sub => true
  | _ => false

/-- The operator that a character of an expression stands for. -/
def ofChar? : Char → Option Operator
  | '+' => some add
  | '-' => some sub
  | '*' => some mul
  | '/' => some div
  | '%' => some rem
  | '^' => some pow
  | _ => none

/-- The operator with the given symbol, or why there is none. -/
def ofSymbol (s : String) : Except String Operator :=
  match s.toList with
  | [] => .error "Implicit multiplication has no symbol"
  | [c] =>
    match ofChar? c with
    | some op => .ok op
    | none => .error (Text.quote s ++ " is not a valid Operator")
  | _ => .error (Text.quote s ++ " is not a valid Operator")

end Operator

end Calculator
