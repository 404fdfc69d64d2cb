import Calculator.Binary64.Basic

/-!
# Decimal fractions

A decimal is a whole number of units of a power of ten. `toFloat` is the binary64 number nearest to
it. `shortest` goes the other way: of the decimals with the fewest digits that are read back as a
given number it is the one nearest to that number.
-/

namespace Calculator

/-- The magnitude `units * 10 ^ exponent`. -/
structure Decimal where
  units : Nat
  exponent : Int
  deriving Repr, DecidableEq

namespace Decimal

open Binary64

/-- The number nearest to a decimal with a sign, ties to even. -/
def toFloat (negative : Bool) (d : Decimal) : Float :=
  ofRatio negative (d.units * 10 ^ d.exponent.toNat) (10 ^ (-d.exponent).toNat)

def digits (n : Nat) : List Char :=
  Nat.toDigits 10 n

/-- The exponent of the first digit of `num / den`. -/
def leadingExponent (num den : Nat) : Int :=
  if den ≤ num then (digits (num / den)).length - 1
  else -(digits ((den - 1) / num)).length

/-- The two neighbours of `num / den` on the grid of step `10 ^ e`, the nearer first and the even
one first if both are as near. -/
def neighbours (num den : Nat) (e : Int) : List Decimal :=
  let n := num * 10 ^ (-e).toNat
  let d := den * 10 ^ e.toNat
  let below := n / d
  let rest := 2 * (n % d)
  if rest < d ∨ rest = d ∧ below % 2 = 0 then [⟨below, e⟩, ⟨below + 1, e⟩]
  else [⟨below + 1, e⟩, ⟨below, e⟩]

/-- The decimal that is equal to `mantissa * 2 ^ exponent`. -/
def exact (mantissa : Nat) (exponent : Int) : Decimal :=
  match exponent with
  | .ofNat e => ⟨mantissa * 2 ^ e, 0⟩
  | .negSucc e => ⟨mantissa * 5 ^ (e + 1), .negSucc e⟩

/-- The nearest decimal that reads back, on the coarsest grid of at most seventeen digits that has
one. Seventeen digits tell any two numbers apart. -/
def shortest (mantissa : Nat) (exponent : Int) : Decimal :=
  let x := ofScaled false mantissa exponent
  let num := mantissa * 2 ^ exponent.toNat
  let den := 2 ^ (-exponent).toNat
  let lead := leadingExponent num den
  let readsBack (d : Decimal) : Bool := (d.toFloat false).toBits == x.toBits
  ((List.range 17).findSome? fun (n : Nat) => (neighbours num den (lead - n)).find? readsBack).getD
    (exact mantissa exponent)

end Decimal

end Calculator
