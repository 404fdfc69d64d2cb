/-!
# Binary64 numbers as exact values

`value` reads what a number stands for off its bits, and `ofRatio` is the number nearest to a
fraction, ties to even. Together they give exact definitions of every operation of the calculator
that hardware does not: a value is decoded, worked on with whole numbers and rounded once.
-/

namespace Calculator.Binary64

/-- Powers of whole numbers are those of the core library, whatever else is imported. -/
scoped instance (priority := high) corePow {α : Type} [NatPow α] : Pow α Nat := instPowNat

/-- What a number stands for; `finite` is `± mantissa * 2 ^ exponent`. -/
inductive Value where
  | nan
  | infinite (negative : Bool)
  | finite (negative : Bool) (mantissa : Nat) (exponent : Int)
  deriving Repr, DecidableEq

/-- The exponent of the smallest positive number. -/
def leastExponent : Int := -1074

/-- The bits of positive infinity. -/
def infinityBits : Nat := 2047 * 2 ^ (52 : Nat)

/-- Subnormal numbers have the least exponent, all others a mantissa of 53 bits. -/
def value (x : Float) : Value :=
  let bits : Nat := x.toBits.toNat
  let negative := decide (2 ^ (63 : Nat) ≤ bits)
  let exponent : Nat := bits / 2 ^ (52 : Nat) % 2 ^ (11 : Nat)
  let fraction : Nat := bits % 2 ^ (52 : Nat)
  if exponent = 2047 then
    if fraction = 0 then .infinite negative else .nan
  else if exponent = 0 then
    .finite negative fraction leastExponent
  else
    .finite negative (2 ^ (52 : Nat) + fraction) ((exponent : Int) - 1 + leastExponent)

def isNegative (x : Float) : Bool :=
  2 ^ (63 : Nat) ≤ x.toBits.toNat

def isFinite (x : Float) : Bool :=
  match value x with
  | .finite .. => true
  | _ => false

def nan : Float := 0.0 / 0.0

/-- Positive infinity. -/
def infinity : Float := 1.0 / 0.0

/-- A magnitude with its sign. -/
def signed (negative : Bool) (x : Float) : Float :=
  if negative then -x else x

/-- The whole number nearest to `num / den`, the even one of two. -/
def divNearestEven (num den : Nat) : Nat :=
  let r := num % den
  if 2 * r < den then num / den
  else if den < 2 * r then num / den + 1
  else num / den + num / den % 2

/-- `num / den * 2 ^ (-e)` as a fraction. -/
def scaleDown (num den : Nat) (e : Int) : Nat × Nat :=
  (num * 2 ^ (-e).toNat, den * 2 ^ e.toNat)

/-- The exponent of the greatest power of two that is at most `num / den`. -/
def floorLog2 (num den : Nat) : Int :=
  let e : Int := num.log2 - den.log2
  let (n, d) := scaleDown num den e
  if n < d then e - 1 else e

/-- The bits of the positive number nearest to `num / den`. A mantissa that rounds up to the next
power of two carries into the exponent, and whatever is too large is infinite. -/
def magnitudeBits (num den : Nat) : Nat :=
  if num = 0 then 0
  else
    let e := max (floorLog2 num den - 52) leastExponent
    let (n, d) := scaleDown num den e
    min ((e - leastExponent).toNat * 2 ^ (52 : Nat) + divNearestEven n d) infinityBits

/-- The number nearest to `± num / den`, ties to even. -/
def ofRatio (negative : Bool) (num den : Nat) : Float :=
  .ofBits (.ofNat ((if negative then 2 ^ (63 : Nat) else 0) + magnitudeBits num den))

/-- The number nearest to `± mantissa * 2 ^ exponent`. -/
def ofScaled (negative : Bool) (mantissa : Nat) (exponent : Int) : Float :=
  ofRatio negative (mantissa * 2 ^ exponent.toNat) (2 ^ (-exponent).toNat)

end Calculator.Binary64
