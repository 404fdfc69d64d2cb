import Calculator.Binary64.Integral
import Calculator.Elementary.Logarithm

/-!
# Powers and roots

`pow` is the exponential of `y * log x` for positive `x`. The other cases are those of IEEE 754:
a negative base has powers with whole exponents only, and zeros and infinities are limits.
-/

namespace Calculator.Elementary

open Binary64

def isOdd (y : Float) : Bool :=
  match toInt? y with
  | some n => n % 2 == 1
  | none => false

/-- `(num / den) ^ (m * 2 ^ e)`. -/
def powReal (num den : Nat) (m e : Int) : Approximation :=
  expReal fun p =>
    let q := p + (e + 53).toNat + 8
    shift (m * logReal num den q) (e + p - q)

/-- The power of a finite magnitude that is not zero. -/
def powMagnitude (num den : Nat) (negative : Bool) (m : Nat) (e : Int) : Float :=
  let m : Int := if negative then -m else m
  let size := m * logReal num den (32 + (e + 53).toNat)
  let exponent := shift size (e - 32 - (e + 53).toNat)
  if 720 < exponent then infinity
  else if exponent < -760 then 0.0
  else (powReal num den m e).toFloat

/-- The limit of a power with an infinite exponent. -/
def powInfinite (x : Float) (negative : Bool) : Float :=
  if x.abs == 1.0 then 1.0
  else if (1.0 < x.abs) == negative then 0.0
  else infinity

def pow (x y : Float) : Float :=
  if y == 0.0 || x == 1.0 then 1.0
  else if y == 0.5 then x.sqrt
  else
    let negative := isNegative x && isOdd y
    match value x, value y with
    | .nan, _ => nan
    | _, .nan => nan
    | _, .infinite down => powInfinite x down
    | .infinite _, .finite down .. => signed negative (if down then 0.0 else infinity)
    | .finite below m e, .finite down n f =>
      if m = 0 then signed negative (if down then infinity else 0.0)
      else if below && (toInt? y).isNone then nan
      else signed negative (powMagnitude (m * 2 ^ e.toNat) (2 ^ (-e).toNat) down n f)

/-- The greatest number of `bits` binary digits whose cube is at most `n`, given its digits above
those. -/
def cubeRootFrom (n : Nat) : Nat → Nat → Nat
  | 0, r => r
  | bits + 1, r =>
    let s := r + 2 ^ bits
    cubeRootFrom n bits (if s * s * s ≤ n then s else r)

def cubeRoot (n : Nat) : Nat :=
  cubeRootFrom n (n.log2 / 3 + 1) 0

def cbrt (x : Float) : Float :=
  oddly (fun x =>
    match value x with
    | .finite _ m e =>
      Approximation.toFloat fun p => cubeRoot (m * 2 ^ e.toNat * 8 ^ p / 2 ^ (-e).toNat)
    | _ => x) x

end Calculator.Elementary
