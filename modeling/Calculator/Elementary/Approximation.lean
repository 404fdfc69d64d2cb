import Calculator.Binary64.Basic

/-!
# Real numbers by approximation

An `Approximation` gives a real number to any number of binary places. `toFloat` rounds it to the
nearest binary64 number: the precision is raised until both ends of the interval around the
approximation round alike. The elementary functions are sums of series in this form, so each of
their results is rounded once.
-/

namespace Calculator.Elementary

open Binary64

/-- The real number `x` with `|approximation p - x * 2 ^ p| ≤ 1` for every `p`. -/
abbrev Approximation := Nat → Int

/-- The nearest whole number to `n * 2 ^ k`. -/
def shift (n : Int) (k : Int) : Int :=
  match k with
  | .ofNat k => n * 2 ^ k
  | .negSucc k => (n + 2 ^ k) / 2 ^ (k + 1)

/-- The nearest whole number to `n / d`. -/
def divNearest (n d : Int) : Int :=
  if d < 0 then (-2 * n - d) / (-2 * d) else (2 * n + d) / (2 * d)

/-- The number `m * 2 ^ e`. -/
def scaled (m : Int) (e : Int) : Approximation := fun p => shift m (e + p)

namespace Approximation

def roundAt (p : Nat) (n : Int) : Float :=
  ofRatio (n < 0) n.natAbs (2 ^ p)

/-- The nearest number, if `p` places are enough to tell it. -/
def settle? (x : Approximation) (p : Nat) : Option Float :=
  let low := roundAt p (x p - 1)
  let high := roundAt p (x p + 1)
  if low == high then some high else none

def precisions : List Nat := [96, 192, 384, 768, 1536, 3072]

/-- What lies within `2 ^ -3000` of the middle between two numbers is taken to lie there. -/
def roundMiddle (x : Approximation) : Float :=
  roundAt 3000 (shift (x 3072) (-72))

def toFloat (x : Approximation) : Float :=
  (precisions.findSome? x.settle?).getD x.roundMiddle

end Approximation

/-! ### Series -/

/-- `t / k + sign * (t' / (k + 2) + sign * ...)` where each `t` leads to the next by `next`. -/
def oddSeries (sign : Int) (next : Int → Int) : Nat → Int → Nat → Int
  | 0, _, _ => 0
  | terms + 1, t, k => t / k + sign * oddSeries sign next terms (next t) (k + 2)

/-- `1 / k + sign / (3 * k ^ 3) + 1 / (5 * k ^ 5) + ...`, the inverse tangent of `1 / k` or its
hyperbolic counterpart. -/
def reciprocalSeries (sign : Int) (k : Nat) (p : Nat) : Int :=
  oddSeries sign (· / (k * k : Nat)) (p / 3 + 2) (2 ^ p / k) 1

/-- Sixteen times the angle of slope one fifth, less four times that of slope one in 239. -/
def pi : Approximation := fun p =>
  shift (16 * reciprocalSeries (-1) 5 (p + 16) - 4 * reciprocalSeries (-1) 239 (p + 16)) (-16)

/-- The natural logarithm of two. -/
def logTwo : Approximation := fun p =>
  shift (2 * reciprocalSeries 1 3 (p + 16)) (-16)

end Calculator.Elementary
