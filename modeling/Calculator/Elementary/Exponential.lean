import Calculator.Elementary.Approximation

/-!
# Exponential functions

The exponential of a real number is taken apart into a power of two and the exponential of a small
remainder. From it come the powers of two, `e ^ x - 1` and the hyperbolic functions.
-/

namespace Calculator.Elementary

open Binary64

/-- `t + t * r / i + t * r ^ 2 / (i * (i + 1)) + ...` with `r` in units of `1 / one`. -/
def powerSeries (one r : Int) : Nat → Int → Nat → Int
  | 0, _, _ => 0
  | terms + 1, t, i => t + powerSeries one r terms (t * r / (one * i)) (i + 1)

/-- The exponential of `z / 2 ^ p` for `|z| ≤ 2 ^ p`: that of its `2 ^ halvings`-th part, squared
again and again. -/
def expSmall (p : Nat) (z : Int) : Int :=
  let halvings := 8 + p / 64
  let q := p + 2 * halvings + 16
  let one : Int := 2 ^ q
  let r := z * 2 ^ (q - p) / 2 ^ halvings
  let y := powerSeries one r (q / halvings + 2) one 1
  shift (Nat.repeat (fun v => v * v / one) halvings y) (p - q)

/-- The exponential of a real number that is not so great as to overflow. -/
def expReal (z : Approximation) : Approximation := fun p =>
  let k := divNearest (z 32) (logTwo 32)
  let q := p + k.toNat + 8
  let r := z q - shift (k * logTwo (q + 16)) (-16)
  shift (expSmall q r) (k + p - q)

/-- Applies `f` to the real argument of a finite number between `low` and `high`. What lies outside
has the limits `below` and `above`. -/
def between (low high below above : Float) (f : Approximation → Approximation) (x : Float) :
    Float :=
  match value x with
  | .nan => nan
  | .infinite negative => if negative then below else above
  | .finite negative m e =>
    if x < low then below
    else if high < x then above
    else (f (scaled (if negative then -m else m) e)).toFloat

def exp (x : Float) : Float :=
  between (-750.0) 710.0 0.0 infinity expReal x

/-- The powers of two. -/
def exp2 (x : Float) : Float :=
  between (-1080.0) 1025.0 0.0 infinity
    (fun z => expReal fun p => shift (z (p + 16) * logTwo (p + 32)) (-(p + 48 : Nat))) x

/-- `e ^ x - 1`, also where `e ^ x` is next to one. -/
def expm1 (x : Float) : Float :=
  if x == 0.0 then x
  else between (-50.0) 710.0 (-1.0) infinity (fun z p => expReal z p - 2 ^ p) x

/-- A function that changes its sign with its argument, by its values at positive arguments. -/
def oddly (f : Float → Float) (x : Float) : Float :=
  if x == 0.0 then x else signed (isNegative x) (f x.abs)

def negated (z : Approximation) : Approximation := fun p => -z p

def sinh (x : Float) : Float :=
  oddly (between 0.0 712.0 0.0 infinity fun z p =>
    shift (expReal z (p + 8) - expReal (negated z) (p + 8)) (-9)) x

def cosh (x : Float) : Float :=
  between 0.0 712.0 1.0 infinity
    (fun z p => shift (expReal z (p + 8) + expReal (negated z) (p + 8)) (-9)) x.abs

def tanh (x : Float) : Float :=
  oddly (between 0.0 22.0 0.0 1.0 fun z p =>
    let y := expReal (fun q => z (q + 1)) (p + 72)
    divNearest ((y - 2 ^ (p + 72)) * 2 ^ p) (y + 2 ^ (p + 72))) x

end Calculator.Elementary
