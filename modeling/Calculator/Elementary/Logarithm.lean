import Calculator.Elementary.Exponential

/-!
# Logarithms

The logarithm of a fraction is that of a power of two and of a remainder between three quarters and
three halves, whose logarithm is an inverse hyperbolic tangent.
-/

namespace Calculator.Elementary

open Binary64

/-- The natural logarithm of `num / den`, both positive. -/
def logReal (num den : Nat) : Approximation := fun p =>
  let e := floorLog2 num den
  let (n, d) := scaleDown num den e
  let (n, d, e) := if 3 * d < 2 * n then (n, 2 * d, e + 1) else (n, d, e)
  let q := p + 24
  let one : Int := 2 ^ q
  let t : Int := ((n : Int) - d) * one / (n + d)
  let square := t * t / one
  let y := 2 * oddSeries 1 (fun u => u * square / one) (q / 4 + 4) t 1
  shift (y + shift (e * logTwo (q + 16)) (-16)) (-24)

/-- The natural logarithm of ten. -/
def logTen : Approximation :=
  logReal 10 1

/-- Applies `f` to the fraction that a positive number is; the logarithm of zero is infinite. -/
def ofPositive (f : Nat → Nat → Approximation) (x : Float) : Float :=
  match value x with
  | .finite negative m e =>
    if m = 0 then -infinity
    else if negative then nan
    else (f (m * 2 ^ e.toNat) (2 ^ (-e).toNat)).toFloat
  | .infinite false => infinity
  | _ => nan

/-- The quotient of two logarithms; the guard digits outweigh its size. -/
def quotient (x y : Approximation) : Approximation := fun p =>
  divNearest (x (p + 24) * 2 ^ p) (y (p + 24))

def log (x : Float) : Float :=
  ofPositive logReal x

def log2 (x : Float) : Float :=
  ofPositive (fun num den => quotient (logReal num den) logTwo) x

def log10 (x : Float) : Float :=
  ofPositive (fun num den => quotient (logReal num den) logTen) x

/-- The logarithm of `1 + x`, also where `1 + x` is next to one. -/
def log1p (x : Float) : Float :=
  match value x with
  | .finite negative m e =>
    let n := m * 2 ^ e.toNat
    let d := 2 ^ (-e).toNat
    if m = 0 then x
    else if !negative then (logReal (d + n) d).toFloat
    else if n < d then (logReal (d - n) d).toFloat
    else if n = d then -infinity
    else nan
  | .infinite false => infinity
  | _ => nan

end Calculator.Elementary
