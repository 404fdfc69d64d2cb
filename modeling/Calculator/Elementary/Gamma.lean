import Calculator.Elementary.Circular
import Calculator.Elementary.Power

/-!
# The gamma function

Between its table of factorials and its tails the function is computed in binary64 arithmetic from
`gamma x = sum x / e ^ y * y ^ (x - 1/2)` with `y = x + shift - 1/2`, where `sum` is a quotient of
two polynomials of degree twelve. Negative arguments are reflected.
-/

namespace Calculator.Elementary

open Binary64

/-- The values at 1, 2, 3, ... that are exact. -/
def factorials : List Float := [
  1.0, 1.0, 2.0, 6.0, 24.0, 120.0, 720.0, 5040.0, 40320.0, 362880.0, 3628800.0, 39916800.0,
  479001600.0, 6227020800.0, 87178291200.0, 1307674368000.0, 20922789888000.0,
  355687428096000.0, 6402373705728000.0, 121645100408832000.0, 2432902008176640000.0,
  51090942171709440000.0, 1124000727777607680000.0]

/-- The coefficients of the numerator and the denominator, of the lowest degree first. -/
def gammaCoefficients : List (Float × Float) := [
  (23531376880.410759688572007674451636754734846804940, 0.0),
  (42919803642.649098768957899047001988850926355848959, 39916800.0),
  (35711959237.355668049440185451547166705960488635843, 120543840.0),
  (17921034426.037209699919755754458931112671403265390, 150917976.0),
  (6039542586.3520280050642916443072979210699388420708, 105258076.0),
  (1439720407.3117216736632230727949123939715485786372, 45995730.0),
  (248874557.86205415651146038641322942321632125127801, 13339535.0),
  (31426415.585400194380614231628318205362874684987640, 2637558.0),
  (2876370.6289353724412254090516208496135991145378768, 357423.0),
  (186056.26539522349504029498971604569928220784236328, 32670.0),
  (8071.6720023658162106380029022722506138218516325024, 1925.0),
  (210.82427775157934587250973392071336271166969580291, 66.0),
  (2.5066282746310002701649081771338373386264310793408, 1.0)]

/-- The quotient of the two polynomials, in powers of `x` if it is small and of `1 / x` if not. -/
def gammaSum (x : Float) : Float :=
  let (num, den) :=
    if x < 5.0 then
      gammaCoefficients.foldr (fun (a, b) (n, d) => (n * x + a, d * x + b)) (0.0, 0.0)
    else
      gammaCoefficients.foldl (fun (n, d) (a, b) => (n / x + a, d / x + b)) (0.0, 0.0)
  num / den

def gammaShift : Float := 6.024680040776729583740234375

/-- The number pi. -/
def piNumber : Float := 3.141592653589793

/-- The nearest whole number of quarter turns to `y` half turns, the greater of two. -/
def nearestQuarter (y : Float) : Float :=
  let below := floor (2.0 * y)
  if 0.5 ≤ 2.0 * y - below then below + 1.0 else below

/-- The sine of `x` half turns, reduced to an eighth of a turn before it is multiplied by pi. -/
def sinHalfTurns (x : Float) : Float :=
  let y := remainder x.abs 2.0
  let r :=
    match truncate? (nearestQuarter y) with
    | some 0 => sin (piNumber * y)
    | some 1 => cos (piNumber * (y - 0.5))
    | some 2 => sin (piNumber * (1.0 - y))
    | some 3 => -cos (piNumber * (y - 1.5))
    | _ => sin (piNumber * (y - 2.0))
  signed (isNegative x) r

/-- The gamma function at a number that is neither zero nor whole, of a magnitude from `1e-20` to
200. The power is taken in two halves where it would overflow. -/
def gammaFinite (x : Float) : Float :=
  let a := x.abs
  let offset := gammaShift - 0.5
  let y := a + offset
  let z := if offset < a then (y - a) - offset else (y - offset) - a
  let z := z * gammaShift / y
  if x < 0.0 then
    let r := -piNumber / sinHalfTurns a / a * exp y / gammaSum a
    let r := r - z * r
    if a < 140.0 then r / pow y (a - 0.5)
    else
      let half := pow y (a / 2.0 - 0.25)
      r / half / half
  else
    let r := gammaSum a / exp y
    let r := r + z * r
    if a < 140.0 then r * pow y (a - 0.5)
    else
      let half := pow y (a / 2.0 - 0.25)
      r * half * half

/-- The poles have no value; what is too great in magnitude is positive infinity. -/
def gamma (x : Float) : Float :=
  match value x with
  | .nan | .infinite true => nan
  | .infinite false => infinity
  | .finite negative m _ =>
    if m = 0 then nan
    else
      match toInt? x with
      | some n =>
        if negative then nan
        else match factorials[n.toNat - 1]? with
          | some y => y
          | none => if 200.0 < x then infinity else overflowed (gammaFinite x)
      | none =>
        if x.abs < 1e-20 then overflowed (1.0 / x)
        else if 200.0 < x then infinity
        else if x < -200.0 then 0.0 / sinHalfTurns x
        else overflowed (gammaFinite x)
where
  overflowed (y : Float) : Float := if y == -infinity then infinity else y

end Calculator.Elementary
