import Calculator.Binary64.Basic

/-!
# Rounding to whole numbers

The four ways to round a number to a whole one, the truncated remainder, and rounding to a number of
decimal places by way of a power of ten.
-/

namespace Calculator.Binary64

/-- Rounds the magnitude `num / den` of a finite number by `rule`, which is told the sign. -/
def toIntegral (rule : Bool → Nat → Nat → Nat) (x : Float) : Float :=
  match value x with
  | .finite negative m e =>
    if 0 ≤ e then x else ofRatio negative (rule negative m (2 ^ (-e).toNat)) 1
  | _ => x

def divCeil (num den : Nat) : Nat :=
  (num + den - 1) / den

/-- The greatest whole number that is not greater. -/
def floor (x : Float) : Float :=
  toIntegral (fun negative num den => if negative then divCeil num den else num / den) x

/-- The least whole number that is not less. -/
def ceil (x : Float) : Float :=
  toIntegral (fun negative num den => if negative then num / den else divCeil num den) x

/-- The nearest whole number, ties to even. -/
def roundEven (x : Float) : Float :=
  toIntegral (fun _ => divNearestEven) x

/-- The whole number a finite number is cut down to. -/
def truncate? (x : Float) : Option Int :=
  match value x with
  | .finite negative m e =>
    let n : Nat := if 0 ≤ e then m * 2 ^ e.toNat else m / 2 ^ (-e).toNat
    some (if negative then -n else n)
  | _ => none

/-- The whole number that a number is equal to. -/
def toInt? (x : Float) : Option Int :=
  match value x with
  | .finite negative m e =>
    if 0 ≤ e ∨ m % 2 ^ (-e).toNat = 0 then
      let n : Nat := if 0 ≤ e then m * 2 ^ e.toNat else m / 2 ^ (-e).toNat
      some (if negative then -n else n)
    else none
  | _ => none

/-- What is left of `x` after taking away `y` a whole number of times towards zero; it has the sign
of `x` and is exact. -/
def remainder (x y : Float) : Float :=
  match value x, value y with
  | .finite negative m e, .finite _ n f =>
    if n = 0 then nan
    else
      let g := min e f
      ofScaled negative (m * 2 ^ (e - g).toNat % (n * 2 ^ (f - g).toNat)) g
  | .finite .., .infinite _ => x
  | _, _ => nan

/-- Ten to the power `n`: exact up to `10 ^ 8`, then `10 ^ 9` multiplied by ten again and again. -/
def powerOfTen (n : Nat) : Float :=
  if n < 9 then .ofNat (10 ^ n)
  else Nat.repeat (· * 10.0) (n - 9) 1e9

/-- Rounds to `places` decimals. The scaled number is rounded, so a scaling that overflows gives
an infinity. -/
def roundPlaces (x : Float) (places : Int) : Float :=
  match places with
  | .ofNat 0 => roundEven x
  | .ofNat n => roundEven (x * powerOfTen n) / powerOfTen n
  | .negSucc n => roundEven (x / powerOfTen (n + 1)) * powerOfTen (n + 1)

end Calculator.Binary64
