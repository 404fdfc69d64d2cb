import Calculator.Elementary.Exponential

/-!
# Circular functions

An angle is reduced to a number of quarter turns and a remainder of at most an eighth of a turn; pi
is taken to as many places as the angle's size demands. The inverse functions are angles of slopes,
and a slope is made small by halving its angle.
-/

namespace Calculator.Elementary

open Binary64

/-- `t - t * square / (i * (i + 1)) + ...`, the series of both sine and cosine. -/
def alternatingSeries (one square : Int) : Nat → Int → Nat → Int
  | 0, _, _ => 0
  | terms + 1, t, i =>
    t - alternatingSeries one square terms (t * square / (one * (i * (i + 1) : Nat))) (i + 2)

/-- Quarter turns in the angle `m * 2 ^ e`, and what remains, to `p` places. -/
def quarterTurns (m e : Int) (p : Nat) : Int × Int :=
  let size := (e + 53).toNat
  let q := p + size + 24
  let angle := scaled m e q
  let halfTurn := pi q
  let k := (4 * angle + halfTurn) / (2 * halfTurn)
  (k, shift (2 * angle - k * halfTurn) (-(size + 25 : Nat)))

/-- Sine and cosine of the angle `m * 2 ^ e`. -/
def sineCosine (m e : Int) (p : Nat) : Int × Int :=
  let q := p + 24
  let (k, r) := quarterTurns m e q
  let one : Int := 2 ^ q
  let square := r * r / one
  let terms := q / 4 + 10
  let s := alternatingSeries one square terms r.natAbs 2
  let s := shift (if r < 0 then -s else s) (-24)
  let c := shift (alternatingSeries one square terms one 1) (-24)
  match k % 4 with
  | 0 => (s, c)
  | 1 => (c, -s)
  | 2 => (-s, -c)
  | _ => (-c, s)

/-- Applies `f` to the angle that a finite number is. -/
def ofAngle (f : Int → Int → Approximation) (x : Float) : Float :=
  match value x with
  | .finite negative m e => (f (if negative then -m else m) e).toFloat
  | _ => nan

def sin (x : Float) : Float :=
  if x == 0.0 then x else ofAngle (fun m e p => (sineCosine m e p).1) x

def cos (x : Float) : Float :=
  ofAngle (fun m e p => (sineCosine m e p).2) x

/-- No binary64 number comes closer to a pole than `2 ^ -62`, so 140 guard digits are enough. -/
def tan (x : Float) : Float :=
  if x == 0.0 then x
  else ofAngle (fun m e p =>
    let (s, c) := sineCosine m e (p + 140)
    divNearest (s * 2 ^ p) c) x

/-! ### Angles of slopes -/

/-- The angle of the slope `t / 2 ^ p`, which is at most one. -/
def arctanSmall (p : Nat) (t : Nat) : Int :=
  let one := 2 ^ p
  let eighth : Nat := Nat.repeat (fun t => t * one / (one + Nat.sqrt (one * one + t * t))) 3 t
  let square : Int := (eighth * eighth / one : Nat)
  8 * oddSeries (-1) (fun u => u * square / one) (p / 6 + 2) eighth 1

/-- The angle of the slope `num / den`; an infinite slope has the denominator zero. -/
def arctanReal (num den : Nat) : Approximation := fun p =>
  let q := p + 24
  let y :=
    if num ≤ den then arctanSmall q (num * 2 ^ q / den)
    else shift (pi (q + 8)) (-9) - arctanSmall q (den * 2 ^ q / num)
  shift y (-24)

def atan (x : Float) : Float :=
  oddly (fun x =>
    match value x with
    | .nan => nan
    | .infinite _ => (arctanReal 1 0).toFloat
    | .finite _ m e => (arctanReal (m * 2 ^ e.toNat) (2 ^ (-e).toNat)).toFloat) x

/-- The angle with the sine `num / den`. -/
def arcsinReal (num den : Nat) : Approximation := fun p =>
  arctanReal (num * 2 ^ (p + 64)) (Nat.sqrt ((den * den - num * num) * 4 ^ (p + 64))) p

def asin (x : Float) : Float :=
  oddly (fun x =>
    match value x with
    | .finite _ m e =>
      if x ≤ 1.0 then (arcsinReal (m * 2 ^ e.toNat) (2 ^ (-e).toNat)).toFloat else nan
    | _ => nan) x

def acos (x : Float) : Float :=
  match value x with
  | .finite negative m e =>
    if x == 1.0 then 0.0
    else if x.abs ≤ 1.0 then
      Approximation.toFloat fun p =>
        let y := arcsinReal (m * 2 ^ e.toNat) (2 ^ (-e).toNat) (p + 8)
        shift (shift (pi (p + 16)) (-9) - (if negative then -y else y)) (-8)
    else nan
  | _ => nan

/-- The direction of the point with the magnitudes `num` and `den` of its coordinates: a right
angle from the axis of `den` or, behind the origin, the rest of the half turn. -/
def direction (behind : Bool) (num den : Nat) : Float :=
  if num = 0 ∧ !behind then 0.0
  else Approximation.toFloat fun p =>
    let y := if num = 0 then 0 else arctanReal num den (p + 8)
    shift (if behind then pi (p + 8) - y else y) (-8)

/-- The direction of the point `(x, y)`, between minus a half turn and a half turn. Points on the
axes keep the side that the sign of a zero tells. -/
def atan2 (y x : Float) : Float :=
  match value y, value x with
  | .nan, _ => nan
  | _, .nan => nan
  | .infinite up, .infinite behind => signed up (direction behind 1 1)
  | .infinite up, .finite .. => signed up (direction false 1 0)
  | .finite up .., .infinite behind => signed up (direction behind 0 1)
  | .finite up n f, .finite behind m e =>
    signed up (direction behind (n * 2 ^ (f - e).toNat) (m * 2 ^ (e - f).toNat))

end Calculator.Elementary
