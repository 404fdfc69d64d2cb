import Calculator.Binary64.Integral
import Calculator.Decimal.Basic

/-!
# Numerals

How numbers are written and read. `full` writes a number with the fewest digits that read back,
always with a decimal point or an exponent. `display` is what a user is shown: a number that is
whole is written as the whole number it is, to the last digit. `literal?` reads the unsigned
numerals of expressions, `parse?` also signs, exponents, infinities and nan.
-/

namespace Calculator.Numeral

open Binary64 Decimal

/-- Numbers whose first digit has an exponent from `lowest` up to but not including `highest` are
written with all their places, others with an exponent of at least `exponentWidth` digits. -/
structure Layout where
  lowest : Int
  highest : Int
  exponentWidth : Nat

/-- The layout of every number the calculator writes. -/
def layout : Layout := ⟨-4, 16, 2⟩

def padLeft (width : Nat) (s : List Char) : List Char :=
  List.replicate (width - s.length) '0' ++ s

def dropTrailingZeros (s : List Char) : List Char :=
  (s.reverse.dropWhile (· == '0')).reverse

/-- All the places of the number with the digits `ds`, the first of exponent `lead`. -/
def positional (ds : List Char) (lead : Int) : List Char :=
  match lead with
  | .ofNat n =>
    let whole := ds.take (n + 1) ++ List.replicate (n + 1 - ds.length) '0'
    let fraction := ds.drop (n + 1)
    whole ++ '.' :: if fraction.isEmpty then ['0'] else fraction
  | .negSucc n => '0' :: '.' :: List.replicate n '0' ++ ds

/-- One digit before the point and the exponent after the rest. -/
def scientific (width : Nat) (ds : List Char) (lead : Int) : List Char :=
  let fraction := ds.drop 1
  ds.take 1 ++ (if fraction.isEmpty then [] else '.' :: fraction) ++
    'e' :: (if lead < 0 then '-' else '+') :: padLeft width (digits lead.natAbs)

def arrange (l : Layout) (d : Decimal) : List Char :=
  let ds := digits d.units
  let lead := d.exponent + ds.length - 1
  if l.lowest ≤ lead ∧ lead < l.highest then positional (dropTrailingZeros ds) lead
  else scientific l.exponentWidth (dropTrailingZeros ds) lead

def withSign (negative : Bool) (s : List Char) : List Char :=
  if negative then '-' :: s else s

/-- The fewest digits that read back. -/
def full (x : Float) : List Char :=
  match value x with
  | .nan => ['n', 'a', 'n']
  | .infinite negative => withSign negative ['i', 'n', 'f']
  | .finite negative m e =>
    withSign negative (if m = 0 then ['0', '.', '0'] else arrange layout (shortest m e))

/-- The text of a whole number; zero has no sign. -/
def ofInt : Int → List Char
  | .ofNat n => digits n
  | .negSucc n => '-' :: digits (n + 1)

/-- Whole numbers to their last digit, others in full. -/
def display (x : Float) : List Char :=
  match toInt? x with
  | some n => ofInt n
  | none => full x

def isDigit (c : Char) : Bool :=
  '0' ≤ c && c ≤ '9'

/-- An unsigned numeral without exponent: digits with at most one point among them, and at least
one digit. -/
def decimal? (s : List Char) : Option Decimal :=
  let whole := s.takeWhile isDigit
  match s.dropWhile isDigit with
  | [] => if whole.isEmpty then none else some ⟨Nat.ofDigitChars 10 whole 0, 0⟩
  | '.' :: fraction =>
    if fraction.all isDigit && !(whole.isEmpty && fraction.isEmpty) then
      some ⟨Nat.ofDigitChars 10 (whole ++ fraction) 0, -fraction.length⟩
    else none
  | _ => none

/-- The number nearest to an unsigned numeral. -/
def literal? (s : List Char) : Option Float :=
  (decimal? s).map (toFloat false)

def exponent? (s : List Char) : Option Int :=
  let (negative, ds) := match s with
    | '-' :: r => (true, r)
    | '+' :: r => (false, r)
    | _ => (false, s)
  if ds.isEmpty || !ds.all isDigit then none
  else
    let n := Nat.ofDigitChars 10 ds 0
    some (if negative then -n else n)

/-- An exponent brought into the range in which it makes a difference: with as many digits as are
given, every number below that range is zero and every number above it infinite. -/
def cutExponent (digits : Nat) (e : Int) : Int :=
  max (-(digits + 400)) (min 400 e)

def magnitude? (negative : Bool) (s : List Char) : Option Float :=
  if s = ['n', 'a', 'n'] then some nan
  else if s = ['i', 'n', 'f'] then some (signed negative infinity)
  else
    match s.span (· != 'e') with
    | (m, []) => (decimal? m).map (toFloat negative)
    | (m, _ :: e) => do
      let d ← decimal? m
      let e ← exponent? e
      return toFloat negative { d with exponent := cutExponent m.length (d.exponent + e) }

/-- Any written number: an optional minus sign, digits with an optional point and exponent, or one
of the words `inf` and `nan`. -/
def parse? (s : List Char) : Option Float :=
  match s with
  | '-' :: r => magnitude? true r
  | _ => magnitude? false s

end Calculator.Numeral
