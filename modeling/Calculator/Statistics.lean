import Calculator.Binary64.Basic

/-!
# Sums and statistics

Sums are taken in pairs, so that their error grows with the logarithm of the number of items: long
lists are halved at a multiple of eight, lists of up to 128 items have eight interleaved partial
sums, and fewer than eight items are added from the left.
-/

namespace Calculator.Statistics

open Binary64

/-- Adds neighbours until one number is left. -/
def addNeighbours : List Float → List Float
  | a :: b :: r => (a + b) :: addNeighbours r
  | r => r

/-- Adds every block of eight items to the eight partial sums; what is left over is added to their
sum. -/
def addBlocks (partials : List Float) (items : List Float) : Float :=
  match items with
  | a :: b :: c :: d :: e :: f :: g :: h :: r =>
    addBlocks (List.zipWith (· + ·) partials [a, b, c, d, e, f, g, h]) r
  | r => r.foldl (· + ·) ((Nat.repeat addNeighbours 3 partials).foldl (· + ·) (-0.0))

/-- The sum of a list whose empty sum is the negative zero. -/
def pairwiseSum (items : List Float) : Float :=
  if items.length < 8 then items.foldl (· + ·) (-0.0)
  else if items.length ≤ 128 then addBlocks (items.take 8) (items.drop 8)
  else
    let half := items.length / 2 / 8 * 8
    pairwiseSum (items.take half) + pairwiseSum (items.drop half)
termination_by items.length
decreasing_by all_goals (simp only [List.length_take, List.length_drop]; omega)

/-- The sum of negative zeros alone is positive zero. -/
def sum (items : List Float) : Float :=
  0.0 + pairwiseSum items

def product (items : List Float) : Float :=
  items.foldl (· * ·) 1.0

def mean (items : List Float) : Float :=
  sum items / .ofNat items.length

/-- The mean square distance from the mean. -/
def variance (items : List Float) : Float :=
  let m := mean items
  mean (items.map fun x => (x - m) * (x - m))

def standardDeviation (items : List Float) : Float :=
  (variance items).sqrt

/-- The value of `f`, unless an item is nan. -/
def unlessNan (f : List Float → Float) (items : List Float) : Float :=
  if items.any (·.isNaN) then nan else f items

def minimum : List Float → Float :=
  unlessNan fun items => items.tail.foldl (fun a b => if a ≤ b then a else b) (items.headD nan)

def maximum : List Float → Float :=
  unlessNan fun items => items.tail.foldl (fun a b => if b ≤ a then a else b) (items.headD nan)

/-- The distance between the greatest and the least item. -/
def range (items : List Float) : Float :=
  maximum items - minimum items

/-- The mean of the one or two items in the middle. -/
def median : List Float → Float :=
  unlessNan fun items =>
    let sorted := items.mergeSort fun a b => a ≤ b
    mean ((sorted.drop ((items.length - 1) / 2)).take (2 - items.length % 2))

end Calculator.Statistics
