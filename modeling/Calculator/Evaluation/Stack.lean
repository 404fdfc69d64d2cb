import Calculator.Failure

/-!
# Stacks of values

Computed values wait on a stack until a call takes them. `toList` shows a stack from its bottom. A
count of values is a whole number: a count below zero says how many values are left at the bottom,
and all above them are taken.
-/

namespace Calculator

/-- The values of a stack, the top one first. -/
structure Stack where
  items : List Float := []

namespace Stack

def size (s : Stack) : Nat :=
  s.items.length

/-- The values from the bottom to the top. -/
def toList (s : Stack) : List Float :=
  s.items.reverse

def push (s : Stack) (x : Float) : Stack :=
  ⟨x :: s.items⟩

def pop (s : Stack) : Except Failure (Float × Stack) :=
  match s.items with
  | [] => .error .emptyStack
  | x :: r => .ok (x, ⟨r⟩)

/-- How many values a count asks for. -/
def needed (s : Stack) : Int → Nat
  | .ofNat n => n
  | .negSucc n => s.size - (n + 1)

/-- Takes the values that a count asks for off the top, the oldest first. -/
def top (s : Stack) (count : Int) : Except Failure (List Float × Stack) :=
  let n := s.needed count
  if (s.items.take n).length < n then .error (.missingArguments n s.size)
  else .ok ((s.items.take n).reverse, ⟨s.items.drop n⟩)

/-- Values are taken exactly when there are enough. -/
theorem isOk_top_iff {s : Stack} {count : Int} :
    (s.top count).isOk = true ↔ s.needed count ≤ s.size := by
  simp only [top, size, List.length_take]
  split
  · simp only [Except.isOk, Except.toBool, Bool.false_eq_true, false_iff]
    omega
  · simp only [Except.isOk, Except.toBool, true_iff]
    omega

end Stack

end Calculator
