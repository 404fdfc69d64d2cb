/-!
# Ranges of code points

A property of characters is kept as a list of closed intervals of code points. Two properties are
disjoint as soon as their intervals are, which is decided on the lists alone.
-/

namespace Calculator.Unicode

/-- Closed intervals of code points, ascending. -/
abbrev Ranges := List (Nat × Nat)

namespace Ranges

def contains (t : Ranges) (c : Char) : Bool :=
  t.any fun r => r.1 ≤ c.toNat && c.toNat ≤ r.2

def disjoint (s t : Ranges) : Bool :=
  s.all fun r => t.all fun q => r.2 < q.1 || q.2 < r.1

theorem contains_iff {t : Ranges} {c : Char} :
    t.contains c = true ↔ ∃ r ∈ t, r.1 ≤ c.toNat ∧ c.toNat ≤ r.2 := by
  simp [contains]

/-- A character has at most one of two disjoint properties. -/
theorem contains_eq_false {s t : Ranges} (h : disjoint s t = true) {c : Char}
    (hc : s.contains c = true) : t.contains c = false := by
  rw [Bool.eq_false_iff]
  intro ht
  obtain ⟨r, hr, h1, h2⟩ := contains_iff.1 hc
  obtain ⟨q, hq, h3, h4⟩ := contains_iff.1 ht
  have := List.all_eq_true.1 (List.all_eq_true.1 h r hr) q hq
  simp only [Bool.or_eq_true, decide_eq_true_eq] at this
  omega

end Ranges

end Calculator.Unicode
