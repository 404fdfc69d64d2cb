import Calculator.Decimal.Basic
import Calculator.Proofs.Rounding

/-!
# Decimals as fractions

`toRat` is what a decimal stands for, and reading a decimal depends on nothing else. The shortest
decimal of a number is read back as this number, since every candidate is tried. Candidates are
neighbours on a grid of a power of ten, so they are on the same side as the number of every coarser
grid point; this bounds where the first digit can be.
-/

namespace Calculator.Decimal

/-- What a decimal stands for. -/
def toRat (d : Decimal) : ℚ :=
  d.units * 10 ^ d.exponent

section reading

variable {d d' : Decimal} {m : ℕ} {e : ℤ}

lemma cast_toRat (d : Decimal) :
    ((d.units * 10 ^ d.exponent.toNat : ℕ) : ℚ) / (10 ^ (-d.exponent).toNat : ℕ) = d.toRat := by
  rw [toRat, zpow_eq_div (by norm_num)]
  push_cast
  rw [mul_div_assoc]

/-- Decimals of the same value are read alike. -/
lemma toFloat_congr (h : d.toRat = d'.toRat) (negative : Bool) :
    d.toFloat negative = d'.toFloat negative := by
  refine Binary64.ofRatio_congr (Nat.pow_pos (by decide)) (Nat.pow_pos (by decide)) ?_ negative
  exact (cast_toRat d).trans (h.trans (cast_toRat d').symm)

lemma toFloat_of_toRat (h : d.toRat = m * 2 ^ e) (negative : Bool) :
    d.toFloat negative = Binary64.ofScaled negative m e := by
  refine Binary64.ofRatio_congr (Nat.pow_pos (by decide)) (Nat.two_pow_pos _) ?_ negative
  exact (cast_toRat d).trans (h.trans (Binary64.cast_scaled m e).symm)

lemma toRat_exact (m : ℕ) (e : ℤ) : (exact m e).toRat = m * 2 ^ e := by
  cases e with
  | ofNat n => simp [exact, toRat]
  | negSucc n =>
    have hten : (10 : ℚ) ^ (n + 1) = 5 ^ (n + 1) * 2 ^ (n + 1) := by
      rw [← mul_pow]
      norm_num
    simp only [exact, toRat, zpow_negSucc]
    push_cast
    rw [hten]
    field_simp

/-- The shortest decimal is a neighbour that reads back, or the number itself. -/
lemma shortest_cases (m : ℕ) (e : ℤ) :
    (∃ n : ℕ, shortest m e ∈ neighbours (m * 2 ^ e.toNat) (2 ^ (-e).toNat)
        (leadingExponent (m * 2 ^ e.toNat) (2 ^ (-e).toNat) - n) ∧
      (shortest m e).toFloat false = Binary64.ofScaled false m e) ∨
    shortest m e = exact m e := by
  unfold shortest
  dsimp only
  generalize hfound : List.findSome? _ (List.range 17) = found
  cases found with
  | none => exact .inr rfl
  | some d =>
    obtain ⟨n, -, hn⟩ := List.exists_of_findSome?_eq_some hfound
    have hbits := List.find?_some hn
    exact .inl ⟨n, List.mem_of_find?_eq_some hn, Float.toBits_inj.mp (eq_of_beq hbits)⟩

/-- The shortest decimal reads back. -/
theorem toFloat_shortest (m : ℕ) (e : ℤ) :
    (shortest m e).toFloat false = Binary64.ofScaled false m e := by
  rcases shortest_cases m e with ⟨n, -, h⟩ | h
  · exact h
  · rw [h]
    exact toFloat_of_toRat (toRat_exact m e) false

end reading

section grid

variable {d : Decimal} {num den : ℕ} {g : ℤ}

lemma mem_neighbours (h : d ∈ neighbours num den g) :
    d.exponent = g ∧
      (d.units = ⌊(num : ℚ) / den / 10 ^ g⌋₊ ∨ d.units = ⌊(num : ℚ) / den / 10 ^ g⌋₊ + 1) := by
  have hfloor : num * 10 ^ (-g).toNat / (den * 10 ^ g.toNat) = ⌊(num : ℚ) / den / 10 ^ g⌋₊ := by
    rw [← Nat.floor_div_eq_div (K := ℚ), zpow_eq_div (by norm_num)]
    push_cast
    rw [div_div_div_eq]
  unfold neighbours at h
  dsimp only at h
  split at h
  · simp only [List.mem_cons, List.not_mem_nil, or_false] at h
    rcases h with rfl | rfl
    · exact ⟨rfl, .inl hfloor⟩
    · exact ⟨rfl, .inr (congrArg (· + 1) hfloor)⟩
  · simp only [List.mem_cons, List.not_mem_nil, or_false] at h
    rcases h with rfl | rfl
    · exact ⟨rfl, .inr (congrArg (· + 1) hfloor)⟩
    · exact ⟨rfl, .inl hfloor⟩

/-- A point of a grid is a multiple of the step of every finer grid. -/
lemma mul_zpow_eq {j : ℤ} (hj : g ≤ j) (c : ℕ) :
    (c : ℚ) * 10 ^ j = (c * 10 ^ (j - g).toNat : ℕ) * 10 ^ g := by
  have hsum : (((j - g).toNat : ℕ) : ℤ) + g = j := by omega
  push_cast
  rw [mul_assoc, ← zpow_natCast, ← zpow_add₀ (by norm_num), hsum]

/-- A neighbour is not below a grid point that the number is not below. -/
lemma le_toRat_of_mem_neighbours (h : d ∈ neighbours num den g) {j : ℤ} (hj : g ≤ j) {c : ℕ}
    (hc : (c : ℚ) * 10 ^ j ≤ num / den) : (c : ℚ) * 10 ^ j ≤ d.toRat := by
  obtain ⟨rfl, hunits⟩ := mem_neighbours h
  rw [mul_zpow_eq hj] at hc ⊢
  have hfloor := Nat.le_floor ((le_div_iff₀ (by positivity)).mpr hc)
  have hle : c * 10 ^ (j - d.exponent).toNat ≤ d.units := by
    rcases hunits with hu | hu <;> omega
  rw [toRat]
  gcongr

/-- A neighbour is not above a grid point that the number is below. -/
lemma toRat_le_of_mem_neighbours (h : d ∈ neighbours num den g) {j : ℤ} (hj : g ≤ j) {c : ℕ}
    (hc : (num : ℚ) / den < c * 10 ^ j) : d.toRat ≤ (c : ℚ) * 10 ^ j := by
  obtain ⟨rfl, hunits⟩ := mem_neighbours h
  rw [mul_zpow_eq hj] at hc ⊢
  have hfloor := (Nat.floor_lt (by positivity)).mpr ((div_lt_iff₀ (by positivity)).mpr hc)
  have hle : d.units ≤ c * 10 ^ (j - d.exponent).toNat := by
    rcases hunits with hu | hu <;> omega
  rw [toRat]
  gcongr

end grid

section lead

lemma length_digits (n : ℕ) : (digits n).length = Nat.log 10 n + 1 := by
  apply le_antisymm
  · exact (Nat.length_toDigits_le_iff (by decide) (Nat.succ_pos _)).mpr
      (Nat.lt_pow_succ_log_self (by decide) n)
  · have hpos : 0 < (digits n).length := Nat.length_toDigits_pos
    have hlt : n < 10 ^ (digits n).length :=
      (Nat.length_toDigits_le_iff (by decide) hpos).mp le_rfl
    exact Nat.log_lt_of_lt_pow' hpos.ne' hlt

/-- The exponent of a decimal's first digit. -/
def lead (d : Decimal) : ℤ :=
  d.exponent + (digits d.units).length - 1

lemma lead_eq_log {d : Decimal} (h : 0 < d.units) : d.lead = Int.log 10 d.toRat := by
  have hunits : (0 : ℚ) < d.units := by exact_mod_cast h
  have hten : (0 : ℚ) < 10 ^ d.exponent := by positivity
  have hlead : d.lead = Nat.log 10 d.units + d.exponent := by
    rw [lead, length_digits]
    omega
  have hlow : (10 : ℚ) ^ Nat.log 10 d.units ≤ d.units := by
    exact_mod_cast Nat.pow_log_le_self 10 h.ne'
  have hhigh : (d.units : ℚ) < 10 ^ (Nat.log 10 d.units + 1) := by
    exact_mod_cast Nat.lt_pow_succ_log_self (by decide) d.units
  rw [hlead, toRat, eq_log_iff (by decide) (mul_pos hunits hten), Nat.cast_ofNat, add_right_comm,
    zpow_add₀ (by norm_num), zpow_add₀ (by norm_num) _ d.exponent]
  exact ⟨mul_le_mul_of_nonneg_right (by exact_mod_cast hlow) hten.le,
    mul_lt_mul_of_pos_right (by exact_mod_cast hhigh) hten⟩

lemma zpow_leadingExponent_le {num den : ℕ} (hn : 0 < num) (hd : 0 < den) :
    (10 : ℚ) ^ leadingExponent num den ≤ num / den := by
  have hdq : (0 : ℚ) < den := by exact_mod_cast hd
  have hnq : (0 : ℚ) < num := by exact_mod_cast hn
  unfold leadingExponent
  split
  · rename_i hle
    have hpos : num / den ≠ 0 := (Nat.div_pos hle hd).ne'
    have hlog : ((digits (num / den)).length : ℤ) - 1 = Nat.log 10 (num / den) := by
      rw [length_digits]
      omega
    rw [hlog, zpow_natCast, le_div_iff₀ hdq]
    exact_mod_cast (Nat.le_div_iff_mul_le hd).mp (Nat.pow_log_le_self 10 hpos)
  · rename_i hlt
    have hpow : (den - 1) / num < 10 ^ (digits ((den - 1) / num)).length := by
      rw [length_digits]
      exact Nat.lt_pow_succ_log_self (by decide) _
    have hcross : den ≤ num * 10 ^ (digits ((den - 1) / num)).length := by
      rw [Nat.div_lt_iff_lt_mul hn, Nat.mul_comm] at hpow
      omega
    rw [zpow_neg, zpow_natCast, inv_le_iff_one_le_mul₀ (by positivity), div_mul_eq_mul_div,
      one_le_div hdq]
    exact_mod_cast hcross

end lead

section bounds

/-- A magnitude with its first digit from the fourth place after the point to the sixteenth before
it, and far enough from the next place. -/
structure IsPlain (q : ℚ) : Prop where
  ge : (10 : ℚ) ^ (-4 : ℤ) ≤ q
  le : q ≤ 5 * 10 ^ (15 : ℤ)

lemma IsPlain.log {q : ℚ} (h : IsPlain q) : -4 ≤ Int.log 10 q ∧ Int.log 10 q < 16 := by
  have hq : 0 < q := lt_of_lt_of_le (by positivity) h.ge
  rw [← Int.zpow_le_iff_le_log (by decide) hq, ← Int.lt_zpow_iff_log_lt (by decide) hq]
  refine ⟨by exact_mod_cast h.ge, lt_of_le_of_lt h.le ?_⟩
  norm_num

lemma IsPlain.of_mem_neighbours {num den n : ℕ} (hn : 0 < num) (hd : 0 < den)
    (hge : (10 : ℚ) ^ (-4 : ℤ) ≤ num / den) (hlt : (num : ℚ) / den < 5 * 10 ^ (15 : ℤ))
    {d : Decimal} (hmem : d ∈ neighbours num den (leadingExponent num den - n)) :
    IsPlain d.toRat := by
  have hlead := zpow_leadingExponent_le hn hd
  have hstep : leadingExponent num den < 16 := by
    rw [← zpow_lt_zpow_iff_right₀ (show (1 : ℚ) < 10 by norm_num)]
    exact lt_trans (lt_of_le_of_lt hlead hlt) (by norm_num)
  constructor
  · by_cases hfine : leadingExponent num den - n ≤ -4
    · have hle := le_toRat_of_mem_neighbours hmem hfine (c := 1) (by simpa using hge)
      simpa using hle
    · have hcoarse : (10 : ℚ) ^ (leadingExponent num den - n) ≤ 10 ^ leadingExponent num den :=
        zpow_le_zpow_right₀ (by norm_num) (by omega)
      have hle := le_toRat_of_mem_neighbours hmem le_rfl (c := 1)
        (by simpa using hcoarse.trans hlead)
      calc (10 : ℚ) ^ (-4 : ℤ) ≤ 10 ^ (leadingExponent num den - n) :=
            zpow_le_zpow_right₀ (by norm_num) (by omega)
        _ ≤ d.toRat := by simpa using hle
  · have hle := toRat_le_of_mem_neighbours hmem (j := 15) (by omega) (c := 5)
      (by exact_mod_cast hlt)
    exact_mod_cast hle

/-- The shortest decimal of a number below a power of two that is far from the next power of ten. -/
lemma isPlain_shortest {m : ℕ} {e : ℤ} (hge : (10 : ℚ) ^ (-4 : ℤ) ≤ m * 2 ^ e)
    (hlt : (m : ℚ) * 2 ^ e < 5 * 10 ^ (15 : ℤ)) : IsPlain (shortest m e).toRat := by
  have hpos : (0 : ℚ) < m * 2 ^ e := lt_of_lt_of_le (by positivity) hge
  have hm : 0 < m := by
    by_contra hzero
    obtain rfl : m = 0 := by omega
    simp at hpos
  rcases shortest_cases m e with ⟨n, hmem, -⟩ | h
  · rw [← Binary64.cast_scaled] at hge hlt
    exact .of_mem_neighbours (by positivity) (by positivity) hge hlt hmem
  · rw [h, toRat_exact]
    exact ⟨hge, hlt.le⟩

lemma units_pos_of_isPlain {d : Decimal} (h : IsPlain d.toRat) : 0 < d.units := by
  by_contra hzero
  have hunits : d.units = 0 := by omega
  have hge := h.ge
  rw [toRat, hunits, Nat.cast_zero, zero_mul] at hge
  exact absurd hge (not_le.mpr (by positivity))

end bounds

end Calculator.Decimal
