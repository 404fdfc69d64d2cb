import Calculator.Binary64.Integral
import Calculator.Proofs.Encoding

/-!
# Rounding fractions

What a fraction is rounded to depends on its ratio alone: `floorLog2` is the logarithm of the ratio,
and `divNearestEven` does not change when both parts are multiplied. A finite number is the rounding
of the mantissa and exponent that it stands for.
-/

namespace Calculator

/-- A power with a whole exponent as a fraction. -/
lemma zpow_eq_div {b : ℚ} (hb : b ≠ 0) (e : ℤ) : b ^ e = b ^ e.toNat / b ^ (-e).toNat := by
  rw [eq_div_iff (pow_ne_zero _ hb), ← zpow_natCast, ← zpow_natCast, ← zpow_add₀ hb]
  congr 1
  omega

/-- A logarithm is the exponent of the power below. -/
lemma eq_log_iff {b : ℕ} (hb : 1 < b) {q : ℚ} (hq : 0 < q) {e : ℤ} :
    e = Int.log b q ↔ (b : ℚ) ^ e ≤ q ∧ q < (b : ℚ) ^ (e + 1) := by
  rw [Int.zpow_le_iff_le_log hb hq, Int.lt_zpow_iff_log_lt hb hq]
  omega

namespace Binary64

lemma scaleDown_eq (num den : ℕ) (e : ℤ) :
    scaleDown num den e = (num * 2 ^ (-e).toNat, den * 2 ^ e.toNat) :=
  rfl

/-- Scaling down divides by the power of two. -/
lemma div_scaleDown (num den : ℕ) (e : ℤ) :
    ((scaleDown num den e).1 : ℚ) / (scaleDown num den e).2 = (num : ℚ) / den / 2 ^ e := by
  rw [scaleDown_eq, zpow_eq_div two_ne_zero]
  push_cast
  rw [div_div_div_eq]

lemma scaleDown_pos {den : ℕ} (hd : 0 < den) (num : ℕ) (e : ℤ) :
    0 < (scaleDown num den e).2 :=
  Nat.mul_pos hd (Nat.two_pow_pos _)

lemma two_zpow_log2_le {n : ℕ} (hn : 0 < n) : (2 : ℚ) ^ (n.log2 : ℤ) ≤ n := by
  rw [zpow_natCast]
  exact_mod_cast Nat.log2_self_le hn.ne'

lemma lt_two_zpow_log2 (n : ℕ) : (n : ℚ) < (2 : ℚ) ^ ((n.log2 : ℤ) + 1) := by
  rw [← Nat.cast_one, ← Nat.cast_add, zpow_natCast]
  exact_mod_cast Nat.lt_log2_self

/-- The first guess is the logarithm or one too much. -/
lemma floorLog2_eq {num den : ℕ} (hn : 0 < num) (hd : 0 < den) :
    floorLog2 num den = Int.log 2 ((num : ℚ) / den) := by
  have hdq : (0 : ℚ) < den := by exact_mod_cast hd
  have hq : (0 : ℚ) < (num : ℚ) / den := div_pos (by exact_mod_cast hn) hdq
  have hlow : (2 : ℚ) ^ ((num.log2 : ℤ) - den.log2 - 1) ≤ (num : ℚ) / den := by
    rw [sub_sub, zpow_sub₀ two_ne_zero, div_le_div_iff₀ (by positivity) hdq]
    gcongr
    · exact two_zpow_log2_le hn
    · exact (lt_two_zpow_log2 den).le
  have hhigh : (num : ℚ) / den < (2 : ℚ) ^ ((num.log2 : ℤ) - den.log2 + 1) := by
    rw [sub_add_eq_add_sub, zpow_sub₀ two_ne_zero, div_lt_div_iff₀ hdq (by positivity)]
    exact mul_lt_mul (lt_two_zpow_log2 num) (two_zpow_log2_le hd) (by positivity) (by positivity)
  have hscaled := div_scaleDown num den (num.log2 - den.log2)
  have hpos : (0 : ℚ) < (scaleDown num den (num.log2 - den.log2)).2 := by
    exact_mod_cast scaleDown_pos hd num _
  have hlt : (scaleDown num den (num.log2 - den.log2)).1 <
      (scaleDown num den (num.log2 - den.log2)).2 ↔
        (num : ℚ) / den < 2 ^ ((num.log2 : ℤ) - den.log2) := by
    rw [← Nat.cast_lt (α := ℚ), ← div_lt_one hpos, hscaled, div_lt_one (by positivity)]
  rw [eq_log_iff one_lt_two hq]
  unfold floorLog2
  dsimp only
  split
  · rename_i h
    rw [sub_add_cancel]
    exact ⟨hlow, hlt.mp h⟩
  · rename_i h
    exact ⟨not_lt.mp (mt hlt.mpr h), hhigh⟩

lemma divNearestEven_mul {k : ℕ} (hk : 0 < k) (num den : ℕ) :
    divNearestEven (num * k) (den * k) = divNearestEven num den := by
  unfold divNearestEven
  dsimp only
  rw [Nat.mul_mod_mul_right, Nat.mul_div_mul_right _ _ hk, ← Nat.mul_assoc]
  simp only [Nat.mul_lt_mul_right hk]

section ratio

variable {n d n' d' : ℕ}

lemma cross_of_div_eq (hd : 0 < d) (hd' : 0 < d') (h : (n : ℚ) / d = n' / d') :
    n * d' = n' * d := by
  rw [div_eq_div_iff (by exact_mod_cast hd.ne') (by exact_mod_cast hd'.ne')] at h
  exact_mod_cast h

/-- The nearest whole number depends on the ratio alone. -/
lemma divNearestEven_congr (hd : 0 < d) (hd' : 0 < d') (h : (n : ℚ) / d = n' / d') :
    divNearestEven n d = divNearestEven n' d' := by
  rw [← divNearestEven_mul hd' n d, cross_of_div_eq hd hd' h, Nat.mul_comm d d',
    divNearestEven_mul hd n' d']

/-- A magnitude depends on the ratio alone. -/
lemma magnitudeBits_congr (hd : 0 < d) (hd' : 0 < d') (h : (n : ℚ) / d = n' / d') :
    magnitudeBits n d = magnitudeBits n' d' := by
  have hcross := cross_of_div_eq hd hd' h
  unfold magnitudeBits
  by_cases hn : n = 0
  · subst hn
    have hn' : n' = 0 := by simpa [hd.ne'] using hcross.symm
    rw [if_pos rfl, if_pos hn']
  · have hn' : n' ≠ 0 := by
      rintro rfl
      exact hn (by simpa [hd'.ne'] using hcross)
    have hscaled (e : ℤ) : ((scaleDown n d e).1 : ℚ) / (scaleDown n d e).2 =
        (scaleDown n' d' e).1 / (scaleDown n' d' e).2 := by
      rw [div_scaleDown, div_scaleDown, h]
    rw [if_neg hn, if_neg hn', floorLog2_eq (Nat.pos_of_ne_zero hn) hd,
      floorLog2_eq (Nat.pos_of_ne_zero hn') hd', h]
    dsimp only
    rw [divNearestEven_congr (scaleDown_pos hd _ _) (scaleDown_pos hd' _ _) (hscaled _)]

lemma ofRatio_congr (hd : 0 < d) (hd' : 0 < d') (h : (n : ℚ) / d = n' / d') (negative : Bool) :
    ofRatio negative n d = ofRatio negative n' d' := by
  rw [ofRatio, magnitudeBits_congr hd hd' h, ofRatio]

end ratio

lemma divNearestEven_mul_self {k : ℕ} (hk : 0 < k) (n : ℕ) : divNearestEven (n * k) k = n := by
  rw [divNearestEven, Nat.mul_mod_left, Nat.mul_div_cancel n hk]
  exact if_pos hk

lemma cast_scaled (m : ℕ) (e : ℤ) :
    ((m * 2 ^ e.toNat : ℕ) : ℚ) / (2 ^ (-e).toNat : ℕ) = m * 2 ^ e := by
  rw [zpow_eq_div two_ne_zero]
  push_cast
  rw [mul_div_assoc]

lemma floorLog2_scaled {m : ℕ} (hm : 0 < m) (e : ℤ) :
    floorLog2 (m * 2 ^ e.toNat) (2 ^ (-e).toNat) = m.log2 + e := by
  have hmq : (0 : ℚ) < m := by exact_mod_cast hm
  rw [floorLog2_eq (by positivity) (by positivity), cast_scaled, eq_comm,
    eq_log_iff one_lt_two (by positivity)]
  have he : (0 : ℚ) < 2 ^ e := by positivity
  rw [Nat.cast_ofNat, add_right_comm, zpow_add₀ two_ne_zero, zpow_add₀ two_ne_zero _ e]
  exact ⟨mul_le_mul_of_nonneg_right (two_zpow_log2_le hm) he.le,
    mul_lt_mul_of_pos_right (lt_two_zpow_log2 m) he⟩

/-- A normalized magnitude is its own rounding. -/
lemma magnitudeBits_of_isNormalized {m : ℕ} {e : ℤ} (h : IsNormalized m e) :
    magnitudeBits (m * 2 ^ e.toNat) (2 ^ (-e).toNat) = (e - leastExponent).toNat * 2 ^ 52 + m := by
  have hleast : leastExponent = -1074 := rfl
  have hinfinity : infinityBits = 2047 * 2 ^ 52 := rfl
  obtain ⟨hlt, hge, hle, hnormal⟩ := h
  by_cases hm : m = 0
  · subst hm
    rw [Nat.zero_mul, magnitudeBits, if_pos rfl]
    omega
  · have hne : m * 2 ^ e.toNat ≠ 0 := by positivity
    have hmax : max (floorLog2 (m * 2 ^ e.toNat) (2 ^ (-e).toNat) - 52) leastExponent = e := by
      rw [floorLog2_scaled (Nat.pos_of_ne_zero hm)]
      have hlog : m.log2 < 53 := (Nat.log2_lt hm).mpr hlt
      have hlog' : 2 ^ 52 ≤ m → 52 ≤ m.log2 := (Nat.le_log2 hm).mpr
      omega
    rw [magnitudeBits, if_neg hne]
    dsimp only
    rw [hmax, scaleDown_eq]
    dsimp only
    rw [Nat.mul_assoc, Nat.mul_comm (2 ^ e.toNat), divNearestEven_mul_self (by positivity)]
    omega

/-- A finite number is the rounding of what it stands for. -/
theorem ofScaled_of_value {x : Float} {negative : Bool} {m : ℕ} {e : ℤ}
    (h : value x = .finite negative m e) : ofScaled negative m e = x := by
  rw [ofScaled, ofRatio, magnitudeBits_of_isNormalized (toNat_toBits_of_value h).1]
  exact (eq_of_value h).symm

lemma signed_ofScaled (negative : Bool) (m : ℕ) (e : ℤ) :
    signed negative (ofScaled false m e) = ofScaled negative m e := by
  cases negative with
  | false => rfl
  | true => exact neg_ofRatio _ _

/-- The fraction that a finite number stands for. -/
def rational? (x : Float) : Option ℚ :=
  match value x with
  | .finite negative m e => some ((if negative then -1 else 1) * (m * 2 ^ e))
  | _ => none

lemma exists_value_of_rational? {x : Float} {q : ℚ} (h : rational? x = some q) :
    ∃ negative m e, value x = .finite negative m e ∧
      q = (if negative then -1 else 1) * (m * 2 ^ e) := by
  unfold rational? at h
  split at h
  · rename_i negative m e hvalue
    exact ⟨negative, m, e, hvalue, (Option.some.inj h).symm⟩
  · exact absurd h (by simp)

/-- Whether a finite number is whole shows in its exponent and the last bits of its mantissa. -/
lemma toInt?_cases {x : Float} {negative : Bool} {m : ℕ} {e : ℤ}
    (h : value x = .finite negative m e) :
    (∃ k : ℕ, (k : ℚ) = m * 2 ^ e ∧ toInt? x = some (if negative then -(k : ℤ) else k)) ∨
      (toInt? x = none ∧ e < 0 ∧ ∀ k : ℕ, (k : ℚ) ≠ m * 2 ^ e) := by
  unfold toInt?
  rw [h]
  dsimp only
  by_cases he : 0 ≤ e
  · refine .inl ⟨m * 2 ^ e.toNat, ?_, by rw [if_pos (.inl he), if_pos he]⟩
    have hcast := cast_scaled m e
    rw [Int.toNat_eq_zero.mpr (show -e ≤ 0 by omega)] at hcast
    simpa using hcast
  · have hcast : (m : ℚ) * 2 ^ e * (2 ^ (-e).toNat : ℕ) = m := by
      rw [zpow_eq_div two_ne_zero, Int.toNat_eq_zero.mpr (show e ≤ 0 by omega)]
      push_cast
      rw [pow_zero, mul_one_div, div_mul_cancel₀ _ (by positivity)]
    by_cases hm : m % 2 ^ (-e).toNat = 0
    · refine .inl ⟨m / 2 ^ (-e).toNat, ?_, by rw [if_pos (.inr hm), if_neg he]⟩
      apply mul_right_cancel₀ (b := ((2 ^ (-e).toNat : ℕ) : ℚ)) (by positivity)
      rw [hcast]
      exact_mod_cast Nat.div_mul_cancel (Nat.dvd_of_mod_eq_zero hm)
    · refine .inr ⟨if_neg (by tauto), by omega, ?_⟩
      intro k hk
      rw [← hk] at hcast
      have hmul : k * 2 ^ (-e).toNat = m := by exact_mod_cast hcast
      exact hm (by rw [← hmul, Nat.mul_mod_left])

end Binary64

end Calculator
