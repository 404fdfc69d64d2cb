import Calculator.Arithmetic.Primitive
import Calculator.Proofs.Magnitudes

/-!
# Rounding to many places

A number is rounded to places by way of a power of ten. The powers for up to 308 places are finite,
and for more places there is nothing to round; but the product of the number and the power can still
be too large. Then the whole number next to it is infinite, and no division brings it back:
`Primitive.round_places` says for which numbers and places this happens.
-/

namespace Calculator

namespace Binary64

open Float.Model (Format UnpackedFloat)
open Float.Model.UnpackedFloat

section arithmetic

variable {x y : Float} {q p : ℚ} {negative : Bool}

lemma isNegative_of_pos (hx : rational? x = some q) (hq : 0 < q) : isNegative x = false := by
  obtain ⟨negative, m, e, hvalue, rfl⟩ := exists_value_of_rational? hx
  rw [isNegative_of_value hvalue]
  cases negative with
  | false => rfl
  | true =>
    have hnonneg : (0 : ℚ) ≤ m * 2 ^ e := by positivity
    rw [if_pos rfl, neg_one_mul] at hq
    linarith

/-- A product is the rounding of the exact product. -/
lemma exists_mul_eq_ofRatio (hx : rational? x = some q) (hy : rational? y = some p) :
    ∃ n d : ℕ, 0 < d ∧ (n : ℚ) / d = |q| * |p| ∧
      x * y = ofRatio (isNegative x != isNegative y) n d := by
  obtain ⟨m, e, hvx, hq⟩ := exists_value_abs hx
  obtain ⟨m', e', hvy, hp⟩ := exists_value_abs hy
  refine ⟨m * m' * 2 ^ (e + e').toNat, 2 ^ (-(e + e')).toNat, by positivity, ?_,
    mul_eq_ofScaled hvx hvy⟩
  rw [cast_scaled, hq, hp, zpow_add₀ two_ne_zero]
  push_cast
  ring

lemma ne_zero_of_abs_eq {m : ℕ} {e : ℤ} (habs : |q| = m * 2 ^ e) (hne : q ≠ 0) : m ≠ 0 := by
  rintro rfl
  rw [Nat.cast_zero, zero_mul, abs_eq_zero] at habs
  exact hne habs

/-- A quotient by a number other than zero is the rounding of the exact quotient. -/
lemma exists_div_eq_ofRatio (hx : rational? x = some q) (hy : rational? y = some p) (hne : p ≠ 0) :
    ∃ n d : ℕ, 0 < d ∧ (n : ℚ) / d = |q| / |p| ∧
      x / y = ofRatio (isNegative x != isNegative y) n d := by
  obtain ⟨m, e, hvx, hq⟩ := exists_value_abs hx
  obtain ⟨m', e', hvy, hp⟩ := exists_value_abs hy
  have hm' := ne_zero_of_abs_eq hp hne
  have hpos' : 0 < m' := Nat.pos_of_ne_zero hm'
  refine ⟨_, _, by positivity, ?_, div_eq_ofRatio hvx hvy hm'⟩
  rw [← Int.neg_sub e e', Nat.cast_mul, Nat.cast_mul, mul_div_mul_comm, Nat.cast_pow, Nat.cast_pow,
    Nat.cast_ofNat, ← zpow_eq_div two_ne_zero, hq, hp, mul_div_mul_comm, zpow_sub₀ two_ne_zero]

lemma isFinite_mul_iff (hx : rational? x = some q) (hy : rational? y = some p) :
    isFinite (x * y) = true ↔ |q| * |p| < overflowBound := by
  obtain ⟨n, d, hd, hratio, hmul⟩ := exists_mul_eq_ofRatio hx hy
  rw [hmul, isFinite_ofRatio_iff hd, hratio]

lemma mul_of_overflow (hx : rational? x = some q) (hy : rational? y = some p)
    (h : overflowBound ≤ |q| * |p|) :
    x * y = signed (isNegative x != isNegative y) infinity := by
  obtain ⟨n, d, hd, hratio, hmul⟩ := exists_mul_eq_ofRatio hx hy
  rw [hmul, ofRatio_of_overflow hd (hratio ▸ h)]

lemma one_le_mul (hx : rational? x = some q) (hy : rational? y = some p) (hq : 1 ≤ q) (hp : 1 ≤ p)
    (hfinite : isFinite (x * y) = true) : ∃ r, rational? (x * y) = some r ∧ 1 ≤ r := by
  have hlt := (isFinite_mul_iff hx hy).mp hfinite
  have hone : 1 ≤ |q| * |p| :=
    one_le_mul_of_one_le_of_one_le (hq.trans (le_abs_self q)) (hp.trans (le_abs_self p))
  obtain ⟨n, d, hd, hratio, hmul⟩ := exists_mul_eq_ofRatio hx hy
  rw [isNegative_of_pos hx (by linarith), isNegative_of_pos hy (by linarith)] at hmul
  rw [hmul]
  exact one_le_ofRatio hd (hratio ▸ hone) (hratio ▸ hlt)

/-- A quotient by a number from one on is finite. -/
lemma isFinite_div (hx : rational? x = some q) (hy : rational? y = some p) (hp : 1 ≤ p) :
    isFinite (x / y) = true := by
  obtain ⟨n, d, hd, hratio, hdiv⟩ := exists_div_eq_ofRatio hx hy (by linarith)
  rw [hdiv, isFinite_ofRatio_iff hd, hratio]
  exact lt_of_le_of_lt (div_le_self (abs_nonneg q) (hp.trans (le_abs_self p)))
    (abs_lt_overflowBound hx)

lemma infinity_div (hy : rational? y = some p) (hp : 1 ≤ p) (negative : Bool) :
    signed negative infinity / y = signed negative infinity := by
  obtain ⟨m, e, hvalue, habs⟩ := exists_value_abs hy
  have hm := ne_zero_of_abs_eq habs (by linarith)
  have hunpacked := unpacked_of_value hvalue
  rw [isNegative_of_pos hy (by linarith), ofParts, dif_neg hm] at hunpacked
  rw [div_eq_packed, hunpacked]
  cases negative <;> rfl

lemma isFinite_packed_infinity (s : Sign) : isFinite (packed (.infinity s)) = false := by
  cases s <;> rfl

lemma isFinite_packed_nan : isFinite (packed .notANumber) = false := by rfl

/-- What is infinite or nan stays so in a product. -/
lemma isFinite_of_mul (h : isFinite (x * y) = true) : isFinite x = true := by
  rw [mul_eq_packed] at h
  rw [isFinite, value_eq]
  cases hx : unpacked x with
  | infinity s =>
    rw [hx] at h
    cases hy : unpacked y with
    | infinity s' =>
      rw [hy] at h
      exact absurd ((isFinite_packed_infinity (s * s')).symm.trans h) Bool.false_ne_true
    | finite s' m' e' hm' =>
      rw [hy] at h
      exact absurd ((isFinite_packed_infinity (s * s')).symm.trans h) Bool.false_ne_true
    | notANumber =>
      rw [hy] at h
      exact absurd (isFinite_packed_nan.symm.trans h) Bool.false_ne_true
    | zero s' =>
      rw [hy] at h
      exact absurd (isFinite_packed_nan.symm.trans h) Bool.false_ne_true
  | notANumber =>
    rw [hx] at h
    exact absurd (isFinite_packed_nan.symm.trans h) Bool.false_ne_true
  | zero s => rfl
  | finite s m e hm => rfl

end arithmetic

section roundEven

variable {x : Float}

lemma isFinite_roundEven (h : isFinite x = true) : isFinite (roundEven x) = true := by
  unfold roundEven toIntegral
  split
  · rename_i negative m e hvalue
    split
    · exact h
    · have hround : divNearestEven m (2 ^ (-e).toNat) ≤ m :=
        divNearestEven_le (Nat.two_pow_pos _) (Nat.le_mul_of_pos_right m (Nat.two_pow_pos _))
      have hm := (toNat_toBits_of_value hvalue).1.mantissa_lt
      have hlt : (divNearestEven m (2 ^ (-e).toNat) : ℚ) < 2 ^ 53 := by
        exact_mod_cast lt_of_le_of_lt hround hm
      rw [isFinite_ofRatio_iff Nat.one_pos, Nat.cast_one, div_one]
      refine hlt.trans_le ?_
      rw [overflowBound_eq]
      calc (2 : ℚ) ^ 53 ≤ (2 ^ 54 - 1) * 1 := by norm_num
        _ ≤ (2 ^ 54 - 1) * 2 ^ 970 :=
          mul_le_mul_of_nonneg_left (one_le_pow₀ one_le_two) (by norm_num)
  · exact h

lemma roundEven_infinity (negative : Bool) :
    roundEven (signed negative infinity) = signed negative infinity := by
  cases negative <;> rfl

end roundEven

section powerOfTen

variable {n k : ℕ}

lemma powerOfTen_succ (hn : 9 ≤ n) : powerOfTen (n + 1) = powerOfTen n * 10.0 := by
  rw [powerOfTen, powerOfTen, if_neg (by omega), if_neg (by omega), Nat.sub_add_comm hn]
  rfl

lemma value_powerOfTen_308 : value (powerOfTen 308) = .finite false 5010420900022431 971 := by
  decide +kernel

/-- A power of ten is finite if a greater one is. -/
lemma isFinite_powerOfTen_of_add (hn : 9 ≤ n) (h : isFinite (powerOfTen (n + k)) = true) :
    isFinite (powerOfTen n) = true := by
  induction k with
  | zero => exact h
  | succ k ih =>
    rw [← Nat.add_assoc, powerOfTen_succ (by omega)] at h
    exact ih (isFinite_of_mul h)

/-- The powers of ten are not below one. -/
lemma one_le_powerOfTen (hn : n ≤ 308) : ∃ p, rational? (powerOfTen n) = some p ∧ 1 ≤ p := by
  have hsmall : ∀ n < 10, 1023 * 2 ^ 52 ≤ (powerOfTen n).toBits.toNat ∧
      (powerOfTen n).toBits.toNat < infinityBits := by decide +kernel
  have hten : rational? 10.0 = some 10 := by
    have hvalue : value 10.0 = .finite false 5629499534213120 (-49) := by rfl
    rw [rational?, hvalue]
    norm_num
  by_cases hlt : n < 9
  · exact one_le_of_bits (hsmall n (by omega)).1 (hsmall n (by omega)).2
  · obtain ⟨k, rfl⟩ := Nat.exists_eq_add_of_le (not_lt.mp hlt)
    induction k with
    | zero => exact one_le_of_bits (hsmall 9 (by decide)).1 (hsmall 9 (by decide)).2
    | succ k ih =>
      obtain ⟨p, hp, hone⟩ := ih (by omega) (by omega)
      -- no product before the last power is infinite, since the last power is not
      have hfinite : isFinite (powerOfTen (9 + (k + 1))) = true := by
        apply isFinite_powerOfTen_of_add (k := 308 - (9 + (k + 1))) (by omega)
        rw [Nat.add_sub_cancel' hn, isFinite, value_powerOfTen_308]
      rw [← Nat.add_assoc, powerOfTen_succ (by omega)] at hfinite ⊢
      exact one_le_mul hp hten hone (by norm_num) hfinite

end powerOfTen

section places

variable {x places : Float} {q t : ℚ} {n : ℕ}

/-- A number that is not negative is cut down to the whole number below. -/
lemma truncate?_of_nonneg (h : rational? x = some t) (ht : 0 ≤ t) :
    truncate? x = some (⌊t⌋₊ : ℤ) := by
  obtain ⟨m, e, hvalue, habs⟩ := exists_value_abs h
  rw [abs_of_nonneg ht] at habs
  have hfloor : (if 0 ≤ e then m * 2 ^ e.toNat else m / 2 ^ (-e).toNat) = ⌊t⌋₊ := by
    rw [habs, ← cast_scaled, Nat.floor_div_eq_div]
    split
    · rw [Int.toNat_eq_zero.mpr (show -e ≤ 0 by omega), pow_zero, Nat.div_one]
    · rw [Int.toNat_eq_zero.mpr (show e ≤ 0 by omega), pow_zero, Nat.mul_one]
  unfold truncate?
  rw [hvalue]
  dsimp only
  rw [hfloor]
  rcases ht.eq_or_lt with rfl | hpos
  · rw [Nat.floor_zero]
    split <;> rfl
  · rw [isNegative_of_pos h hpos]
    rfl

/-- Rounding to places up to 308, which may have to go through infinity. -/
lemma roundPlaces_cases (hx : rational? x = some q) (hn : n ≤ 308) :
    ∃ p, rational? (powerOfTen n) = some p ∧ 1 ≤ p ∧
      (isFinite (roundPlaces x n) = true ↔ |q| * p < overflowBound) ∧
      (isFinite (roundPlaces x n) = false →
        roundPlaces x n = signed (isNegative x) infinity) := by
  obtain ⟨p, hp, hone⟩ := one_le_powerOfTen hn
  refine ⟨p, hp, hone, ?_⟩
  have habs : |p| = p := abs_of_nonneg (by linarith)
  cases n with
  | zero =>
    have hvalue : value (powerOfTen 0) = .finite false (2 ^ 52) (-52) := by rfl
    have hp₁ : p = 1 := by
      rw [rational?, hvalue] at hp
      rw [← Option.some.inj hp]
      norm_num
    have hfinite : isFinite (roundPlaces x (0 : ℕ)) = true :=
      isFinite_roundEven (isFinite_of_rational? hx)
    rw [hp₁, mul_one, hfinite]
    exact ⟨iff_of_true rfl (abs_lt_overflowBound hx), fun h => absurd h.symm Bool.false_ne_true⟩
  | succ n =>
    have hplaces : roundPlaces x (n + 1 : ℕ) =
      roundEven (x * powerOfTen (n + 1)) / powerOfTen (n + 1) := rfl
    have hproduct := isFinite_mul_iff hx hp
    rw [habs] at hproduct
    rw [hplaces]
    by_cases hlt : |q| * p < overflowBound
    · obtain ⟨r, hr⟩ := isFinite_iff_rational?.mp (isFinite_roundEven (hproduct.mpr hlt))
      have hfinite := isFinite_div hr hp hone
      exact ⟨iff_of_true hfinite hlt, fun h => absurd (h.symm.trans hfinite) Bool.false_ne_true⟩
    · have hoverflow := mul_of_overflow hx hp (habs.symm ▸ not_lt.mp hlt)
      rw [isNegative_of_pos hp (by linarith), Bool.bne_false] at hoverflow
      rw [hoverflow, roundEven_infinity, infinity_div hp hone]
      have hinfinite : isFinite (signed (isNegative x) infinity) = false := by
        cases isNegative x <;> rfl
      rw [hinfinite]
      exact ⟨iff_of_false Bool.false_ne_true hlt, fun _ => rfl⟩

end places

end Binary64

open Binary64

namespace Primitive

variable {x places : Float} {q t : ℚ}

lemma rational?_308 : rational? 308.0 = some 308 := by
  have hvalue : value 308.0 = .finite false 5418393301680128 (-44) := by rfl
  rw [rational?, hvalue]
  norm_num

lemma rational?_neg_308 : rational? (-308.0) = some (-308) := by
  have hvalue : value (-308.0) = .finite true 5418393301680128 (-44) := by rfl
  rw [rational?, hvalue]
  norm_num

lemma roundTo_of_lt (hplaces : rational? places = some t) (h : 308 < t) : roundTo x places = x := by
  have hlt : 308.0 < places := (lt_iff_of_rational? rational?_308 hplaces).mpr h
  rw [roundTo, decide_eq_true hlt, isFinite_of_rational? hplaces]
  rfl

lemma roundTo_of_le (hplaces : rational? places = some t) (ht : 0 ≤ t) (h : t ≤ 308) :
    roundTo x places = roundPlaces x ⌊t⌋₊ := by
  have hhigh : ¬ 308.0 < places := fun hlt =>
    absurd ((lt_iff_of_rational? rational?_308 hplaces).mp hlt) (not_lt.mpr h)
  have hlow : ¬ places < -308.0 := fun hlt => by
    have hneg := (lt_iff_of_rational? hplaces rational?_neg_308).mp hlt
    linarith
  rw [roundTo, decide_eq_false hhigh, decide_eq_false hlow, truncate?_of_nonneg hplaces ht]
  rfl

lemma call_round (x places : Float) : round.call [x, places] = .ok (roundTo x places) := rfl

/-- A number of places above 308 leaves every number as it is. Up to 308 places the result is finite
exactly if the product of the number and the power of ten is below the bound; else it is infinity
with the sign of the number. -/
theorem round_places (hx : rational? x = some q) (hplaces : rational? places = some t)
    (ht : 0 ≤ t) :
    ∃ y, round.call [x, places] = .ok y ∧ (308 < t → y = x) ∧
      (t ≤ 308 → ∃ p, rational? (powerOfTen ⌊t⌋₊) = some p ∧ 1 ≤ p ∧
        (isFinite y = true ↔ |q| * p < overflowBound) ∧
        (isFinite y = false → y = signed (isNegative x) infinity)) := by
  refine ⟨roundTo x places, call_round x places, fun h => ?_, fun h => ?_⟩
  · exact roundTo_of_lt hplaces h
  · rw [roundTo_of_le hplaces ht h]
    exact roundPlaces_cases hx (Nat.floor_le_of_le (by exact_mod_cast h))

lemma rational?_12345 : rational? 12345.0 = some 12345 := by
  have hvalue : value 12345.0 = .finite false 6786735522447360 (-39) := by rfl
  rw [rational?, hvalue]
  norm_num

/-- A number of five digits and the greatest number of places for which it is multiplied. -/
theorem round_places_greatest :
    rational? 12345.0 = some 12345 ∧ rational? 308.0 = some 308 ∧ (0 : ℚ) ≤ 308 ∧
    ∃ y, round.call [12345.0, 308.0] = .ok y ∧ ((308 : ℚ) < 308 → y = 12345.0) ∧
      ((308 : ℚ) ≤ 308 → ∃ p, rational? (powerOfTen ⌊(308 : ℚ)⌋₊) = some p ∧ 1 ≤ p ∧
        (isFinite y = true ↔ |(12345 : ℚ)| * p < overflowBound) ∧
        (isFinite y = false → y = signed (isNegative 12345.0) infinity)) :=
  ⟨rational?_12345, rational?_308, by norm_num,
    round_places rational?_12345 rational?_308 (by norm_num)⟩

/-- With 308 places a number of five digits becomes infinite. -/
theorem round_places_not_finite :
    isFinite 12345.0 = true ∧ isFinite 308.0 = true ∧ (0.0 : Float) < 308.0 ∧
    round.call [12345.0, 308.0] = .ok infinity ∧ isFinite infinity = false := by
  have hfloor : ⌊(308 : ℚ)⌋₊ = 308 := Nat.floor_natCast 308
  have hround : roundTo 12345.0 308.0 = roundPlaces 12345.0 (308 : ℕ) := by
    rw [roundTo_of_le rational?_308 (by norm_num) le_rfl, hfloor]
  obtain ⟨p, hp, -, hfinite, hinfinite⟩ := roundPlaces_cases rational?_12345 (n := 308) le_rfl
  have hvalue : p = 5010420900022431 * 2 ^ 971 := by
    rw [rational?, value_powerOfTen_308] at hp
    rw [← Option.some.inj hp, if_neg Bool.false_ne_true, one_mul, ← zpow_natCast]
    rfl
  have hoverflow : ¬ |(12345 : ℚ)| * p < overflowBound := by
    rw [hvalue, overflowBound_eq, pow_succ', not_lt, ← mul_assoc, ← mul_assoc]
    exact mul_le_mul_of_nonneg_right (by norm_num) (by positivity)
  have hnone : isFinite (roundPlaces 12345.0 (308 : ℕ)) = false :=
    Bool.eq_false_iff.mpr (mt hfinite.mp hoverflow)
  have hsign : isNegative 12345.0 = false := isNegative_of_pos rational?_12345 (by norm_num)
  refine ⟨isFinite_of_rational? rational?_12345, isFinite_of_rational? rational?_308, ?_, ?_, rfl⟩
  · have hzero : rational? 0.0 = some 0 := by
      have hvalue : value 0.0 = .finite false 0 leastExponent := by rfl
      rw [rational?, hvalue]
      norm_num
    exact (lt_iff_of_rational? hzero rational?_308).mpr (by norm_num)
  · rw [call_round, hround, hinfinite hnone, hsign]
    rfl

end Primitive

end Calculator
