import Calculator.Proofs.Products

/-!
# The range of finite numbers

A fraction is rounded to a finite number exactly if it is below `overflowBound`, half a unit above
the greatest finite number; all finite numbers are below it. Rounding does not cross one either, and
finite numbers are ordered as the fractions that they stand for.
-/

namespace Calculator.Binary64

open Float.Model (UnpackedFloat)
open Float.Model.UnpackedFloat

/-- The least fraction that is rounded to infinity. -/
def overflowBound : ℚ := 2 ^ 1024 - 2 ^ 970

lemma overflowBound_eq : overflowBound = (2 ^ 54 - 1) * 2 ^ 970 := by
  rw [overflowBound, sub_mul, one_mul, ← pow_add]

section bounds

variable {n d k : ℕ} {x : Float} {negative : Bool}

/-- Halfway below an even number is rounded up to it. -/
lemma divNearestEven_lt_iff (hd : 0 < d) (hk : k % 2 = 1) :
    divNearestEven n d < k + 1 ↔ 2 * n < (2 * k + 1) * d := by
  have hsplit : d * (n / d) + n % d = n := Nat.div_add_mod n d
  have hr : n % d < d := Nat.mod_lt n hd
  have hdist : (2 * k + 1) * d = 2 * (d * k) + d := by ring
  unfold divNearestEven
  dsimp only
  rcases lt_trichotomy (n / d) k with hlt | heq | hgt
  · have hmul : d * (n / d + 1) ≤ d * k := Nat.mul_le_mul_left d hlt
    rw [Nat.mul_add, Nat.mul_one] at hmul
    refine iff_of_true ?_ (by omega)
    split
    · omega
    · split <;> omega
  · rw [heq] at hsplit ⊢
    split
    · omega
    · split <;> omega
  · have hmul : d * (k + 1) ≤ d * (n / d) := Nat.mul_le_mul_left d hgt
    rw [Nat.mul_add, Nat.mul_one] at hmul
    refine iff_of_false ?_ (by omega)
    split
    · omega
    · split <;> omega

/-- The exponent that 53 bits of a fraction have. -/
lemma exists_exponent (hn : 0 < n) (hd : 0 < d) :
    ∃ t, leastExponent ≤ t ∧ (t = leastExponent ∨ 2 ^ (t + 52) ≤ (n : ℚ) / d) ∧
      (n : ℚ) / d < 2 ^ (t + 53) := by
  have hq : (0 : ℚ) < (n : ℚ) / d := div_pos (by exact_mod_cast hn) (by exact_mod_cast hd)
  refine ⟨max (Int.log 2 ((n : ℚ) / d) - 52) leastExponent, le_max_right _ _, ?_, ?_⟩
  · rcases max_cases (Int.log 2 ((n : ℚ) / d) - 52) leastExponent with ⟨h, -⟩ | ⟨h, -⟩
    · right
      rw [h, sub_add_cancel]
      exact Int.zpow_log_le_self one_lt_two hq
    · exact .inl h
  · refine lt_of_lt_of_le (Int.lt_zpow_succ_log_self one_lt_two _) ?_
    exact zpow_le_zpow_right₀ one_le_two (by omega)

/-- The bits are those of infinity exactly from the bound on. -/
lemma magnitudeBits_lt_iff (hd : 0 < d) :
    magnitudeBits n d < infinityBits ↔ (n : ℚ) / d < overflowBound := by
  have hinfinity : infinityBits = 2047 * 2 ^ 52 := rfl
  have hleast : leastExponent = -1074 := rfl
  rcases Nat.eq_zero_or_pos n with rfl | hn
  · have hzero : magnitudeBits 0 d = 0 := if_pos rfl
    rw [hzero, Nat.cast_zero, zero_div, overflowBound_eq]
    exact iff_of_true (by decide) (by norm_num)
  · obtain ⟨t, ht, hlow, hhigh⟩ := exists_exponent hn hd
    obtain ⟨⟨num, den⟩, hscale⟩ : ∃ p, p = scaleDown n d t := ⟨_, rfl⟩
    have hden : 0 < den := by
      have hpos := scaleDown_pos hd n t
      rwa [← hscale] at hpos
    have hscaled : (num : ℚ) / den = n / d / 2 ^ t := by
      rw [← div_scaleDown, ← hscale]
    have hdenq : (0 : ℚ) < den := by exact_mod_cast hden
    have hratio : (n : ℚ) / d = num / den * 2 ^ t := by
      rw [hscaled, div_mul_cancel₀ _ (by positivity)]
    rw [magnitudeBits_eq hd hden ht hlow hhigh hscaled]
    obtain ⟨hle, hnormal⟩ := divNearestEven_bounds hden hlow hhigh hscaled
    -- the bound lies among the fractions of the exponent 971, so only there does rounding matter
    rcases lt_trichotomy t 971 with hlt | rfl | hgt
    · refine iff_of_true (by omega) (hhigh.trans_le ?_)
      calc (2 : ℚ) ^ (t + 53) ≤ 2 ^ ((53 : ℕ) + (970 : ℕ) : ℤ) :=
            zpow_le_zpow_right₀ one_le_two (by omega)
        _ = 2 ^ 53 * 2 ^ 970 := by rw [zpow_add₀ two_ne_zero, zpow_natCast, zpow_natCast]
        _ ≤ overflowBound :=
            overflowBound_eq ▸ mul_le_mul_of_nonneg_right (by norm_num) (by positivity)
    · have hround := divNearestEven_lt_iff (n := num) (k := 2 ^ 53 - 1) hden (by decide)
      have hpow : (2 : ℚ) ^ (971 : ℤ) = 2 * 2 ^ 970 := by
        rw [← pow_succ']
        exact zpow_natCast 2 971
      have hbound : (n : ℚ) / d < overflowBound ↔ 2 * num < (2 * (2 ^ 53 - 1) + 1) * den := by
        rw [hratio, hpow, ← mul_assoc, overflowBound_eq, mul_lt_mul_iff_left₀ (by positivity),
          div_mul_eq_mul_div, div_lt_iff₀ hdenq, mul_comm (num : ℚ),
          show (2 ^ 54 - 1 : ℚ) = (2 * (2 ^ 53 - 1) + 1 : ℕ) by norm_num]
        exact_mod_cast Iff.rfl
      rw [hbound, ← hround]
      omega
    · refine iff_of_false (by omega) (not_lt.mpr ?_)
      calc overflowBound ≤ 2 ^ 54 * 2 ^ 970 :=
            overflowBound_eq ▸ mul_le_mul_of_nonneg_right (by norm_num) (by positivity)
        _ = 2 ^ ((54 : ℕ) + (970 : ℕ) : ℤ) := by
            rw [zpow_add₀ two_ne_zero, zpow_natCast, zpow_natCast]
        _ ≤ 2 ^ (t + 52) := zpow_le_zpow_right₀ one_le_two (by omega)
        _ ≤ (n : ℚ) / d := hlow.resolve_left (by omega)

lemma isFinite_iff (x : Float) : isFinite x = true ↔ x.toBits.toNat % 2 ^ 63 < infinityBits := by
  have hinfinity : infinityBits = 2047 * 2 ^ 52 := rfl
  have hbits : x.toBits.toNat < 2 ^ 64 := x.toBits.toNat_lt
  unfold isFinite value
  dsimp only
  split
  · rename_i hfinite
    split at hfinite
    · split at hfinite <;> exact nomatch hfinite
    · exact iff_of_true rfl (by omega)
  · rename_i hnone
    refine iff_of_false Bool.false_ne_true fun h => ?_
    split at hnone
    · omega
    · split at hnone
      · exact hnone _ _ _ rfl
      · exact hnone _ _ _ rfl

lemma signBits_eq_or (negative : Bool) :
    signBits negative = 0 ∨ signBits negative = 2 ^ 63 := by
  cases negative with
  | false => exact .inl rfl
  | true => exact .inr rfl

lemma toNat_toBits_ofRatio (negative : Bool) (n d : ℕ) :
    (ofRatio negative n d).toBits.toNat = signBits negative + magnitudeBits n d := by
  have hinfinity : infinityBits = 2047 * 2 ^ 52 := rfl
  have hle := magnitudeBits_le n d
  have hsign := signBits_eq_or negative
  have hbits : (ofRatio negative n d).toBits = .ofNat (signBits negative + magnitudeBits n d) :=
    toBits_ofBits_ofNat (n := signBits negative + magnitudeBits n d) (by omega) (by omega)
  rw [hbits, UInt64.toNat_ofNat', Nat.mod_eq_of_lt (by omega)]

theorem isFinite_ofRatio_iff (hd : 0 < d) :
    isFinite (ofRatio negative n d) = true ↔ (n : ℚ) / d < overflowBound := by
  have hinfinity : infinityBits = 2047 * 2 ^ 52 := rfl
  have hle := magnitudeBits_le n d
  have hsign := signBits_eq_or negative
  rw [isFinite_iff, toNat_toBits_ofRatio, ← magnitudeBits_lt_iff hd]
  omega

lemma ofRatio_of_overflow (hd : 0 < d) (h : overflowBound ≤ (n : ℚ) / d) :
    ofRatio negative n d = signed negative infinity := by
  have htop : magnitudeBits n d = infinityBits :=
    le_antisymm (magnitudeBits_le n d) (not_lt.mp (mt (magnitudeBits_lt_iff hd).mp (not_lt.mpr h)))
  have hinfinity : infinity = .ofBits (.ofNat infinityBits) := by rfl
  rw [ofRatio, htop, hinfinity]
  cases negative with
  | false => rw [if_neg (by decide), Nat.zero_add]; rfl
  | true => exact (neg_ofBits le_rfl).symm

end bounds

section finite

variable {x y : Float} {q p : ℚ} {negative : Bool} {m : ℕ} {e : ℤ}

lemma isFinite_iff_rational? : isFinite x = true ↔ ∃ q, rational? x = some q := by
  unfold isFinite rational?
  cases value x <;> simp

lemma isFinite_of_rational? (h : rational? x = some q) : isFinite x = true :=
  isFinite_iff_rational?.mpr ⟨q, h⟩

lemma isNegative_of_value (h : value x = .finite negative m e) : isNegative x = negative := by
  have hleast : leastExponent = -1074 := rfl
  obtain ⟨⟨hlt, hge, hle, -⟩, hbits⟩ := toNat_toBits_of_value h
  rw [isNegative, hbits]
  cases negative with
  | false => exact decide_eq_false (by rw [if_neg Bool.false_ne_true]; omega)
  | true => exact decide_eq_true (by rw [if_pos rfl]; omega)

/-- A finite number by its sign and the magnitude of its fraction. -/
lemma exists_value_abs (h : rational? x = some q) :
    ∃ m e, value x = .finite (isNegative x) m e ∧ |q| = m * 2 ^ e := by
  obtain ⟨negative, m, e, hvalue, rfl⟩ := exists_value_of_rational? h
  refine ⟨m, e, isNegative_of_value hvalue ▸ hvalue, ?_⟩
  have hnonneg : (0 : ℚ) ≤ m * 2 ^ e := by positivity
  rw [abs_mul, abs_of_nonneg hnonneg]
  cases negative <;> simp

lemma abs_lt_overflowBound (h : rational? x = some q) : |q| < overflowBound := by
  obtain ⟨m, e, hvalue, habs⟩ := exists_value_abs h
  have hfinite : isFinite (ofScaled (isNegative x) m e) = true := by
    rw [ofScaled_of_value hvalue]
    exact isFinite_of_rational? h
  rw [ofScaled, isFinite_ofRatio_iff (Nat.two_pow_pos _), cast_scaled] at hfinite
  rwa [habs]

/-- The bits of finite numbers from one on are between those of one and those of infinity. -/
lemma one_le_of_bits (hlow : 1023 * 2 ^ 52 ≤ x.toBits.toNat)
    (hhigh : x.toBits.toNat < infinityBits) :
    ∃ q, rational? x = some q ∧ 1 ≤ q := by
  have hleast : leastExponent = -1074 := rfl
  have hinfinity : infinityBits = 2047 * 2 ^ 52 := rfl
  obtain ⟨q, hq⟩ := isFinite_iff_rational?.mp ((isFinite_iff x).mpr (by omega))
  refine ⟨q, hq, ?_⟩
  obtain ⟨negative, m, e, hvalue, rfl⟩ := exists_value_of_rational? hq
  obtain ⟨⟨hlt, hge, hle, hnormal⟩, hbits⟩ := toNat_toBits_of_value hvalue
  have hnegative : negative = false := by
    cases negative with
    | false => rfl
    | true =>
      rw [if_pos rfl] at hbits
      omega
  rw [hnegative, if_neg Bool.false_ne_true] at hbits
  have he : -52 ≤ e := by omega
  have hm : 2 ^ 52 ≤ m := hnormal.resolve_right (by omega)
  rw [hnegative, if_neg Bool.false_ne_true, one_mul]
  calc (1 : ℚ) = 2 ^ 52 * 2 ^ (-52 : ℤ) := by norm_num
    _ ≤ m * 2 ^ e := mul_le_mul (by exact_mod_cast hm) (zpow_le_zpow_right₀ one_le_two he)
        (by positivity) (by positivity)

/-- A fraction that is not below one is not rounded to a number below one. -/
lemma one_le_ofRatio {n d : ℕ} (hd : 0 < d) (hone : 1 ≤ (n : ℚ) / d)
    (hlt : (n : ℚ) / d < overflowBound) :
    ∃ q, rational? (ofRatio false n d) = some q ∧ 1 ≤ q := by
  have hleast : leastExponent = -1074 := rfl
  have hinfinity : infinityBits = 2047 * 2 ^ 52 := rfl
  have hn : 0 < n := by
    refine Nat.pos_of_ne_zero fun hzero => ?_
    rw [hzero, Nat.cast_zero, zero_div] at hone
    exact absurd hone (by norm_num)
  have hhigh := (magnitudeBits_lt_iff hd).mpr hlt
  obtain ⟨t, ht, hexponent, hbelow⟩ := exists_exponent hn hd
  have hpos : 0 < t + 53 := (zpow_lt_zpow_iff_right₀ one_lt_two).mp
    (lt_of_le_of_lt (by rwa [zpow_zero]) hbelow)
  have hscaled := div_scaleDown n d t
  obtain ⟨-, hnormal⟩ := divNearestEven_bounds (scaleDown_pos hd n t) hexponent hbelow hscaled
  have hlow : 1023 * 2 ^ 52 ≤ magnitudeBits n d := by
    rw [magnitudeBits_eq hd (scaleDown_pos hd n t) ht hexponent hbelow hscaled]
    omega
  have hbits : (ofRatio false n d).toBits.toNat = magnitudeBits n d :=
    (toNat_toBits_ofRatio false n d).trans (Nat.zero_add _)
  exact one_le_of_bits (hbits ▸ hlow) (hbits ▸ hhigh)

section order

/-- The magnitudes of finite numbers are ordered by their exponents first. -/
lemma scaled_lt_scaled {m' : ℕ} {e' : ℤ} (h : IsNormalized m e) (h' : IsNormalized m' e')
    (hlt : e < e' ∨ e = e' ∧ m < m') : (m : ℚ) * 2 ^ e < m' * 2 ^ e' := by
  rcases hlt with hlt | ⟨rfl, hlt⟩
  · have hm' : 2 ^ 52 ≤ m' := h'.normal.resolve_right (by have := h.exponent_ge; omega)
    calc (m : ℚ) * 2 ^ e < 2 ^ 53 * 2 ^ e :=
          mul_lt_mul_of_pos_right (by exact_mod_cast h.mantissa_lt) (by positivity)
      _ = 2 ^ 52 * 2 ^ (e + 1) := by rw [zpow_add₀ two_ne_zero]; ring
      _ ≤ m' * 2 ^ e' := mul_le_mul (by exact_mod_cast hm')
          (zpow_le_zpow_right₀ one_le_two (by omega)) (by positivity) (by positivity)
  · exact mul_lt_mul_of_pos_right (by exact_mod_cast hlt) (by positivity)

lemma compare_scaled {m' : ℕ} {e' : ℤ} (h : IsNormalized m e) (h' : IsNormalized m' e') :
    (compare e e').then (compare m m') = compare ((m : ℚ) * 2 ^ e) (m' * 2 ^ e') := by
  rcases lt_trichotomy e e' with hlt | rfl | hgt
  · rw [compare_lt_iff_lt.mpr hlt, compare_lt_iff_lt.mpr (scaled_lt_scaled h h' (.inl hlt))]
    rfl
  · rw [compare_eq_iff_eq.mpr rfl, Ordering.then]
    rcases lt_trichotomy m m' with hlt | rfl | hgt
    · rw [compare_lt_iff_lt.mpr hlt,
        compare_lt_iff_lt.mpr (scaled_lt_scaled h h' (.inr ⟨rfl, hlt⟩))]
    · rw [compare_eq_iff_eq.mpr rfl, compare_eq_iff_eq.mpr rfl]
    · rw [compare_gt_iff_gt.mpr hgt,
        compare_gt_iff_gt.mpr (scaled_lt_scaled h' h (.inr ⟨rfl, hgt⟩))]
  · rw [compare_gt_iff_gt.mpr hgt, compare_gt_iff_gt.mpr (scaled_lt_scaled h' h (.inl hgt))]
    rfl

lemma compare_neg_neg (a b : ℚ) : compare (-a) (-b) = (compare a b).swap := by
  rcases lt_trichotomy a b with h | rfl | h
  · rw [compare_lt_iff_lt.mpr h, compare_gt_iff_gt.mpr (neg_lt_neg h), Ordering.swap]
  · rw [compare_eq_iff_eq.mpr rfl, compare_eq_iff_eq.mpr rfl, Ordering.swap]
  · rw [compare_gt_iff_gt.mpr h, compare_lt_iff_lt.mpr (neg_lt_neg h), Ordering.swap]

/-- The fraction with the given sign. -/
def signedFraction (negative : Bool) (r : ℚ) : ℚ := if negative then -r else r

lemma signedFraction_zero (negative : Bool) (e : ℤ) :
    signedFraction negative ((0 : ℕ) * 2 ^ e) = 0 := by
  cases negative <;> simp [signedFraction]

lemma compare_ofParts {negative' : Bool} {m' : ℕ} {e' : ℤ} (h : IsNormalized m e)
    (h' : IsNormalized m' e') :
    (ofParts (signOf negative) m e).compare (ofParts (signOf negative') m' e') =
      some (compare (signedFraction negative (m * 2 ^ e))
        (signedFraction negative' (m' * 2 ^ e'))) := by
  have hcompare := compare_scaled h h'
  have hpos {m : ℕ} (hm : m ≠ 0) (e : ℤ) : (0 : ℚ) < m * 2 ^ e :=
    mul_pos (by exact_mod_cast Nat.pos_of_ne_zero hm) (by positivity)
  unfold ofParts
  by_cases hm : m = 0
  · rw [dif_pos hm, hm, signedFraction_zero]
    by_cases hm' : m' = 0
    · rw [dif_pos hm', hm', signedFraction_zero]
      exact congrArg some (compare_eq_iff_eq.mpr rfl).symm
    · rw [dif_neg hm']
      cases negative' with
      | false => exact congrArg some (compare_lt_iff_lt.mpr (hpos hm' e')).symm
      | true => exact congrArg some (compare_gt_iff_gt.mpr (neg_lt_zero.mpr (hpos hm' e'))).symm
  · rw [dif_neg hm]
    by_cases hm' : m' = 0
    · rw [dif_pos hm', hm', signedFraction_zero]
      cases negative with
      | false => exact congrArg some (compare_gt_iff_gt.mpr (hpos hm e)).symm
      | true => exact congrArg some (compare_lt_iff_lt.mpr (neg_lt_zero.mpr (hpos hm e))).symm
    · rw [dif_neg hm']
      have hneg := (neg_lt_zero.mpr (hpos hm e)).trans (hpos hm' e')
      have hneg' := (neg_lt_zero.mpr (hpos hm' e')).trans (hpos hm e)
      cases negative <;> cases negative'
      case false.false => exact congrArg some hcompare
      case false.true => exact congrArg some (compare_gt_iff_gt.mpr hneg').symm
      case true.false => exact congrArg some (compare_lt_iff_lt.mpr hneg).symm
      case true.true =>
        refine congrArg some ((congrArg Ordering.swap hcompare).trans ?_)
        exact (compare_neg_neg _ _).symm

/-- Finite numbers are ordered as the fractions that they stand for. -/
theorem lt_iff_of_rational? (hx : rational? x = some q) (hy : rational? y = some p) :
    x < y ↔ q < p := by
  obtain ⟨negative, m, e, hvx, rfl⟩ := exists_value_of_rational? hx
  obtain ⟨negative', m', e', hvy, rfl⟩ := exists_value_of_rational? hy
  have hsign (negative : Bool) (r : ℚ) :
      (if negative then -1 else 1) * r = signedFraction negative r := by
    cases negative <;> simp [signedFraction]
  have hlt : x < y ↔ ((unpacked x).compare (unpacked y) == some .lt) = true := by
    change decide (x.toModel < y.toModel) = true ↔ _
    rw [decide_eq_true_iff]
    rfl
  rw [hlt, unpacked_of_value hvx, unpacked_of_value hvy, hsign, hsign,
    compare_ofParts (toNat_toBits_of_value hvx).1 (toNat_toBits_of_value hvy).1,
    ← compare_lt_iff_lt]
  simp

end order

end finite

end Calculator.Binary64
