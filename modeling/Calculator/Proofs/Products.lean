import Calculator.Proofs.Unpacking

/-!
# Products and quotients

A product or a quotient is computed as a whole number and two bits that tell what was cut off behind
it, shifted into place and rounded once. `extended` is the fraction that the number and the bits
stand for, so that what is packed in the end is the number nearest to the exact result, which is
what `mul_eq_ofScaled` and `div_eq_ofRatio` say.
-/

namespace Calculator.Binary64

open Float.Model (Format UnpackedFloat totalExponent)
open Float.Model.UnpackedFloat

section extended

variable {num den : ℕ}

/-- The whole part of a fraction, whether a half is left, and whether anything is left but that. -/
def extended (num den : ℕ) : ExtendedMantissa where
  mantissa := num / den
  roundBit := den ≤ 2 * (num % den)
  stickyBit := 2 * (num % den) % den ≠ 0

lemma roundedMantissa_extended (hd : 0 < den) :
    (extended num den).roundedMantissa = divNearestEven num den := by
  have hr : num % den < den := Nat.mod_lt num hd
  unfold extended ExtendedMantissa.roundedMantissa divNearestEven
  by_cases hlt : 2 * (num % den) < den
  · have hround : decide (den ≤ 2 * (num % den)) = false := by simpa using hlt
    rw [if_pos hlt, hround]
    cases decide (2 * (num % den) % den ≠ 0) <;> rfl
  · have hround : decide (den ≤ 2 * (num % den)) = true := by simpa using hlt
    have hsub : 2 * (num % den) % den = 2 * (num % den) - den := by
      rw [Nat.mod_eq_sub_mod (by omega), Nat.mod_eq_of_lt (by omega)]
    rw [if_neg hlt, hround, hsub]
    by_cases hgt : den < 2 * (num % den)
    · rw [if_pos hgt, decide_eq_true (by omega)]
      rfl
    · rw [if_neg hgt, decide_eq_false (by omega)]
      rfl

/-- Something is left behind the whole part exactly if one of the bits is set. -/
lemma roundBit_or_stickyBit_extended (hd : 0 < den) :
    ((extended num den).roundBit || (extended num den).stickyBit) = decide (num % den ≠ 0) := by
  unfold extended
  rw [← Bool.decide_or]
  apply decide_eq_decide.mpr
  constructor
  · intro h hzero
    rw [hzero, Nat.mul_zero, Nat.zero_mod] at h
    omega
  · intro hne
    by_cases hlt : 2 * (num % den) < den
    · rw [Nat.mod_eq_of_lt hlt]
      omega
    · omega

lemma shiftRightOne_extended (hd : 0 < den) :
    (extended num den).shiftRightOne = extended num (den * 2) := by
  have hmod : num % (den * 2) = num % den + den * (num / den % 2) := Nat.mod_mul
  have hr : num % den < den := Nat.mod_lt num hd
  have hround : ((num / den % 2 != 0) : Bool) = decide (den * 2 ≤ 2 * (num % (den * 2))) := by
    rw [Bool.eq_iff_iff, bne_iff_ne, decide_eq_true_iff, hmod]
    rcases Nat.mod_two_eq_zero_or_one (num / den) with h | h <;> rw [h] <;> omega
  have hsticky : decide (num % den ≠ 0) =
      decide (2 * (num % (den * 2)) % (den * 2) ≠ 0) := by
    rw [Nat.mul_comm den, Nat.mul_mod_mul_left, Nat.mod_mul_left_mod, decide_eq_decide]
    omega
  rw [ExtendedMantissa.shiftRightOne, roundBit_or_stickyBit_extended hd, hsticky]
  unfold extended
  dsimp only
  rw [hround, Nat.div_div_eq_div_mul]

lemma shiftRight_extended (hd : 0 < den) (k : ℕ) :
    extended num den >>> k = extended num (den * 2 ^ k) := by
  induction k with
  | zero =>
    rw [pow_zero, Nat.mul_one]
    rfl
  | succ k ih =>
    have hpos : 0 < den * 2 ^ k := by positivity
    rw [pow_succ, ← Nat.mul_assoc, ← shiftRightOne_extended hpos, ← ih]
    rfl

lemma ofMantissaAndAccuracy_exact (m : ℕ) :
    ExtendedMantissa.ofMantissaAndAccuracy m .exact = extended m 1 := by
  simp [ExtendedMantissa.ofMantissaAndAccuracy, extended, Nat.mod_one]

lemma ofMantissaAndAccuracy_accuracyOfFraction (hd : 0 < den) :
    ExtendedMantissa.ofMantissaAndAccuracy (num / den) (accuracyOfFraction (num % den) den) =
      extended num den := by
  have hr : num % den < den := Nat.mod_lt num hd
  unfold accuracyOfFraction extended
  by_cases hzero : num % den = 0
  · rw [if_pos hzero, hzero, decide_eq_false (by omega), decide_eq_false (by simp)]
    rfl
  · rw [if_neg hzero]
    rcases lt_trichotomy (2 * (num % den)) den with h | h | h
    · rw [compare_lt_iff_lt.mpr h, Nat.mod_eq_of_lt h, decide_eq_false (by omega),
        decide_eq_true (by omega)]
      rfl
    · rw [compare_eq_iff_eq.mpr h, h, Nat.mod_self, decide_eq_true le_rfl,
        decide_eq_false (by simp)]
      rfl
    · have hsub : 2 * (num % den) % den = 2 * (num % den) - den := by
        rw [Nat.mod_eq_sub_mod h.le, Nat.mod_eq_of_lt (by omega)]
      rw [compare_gt_iff_gt.mpr h, hsub, decide_eq_true h.le, decide_eq_true (by omega)]
      rfl

end extended

section packing

variable {s : Sign} {m : ℕ} {e : ℤ}

/-- The bit of a sign. -/
def signBits (negative : Bool) : ℕ := if negative then 2 ^ 63 else 0

lemma toNat_toBitVec (s : Sign) : s.toBitVec.toNat * 2 ^ 63 = signBits (s == .negative) := by
  cases s <;> rfl

/-- What is too large for its exponent is packed into infinity. -/
lemma toNat_pack_finite (hm : 0 < m) (hlt : m < 2 ^ 53) (he : leastExponent ≤ e)
    (hnormal : 2 ^ 52 ≤ m ∨ e = leastExponent) :
    (UnpackedFloat.pack Format.binary64 (.finite s m e hm)).toNat =
      signBits (s == .negative) +
        min ((e - leastExponent).toNat * 2 ^ 52 + m) infinityBits := by
  have hleast : leastExponent = -1074 := rfl
  have hinfinity : infinityBits = 2047 * 2 ^ 52 := rfl
  have hbias : e + Format.binary64.exponentBias + Format.binary64.mantissaBitsWithoutImplicit =
      e - leastExponent + 1 := by
    have hbias : (Format.binary64.exponentBias : ℤ) = 1023 := rfl
    rw [hbias, hleast]
    push_cast
    omega
  have hlog : m.log2 + 1 = Format.binary64.mantissaBits ↔ 2 ^ 52 ≤ m := by
    have hbits : Format.binary64.mantissaBits = 53 := rfl
    have hlow := Nat.le_log2 hm.ne' (k := 52)
    have hhigh := Nat.log2_lt hm.ne' (k := 53)
    omega
  rw [UnpackedFloat.pack]
  dsimp only
  rw [hbias]
  split
  · rename_i htop
    rw [packedInfinity, toNat_packComponents, toNat_toBitVec, min_eq_right (by omega)]
    rfl
  · rename_i htop
    split
    · rename_i hbits
      rw [hlog] at hbits
      rw [toNat_packComponents, toNat_toBitVec, min_eq_left (by omega), BitVec.toNat_ofNat,
        BitVec.toNat_ofNat, Nat.mod_eq_of_lt (by omega)]
      omega
    · rename_i hbits
      rw [hlog] at hbits
      rw [toNat_packComponents, toNat_toBitVec, min_eq_left (by omega), BitVec.toNat_ofNat,
        BitVec.toNat_ofNat]
      omega

/-- A mantissa with its exponent, which is a zero without a mantissa. -/
def ofParts (s : Sign) (m : ℕ) (e : ℤ) : UnpackedFloat :=
  if h : m = 0 then .zero s else .finite s m e (Nat.pos_of_ne_zero h)

lemma eq_ofBits {x : Float} {n : ℕ} (h : x.toBits.toNat = n) : x = .ofBits (.ofNat n) := by
  rw [← h, UInt64.ofNat_toNat, Float.ofBits_toBits]

lemma packed_ofParts (hlt : m < 2 ^ 53) (he : leastExponent ≤ e)
    (hnormal : 2 ^ 52 ≤ m ∨ e = leastExponent) :
    packed (ofParts s m e) = .ofBits (.ofNat (signBits (s == .negative) +
      min ((e - leastExponent).toNat * 2 ^ 52 + m) infinityBits)) := by
  apply eq_ofBits
  change (UnpackedFloat.pack Format.binary64 (ofParts s m e)).toNat = _
  unfold ofParts
  split
  · rename_i hzero
    subst hzero
    have heq : e = leastExponent := hnormal.resolve_left (by omega)
    rw [UnpackedFloat.pack, packedZero, toNat_packComponents, toNat_toBitVec, heq, sub_self]
    rfl
  · exact toNat_pack_finite _ hlt he hnormal

end packing

section rounding

variable {n d num den k : ℕ} {e t : ℤ}

lemma divNearestEven_le (hd : 0 < d) (h : n ≤ k * d) : divNearestEven n d ≤ k := by
  have hdiv : n / d ≤ k := Nat.div_le_of_le_mul (by rwa [Nat.mul_comm])
  unfold divNearestEven
  dsimp only
  by_cases heq : n / d = k
  · have hzero : n % d = 0 := by
      have hsplit := Nat.div_add_mod n d
      rw [heq, Nat.mul_comm] at hsplit
      omega
    rw [hzero, if_pos hd, heq]
  · split
    · exact hdiv
    · split <;> omega

lemma le_divNearestEven (hd : 0 < d) (h : k * d ≤ n) : k ≤ divNearestEven n d := by
  have hdiv : k ≤ n / d := (Nat.le_div_iff_mul_le hd).mpr h
  unfold divNearestEven
  dsimp only
  split
  · exact hdiv
  · split <;> omega

/-- The exponent of a rounded fraction is the one that leaves 53 bits, or the least one. -/
lemma magnitudeBits_eq (hd : 0 < d) (hden : 0 < den) (ht : leastExponent ≤ t)
    (hlow : t = leastExponent ∨ 2 ^ (t + 52) ≤ (n : ℚ) / d) (hhigh : (n : ℚ) / d < 2 ^ (t + 53))
    (hscaled : (num : ℚ) / den = n / d / 2 ^ t) :
    magnitudeBits n d =
      min ((t - leastExponent).toNat * 2 ^ 52 + divNearestEven num den) infinityBits := by
  have hscaled' := (div_scaleDown n d t).trans hscaled.symm
  rw [← divNearestEven_congr (scaleDown_pos hd n t) hden hscaled', magnitudeBits]
  split
  · rename_i hzero
    subst hzero
    have hleast : t = leastExponent := by
      refine hlow.resolve_right fun h => ?_
      rw [Nat.cast_zero, zero_div] at h
      exact absurd h (not_le.mpr (by positivity))
    have hnone : divNearestEven (scaleDown 0 d t).1 (scaleDown 0 d t).2 = 0 := by
      apply Nat.le_zero.mp
      apply divNearestEven_le (scaleDown_pos hd 0 t)
      rw [scaleDown_eq, Nat.zero_mul, Nat.zero_mul]
    rw [hnone, hleast, sub_self]
    rfl
  · rename_i hne
    have hq : (0 : ℚ) < (n : ℚ) / d :=
      div_pos (by exact_mod_cast Nat.pos_of_ne_zero hne) (by exact_mod_cast hd)
    have hmax : max (floorLog2 n d - 52) leastExponent = t := by
      rw [floorLog2_eq (Nat.pos_of_ne_zero hne) hd]
      have hlt : Int.log 2 ((n : ℚ) / d) < t + 53 :=
        (Int.lt_zpow_iff_log_lt one_lt_two hq).mp (by exact_mod_cast hhigh)
      rcases hlow with rfl | hlow
      · omega
      · have hle : t + 52 ≤ Int.log 2 ((n : ℚ) / d) :=
          (Int.zpow_le_iff_le_log one_lt_two hq).mp (by exact_mod_cast hlow)
        omega
    dsimp only
    rw [hmax]

/-- A fraction that is scaled to the exponent of its bits has at most 53 of them before rounding. -/
lemma divNearestEven_bounds (hden : 0 < den)
    (hlow : t = leastExponent ∨ 2 ^ (t + 52) ≤ (n : ℚ) / d) (hhigh : (n : ℚ) / d < 2 ^ (t + 53))
    (hscaled : (num : ℚ) / den = n / d / 2 ^ t) :
    divNearestEven num den ≤ 2 ^ 53 ∧
      (2 ^ 52 ≤ divNearestEven num den ∨ t = leastExponent) := by
  have hdenq : (0 : ℚ) < den := by exact_mod_cast hden
  constructor
  · apply divNearestEven_le hden
    have hlt : (num : ℚ) / den < 2 ^ 53 := by
      rw [hscaled, div_lt_iff₀ (by positivity)]
      rwa [add_comm, zpow_add₀ two_ne_zero] at hhigh
    rw [div_lt_iff₀ hdenq] at hlt
    exact_mod_cast hlt.le
  · refine hlow.symm.imp_left fun h => le_divNearestEven hden ?_
    rw [add_comm, zpow_add₀ two_ne_zero, ← le_div_iff₀ (by positivity), ← hscaled,
      le_div_iff₀ hdenq] at h
    exact_mod_cast h

/-- The exponent that a mantissa is shifted to. -/
lemma targetExponent_eq (m : ℕ) (e : ℤ) :
    Format.binary64.targetExponent (totalExponent m e) = max (m.log2 + e - 52) leastExponent := by
  have hbits : (Format.binary64.mantissaBits : ℤ) = 53 := rfl
  have hleast : Format.binary64.minExponent = leastExponent := rfl
  rw [Format.targetExponent, totalExponent, hbits, hleast]
  congr 1
  omega

lemma shiftToTargetExponent_extended {m : ℕ} {acc : Accuracy}
    (hacc : ExtendedMantissa.ofMantissaAndAccuracy m acc = extended num den) (hd : 0 < den) :
    shiftToTargetExponent Format.binary64 m e acc =
      (extended num (den * 2 ^ (max (m.log2 + e - 52) leastExponent - e).toNat),
        max (max (m.log2 + e - 52) leastExponent) e) := by
  rw [shiftToTargetExponent, targetExponent_eq, shiftToExponent, hacc,
    shiftRight_extended hd, Prod.mk.injEq]
  exact ⟨rfl, by omega⟩

/-- After rounding there are 53 bits at most, or one more, which is shifted away. -/
lemma packed_shifted {s : Sign} {m : ℕ} (hm : m ≤ 2 ^ 53) (ht : leastExponent ≤ t)
    (hnormal : 2 ^ 52 ≤ m ∨ t = leastExponent) :
    packed (ofParts s (shiftToTargetExponent Format.binary64 m t .exact).1.mantissa
      (shiftToTargetExponent Format.binary64 m t .exact).2) =
      .ofBits (.ofNat (signBits (s == .negative) +
        min ((t - leastExponent).toNat * 2 ^ 52 + m) infinityBits)) := by
  rw [shiftToTargetExponent_extended (ofMantissaAndAccuracy_exact m) Nat.one_pos]
  unfold extended
  dsimp only
  rw [Nat.one_mul]
  rcases hm.lt_or_eq with hlt | rfl
  · have hlog : (m.log2 : ℤ) < 53 := by
      by_cases hzero : m = 0
      · rw [hzero, Nat.log2_zero]
        decide
      · exact_mod_cast (Nat.log2_lt hzero).mpr hlt
    have hmax : max ((m.log2 : ℤ) + t - 52) leastExponent ≤ t := by omega
    rw [max_eq_right hmax, Int.toNat_eq_zero.mpr (by omega), pow_zero, Nat.div_one]
    exact packed_ofParts hlt ht hnormal
  · have hmax : max (((2 ^ 53 : ℕ).log2 : ℤ) + t - 52) leastExponent = t + 1 := by
      rw [Nat.log2_two_pow]
      omega
    have hone : (t + 1 - t).toNat = 1 := by omega
    have hcarry : (t + 1 - leastExponent).toNat * 2 ^ 52 + 2 ^ 53 / 2 ^ 1 =
        (t - leastExponent).toNat * 2 ^ 52 + 2 ^ 53 := by omega
    rw [hmax, max_eq_left (by omega), hone, ← hcarry]
    exact packed_ofParts (by decide) (by omega) (.inl (by decide))

lemma roundWithAccuracy_eq (s : Sign) (m : ℕ) (e : ℤ) (acc : Accuracy) :
    let first := shiftToTargetExponent Format.binary64 m e acc
    let second := shiftToTargetExponent Format.binary64 first.1.roundedMantissa first.2 .exact
    roundWithAccuracy Format.binary64 s m e acc = ofParts s second.1.mantissa second.2 := rfl

lemma cast_div_bounds (num : ℕ) (hden : 0 < den) :
    ((num / den : ℕ) : ℚ) ≤ (num : ℚ) / den ∧
      (num : ℚ) / den < 2 ^ (((num / den).log2 : ℤ) + 1) := by
  have hdenq : (0 : ℚ) < den := by exact_mod_cast hden
  constructor
  · rw [le_div_iff₀ hdenq]
    exact_mod_cast Nat.div_mul_le_self num den
  · have hnext : (num / den + 1 : ℕ) ≤ 2 ^ ((num / den).log2 + 1) := Nat.lt_log2_self
    have hnextq : ((num / den + 1 : ℕ) : ℚ) ≤ 2 ^ (((num / den).log2 : ℤ) + 1) := by
      exact_mod_cast hnext
    refine lt_of_lt_of_le ?_ hnextq
    rw [div_lt_iff₀ hdenq]
    exact_mod_cast Nat.lt_mul_of_div_lt (Nat.lt_succ_self _) hden

/-- What is rounded is packed into the number nearest to the fraction, as long as there are 53 bits
of it or the exponent is not above the least one. -/
lemma packed_roundWithAccuracy {acc : Accuracy} (s : Sign) (hd : 0 < d) (hden : 0 < den)
    (hacc : ExtendedMantissa.ofMantissaAndAccuracy (num / den) acc = extended num den)
    (hlarge : 2 ^ 52 ≤ num / den ∨ e ≤ leastExponent)
    (hratio : (n : ℚ) / d = (num : ℚ) / den * 2 ^ e) :
    packed (roundWithAccuracy Format.binary64 s (num / den) e acc) =
      ofRatio (s == .negative) n d := by
  obtain ⟨hfloor, hceil⟩ := cast_div_bounds num hden
  have he : (0 : ℚ) < 2 ^ e := by positivity
  have hlog : 2 ^ 52 ≤ num / den → 52 ≤ (num / den).log2 := fun h =>
    (Nat.le_log2 (by omega)).mpr h
  -- the first shift is to the exponent of the exact fraction; only the carry is left to the second
  obtain ⟨t, ht⟩ : ∃ t, t = max (((num / den).log2 : ℤ) + e - 52) leastExponent := ⟨_, rfl⟩
  have het : e ≤ t := by omega
  have hlow : t = leastExponent ∨ 2 ^ (t + 52) ≤ (n : ℚ) / d := by
    by_cases hleast : t = leastExponent
    · exact .inl hleast
    · right
      have hpos : 0 < num / den := by
        refine Nat.pos_of_ne_zero fun hnone => ?_
        rw [hnone] at hlarge
        rw [hnone, Nat.log2_zero] at ht
        omega
      rw [show t + 52 = ((num / den).log2 : ℤ) + e by omega, zpow_add₀ two_ne_zero, hratio]
      exact mul_le_mul_of_nonneg_right ((two_zpow_log2_le hpos).trans hfloor) he.le
  have hhigh : (n : ℚ) / d < 2 ^ (t + 53) := by
    calc (n : ℚ) / d < 2 ^ (((num / den).log2 : ℤ) + 1) * 2 ^ e :=
          hratio ▸ mul_lt_mul_of_pos_right hceil he
      _ = 2 ^ (((num / den).log2 : ℤ) + 1 + e) := (zpow_add₀ two_ne_zero _ _).symm
      _ ≤ 2 ^ (t + 53) := zpow_le_zpow_right₀ one_le_two (by omega)
  obtain ⟨k, hk⟩ : ∃ k, k = (t - e).toNat := ⟨_, rfl⟩
  have hden' : 0 < den * 2 ^ k := by positivity
  have hscaled : (num : ℚ) / (den * 2 ^ k : ℕ) = n / d / 2 ^ t := by
    rw [hratio, show t = e + k by omega, zpow_add₀ two_ne_zero, zpow_natCast]
    push_cast
    field_simp
  obtain ⟨hle, hnormal⟩ := divNearestEven_bounds hden' hlow hhigh hscaled
  rw [roundWithAccuracy_eq, shiftToTargetExponent_extended hacc hden, ← ht, ← hk, max_eq_left het]
  dsimp only
  rw [roundedMantissa_extended hden', packed_shifted hle (by omega) hnormal, ofRatio,
    magnitudeBits_eq hd hden' (by omega) hlow hhigh hscaled]
  rfl

end rounding

section arithmetic

variable {x y : Float} {negative negative' : Bool} {m m' : ℕ} {e e' : ℤ}

def signOf (negative : Bool) : Sign := if negative then .negative else .positive

lemma unpacked_of_value (h : value x = .finite negative m e) :
    unpacked x = ofParts (signOf negative) m e := by
  have hsign (s : Sign) : signOf (s == .negative) = s := by cases s <;> rfl
  rw [value_eq] at h
  rcases hu : unpacked x with s | _ | s | ⟨s, m', e', hm⟩
  · rw [hu] at h
    exact nomatch h
  · rw [hu] at h
    exact nomatch h
  · rw [hu, Value.ofUnpacked] at h
    obtain ⟨rfl, rfl, rfl⟩ := Value.finite.inj h
    rw [hsign]
    rfl
  · rw [hu, Value.ofUnpacked] at h
    obtain ⟨rfl, rfl, rfl⟩ := Value.finite.inj h
    rw [hsign, ofParts, dif_neg hm.ne']

lemma packed_zero (s : Sign) (d : ℕ) : packed (.zero s) = ofRatio (s == .negative) 0 d := by
  have hpacked := packed_ofParts (s := s) (m := 0) (by decide) le_rfl (.inr rfl)
  have hzero : magnitudeBits 0 d = 0 := if_pos rfl
  rw [sub_self, Int.toNat_zero, Nat.zero_mul, Nat.zero_add, Nat.zero_min] at hpacked
  rw [ofRatio, hzero]
  exact hpacked

lemma signOf_mul (negative negative' : Bool) :
    (signOf negative * signOf negative' == .negative) = (negative != negative') := by
  cases negative <;> cases negative' <;> rfl

lemma signOf_div (negative negative' : Bool) :
    (signOf negative / signOf negative' == .negative) = (negative != negative') := by
  cases negative <;> cases negative' <;> rfl

lemma mul_ofParts (s s' : Sign) (m m' : ℕ) (e e' : ℤ) :
    UnpackedFloat.mul Format.binary64 (ofParts s m e) (ofParts s' m' e') =
      if m * m' = 0 then .zero (s * s')
      else roundWithAccuracy Format.binary64 (s * s') (m * m') (e + e') .exact := by
  unfold ofParts
  by_cases hm : m = 0
  · rw [dif_pos hm, if_pos (by rw [hm, Nat.zero_mul])]
    split <;> rfl
  · by_cases hm' : m' = 0
    · rw [dif_neg hm, dif_pos hm', if_pos (by rw [hm', Nat.mul_zero])]
      rfl
    · rw [dif_neg hm, dif_neg hm', if_neg (Nat.mul_ne_zero hm hm')]
      rfl

lemma div_ofParts (s s' : Sign) (m : ℕ) (e e' : ℤ) (hm' : m' ≠ 0) :
    UnpackedFloat.div Format.binary64 (ofParts s m e) (ofParts s' m' e') =
      if m = 0 then .zero (s / s')
      else
        let t := min (e - e')
          (Format.binary64.targetExponent (totalExponent m e - totalExponent m' e'))
        let num := m <<< (e - e' - t).toNat
        roundWithAccuracy Format.binary64 (s / s') (num / m') t
          (accuracyOfFraction (num % m') m') := by
  unfold ofParts
  by_cases hm : m = 0
  · rw [dif_pos hm, dif_neg hm', if_pos hm]
    rfl
  · rw [dif_neg hm, dif_neg hm', if_neg hm]
    rfl

/-- A product of finite numbers is the number nearest to the product of what they stand for. -/
theorem mul_eq_ofScaled (hx : value x = .finite negative m e)
    (hy : value y = .finite negative' m' e') :
    x * y = ofScaled (negative != negative') (m * m') (e + e') := by
  rw [mul_eq_packed, unpacked_of_value hx, unpacked_of_value hy, mul_ofParts, ← signOf_mul,
    ofScaled]
  split
  · rename_i hzero
    rw [hzero, Nat.zero_mul]
    exact packed_zero _ _
  · rename_i hne
    obtain ⟨hlt, hge, hle, hnormal⟩ := (toNat_toBits_of_value hx).1
    obtain ⟨hlt', hge', hle', hnormal'⟩ := (toNat_toBits_of_value hy).1
    have hlarge : 2 ^ 52 ≤ m * m' / 1 ∨ e + e' ≤ leastExponent := by
      rw [Nat.div_one]
      have hm : 0 < m := Nat.pos_of_ne_zero (left_ne_zero_of_mul hne)
      have hm' : 0 < m' := Nat.pos_of_ne_zero (right_ne_zero_of_mul hne)
      rcases hnormal with h | rfl
      · exact .inl (h.trans (Nat.le_mul_of_pos_right m hm'))
      · rcases hnormal' with h' | rfl
        · exact .inl (h'.trans (Nat.le_mul_of_pos_left m' hm))
        · exact .inr (by decide)
    have hacc : ExtendedMantissa.ofMantissaAndAccuracy (m * m' / 1) .exact =
        extended (m * m') 1 := by
      rw [Nat.div_one, ofMantissaAndAccuracy_exact]
    have hratio : ((m * m' * 2 ^ (e + e').toNat : ℕ) : ℚ) / (2 ^ (-(e + e')).toNat : ℕ) =
        (m * m' : ℕ) / (1 : ℕ) * 2 ^ (e + e') := by
      rw [cast_scaled, Nat.cast_one, div_one]
    have hround := packed_roundWithAccuracy (signOf negative * signOf negative')
      (Nat.two_pow_pos _) Nat.one_pos hacc hlarge hratio
    rwa [Nat.div_one] at hround

/-- The dividend is shifted far enough for all bits of the quotient that are kept. -/
lemma enough_bits {t : ℤ} {k : ℕ} (hm : m ≠ 0) (hm' : 0 < m')
    (ht : t = min (e - e')
      (Format.binary64.targetExponent (totalExponent m e - totalExponent m' e')))
    (hk : k = (e - e' - t).toNat) : 2 ^ 52 ≤ m * 2 ^ k / m' ∨ t ≤ leastExponent := by
  have hbits : (Format.binary64.mantissaBits : ℤ) = 53 := rfl
  have hleast : Format.binary64.minExponent = leastExponent := rfl
  rw [Format.targetExponent, totalExponent, totalExponent, hbits, hleast] at ht
  refine or_iff_not_imp_right.mpr fun hgt => (Nat.le_div_iff_mul_le hm').mpr ?_
  calc 2 ^ 52 * m' ≤ 2 ^ 52 * 2 ^ (m'.log2 + 1) := Nat.mul_le_mul_left _ Nat.lt_log2_self.le
    _ = 2 ^ (52 + (m'.log2 + 1)) := (pow_add 2 _ _).symm
    _ ≤ 2 ^ (m.log2 + k) := Nat.pow_le_pow_right Nat.two_pos (by omega)
    _ = 2 ^ m.log2 * 2 ^ k := pow_add 2 _ _
    _ ≤ m * 2 ^ k := Nat.mul_le_mul_right _ (Nat.log2_self_le hm)

/-- A quotient of finite numbers is the number nearest to the quotient of what they stand for, as
long as the divisor is not zero. -/
theorem div_eq_ofRatio (hx : value x = .finite negative m e)
    (hy : value y = .finite negative' m' e') (hm' : m' ≠ 0) :
    x / y = ofRatio (negative != negative')
      (m * 2 ^ (e - e').toNat) (m' * 2 ^ (e' - e).toNat) := by
  rw [div_eq_packed, unpacked_of_value hx, unpacked_of_value hy, div_ofParts _ _ _ _ _ hm',
    ← signOf_div]
  split
  · rename_i hzero
    rw [hzero, Nat.zero_mul]
    exact packed_zero _ _
  · rename_i hne
    dsimp only
    obtain ⟨t, ht⟩ : ∃ t, t = min (e - e')
        (Format.binary64.targetExponent (totalExponent m e - totalExponent m' e')) := ⟨_, rfl⟩
    obtain ⟨k, hk⟩ : ∃ k, k = (e - e' - t).toNat := ⟨_, rfl⟩
    rw [← ht, ← hk, Nat.shiftLeft_eq]
    have hpos' : 0 < m' := Nat.pos_of_ne_zero hm'
    apply packed_roundWithAccuracy _ (by positivity) hpos'
      (ofMantissaAndAccuracy_accuracyOfFraction hpos') (enough_bits hne hpos' ht hk)
    rw [← Int.neg_sub e e', Nat.cast_mul, Nat.cast_mul, mul_div_mul_comm, Nat.cast_pow,
      Nat.cast_pow, Nat.cast_ofNat, ← zpow_eq_div two_ne_zero,
      show e - e' = k + t by omega, zpow_add₀ two_ne_zero, zpow_natCast]
    push_cast
    ring

end arithmetic

end Calculator.Binary64
