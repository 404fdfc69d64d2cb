import Calculator.Proofs.Rounding

/-!
# Unpacked numbers

The arithmetic of numbers is defined on their unpacked forms, and the result is packed again.
`packed` and `unpacked` are the two ways, and `value_eq` says that `value` reads the same off a
pattern as unpacking does. The opposite number has the opposite unpacked form, and a zero that is
added leaves every number as it is, except that positive zero hides the sign of negative zero.
-/

namespace Calculator.Binary64

open Float.Model (Format UnpackedFloat)
open Float.Model.UnpackedFloat

/-- The number that an unpacked form is packed into. -/
def packed (u : UnpackedFloat) : Float := ⟨.pack u⟩

def unpacked (x : Float) : UnpackedFloat := x.toModel.unpack

/-- What an unpacked form stands for. -/
def Value.ofUnpacked : UnpackedFloat → Value
  | .notANumber => .nan
  | .infinity s => .infinite (s == .negative)
  | .zero s => .finite (s == .negative) 0 leastExponent
  | .finite s m e _ => .finite (s == .negative) m e

/-- The bits of a number. -/
def pattern (x : Float) : Pattern := x.toBits.toBitVec

lemma unpacked_eq (x : Float) : unpacked x = UnpackedFloat.unpack Format.binary64 (pattern x) := rfl

lemma toNat_pattern (x : Float) : (pattern x).toNat = x.toBits.toNat := rfl

lemma packed_unpacked (x : Float) : packed (unpacked x) = x := by
  apply Float.toBits_inj.mp
  apply UInt64.toBitVec_inj.mp
  exact pack_unpack_of_valid x.toModel.valid

section operations

variable (x y : Float)

lemma neg_eq_packed : -x = packed (unpacked x).neg := rfl

lemma add_eq_packed :
    x + y = packed (UnpackedFloat.add Format.binary64 (unpacked x) (unpacked y)) := rfl

lemma mul_eq_packed :
    x * y = packed (UnpackedFloat.mul Format.binary64 (unpacked x) (unpacked y)) := rfl

lemma div_eq_packed :
    x / y = packed (UnpackedFloat.div Format.binary64 (unpacked x) (unpacked y)) := rfl

end operations

section value

lemma ofBitVec_unpackSign (b : Pattern) :
    (Sign.ofBitVec (unpackSign b) == .negative) = decide (2 ^ 63 ≤ b.toNat) := by
  have hsign := toNat_unpackSign b
  have hb : b.toNat < 2 ^ 64 := b.isLt
  unfold Sign.ofBitVec
  split
  · rename_i h
    rw [h, BitVec.toNat_zero] at hsign
    rw [decide_eq_false (by omega)]
    rfl
  · rename_i h
    have hne : (unpackSign b).toNat ≠ 0 := fun h₀ => h (BitVec.eq_of_toNat_eq h₀)
    rw [decide_eq_true (by omega)]
    rfl

lemma unpackExponent_eq_iff {b : Pattern} {n : ℕ} (hn : n < 2 ^ 11) :
    unpackExponent b = BitVec.ofNat 11 n ↔ b.toNat / 2 ^ 52 % 2 ^ 11 = n := by
  rw [← toNat_unpackExponent, ← BitVec.toNat_inj, BitVec.toNat_ofNat, Nat.mod_eq_of_lt hn]

lemma unpackMantissa_eq_zero_iff {b : Pattern} :
    unpackMantissa b = 0#52 ↔ b.toNat % 2 ^ 52 = 0 := by
  rw [← toNat_unpackMantissa, ← BitVec.toNat_inj, BitVec.toNat_zero]

lemma toNat_append_unpackMantissa (b : Pattern) :
    (1#1 ++ unpackMantissa b).toNat = 2 ^ 52 + b.toNat % 2 ^ 52 := by
  rw [BitVec.toNat_append, ← Nat.shiftLeft_add_eq_or_of_lt (unpackMantissa b).isLt,
    toNat_unpackMantissa, Nat.shiftLeft_eq]
  rfl

/-- The value of a number can be read off its unpacked form. -/
lemma value_eq (x : Float) : value x = .ofUnpacked (unpacked x) := by
  have htop : unpackExponent (pattern x) = -1#11 ↔ x.toBits.toNat / 2 ^ 52 % 2 ^ 11 = 2047 :=
    unpackExponent_eq_iff (n := 2047) (by decide)
  have hzero : unpackExponent (pattern x) = 0#11 ↔ x.toBits.toNat / 2 ^ 52 % 2 ^ 11 = 0 :=
    unpackExponent_eq_iff (by decide)
  have hmantissa : unpackMantissa (pattern x) = 0#52 ↔ x.toBits.toNat % 2 ^ 52 = 0 :=
    unpackMantissa_eq_zero_iff
  have hbias : (Format.binary64.exponentBias : ℤ) + (52 : ℕ) = 1 - leastExponent := rfl
  have hsign := ofBitVec_unpackSign (pattern x)
  rw [unpacked_eq]
  unfold value UnpackedFloat.unpack
  dsimp only
  by_cases h : x.toBits.toNat / 2 ^ 52 % 2 ^ 11 = 2047
  · rw [if_pos h, if_pos (htop.mpr h)]
    by_cases hm : x.toBits.toNat % 2 ^ 52 = 0
    · rw [if_pos hm, if_pos (hmantissa.mpr hm), Value.ofUnpacked, hsign]
      rfl
    · rw [if_neg hm, if_neg (mt hmantissa.mp hm), Value.ofUnpacked]
  · rw [if_neg h, if_neg (mt htop.mp h)]
    by_cases hz : x.toBits.toNat / 2 ^ 52 % 2 ^ 11 = 0
    · rw [if_pos hz, if_pos (hzero.mpr hz)]
      by_cases hm : x.toBits.toNat % 2 ^ 52 = 0
      · rw [dif_pos (hmantissa.mpr hm), Value.ofUnpacked, hsign, hm]
        rfl
      · rw [dif_neg (mt hmantissa.mp hm), Value.ofUnpacked, hsign, toNat_unpackMantissa,
          toNat_unpackExponent, toNat_pattern, hz, hbias]
        rfl
    · rw [if_neg hz, if_neg (mt hzero.mp hz), Value.ofUnpacked, hsign, toNat_append_unpackMantissa,
        toNat_unpackExponent, toNat_pattern, hbias, sub_sub_eq_add_sub, sub_add_eq_add_sub]

end value

section neg

lemma valid_flipped {b : Pattern} (h : UnpackedFloat.unpack Format.binary64 b ≠ .notANumber) :
    Format.binary64.Valid (flipped b) := by
  refine ⟨fun htop hne => absurd ?_ h⟩
  rw [flipped, unpackExponent_packComponents] at htop
  rw [flipped, unpackMantissa_packComponents] at hne
  unfold UnpackedFloat.unpack
  dsimp only
  rw [if_pos htop, if_neg hne]

lemma unpacked_neg (x : Float) : unpacked (-x) = (unpacked x).neg := by
  change UnpackedFloat.unpack Format.binary64
    (UnpackedFloat.pack Format.binary64 (unpacked x).neg) = (unpacked x).neg
  by_cases hnan : unpacked x = .notANumber
  · rw [hnan]
    rfl
  · rw [unpacked_eq, ← unpack_flipped, pack_unpack_of_valid (valid_flipped (b := pattern x) hnan)]

lemma opposite_opposite (x : Float) : - -x = x := by
  rw [neg_eq_packed, unpacked_neg]
  conv_rhs => rw [← packed_unpacked x]
  congr 1
  rcases unpacked x with s | _ | s | ⟨s, m, e, hm⟩
  · cases s <;> rfl
  · rfl
  · cases s <;> rfl
  · cases s <;> rfl

end neg

section zeros

lemma unpacked_positiveZero : unpacked 0.0 = .zero .positive := by rfl

lemma unpacked_negativeZero : unpacked (-0.0) = .zero .negative := by rfl

lemma negativeZero_add (x : Float) : -0.0 + x = x := by
  rw [add_eq_packed, unpacked_negativeZero]
  conv_rhs => rw [← packed_unpacked x]
  congr 1
  rcases unpacked x with s | _ | s | ⟨s, m, e, hm⟩
  · rfl
  · rfl
  · cases s <;> rfl
  · rfl

lemma positiveZero_add {x : Float} (hx : x ≠ -0.0) : 0.0 + x = x := by
  rw [add_eq_packed, unpacked_positiveZero]
  conv_rhs => rw [← packed_unpacked x]
  congr 1
  rcases hu : unpacked x with s | _ | s | ⟨s, m, e, hm⟩
  · rfl
  · rfl
  · cases s with
    | positive => rfl
    | negative =>
      rw [← unpacked_negativeZero] at hu
      exact absurd (by rw [← packed_unpacked x, hu, packed_unpacked]) hx
  · rfl

lemma positiveZero_add_negativeZero : (0.0 : Float) + -0.0 = 0.0 := by rfl

lemma positiveZero_ne_negativeZero : (0.0 : Float) ≠ -0.0 := by
  intro h
  have hu : unpacked 0.0 = unpacked (-0.0) := congrArg unpacked h
  rw [unpacked_positiveZero, unpacked_negativeZero] at hu
  cases hu

end zeros

end Calculator.Binary64
