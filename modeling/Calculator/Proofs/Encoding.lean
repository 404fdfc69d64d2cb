import Calculator.Binary64.Basic
import Mathlib

/-!
# The patterns of binary64 numbers

A number is the same as its pattern of 64 bits, as long as the pattern is not one of the many that
are not a number. `IsNormalized` says which mantissas and exponents `value` finds in a pattern, and
`eq_of_value` puts the pattern together from them. The opposite number has the opposite sign bit.
-/

namespace Calculator.Binary64

open Float.Model (Format UnpackedFloat)
open Float.Model.UnpackedFloat

abbrev Pattern : Type := BitVec Format.binary64.numBits

section fields

lemma toNat_unpackMantissa (b : Pattern) : (unpackMantissa b).toNat = b.toNat % 2 ^ 52 := by
  simp [unpackMantissa, BitVec.extractLsb, BitVec.extractLsb'_toNat]

lemma toNat_unpackExponent (b : Pattern) :
    (unpackExponent b).toNat = b.toNat / 2 ^ 52 % 2 ^ 11 := by
  simp [unpackExponent, BitVec.extractLsb, BitVec.extractLsb'_toNat, Nat.shiftRight_eq_div_pow]

lemma toNat_unpackSign (b : Pattern) : (unpackSign b).toNat = b.toNat / 2 ^ 63 := by
  have h : b.toNat < 2 ^ 64 := b.isLt
  have hs : (unpackSign b).toNat = b.toNat / 2 ^ 63 % 2 := by
    simp [unpackSign, BitVec.extractLsb, BitVec.extractLsb'_toNat, Nat.shiftRight_eq_div_pow]
  omega

lemma toNat_packComponents (s : Sign) (e : BitVec 11) (m : BitVec 52) :
    (packComponents Format.binary64 s e m).toNat =
      s.toBitVec.toNat * 2 ^ 63 + e.toNat * 2 ^ 52 + m.toNat := by
  rw [packComponents, BitVec.toNat_append, BitVec.toNat_append,
    ← Nat.shiftLeft_add_eq_or_of_lt e.isLt, ← Nat.shiftLeft_add_eq_or_of_lt m.isLt,
    Nat.shiftLeft_eq, Nat.shiftLeft_eq]
  omega

end fields

section patterns

variable {b : Pattern}

/-- What is not above infinity is not one of the patterns for nan. -/
lemma valid_of_le (h : b.toNat % 2 ^ 63 ≤ infinityBits) : Format.binary64.Valid b := by
  have hinfinity : infinityBits = 2047 * 2 ^ 52 := rfl
  refine ⟨fun htop hne => absurd ?_ hne⟩
  have hexponent : b.toNat / 2 ^ 52 % 2 ^ 11 = 2047 := by
    rw [← toNat_unpackExponent, htop]
    rfl
  apply BitVec.eq_of_toNat_eq
  rw [toNat_unpackMantissa, BitVec.toNat_zero]
  omega

/-- The same pattern with the other sign bit. -/
def flipped (b : Pattern) : Pattern :=
  packComponents Format.binary64 (-Sign.ofBitVec (unpackSign b)) (unpackExponent b)
    (unpackMantissa b)

lemma unpack_flipped (b : Pattern) :
    UnpackedFloat.unpack Format.binary64 (flipped b) =
      (UnpackedFloat.unpack Format.binary64 b).neg := by
  simp only [UnpackedFloat.unpack, flipped, unpackSign_packComponents,
    unpackExponent_packComponents, unpackMantissa_packComponents, Sign.ofBitVec_toBitVec]
  split
  · split <;> rfl
  · split
    · split <;> rfl
    · rfl

/-- The same pattern with the sign bit set. -/
def withSignBit (b : Pattern) : Pattern :=
  packComponents Format.binary64 .negative (unpackExponent b) (unpackMantissa b)

lemma toNat_withSignBit (h : b.toNat < 2 ^ 63) :
    (withSignBit b).toNat = 2 ^ 63 + b.toNat := by
  rw [withSignBit, toNat_packComponents, toNat_unpackExponent, toNat_unpackMantissa]
  change 1 * 2 ^ 63 + _ + _ = _
  omega

lemma unpack_withSignBit (h : b.toNat < 2 ^ 63) :
    UnpackedFloat.unpack Format.binary64 (withSignBit b) =
      (UnpackedFloat.unpack Format.binary64 b).neg := by
  have hsign : unpackSign b = 0#1 := by
    apply BitVec.eq_of_toNat_eq
    rw [toNat_unpackSign, Nat.div_eq_of_lt h]
    rfl
  rw [← unpack_flipped, flipped, hsign]
  rfl

end patterns

section numbers

lemma toBits_ofBits {b : UInt64} (h : Format.binary64.Valid b.toBitVec) :
    (Float.ofBits b).toBits = b :=
  UInt64.toBitVec_inj.mp (pack_unpack_of_valid h)

lemma toBits_ofBits_ofNat {n : Nat} (hn : n < 2 ^ 64) (h : n % 2 ^ 63 ≤ infinityBits) :
    (Float.ofBits (.ofNat n)).toBits = .ofNat n := by
  apply toBits_ofBits
  apply valid_of_le
  change (UInt64.ofNat n).toNat % 2 ^ 63 ≤ infinityBits
  rwa [UInt64.toNat_ofNat', Nat.mod_eq_of_lt hn]

lemma neg_ofBits {n : Nat} (h : n ≤ infinityBits) :
    -Float.ofBits (.ofNat n) = Float.ofBits (.ofNat (2 ^ 63 + n)) := by
  have hinfinity : infinityBits = 2047 * 2 ^ 52 := rfl
  have hn : (UInt64.ofNat n).toNat = n := by
    rw [UInt64.toNat_ofNat', Nat.mod_eq_of_lt (by omega)]
  have hlt : (UInt64.ofNat n).toBitVec.toNat < 2 ^ 63 := by
    change (UInt64.ofNat n).toNat < 2 ^ 63
    omega
  have hflip : withSignBit (UInt64.ofNat n).toBitVec = (UInt64.ofNat (2 ^ 63 + n)).toBitVec := by
    apply BitVec.eq_of_toNat_eq
    rw [toNat_withSignBit hlt]
    change 2 ^ 63 + (UInt64.ofNat n).toNat = (UInt64.ofNat (2 ^ 63 + n)).toNat
    rw [hn, UInt64.toNat_ofNat', Nat.mod_eq_of_lt (by omega)]
  apply Float.toBits_inj.mp
  apply UInt64.toBitVec_inj.mp
  rw [toBits_ofBits_ofNat (by omega) (by omega), ← hflip]
  change UnpackedFloat.pack Format.binary64
    (UnpackedFloat.unpack Format.binary64 (Float.ofBits (.ofNat n)).toBits.toBitVec).neg = _
  rw [toBits_ofBits_ofNat (by omega) (by omega), ← unpack_withSignBit hlt, pack_unpack_of_valid]
  apply valid_of_le
  rw [toNat_withSignBit hlt]
  change (2 ^ 63 + (UInt64.ofNat n).toNat) % 2 ^ 63 ≤ infinityBits
  omega

lemma magnitudeBits_le (num den : Nat) : magnitudeBits num den ≤ infinityBits := by
  unfold magnitudeBits
  split
  · exact Nat.zero_le _
  · exact Nat.min_le_right _ _

/-- Two numbers of the same magnitude and opposite signs. -/
lemma neg_ofRatio (num den : Nat) : -ofRatio false num den = ofRatio true num den := by
  have hneg := neg_ofBits (magnitudeBits_le num den)
  rw [← Nat.zero_add (magnitudeBits num den), ← Nat.add_assoc] at hneg
  exact hneg

/-- The mantissas and exponents of finite numbers: subnormal numbers have the least exponent, all
others a mantissa of 53 bits. -/
structure IsNormalized (m : Nat) (e : Int) : Prop where
  mantissa_lt : m < 2 ^ 53
  exponent_ge : leastExponent ≤ e
  exponent_le : e ≤ 971
  normal : 2 ^ 52 ≤ m ∨ e = leastExponent

/-- The magnitude of a finite number in its pattern. -/
lemma toNat_toBits_of_value {x : Float} {negative : Bool} {m : Nat} {e : Int}
    (h : value x = .finite negative m e) :
    IsNormalized m e ∧ x.toBits.toNat =
      (if negative then 2 ^ 63 else 0) + ((e - leastExponent).toNat * 2 ^ 52 + m) := by
  have hleast : leastExponent = -1074 := rfl
  have hbits : x.toBits.toNat < 2 ^ 64 := x.toBits.toNat_lt
  unfold value at h
  dsimp only at h
  split at h
  · split at h <;> simp at h
  · rename_i htop
    split at h
    · rename_i hzero
      obtain ⟨rfl, rfl, rfl⟩ := Value.finite.inj h
      refine ⟨⟨by omega, by omega, by omega, .inr rfl⟩, ?_⟩
      simp only [decide_eq_true_eq]
      split <;> omega
    · rename_i hzero
      obtain ⟨rfl, rfl, rfl⟩ := Value.finite.inj h
      refine ⟨⟨by omega, by omega, by omega, .inl (by omega)⟩, ?_⟩
      simp only [decide_eq_true_eq]
      split <;> omega

/-- A finite number is put together from its sign, mantissa and exponent. -/
lemma eq_of_value {x : Float} {negative : Bool} {m : Nat} {e : Int}
    (h : value x = .finite negative m e) :
    x = .ofBits (.ofNat ((if negative then 2 ^ 63 else 0) +
      ((e - leastExponent).toNat * 2 ^ 52 + m))) := by
  rw [← (toNat_toBits_of_value h).2, UInt64.ofNat_toNat, Float.ofBits_toBits]

end numbers

end Calculator.Binary64
