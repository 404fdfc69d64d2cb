import Calculator.Proofs.Shortest
import Calculator.Proofs.Substitution

/-!
# Displayed numbers are read back

What is displayed of a number is a numeral, maybe after a minus sign. Where no exponent is written,
the numeral stands for the number, or for a decimal that rounds to it, and a sign in an expression
is the sign of a number: the expression has the displayed number as its value. Exponents are only
written for numbers that are not whole and smaller than `1 / 10000`.
-/

namespace Calculator.Numeral

open Decimal (digits shortest toRat)

section places

variable {ds : List Char}

lemma isDigit_of_mem_digits {n : ℕ} {c : Char} (h : c ∈ digits n) : isDigit c = true :=
  Nat.isDigit_of_mem_toDigits (by decide) (by decide) h

lemma exists_dropTrailingZeros (s : List Char) :
    ∃ k, s = dropTrailingZeros s ++ List.replicate k '0' := by
  refine ⟨(s.reverse.takeWhile (· == '0')).length, ?_⟩
  have hzeros : s.reverse.takeWhile (· == '0') =
      List.replicate (s.reverse.takeWhile (· == '0')).length '0' := by
    rw [List.eq_replicate_iff]
    exact ⟨rfl, fun c hc => by simpa using List.mem_takeWhile_imp hc⟩
  rw [dropTrailingZeros, ← List.reverse_replicate, ← hzeros, ← List.reverse_append,
    List.takeWhile_append_dropWhile, List.reverse_reverse]

/-- All the places of a number: its digits with zeros before or after them, and a point. -/
lemma positional_eq (ds : List Char) (lead : ℤ) :
    ∃ (ws fs : List Char) (i j : ℕ), positional ds lead = ws ++ '.' :: fs ∧ ws ≠ [] ∧
      ws ++ fs = List.replicate i '0' ++ ds ++ List.replicate j '0' ∧
      (fs.length : ℤ) = j + ds.length - lead - 1 := by
  cases lead with
  | ofNat n =>
    by_cases hle : ds.length ≤ n + 1
    · have htake : ds.take (n + 1) = ds := List.take_of_length_le hle
      have hdrop : ds.drop (n + 1) = [] := List.drop_of_length_le hle
      refine ⟨ds ++ List.replicate (n + 1 - ds.length) '0', ['0'], 0, n + 1 - ds.length + 1,
        ?_, ?_, ?_, ?_⟩
      · simp only [positional, htake, hdrop, List.isEmpty_nil, if_true]
      · intro hnil
        have hlength := congrArg List.length hnil
        simp only [List.length_append, List.length_replicate, List.length_nil] at hlength
        omega
      · simp [List.replicate_succ']
      · simp only [List.length_singleton, Int.ofNat_eq_natCast]
        omega
    · have hne : (ds.drop (n + 1)).isEmpty = false := by
        simpa using hle
      have hnone : n + 1 - ds.length = 0 := by omega
      refine ⟨ds.take (n + 1), ds.drop (n + 1), 0, 0, ?_, ?_, by simp, ?_⟩
      · simp only [positional, hne, hnone, List.replicate_zero, List.append_nil,
          Bool.false_eq_true, if_false]
      · intro hnil
        have hlength := congrArg List.length hnil
        simp only [List.length_take, List.length_nil] at hlength
        omega
      · simp only [List.length_drop, Int.ofNat_eq_natCast]
        omega
  | negSucc n =>
    refine ⟨['0'], List.replicate n '0' ++ ds, n + 1, 0, ?_, by simp, ?_, ?_⟩
    · simp only [positional, List.cons_append, List.nil_append]
    · simp [List.replicate_succ]
    · simp only [List.length_append, List.length_replicate]
      omega

/-- The places of a number with these digits, read as a numeral. -/
lemma ofRun_positional (hds : ∀ c ∈ ds, isDigit c = true) (lead : ℤ) :
    IsNumeral (positional ds lead) ∧ (ofRun (positional ds lead)).toRat =
      (Nat.ofDigitChars 10 ds 0 : ℕ) * 10 ^ (lead + 1 - ds.length) := by
  obtain ⟨ws, fs, i, j, htext, hws, hdigits, hlength⟩ := positional_eq ds lead
  have hall : ∀ c ∈ ws ++ fs, isDigit c = true := by
    rw [hdigits]
    intro c hc
    simp only [List.mem_append, List.mem_replicate] at hc
    rcases hc with (⟨-, rfl⟩ | hc) | ⟨-, rfl⟩
    · rfl
    · exact hds c hc
    · rfl
  obtain ⟨hw, hf⟩ := List.forall_mem_append.mp hall
  have hliteral : ∀ c ∈ fs, Lexeme.isLiteralChar c = true := by
    intro c hc
    simp [Lexeme.isLiteralChar, hf c hc]
  have hunits : Nat.ofDigitChars 10 (ws ++ fs) 0 = 10 ^ j * Nat.ofDigitChars 10 ds 0 := by
    rw [hdigits, Nat.ofDigitChars_append, Nat.ofDigitChars_append, Nat.ofDigitChars_replicate_zero,
      Nat.ofDigitChars_replicate_zero, Nat.mul_zero]
  rw [htext]
  refine ⟨(isNumeral_point hw hliteral).mpr ⟨hf, fun h => hws h.1⟩, ?_⟩
  have hexponent : (j : ℤ) + -fs.length = lead + 1 - ds.length := by omega
  rw [ofRun_point hw hf, toRat, hunits, ← hexponent, zpow_add₀ (by norm_num), zpow_natCast]
  push_cast
  ring

end places

section reading

variable {run : List Char} {d : Decimal}

/-- The digits of a number without its last zeros. -/
lemma exists_dropTrailingZeros_digits (n : ℕ) : ∃ k,
    (∀ c ∈ dropTrailingZeros (digits n), isDigit c = true) ∧
      (digits n).length = (dropTrailingZeros (digits n)).length + k ∧
      n = 10 ^ k * Nat.ofDigitChars 10 (dropTrailingZeros (digits n)) 0 := by
  obtain ⟨k, hk⟩ := exists_dropTrailingZeros (digits n)
  refine ⟨k, ?_, ?_, ?_⟩
  · intro c hc
    apply isDigit_of_mem_digits (n := n)
    rw [hk]
    exact List.mem_append_left _ hc
  · have hlength := congrArg List.length hk
    rwa [List.length_append, List.length_replicate] at hlength
  · have hread : Nat.ofDigitChars 10 (digits n) 0 = n := Nat.ofDigitChars_ten_toDigits
    rw [hk, Nat.ofDigitChars_append, Nat.ofDigitChars_replicate_zero] at hread
    exact hread.symm

/-- A decimal with all its places is a numeral of the same value. -/
lemma ofRun_arrange (h : Decimal.IsPlain d.toRat) :
    IsNumeral (arrange layout d) ∧ (ofRun (arrange layout d)).toRat = d.toRat := by
  have hlead := Decimal.lead_eq_log (Decimal.units_pos_of_isPlain h)
  obtain ⟨hlow, hhigh⟩ := h.log
  rw [← hlead] at hlow hhigh
  have harrange : arrange layout d = positional (dropTrailingZeros (digits d.units)) d.lead :=
    if_pos ⟨hlow, hhigh⟩
  obtain ⟨k, hds, hlength, hunits⟩ := exists_dropTrailingZeros_digits d.units
  have hcast : (d.units : ℚ) =
      10 ^ k * (Nat.ofDigitChars 10 (dropTrailingZeros (digits d.units)) 0 : ℕ) := by
    exact_mod_cast hunits
  have hexponent : d.lead + 1 - (dropTrailingZeros (digits d.units)).length = k + d.exponent := by
    rw [Decimal.lead, hlength]
    omega
  obtain ⟨hnumeral, hvalue⟩ := ofRun_positional hds d.lead
  rw [harrange]
  refine ⟨hnumeral, ?_⟩
  rw [hvalue, hexponent, zpow_add₀ (by norm_num), zpow_natCast, toRat, hcast]
  ring

lemma ofRun_digits_eq (n : ℕ) : IsNumeral (digits n) ∧ (ofRun (digits n)).toRat = n := by
  have hdigits : ∀ c ∈ digits n, isDigit c = true := fun c => isDigit_of_mem_digits
  refine ⟨(isNumeral_digits hdigits).mpr Nat.toDigits_ne_nil, ?_⟩
  rw [ofRun_digits hdigits, toRat, digits, Nat.ofDigitChars_ten_toDigits, zpow_zero, mul_one]

/-- A numeral after a minus sign is two tokens, and the sign applies to the number. -/
lemma outcome_evaluate_withSign (h : IsNumeral run) (negative : Bool) (scope : Scope) :
    (scope.evaluate (String.ofList (withSign negative run))).outcome =
      .ok (Binary64.signed negative ((ofRun run).toFloat false)) := by
  have hliteral : Lexeme.IsSlice (.literal ((ofRun run).toFloat false)) run [] :=
    .literal h Lexeme.stops_nil
  cases negative with
  | false =>
    have hscan : Token.scan (String.ofList run) = [⟨.literal ((ofRun run).toFloat false), 0⟩] :=
      Token.scan_of_isSlice (by rwa [String.toList_ofList])
    change (scope.evaluateTokens (Token.scan (String.ofList run))).outcome = _
    rw [hscan]
    rfl
  | true =>
    have hsign : Lexeme.IsSlice (.operator .sub) ['-'] run := .operator rfl
    have hscan : Token.scan (String.ofList ('-' :: run)) =
        [⟨.operator .sub, 0⟩, ⟨.literal ((ofRun run).toFloat false), 1⟩] := by
      have hrest : Token.scanFrom 1 (run ++ []) = _ := Token.scanFrom_slice hliteral
      rw [List.append_nil, Token.scanFrom_nil] at hrest
      rw [Token.scan, String.toList_ofList]
      exact (Token.scanFrom_slice hsign).trans (congrArg _ hrest)
    change (scope.evaluateTokens (Token.scan (String.ofList ('-' :: run)))).outcome = _
    rw [hscan]
    rfl

end reading

section display

variable {x : Float} {negative : Bool} {m : ℕ} {e : ℤ}

lemma ofInt_eq_withSign (negative : Bool) (k : ℕ) :
    ofInt (if negative then -(k : ℤ) else k) = withSign (negative && k != 0) (digits k) := by
  cases negative with
  | false => rfl
  | true =>
    cases k with
    | zero => rfl
    | succ k => rfl

lemma ofInt_eq_toString (n : ℤ) : ofInt n = (toString n).toList := by
  cases n with
  | ofNat n => exact Nat.toList_repr.symm
  | negSucc n =>
    change _ = ("-" ++ (n + 1).repr).toList
    rw [String.toList_append, Nat.toList_repr]
    rfl

/-- A whole number is displayed as a whole number and read as it is, but for the sign of zero. -/
lemma outcome_display_whole {k : ℕ} (hk : (k : ℚ) = m * 2 ^ e)
    (hint : Binary64.toInt? x = some (if negative then -(k : ℤ) else k)) (scope : Scope) :
    (scope.evaluate (String.ofList (display x))).outcome =
      .ok (Binary64.ofScaled (negative && k != 0) m e) := by
  obtain ⟨hnumeral, hvalue⟩ := ofRun_digits_eq k
  rw [display, hint]
  dsimp only
  rw [ofInt_eq_withSign, outcome_evaluate_withSign hnumeral,
    Decimal.toFloat_of_toRat (hvalue.trans hk), Binary64.signed_ofScaled]

/-- Any other number is displayed by a decimal that is read back. -/
lemma outcome_display_fraction (h : Binary64.value x = .finite negative m e)
    (hint : Binary64.toInt? x = none) (hne : m ≠ 0) (hge : (10 : ℚ) ^ (-4 : ℤ) ≤ m * 2 ^ e)
    (hlt : (m : ℚ) * 2 ^ e < 5 * 10 ^ (15 : ℤ)) (scope : Scope) :
    (scope.evaluate (String.ofList (display x))).outcome = .ok x := by
  obtain ⟨hnumeral, hvalue⟩ := ofRun_arrange (Decimal.isPlain_shortest hge hlt)
  rw [display, hint]
  dsimp only
  rw [full, h]
  dsimp only
  rw [if_neg hne, outcome_evaluate_withSign hnumeral, Decimal.toFloat_congr hvalue,
    Decimal.toFloat_shortest, Binary64.signed_ofScaled, Binary64.ofScaled_of_value h]

/-- A finite number that is whole or not smaller than `1 / 10000`. -/
def IsLegible (x : Float) : Prop :=
  ∃ q, Binary64.rational? x = some q ∧ ((∃ n : ℤ, q = n) ∨ 1 / 10000 ≤ |q|)

lemma value_neg_zero : Binary64.value (-0.0) = .finite true 0 (-1074) := by
  decide

lemma ofScaled_zero (negative : Bool) (e : ℤ) :
    Binary64.ofScaled negative 0 e = Binary64.signed negative 0.0 := by
  rw [Binary64.ofScaled, Nat.zero_mul, Binary64.ofRatio, Binary64.magnitudeBits, if_pos rfl]
  cases negative with
  | false => rfl
  | true => decide

lemma eq_neg_zero_iff (h : Binary64.value x = .finite negative m e) :
    x = -0.0 ↔ negative = true ∧ m = 0 := by
  constructor
  · rintro rfl
    rw [value_neg_zero] at h
    obtain ⟨hnegative, hm, -⟩ := Binary64.Value.finite.inj h
    exact ⟨hnegative.symm, hm.symm⟩
  · rintro ⟨rfl, rfl⟩
    exact (Binary64.ofScaled_of_value h).symm.trans (ofScaled_zero true e)

/-- Whole numbers begin with the numbers of 53 bits. -/
lemma scaled_lt (h : Binary64.IsNormalized m e) (he : e < 0) :
    (m : ℚ) * 2 ^ e < 5 * 10 ^ (15 : ℤ) := by
  have hm : (m : ℚ) < 2 ^ 53 := by exact_mod_cast h.mantissa_lt
  have hpow : (2 : ℚ) ^ e ≤ 2 ^ (-1 : ℤ) := zpow_le_zpow_right₀ (by norm_num) (by omega)
  calc (m : ℚ) * 2 ^ e ≤ m * 2 ^ (-1 : ℤ) := by gcongr
    _ < 2 ^ 53 * 2 ^ (-1 : ℤ) := by gcongr
    _ < 5 * 10 ^ (15 : ℤ) := by norm_num

lemma abs_signed (negative : Bool) {q : ℚ} (hq : 0 ≤ q) :
    |(if negative then -1 else 1) * q| = q := by
  cases negative with
  | false => simpa using hq
  | true => simpa using hq

lemma natAbs_of_signed {q : ℚ} (hq : 0 ≤ q) {n : ℤ}
    (h : (if negative then -1 else 1) * q = n) : (n.natAbs : ℚ) = q := by
  rw [Nat.cast_natAbs, Int.cast_abs, ← h, abs_signed negative hq]

/-- A legible number that is not whole is not too small. -/
lemma scaled_ge {q : ℚ} (hq : 0 ≤ q) (hnot : ∀ k : ℕ, (k : ℚ) ≠ q)
    (h : (∃ n : ℤ, (if negative then -1 else 1) * q = n) ∨
      1 / 10000 ≤ |(if negative then -1 else 1) * q|) : (10 : ℚ) ^ (-4 : ℤ) ≤ q := by
  rcases h with ⟨n, hn⟩ | hge
  · exact absurd (natAbs_of_signed hq hn) (hnot n.natAbs)
  · rw [abs_signed negative hq] at hge
    norm_num at hge ⊢
    exact hge

lemma outcome_display (h : IsLegible x) (scope : Scope) :
    (scope.evaluate (String.ofList (display x))).outcome =
      .ok (if x = -0.0 then 0.0 else x) := by
  obtain ⟨q, hq, hlegible⟩ := h
  obtain ⟨negative, m, e, hvalue, rfl⟩ := Binary64.exists_value_of_rational? hq
  have hzero := eq_neg_zero_iff hvalue
  have hscaled := Binary64.ofScaled_of_value hvalue
  rcases Binary64.toInt?_cases hvalue with ⟨k, hk, hint⟩ | ⟨hint, he, hnot⟩
  · have hm : m = 0 ↔ k = 0 := by
      rw [← Nat.cast_eq_zero (R := ℚ) (n := k), hk]
      simp [zpow_ne_zero]
    rw [outcome_display_whole hk hint]
    by_cases hx : x = -0.0
    · obtain ⟨rfl, rfl⟩ := hzero.mp hx
      obtain rfl := hm.mp rfl
      rw [if_pos hx]
      exact congrArg Except.ok (ofScaled_zero false e)
    · have hsign : (negative && k != 0) = negative := by
        cases negative with
        | false => rfl
        | true => simpa [hzero, hm] using hx
      rw [if_neg hx, hsign, hscaled]
  · have hne : m ≠ 0 := by
      rintro rfl
      exact hnot 0 (by simp)
    rw [if_neg (fun hx => hne (hzero.mp hx).2)]
    exact outcome_display_fraction hvalue hint hne (scaled_ge (by positivity) hnot hlegible)
      (scaled_lt (Binary64.toNat_toBits_of_value hvalue).1 he) scope

lemma display_of_rational? {n : ℤ} (h : Binary64.rational? x = some n) :
    display x = (toString n).toList := by
  obtain ⟨negative, m, e, hvalue, hn⟩ := Binary64.exists_value_of_rational? h
  rcases Binary64.toInt?_cases hvalue with ⟨k, hk, hint⟩ | ⟨-, -, hnot⟩
  · have hsigned : (if negative then -(k : ℤ) else k) = n := by
      rw [← hk] at hn
      cases negative with
      | false => exact_mod_cast (by simpa using hn.symm : (k : ℚ) = n)
      | true => exact_mod_cast (by simpa using hn.symm : -(k : ℚ) = n)
    rw [display, hint, hsigned]
    exact ofInt_eq_toString n
  · exact absurd (natAbs_of_signed (by positivity) hn.symm) (hnot n.natAbs)

/-- What is displayed of a legible number has this number as its value in every scope, and so tells
it from every other; only the sign of zero is lost. A whole number is displayed to the last digit. -/
theorem display_legible (h : IsLegible x) :
    (∀ scope : Scope, (scope.evaluate (String.ofList (display x))).outcome =
      .ok (if x = -0.0 then 0.0 else x)) ∧
    (∀ n : ℤ, Binary64.rational? x = some n → display x = (toString n).toList) ∧
    ∀ y, IsLegible y → display y = display x →
      y = x ∨ (x = 0.0 ∨ x = -0.0) ∧ (y = 0.0 ∨ y = -0.0) := by
  refine ⟨outcome_display h, fun n => display_of_rational?, ?_⟩
  intro y hy hsame
  have hread := outcome_display hy Scope.initial
  rw [hsame, outcome_display h] at hread
  have heq := Except.ok.inj hread
  split at heq
  · split at heq
    · tauto
    · tauto
  · split at heq
    · tauto
    · tauto

/-- One tenth below zero is no binary64 number; the one nearest to it is displayed and read back. -/
theorem display_legible_tenth :
    IsLegible (-0.1) ∧ display (-0.1) = "-0.1".toList ∧
      (Scope.initial.evaluate "-0.1").outcome = .ok (-0.1) := by
  have hvalue : Binary64.value (-0.1) = .finite true 7205759403792794 (-56) := by decide
  have hrational : Binary64.rational? (-0.1) = some (-1 * (7205759403792794 * 2 ^ (-56 : ℤ))) := by
    rw [Binary64.rational?, hvalue]
    simp
  have hlegible : IsLegible (-0.1) := ⟨_, hrational, .inr (by norm_num)⟩
  have hdisplay : display (-0.1) = "-0.1".toList := by decide
  have hne : (-0.1 : Float) ≠ -0.0 := by decide
  have hread := (display_legible hlegible).1 Scope.initial
  rw [hdisplay, String.ofList_toList, if_neg hne] at hread
  exact ⟨hlegible, hdisplay, hread⟩

/-- What is smaller has an exponent, and an expression would read its letter as the constant. -/
example : display 0.00001 = "1e-05".toList := by
  decide

end display

end Calculator.Numeral
