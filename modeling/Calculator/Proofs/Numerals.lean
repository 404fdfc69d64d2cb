import Calculator.Token.Scan
import Mathlib.Data.List.TakeWhile

/-!
# Unsigned numerals

`IsNumeral` says of a run of digits and points that it is a numeral: it has a digit, and at most one
point. `ofRun` is the number that it stands for. `literal?` reads exactly the numerals, each as the
binary64 number nearest to that number.
-/

namespace Calculator.Numeral

open Lexeme (isLiteralChar)

/-- A run of digits and points with at least one digit and at most one point. -/
structure IsNumeral (run : List Char) : Prop where
  chars : ∀ c ∈ run, isLiteralChar c = true
  digit : ∃ c ∈ run, isDigit c = true
  points : run.count '.' ≤ 1

/-- The number that a run stands for: all its digits as one whole number, which counts units of the
last digit's place. -/
def ofRun (run : List Char) : Decimal :=
  ⟨Nat.ofDigitChars 10 (run.filter isDigit) 0, -(run.dropWhile (· != '.')).tail.length⟩

lemma isDigit_point : isDigit '.' = false := by
  decide

lemma ne_point_of_isDigit {c : Char} (h : isDigit c = true) : c ≠ '.' := by
  rintro rfl
  exact absurd h (by simp [isDigit_point])

lemma count_point_of_isDigit {ds : List Char} (h : ∀ c ∈ ds, isDigit c = true) :
    ds.count '.' = 0 :=
  List.count_eq_zero_of_not_mem fun hm => ne_point_of_isDigit (h _ hm) rfl

lemma ofRun_digits {ds : List Char} (h : ∀ c ∈ ds, isDigit c = true) :
    ofRun ds = ⟨Nat.ofDigitChars 10 ds 0, 0⟩ := by
  have hd : ds.dropWhile (· != '.') = [] := by
    rw [List.dropWhile_eq_nil_iff]
    intro c hc
    simpa using ne_point_of_isDigit (h c hc)
  simp [ofRun, List.filter_eq_self.mpr h, hd]

lemma ofRun_point {ws fs : List Char} (hw : ∀ c ∈ ws, isDigit c = true)
    (hf : ∀ c ∈ fs, isDigit c = true) :
    ofRun (ws ++ '.' :: fs) = ⟨Nat.ofDigitChars 10 (ws ++ fs) 0, -fs.length⟩ := by
  have hd : (ws ++ '.' :: fs).dropWhile (· != '.') = '.' :: fs := by
    rw [List.dropWhile_append_of_pos]
    · simp
    · intro c hc
      simpa using ne_point_of_isDigit (hw c hc)
  have hl : (ws ++ '.' :: fs).filter isDigit = ws ++ fs := by
    rw [List.filter_append, List.filter_cons_of_neg (by simp [isDigit_point]),
      List.filter_eq_self.mpr hw, List.filter_eq_self.mpr hf]
  simp only [ofRun, hd, hl, List.tail_cons]

/-- A run of digits and points is all digits, or it has a first point. -/
lemma digits_or_point (run : List Char) (h : ∀ c ∈ run, isLiteralChar c = true) :
    (∀ c ∈ run, isDigit c = true) ∨
      ∃ ws fs, run = ws ++ '.' :: fs ∧ ∀ c ∈ ws, isDigit c = true := by
  induction run with
  | nil => exact .inl (by simp)
  | cons c run ih =>
    obtain ⟨hc, hrun⟩ := List.forall_mem_cons.mp h
    by_cases hd : isDigit c = true
    · rcases ih hrun with hall | ⟨ws, fs, rfl, hws⟩
      · exact .inl (List.forall_mem_cons.mpr ⟨hd, hall⟩)
      · exact .inr ⟨c :: ws, fs, rfl, List.forall_mem_cons.mpr ⟨hd, hws⟩⟩
    · have hp : c = '.' := by simpa [isLiteralChar, hd] using hc
      exact .inr ⟨[], run, by rw [hp]; rfl, by simp⟩

lemma takeWhile_isDigit_point {ws : List Char} (hw : ∀ c ∈ ws, isDigit c = true)
    (fs : List Char) :
    (ws ++ '.' :: fs).takeWhile isDigit = ws ∧
      (ws ++ '.' :: fs).dropWhile isDigit = '.' :: fs := by
  rw [List.takeWhile_append_of_pos hw, List.dropWhile_append_of_pos hw]
  simp [isDigit_point]

lemma decimal?_digits {ds : List Char} (h : ∀ c ∈ ds, isDigit c = true) (hne : ds ≠ []) :
    decimal? ds = some (ofRun ds) := by
  have ht : ds.takeWhile isDigit = ds := List.takeWhile_eq_self_iff.mpr h
  have hd : ds.dropWhile isDigit = [] := List.dropWhile_eq_nil_iff.mpr h
  simp [decimal?, ht, hd, hne, ofRun_digits h]

lemma decimal?_point {ws fs : List Char} (hw : ∀ c ∈ ws, isDigit c = true)
    (hf : ∀ c ∈ fs, isDigit c = true) (hne : ¬(ws = [] ∧ fs = [])) :
    decimal? (ws ++ '.' :: fs) = some (ofRun (ws ++ '.' :: fs)) := by
  obtain ⟨ht, hd⟩ := takeWhile_isDigit_point hw fs
  have hempty : (ws.isEmpty && fs.isEmpty) = false := by
    rw [Bool.eq_false_iff]
    simpa using hne
  simp only [decimal?, ht, hd, List.all_eq_true.mpr hf, hempty, ofRun_point hw hf, Bool.not_false,
    Bool.and_self, if_true]

lemma of_decimal?_point {ws fs : List Char} {d : Decimal} (hw : ∀ c ∈ ws, isDigit c = true)
    (h : decimal? (ws ++ '.' :: fs) = some d) :
    (∀ c ∈ fs, isDigit c = true) ∧ ¬(ws = [] ∧ fs = []) := by
  obtain ⟨ht, hd⟩ := takeWhile_isDigit_point hw fs
  simp only [decimal?, ht, hd] at h
  split at h
  · rename_i hc
    rw [Bool.and_eq_true, List.all_eq_true] at hc
    refine ⟨hc.1, ?_⟩
    rintro ⟨rfl, rfl⟩
    exact absurd hc.2 (by simp)
  · exact absurd h (by simp)

lemma isNumeral_digits {ds : List Char} (h : ∀ c ∈ ds, isDigit c = true) :
    IsNumeral ds ↔ ds ≠ [] := by
  constructor
  · rintro ⟨-, ⟨c, hc, -⟩, -⟩
    exact List.ne_nil_of_mem hc
  · intro hne
    obtain ⟨c, hc⟩ := List.exists_mem_of_ne_nil ds hne
    exact ⟨fun c hc => by simp [isLiteralChar, h c hc], ⟨c, hc, h c hc⟩,
      by rw [count_point_of_isDigit h]; exact Nat.zero_le 1⟩

lemma isNumeral_point {ws fs : List Char} (hw : ∀ c ∈ ws, isDigit c = true)
    (hf : ∀ c ∈ fs, isLiteralChar c = true) :
    IsNumeral (ws ++ '.' :: fs) ↔ (∀ c ∈ fs, isDigit c = true) ∧ ¬(ws = [] ∧ fs = []) := by
  have hcount : (ws ++ '.' :: fs).count '.' = fs.count '.' + 1 := by
    rw [List.count_append, count_point_of_isDigit hw, List.count_cons_self]
    omega
  constructor
  · rintro ⟨-, ⟨d, hd, hdigit⟩, hpoints⟩
    have hnone : fs.count '.' = 0 := by omega
    refine ⟨fun c hc => ?_, ?_⟩
    · have hne : c ≠ '.' := by
        rintro rfl
        exact List.count_eq_zero.mp hnone hc
      simpa [isLiteralChar, hne] using hf c hc
    · rintro ⟨rfl, rfl⟩
      obtain rfl : d = '.' := by simpa using hd
      exact absurd hdigit (by simp [isDigit_point])
  · rintro ⟨hfd, hne⟩
    refine ⟨?_, ?_, by rw [hcount, count_point_of_isDigit hfd]⟩
    · intro c hc
      rcases List.mem_append.mp hc with hc | hc
      · simp [isLiteralChar, hw c hc]
      · rcases List.mem_cons.mp hc with rfl | hc
        · rfl
        · exact hf c hc
    · rcases List.eq_nil_or_concat ws with rfl | ⟨ws', c, rfl⟩
      · obtain ⟨c, hc⟩ := List.exists_mem_of_ne_nil fs (fun h => hne ⟨rfl, h⟩)
        exact ⟨c, by simp [hc], hfd c hc⟩
      · exact ⟨c, by simp, hw c (by simp)⟩

/-- Of the runs of digits and points exactly the numerals are read. -/
theorem decimal?_eq_some_iff {run : List Char} {d : Decimal}
    (h : ∀ c ∈ run, isLiteralChar c = true) :
    decimal? run = some d ↔ IsNumeral run ∧ d = ofRun run := by
  rcases digits_or_point run h with hds | ⟨ws, fs, rfl, hws⟩
  · rw [isNumeral_digits hds]
    by_cases hne : run = []
    · subst hne
      simp [decimal?]
    · simp [decimal?_digits hds hne, hne, eq_comm]
  · have hfs : ∀ c ∈ fs, isLiteralChar c = true := fun c hc => h c (by simp [hc])
    rw [isNumeral_point hws hfs]
    constructor
    · intro hd
      obtain ⟨hfd, hne⟩ := of_decimal?_point hws hd
      rw [decimal?_point hws hfd hne] at hd
      exact ⟨⟨hfd, hne⟩, (Option.some.inj hd).symm⟩
    · rintro ⟨⟨hfd, hne⟩, rfl⟩
      exact decimal?_point hws hfd hne

/-- The number of a literal is the binary64 number nearest to what its run stands for. -/
theorem literal?_eq_some_iff {run : List Char} {x : Float}
    (h : ∀ c ∈ run, isLiteralChar c = true) :
    literal? run = some x ↔ IsNumeral run ∧ x = (ofRun run).toFloat false := by
  rw [literal?, Option.map_eq_some_iff]
  constructor
  · rintro ⟨d, hd, rfl⟩
    obtain ⟨hrun, rfl⟩ := (decimal?_eq_some_iff h).mp hd
    exact ⟨hrun, rfl⟩
  · rintro ⟨hrun, rfl⟩
    exact ⟨ofRun run, (decimal?_eq_some_iff h).mpr ⟨hrun, rfl⟩, rfl⟩

end Calculator.Numeral
