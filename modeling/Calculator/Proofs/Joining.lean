import Calculator.Proofs.Positions

/-!
# Slices that are joined

A slice right before other characters may go on with them: a numeral with digits and points, a name
with characters of names or with the parenthesis of a call. No token is gained when a name goes on
(`count_name_append_le`), and one is lost when a numeral goes on with another
(`count_append_numeral_le`).
-/

namespace Calculator

open Lexeme (IsName IsSlice Stops isLiteralChar isNameChar)
open Numeral (IsNumeral isDigit)

namespace Token

def count (s : List Char) : Nat :=
  (scanFrom 0 s).length

variable {l : Lexeme} {c : Char} {r s run slice after blanks : List Char}

lemma count_nil : count [] = 0 := by
  rw [count, scanFrom_nil]
  rfl

lemma length_scanFrom (position : Nat) (s : List Char) :
    (scanFrom position s).length = count s := by
  rw [← Nat.zero_add position, scanFrom_add, List.length_map, count]

lemma count_blanks (h : ∀ c ∈ blanks, Unicode.isWhitespace c = true) :
    count (blanks ++ s) = count s := by
  rw [count, scanFrom_blanks h, length_scanFrom]

lemma count_slice (h : IsSlice l slice after) : count (slice ++ after) = 1 + count after := by
  rw [count, scanFrom_slice h, List.length_cons, length_scanFrom, Nat.add_comm]

lemma count_pos (h : Unicode.isWhitespace c = false) : 1 ≤ count (c :: r) := by
  cases hf : Lexeme.first? c r with
  | none =>
    rw [count, scanFrom_cons_of_first?_eq_none h hf]
    exact Nat.le_refl 1
  | some found =>
    rw [count, scanFrom_cons_of_first?_eq_some h hf, List.length_cons]
    omega

section numerals

lemma count_numeral (h : IsNumeral run) (hafter : Stops isLiteralChar after) :
    count (run ++ after) = 1 + count after :=
  count_slice (.literal h hafter)

lemma count_not_numeral (hrun : ∀ c ∈ run, isLiteralChar c = true) (hne : run ≠ [])
    (h : ¬IsNumeral run) (hafter : Stops isLiteralChar after) : count (run ++ after) = 1 := by
  obtain ⟨c, run, rfl⟩ := List.exists_cons_of_ne_nil hne
  obtain ⟨hc, hchars⟩ := List.forall_mem_cons.mp hrun
  have hnone : Numeral.literal? (c :: run) = none := by
    rw [Option.eq_none_iff_forall_ne_some]
    intro x hx
    exact h ((Numeral.literal?_eq_some_iff hrun).mp hx).1
  have hfirst : Lexeme.first? c (run ++ after) = none := by
    rw [Lexeme.first?_of_isLiteralChar hc, Lexeme.takeWhile_append hchars hafter, hnone]
    rfl
  rw [List.cons_append, count,
    scanFrom_cons_of_first?_eq_none (Lexeme.isWhitespace_of_isLiteralChar hc) hfirst]
  rfl

lemma count_run_pos (hrun : ∀ c ∈ run, isLiteralChar c = true) (hne : run ≠ [])
    (after : List Char) : 1 ≤ count (run ++ after) := by
  obtain ⟨c, r, rfl⟩ := List.exists_cons_of_ne_nil hne
  exact count_pos (Lexeme.isWhitespace_of_isLiteralChar (hrun c List.mem_cons_self))

lemma count_append_numeral_le {q : List Char} (hs : ∀ c ∈ s, isLiteralChar c = true)
    (hq : IsNumeral q) (rest : List Char) : count (s ++ (q ++ rest)) ≤ count (q ++ rest) := by
  obtain ⟨run, after, rfl, hrun, hafter⟩ := Lexeme.exists_run isLiteralChar rest
  have hchars : ∀ c ∈ q ++ run, isLiteralChar c = true :=
    List.forall_mem_append.mpr ⟨hq.chars, hrun⟩
  obtain ⟨d, hd, hdigit⟩ := hq.digit
  have hne : q ++ run ≠ [] := List.ne_nil_of_mem (List.mem_append_left run hd)
  rw [← List.append_assoc q, ← List.append_assoc s]
  -- The joined run has the points of both, so it is a numeral only if the second run is one.
  by_cases hnum : IsNumeral (s ++ (q ++ run))
  · have hpoints := hnum.points
    rw [List.count_append] at hpoints
    have hnum' : IsNumeral (q ++ run) :=
      ⟨hchars, ⟨d, List.mem_append_left run hd, hdigit⟩, by omega⟩
    rw [count_numeral hnum hafter, count_numeral hnum' hafter]
  · have hall : ∀ c ∈ s ++ (q ++ run), isLiteralChar c = true :=
      List.forall_mem_append.mpr ⟨hs, hchars⟩
    rw [count_not_numeral hall (List.append_ne_nil_of_right_ne_nil s hne) hnum hafter]
    exact count_run_pos hchars hne after

lemma count_le_count_digits_append {ds : List Char} (hds : ∀ c ∈ ds, isDigit c = true)
    (b : List Char) : count b ≤ count (ds ++ b) := by
  by_cases hempty : ds = []
  · rw [hempty]
    exact Nat.le_refl _
  obtain ⟨run, after, rfl, hrun, hafter⟩ := Lexeme.exists_run isLiteralChar b
  have hliteral : ∀ c ∈ ds, isLiteralChar c = true := by
    intro c hc
    simp only [isLiteralChar, hds c hc, Bool.true_or]
  have hall : ∀ c ∈ ds ++ run, isLiteralChar c = true :=
    List.forall_mem_append.mpr ⟨hliteral, hrun⟩
  have hnumeral (h : run.count '.' ≤ 1) : IsNumeral (ds ++ run) := by
    obtain ⟨d, hd⟩ := List.exists_mem_of_ne_nil ds hempty
    refine ⟨hall, ⟨d, List.mem_append_left run hd, hds d hd⟩, ?_⟩
    rw [List.count_append, Numeral.count_point_of_isDigit hds, Nat.zero_add]
    exact h
  rw [← List.append_assoc]
  by_cases hnum : IsNumeral run
  · rw [count_numeral hnum hafter, count_numeral (hnumeral hnum.points) hafter]
  by_cases hnil : run = []
  · have hds' := hnumeral (by rw [hnil]; exact Nat.zero_le 1)
    rw [count_numeral hds' hafter, hnil, List.nil_append]
    exact Nat.le_add_left _ 1
  · rw [count_not_numeral hrun hnil hnum hafter]
    exact count_run_pos hall (List.append_ne_nil_of_left_ne_nil hempty run) after

end numerals

section names

lemma count_call (h : IsName run) (after : List Char) :
    count (run ++ '(' :: after) = 1 + count after := by
  have hslice : IsSlice (.call (String.ofList run)) (run ++ ['(']) after := .call h
  have hcount := count_slice hslice
  rwa [List.append_assoc] at hcount

/-- All names before the same text have as many tokens behind them. -/
lemma count_name_eq {w : List Char} (hr : IsName run) (hw : IsName w)
    (hafter : Stops isNameChar after) : count (run ++ after) = count (w ++ after) := by
  by_cases hopen : after.head? = some '('
  · obtain ⟨after, rfl⟩ := List.head?_eq_some_iff.mp hopen
    rw [count_call hr, count_call hw]
  · rw [count_slice (.name hr hafter hopen), count_slice (.name hw hafter hopen)]

lemma count_name_append_le_of_stops {b : List Char} (hr : IsName run) (hb : Stops isDigit b) :
    count (run ++ b) ≤ 1 + count b := by
  obtain ⟨w, after, rfl, hw, hafter⟩ := Lexeme.exists_run isNameChar b
  by_cases hnil : w = []
  · rw [hnil, List.nil_append]
    by_cases hopen : after.head? = some '('
    · obtain ⟨after, rfl⟩ := List.head?_eq_some_iff.mp hopen
      have hgroup : count ('(' :: after) = 1 + count after := count_slice .group
      rw [count_call hr, hgroup]
      omega
    · rw [count_slice (.name hr hafter hopen)]
  · have hhead : Stops isDigit w := by
      intro c hc
      apply hb c
      rw [List.head?_append, hc, Option.some_or]
    have hword : IsName w := ⟨hnil, hw, hhead⟩
    rw [← List.append_assoc, count_name_eq (hr.append hw) hword hafter]
    exact Nat.le_add_left _ 1

lemma count_name_append_le (hr : IsName run) (b : List Char) : count (run ++ b) ≤ 1 + count b := by
  -- The name takes the digits in front; behind them a name or a parenthesis can go on.
  obtain ⟨ds, after, rfl, hds, hafter⟩ := Lexeme.exists_run isDigit b
  have hjoined : IsName (run ++ ds) :=
    hr.append fun c hc => Lexeme.isNameChar_of_isDigit (hds c hc)
  rw [← List.append_assoc]
  calc count (run ++ ds ++ after)
      ≤ 1 + count after := count_name_append_le_of_stops hjoined hafter
    _ ≤ 1 + count (ds ++ after) :=
        Nat.add_le_add_left (count_le_count_digits_append hds after) 1

/-- Where a name is found by itself it does not go on. -/
lemma stops_of_name {position : Nat} {name : String} {b : List Char} {ls : List Lexeme}
    (hslice : IsSlice (.name name) slice after)
    (h : (scanFrom position (slice ++ b)).map (·.lexeme) = .name name :: ls) :
    Stops (Lexeme.name name).goesOnWith b := by
  have hname := hslice.slice_eq_of_name
  obtain ⟨c, s, rfl⟩ := List.exists_cons_of_ne_nil hslice.ne_nil
  have hc := hslice.isWhitespace_eq_false c List.mem_cons_self
  cases hf : Lexeme.first? c (s ++ b) with
  | none =>
    rw [List.cons_append, scanFrom_cons_of_first?_eq_none hc hf] at h
    exact absurd (List.cons.inj h).1 (by simp)
  | some found =>
    obtain ⟨l, more⟩ := found
    rw [List.cons_append, scanFrom_cons_of_first?_eq_some hc hf] at h
    obtain rfl : l = .name name := (List.cons.inj h).1
    obtain ⟨s', after', heq, -, hslice'⟩ := Lexeme.isSlice_of_first? hf
    obtain rfl : s' = s := (List.cons.inj (hslice'.slice_eq_of_name.trans hname.symm)).2
    rw [List.append_cancel_left heq]
    exact hslice'.stops_goesOnWith

end names

end Token

end Calculator
