import Calculator.Unicode.Cased

/-!
# Small letters

`lower` writes every capital of a text as its small letter. Three rules make up the full mapping of
Unicode 14: the runs of `lowercaseRuns` shift a code point by a constant, the dotted capital I
becomes two characters, and a capital sigma takes its final form at the end of a word. Nothing in a
lowered text has a small form other than itself, so lowering twice changes nothing: `lower_lower`.
-/

namespace Calculator.Unicode

/-- Every `step`-th code point from `first` to `last` has its small form `shift` further. -/
structure LowercaseRun where
  first : Nat
  last : Nat
  step : Nat
  shift : Int

namespace LowercaseRun

def contains (r : LowercaseRun) (n : Nat) : Bool :=
  r.first ≤ n && n ≤ r.last && (n - r.first) % r.step == 0

/-- The code points of a run. -/
def members (r : LowercaseRun) : List Nat :=
  (List.range ((r.last - r.first) / r.step + 1)).map (r.first + r.step * ·)

end LowercaseRun

/-- The characters with a small form of their own, sigma included and the dotted capital I left out. -/
def lowercaseRuns : List LowercaseRun := [
  ⟨0x0041, 0x005A, 1, 32⟩, ⟨0x00C0, 0x00D6, 1, 32⟩, ⟨0x00D8, 0x00DE, 1, 32⟩,
  ⟨0x0100, 0x012E, 2, 1⟩, ⟨0x0132, 0x0136, 2, 1⟩, ⟨0x0139, 0x0147, 2, 1⟩, ⟨0x014A, 0x0176, 2, 1⟩,
  ⟨0x0178, 0x0178, 1, -121⟩, ⟨0x0179, 0x017D, 2, 1⟩, ⟨0x0181, 0x0181, 1, 210⟩,
  ⟨0x0182, 0x0184, 2, 1⟩, ⟨0x0186, 0x0186, 1, 206⟩, ⟨0x0187, 0x0187, 1, 1⟩,
  ⟨0x0189, 0x018A, 1, 205⟩, ⟨0x018B, 0x018B, 1, 1⟩, ⟨0x018E, 0x018E, 1, 79⟩,
  ⟨0x018F, 0x018F, 1, 202⟩, ⟨0x0190, 0x0190, 1, 203⟩, ⟨0x0191, 0x0191, 1, 1⟩,
  ⟨0x0193, 0x0193, 1, 205⟩, ⟨0x0194, 0x0194, 1, 207⟩, ⟨0x0196, 0x0196, 1, 211⟩,
  ⟨0x0197, 0x0197, 1, 209⟩, ⟨0x0198, 0x0198, 1, 1⟩, ⟨0x019C, 0x019C, 1, 211⟩,
  ⟨0x019D, 0x019D, 1, 213⟩, ⟨0x019F, 0x019F, 1, 214⟩, ⟨0x01A0, 0x01A4, 2, 1⟩,
  ⟨0x01A6, 0x01A6, 1, 218⟩, ⟨0x01A7, 0x01A7, 1, 1⟩, ⟨0x01A9, 0x01A9, 1, 218⟩,
  ⟨0x01AC, 0x01AC, 1, 1⟩, ⟨0x01AE, 0x01AE, 1, 218⟩, ⟨0x01AF, 0x01AF, 1, 1⟩,
  ⟨0x01B1, 0x01B2, 1, 217⟩, ⟨0x01B3, 0x01B5, 2, 1⟩, ⟨0x01B7, 0x01B7, 1, 219⟩,
  ⟨0x01B8, 0x01B8, 1, 1⟩, ⟨0x01BC, 0x01BC, 1, 1⟩, ⟨0x01C4, 0x01C4, 1, 2⟩, ⟨0x01C5, 0x01C5, 1, 1⟩,
  ⟨0x01C7, 0x01C7, 1, 2⟩, ⟨0x01C8, 0x01C8, 1, 1⟩, ⟨0x01CA, 0x01CA, 1, 2⟩, ⟨0x01CB, 0x01DB, 2, 1⟩,
  ⟨0x01DE, 0x01EE, 2, 1⟩, ⟨0x01F1, 0x01F1, 1, 2⟩, ⟨0x01F2, 0x01F4, 2, 1⟩,
  ⟨0x01F6, 0x01F6, 1, -97⟩, ⟨0x01F7, 0x01F7, 1, -56⟩, ⟨0x01F8, 0x021E, 2, 1⟩,
  ⟨0x0220, 0x0220, 1, -130⟩, ⟨0x0222, 0x0232, 2, 1⟩, ⟨0x023A, 0x023A, 1, 10795⟩,
  ⟨0x023B, 0x023B, 1, 1⟩, ⟨0x023D, 0x023D, 1, -163⟩, ⟨0x023E, 0x023E, 1, 10792⟩,
  ⟨0x0241, 0x0241, 1, 1⟩, ⟨0x0243, 0x0243, 1, -195⟩, ⟨0x0244, 0x0244, 1, 69⟩,
  ⟨0x0245, 0x0245, 1, 71⟩, ⟨0x0246, 0x024E, 2, 1⟩, ⟨0x0370, 0x0372, 2, 1⟩,
  ⟨0x0376, 0x0376, 1, 1⟩, ⟨0x037F, 0x037F, 1, 116⟩, ⟨0x0386, 0x0386, 1, 38⟩,
  ⟨0x0388, 0x038A, 1, 37⟩, ⟨0x038C, 0x038C, 1, 64⟩, ⟨0x038E, 0x038F, 1, 63⟩,
  ⟨0x0391, 0x03A1, 1, 32⟩, ⟨0x03A3, 0x03AB, 1, 32⟩, ⟨0x03CF, 0x03CF, 1, 8⟩,
  ⟨0x03D8, 0x03EE, 2, 1⟩, ⟨0x03F4, 0x03F4, 1, -60⟩, ⟨0x03F7, 0x03F7, 1, 1⟩,
  ⟨0x03F9, 0x03F9, 1, -7⟩, ⟨0x03FA, 0x03FA, 1, 1⟩, ⟨0x03FD, 0x03FF, 1, -130⟩,
  ⟨0x0400, 0x040F, 1, 80⟩, ⟨0x0410, 0x042F, 1, 32⟩, ⟨0x0460, 0x0480, 2, 1⟩,
  ⟨0x048A, 0x04BE, 2, 1⟩, ⟨0x04C0, 0x04C0, 1, 15⟩, ⟨0x04C1, 0x04CD, 2, 1⟩,
  ⟨0x04D0, 0x052E, 2, 1⟩, ⟨0x0531, 0x0556, 1, 48⟩, ⟨0x10A0, 0x10C5, 1, 7264⟩,
  ⟨0x10C7, 0x10C7, 1, 7264⟩, ⟨0x10CD, 0x10CD, 1, 7264⟩, ⟨0x13A0, 0x13EF, 1, 38864⟩,
  ⟨0x13F0, 0x13F5, 1, 8⟩, ⟨0x1C90, 0x1CBA, 1, -3008⟩, ⟨0x1CBD, 0x1CBF, 1, -3008⟩,
  ⟨0x1E00, 0x1E94, 2, 1⟩, ⟨0x1E9E, 0x1E9E, 1, -7615⟩, ⟨0x1EA0, 0x1EFE, 2, 1⟩,
  ⟨0x1F08, 0x1F0F, 1, -8⟩, ⟨0x1F18, 0x1F1D, 1, -8⟩, ⟨0x1F28, 0x1F2F, 1, -8⟩,
  ⟨0x1F38, 0x1F3F, 1, -8⟩, ⟨0x1F48, 0x1F4D, 1, -8⟩, ⟨0x1F59, 0x1F5F, 2, -8⟩,
  ⟨0x1F68, 0x1F6F, 1, -8⟩, ⟨0x1F88, 0x1F8F, 1, -8⟩, ⟨0x1F98, 0x1F9F, 1, -8⟩,
  ⟨0x1FA8, 0x1FAF, 1, -8⟩, ⟨0x1FB8, 0x1FB9, 1, -8⟩, ⟨0x1FBA, 0x1FBB, 1, -74⟩,
  ⟨0x1FBC, 0x1FBC, 1, -9⟩, ⟨0x1FC8, 0x1FCB, 1, -86⟩, ⟨0x1FCC, 0x1FCC, 1, -9⟩,
  ⟨0x1FD8, 0x1FD9, 1, -8⟩, ⟨0x1FDA, 0x1FDB, 1, -100⟩, ⟨0x1FE8, 0x1FE9, 1, -8⟩,
  ⟨0x1FEA, 0x1FEB, 1, -112⟩, ⟨0x1FEC, 0x1FEC, 1, -7⟩, ⟨0x1FF8, 0x1FF9, 1, -128⟩,
  ⟨0x1FFA, 0x1FFB, 1, -126⟩, ⟨0x1FFC, 0x1FFC, 1, -9⟩, ⟨0x2126, 0x2126, 1, -7517⟩,
  ⟨0x212A, 0x212A, 1, -8383⟩, ⟨0x212B, 0x212B, 1, -8262⟩, ⟨0x2132, 0x2132, 1, 28⟩,
  ⟨0x2160, 0x216F, 1, 16⟩, ⟨0x2183, 0x2183, 1, 1⟩, ⟨0x24B6, 0x24CF, 1, 26⟩,
  ⟨0x2C00, 0x2C2F, 1, 48⟩, ⟨0x2C60, 0x2C60, 1, 1⟩, ⟨0x2C62, 0x2C62, 1, -10743⟩,
  ⟨0x2C63, 0x2C63, 1, -3814⟩, ⟨0x2C64, 0x2C64, 1, -10727⟩, ⟨0x2C67, 0x2C6B, 2, 1⟩,
  ⟨0x2C6D, 0x2C6D, 1, -10780⟩, ⟨0x2C6E, 0x2C6E, 1, -10749⟩, ⟨0x2C6F, 0x2C6F, 1, -10783⟩,
  ⟨0x2C70, 0x2C70, 1, -10782⟩, ⟨0x2C72, 0x2C72, 1, 1⟩, ⟨0x2C75, 0x2C75, 1, 1⟩,
  ⟨0x2C7E, 0x2C7F, 1, -10815⟩, ⟨0x2C80, 0x2CE2, 2, 1⟩, ⟨0x2CEB, 0x2CED, 2, 1⟩,
  ⟨0x2CF2, 0x2CF2, 1, 1⟩, ⟨0xA640, 0xA66C, 2, 1⟩, ⟨0xA680, 0xA69A, 2, 1⟩, ⟨0xA722, 0xA72E, 2, 1⟩,
  ⟨0xA732, 0xA76E, 2, 1⟩, ⟨0xA779, 0xA77B, 2, 1⟩, ⟨0xA77D, 0xA77D, 1, -35332⟩,
  ⟨0xA77E, 0xA786, 2, 1⟩, ⟨0xA78B, 0xA78B, 1, 1⟩, ⟨0xA78D, 0xA78D, 1, -42280⟩,
  ⟨0xA790, 0xA792, 2, 1⟩, ⟨0xA796, 0xA7A8, 2, 1⟩, ⟨0xA7AA, 0xA7AA, 1, -42308⟩,
  ⟨0xA7AB, 0xA7AB, 1, -42319⟩, ⟨0xA7AC, 0xA7AC, 1, -42315⟩, ⟨0xA7AD, 0xA7AD, 1, -42305⟩,
  ⟨0xA7AE, 0xA7AE, 1, -42308⟩, ⟨0xA7B0, 0xA7B0, 1, -42258⟩, ⟨0xA7B1, 0xA7B1, 1, -42282⟩,
  ⟨0xA7B2, 0xA7B2, 1, -42261⟩, ⟨0xA7B3, 0xA7B3, 1, 928⟩, ⟨0xA7B4, 0xA7C2, 2, 1⟩,
  ⟨0xA7C4, 0xA7C4, 1, -48⟩, ⟨0xA7C5, 0xA7C5, 1, -42307⟩, ⟨0xA7C6, 0xA7C6, 1, -35384⟩,
  ⟨0xA7C7, 0xA7C9, 2, 1⟩, ⟨0xA7D0, 0xA7D0, 1, 1⟩, ⟨0xA7D6, 0xA7D8, 2, 1⟩, ⟨0xA7F5, 0xA7F5, 1, 1⟩,
  ⟨0xFF21, 0xFF3A, 1, 32⟩, ⟨0x10400, 0x10427, 1, 40⟩, ⟨0x104B0, 0x104D3, 1, 40⟩,
  ⟨0x10570, 0x1057A, 1, 39⟩, ⟨0x1057C, 0x1058A, 1, 39⟩, ⟨0x1058C, 0x10592, 1, 39⟩,
  ⟨0x10594, 0x10595, 1, 39⟩, ⟨0x10C80, 0x10CB2, 1, 64⟩, ⟨0x118A0, 0x118BF, 1, 32⟩,
  ⟨0x16E40, 0x16E5F, 1, 32⟩, ⟨0x1E900, 0x1E921, 1, 34⟩]

/-- The run of a code point in an ascending list of runs. -/
def LowercaseRun.find? (n : Nat) : List LowercaseRun → Option LowercaseRun
  | [] => none
  | r :: rest =>
    if n < r.first then none
    else if r.contains n then some r
    else find? n rest

/-- The code point of the small form; most characters are their own. -/
def lowercasePoint (n : Nat) : Nat :=
  match LowercaseRun.find? n lowercaseRuns with
  | some r => (n + r.shift).toNat
  | none => n

/-- The small form of a character that is not a capital sigma. -/
def lowercase (c : Char) : List Char :=
  if c = 'İ' then ['i', '\u0307'] else [Char.ofNat (lowercasePoint c.toNat)]

/-- Whether the nearest character that counts is cased. -/
def nextIsCased : List Char → Bool
  | [] => false
  | c :: r => if isCaseIgnorable c then nextIsCased r else isCased c

/-- Lowers a text that follows the characters `before`, the nearest first. -/
def lowerAfter (before : List Char) : List Char → List Char
  | [] => []
  | c :: r =>
    if c = 'Σ' then
      (if nextIsCased before && !nextIsCased r then 'ς' else 'σ') :: lowerAfter (c :: before) r
    else
      lowercase c ++ lowerAfter (c :: before) r

def lower (s : String) : String :=
  String.ofList (lowerAfter [] s.toList)

/-! ### Lowering twice -/

/-- A character that lowering leaves alone wherever it stands. -/
def Settled (c : Char) : Prop :=
  c ≠ 'Σ' ∧ lowercase c = [c]

/-- Every code point that lowering changes. -/
def changedPoints : List Nat :=
  0x0130 :: 0x03A3 :: lowercaseRuns.flatMap LowercaseRun.members

/-- The code points that the runs lead to. -/
def shiftedPoints : List Nat :=
  lowercaseRuns.flatMap fun r => r.members.map fun n : Nat => (n + r.shift).toNat

/-- A set of code points as the bits of a number. -/
def pointSet (l : List Nat) : Nat :=
  l.foldr (fun n s => s ||| 1 <<< n) 0

theorem testBit_pointSet {l : List Nat} {n : Nat} : (pointSet l).testBit n = decide (n ∈ l) := by
  induction l with
  | nil => simp [pointSet]
  | cons m r ih =>
    rw [pointSet, List.foldr_cons, ← pointSet, Nat.testBit_or, ih, Nat.shiftLeft_eq, Nat.one_mul,
      Nat.testBit_two_pow]
    by_cases h : m = n
    · simp [h]
    · simp [h, Ne.symm h]

theorem shiftedPoints_changedPoints : pointSet shiftedPoints &&& pointSet changedPoints = 0 := by
  decide +kernel

theorem shiftedPoints_valid :
    shiftedPoints.all (fun m => m < 0xD800 || (0xDFFF < m && m < 0x110000)) = true := by
  decide +kernel

theorem not_mem_changedPoints {m : Nat} (h : m ∈ shiftedPoints) : m ∉ changedPoints := by
  intro hc
  have := congrArg (·.testBit m) shiftedPoints_changedPoints
  simp [Nat.testBit_and, testBit_pointSet, h, hc] at this

theorem isValidChar_of_mem_shiftedPoints {m : Nat} (h : m ∈ shiftedPoints) : m.isValidChar := by
  have := List.all_eq_true.1 shiftedPoints_valid m h
  simp only [Bool.or_eq_true, Bool.and_eq_true, decide_eq_true_eq] at this
  exact this

theorem LowercaseRun.mem_members {r : LowercaseRun} {n : Nat} (h : r.contains n = true) :
    n ∈ r.members := by
  simp only [contains, Bool.and_eq_true, decide_eq_true_eq, beq_iff_eq] at h
  obtain ⟨⟨h1, h2⟩, h3⟩ := h
  have hk : (n - r.first) / r.step ≤ (r.last - r.first) / r.step := Nat.div_le_div_right (by omega)
  have hn : r.first + r.step * ((n - r.first) / r.step) = n := by
    have := Nat.div_add_mod (n - r.first) r.step
    omega
  exact List.mem_map.2 ⟨_, List.mem_range.2 (by omega), hn⟩

theorem LowercaseRun.mem_of_find? {n : Nat} {l : List LowercaseRun} {r : LowercaseRun}
    (h : find? n l = some r) : r ∈ l ∧ n ∈ r.members := by
  induction l with
  | nil => simp [find?] at h
  | cons q rest ih =>
    unfold find? at h
    split at h
    · simp at h
    · split at h
      · rename_i hq
        cases h
        exact ⟨by simp, mem_members hq⟩
      · exact ⟨List.mem_cons_of_mem _ (ih h).1, (ih h).2⟩

theorem lowercasePoint_eq_self {n : Nat} (h : n ∉ changedPoints) : lowercasePoint n = n := by
  unfold lowercasePoint
  split
  · rename_i r hr
    obtain ⟨hr, hn⟩ := LowercaseRun.mem_of_find? hr
    have := List.mem_flatMap.2 ⟨r, hr, hn⟩
    exact absurd (List.mem_cons_of_mem _ (List.mem_cons_of_mem _ this)) h
  · rfl

theorem settled_of_lowercase {c d : Char} (hc : c ≠ 'Σ') (h : d ∈ lowercase c) : Settled d := by
  unfold lowercase at h
  split at h
  · simp only [List.mem_cons, List.not_mem_nil, or_false] at h
    rcases h with rfl | rfl <;> exact ⟨by decide, by decide⟩
  · rename_i hI
    rw [List.mem_singleton] at h
    unfold lowercasePoint at h
    split at h
    · rename_i r hr
      have hm : (c.toNat + r.shift).toNat ∈ shiftedPoints :=
        List.mem_flatMap.2 ⟨r, (LowercaseRun.mem_of_find? hr).1,
          List.mem_map.2 ⟨_, (LowercaseRun.mem_of_find? hr).2, rfl⟩⟩
      have hd : d.toNat = (c.toNat + r.shift).toNat := by
        rw [h, Char.ofNat, dif_pos (isValidChar_of_mem_shiftedPoints hm)]
        rfl
      rw [← hd] at hm
      have hn := not_mem_changedPoints hm
      refine ⟨fun e => hn ?_, ?_⟩
      · rw [e]
        decide +kernel
      · have hI : d ≠ 'İ' := fun e => hn (by rw [e]; decide +kernel)
        simp [lowercase, lowercasePoint_eq_self hn, hI]
    · rename_i hr
      rw [Char.ofNat_toNat] at h
      subst h
      exact ⟨hc, by simp [lowercase, lowercasePoint, hr, hI]⟩

theorem settled_of_lowerAfter {before s : List Char} {d : Char} (h : d ∈ lowerAfter before s) :
    Settled d := by
  induction s generalizing before with
  | nil => simp [lowerAfter] at h
  | cons c r ih =>
    unfold lowerAfter at h
    split at h
    · rcases List.mem_cons.1 h with rfl | h
      · split <;> exact ⟨by decide, by decide⟩
      · exact ih h
    · rename_i hc
      rcases List.mem_append.1 h with h | h
      · exact settled_of_lowercase hc h
      · exact ih h

theorem lowerAfter_eq_self {before s : List Char} (h : ∀ c ∈ s, Settled c) :
    lowerAfter before s = s := by
  induction s generalizing before with
  | nil => rfl
  | cons c r ih =>
    obtain ⟨hc, hl⟩ := h c (by simp)
    rw [lowerAfter, if_neg hc, hl, ih fun d hd => h d (by simp [hd])]
    rfl

/-- Lowering a lowered text changes nothing. -/
theorem lower_lower (s : String) : lower (lower s) = lower s := by
  unfold lower
  rw [String.toList_ofList, lowerAfter_eq_self fun _ => settled_of_lowerAfter]

end Calculator.Unicode
