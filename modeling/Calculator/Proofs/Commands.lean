import Calculator.Proofs.Decomposition
import Calculator.Session.Command

/-!
# Lines that are commands

Which lines are commands and which of them end a session, said by the characters of the line:
`IsFirstWord word s` describes the first word of a text, and a line is a command if a colon is its
first character that is not blank or if its first word is `help`.
-/

namespace Calculator

open Lexeme (Stops)

namespace Text

open Unicode (isWhitespace)

def IsBlank (s : List Char) : Prop :=
  ∀ c ∈ s, isWhitespace c = true

/-- The first word of a text is a longest run of characters that are not blank, with blank ones
only in front of it. -/
structure IsFirstWord (word s : List Char) : Prop where
  ne_nil : word ≠ []
  chars : ∀ c ∈ word, isWhitespace c = false
  split : ∃ before after, s = before ++ (word ++ after) ∧ IsBlank before ∧
    Stops (!isWhitespace ·) after

variable {s r before after word word' : List Char} {c : Char}

lemma isBlank_iff : isBlank s = true ↔ IsBlank s :=
  List.all_eq_true

lemma IsBlank.append (hbefore : IsBlank before) (hs : IsBlank s) : IsBlank (before ++ s) := by
  intro c hc
  rcases List.mem_append.mp hc with hc | hc
  · exact hbefore c hc
  · exact hs c hc

lemma isBlank_or (s : List Char) :
    IsBlank s ∨ ∃ before c r, s = before ++ c :: r ∧ IsBlank before ∧ isWhitespace c = false := by
  obtain ⟨before, after, rfl, hbefore, hafter⟩ := Lexeme.exists_run isWhitespace s
  cases after with
  | nil =>
    left
    rw [List.append_nil]
    exact hbefore
  | cons c r =>
    right
    exact ⟨before, c, r, rfl, hbefore, Lexeme.stops_cons.mp hafter⟩

lemma not_isBlank (hc : isWhitespace c = false) : ¬IsBlank (before ++ c :: r) := by
  intro h
  have hblank := h c (by simp)
  exact absurd (hc.symm.trans hblank) (by simp)

lemma trimStart_of_isBlank (h : IsBlank s) : trimStart s = [] :=
  List.dropWhile_eq_nil_iff.mpr h

lemma trimStart_append_cons (hbefore : IsBlank before) (hc : isWhitespace c = false) :
    trimStart (before ++ c :: r) = c :: r :=
  Lexeme.dropWhile_append hbefore (Lexeme.stops_cons.mpr hc)

lemma exists_trimEnd (s : List Char) : ∃ after, s = trimEnd s ++ after ∧ IsBlank after := by
  refine ⟨(s.reverse.takeWhile isWhitespace).reverse, ?_, ?_⟩
  · unfold trimEnd trimStart
    rw [← List.reverse_append, List.takeWhile_append_dropWhile, List.reverse_reverse]
  · intro c hc
    exact List.mem_takeWhile_imp (List.mem_reverse.mp hc)

lemma trimEnd_cons (hc : isWhitespace c = false) (r : List Char) :
    trimEnd (c :: r) = c :: trimEnd r := by
  unfold trimEnd trimStart
  rw [List.reverse_cons, List.dropWhile_append]
  split
  · rename_i hempty
    rw [List.isEmpty_iff] at hempty
    simp [hempty, hc]
  · rw [List.reverse_append]
    rfl

lemma trim_of_isBlank (h : IsBlank s) : trim s = [] := by
  unfold trim
  rw [trimStart_of_isBlank h]
  rfl

lemma trim_append_cons (hbefore : IsBlank before) (hc : isWhitespace c = false) :
    trim (before ++ c :: r) = c :: trimEnd r := by
  unfold trim
  rw [trimStart_append_cons hbefore hc, trimEnd_cons hc]

lemma nextWord?_of_isBlank (h : IsBlank s) : nextWord? s = none := by
  unfold nextWord?
  rw [trimStart_of_isBlank h]

/-- The word that is taken off a text is its first word. -/
lemma isFirstWord_iff : IsFirstWord word s ↔ ∃ rest, nextWord? s = some (word, rest) := by
  constructor
  · rintro ⟨hne, hchars, before, after, rfl, hbefore, hafter⟩
    obtain ⟨c, r, rfl⟩ := List.exists_cons_of_ne_nil hne
    have hc : isWhitespace c = false := hchars c (by simp)
    have hrun : ∀ d ∈ c :: r, (!isWhitespace d) = true := by
      intro d hd
      rw [hchars d hd]
      rfl
    refine ⟨trimStart after, ?_⟩
    unfold nextWord?
    rw [List.cons_append, trimStart_append_cons hbefore hc]
    simp only
    rw [← List.cons_append, Lexeme.takeWhile_append hrun hafter,
      Lexeme.dropWhile_append hrun hafter]
  · rintro ⟨rest, h⟩
    rcases isBlank_or s with hs | ⟨before, c, r, rfl, hbefore, hc⟩
    · rw [nextWord?_of_isBlank hs] at h
      exact absurd h (by simp)
    · unfold nextWord? at h
      rw [trimStart_append_cons hbefore hc] at h
      obtain ⟨rfl, -⟩ := Prod.mk.inj (Option.some.inj h)
      obtain ⟨run, after, hsplit, hrun, hafter⟩ := Lexeme.exists_run (!isWhitespace ·) (c :: r)
      rw [hsplit, Lexeme.takeWhile_append hrun hafter]
      refine ⟨?_, ?_, before, after, rfl, hbefore, hafter⟩
      · rintro rfl
        rw [List.nil_append] at hsplit
        subst hsplit
        have hnot := Lexeme.stops_cons.mp hafter
        simp [hc] at hnot
      · intro d hd
        simpa using hrun d hd

lemma IsFirstWord.unique (h : IsFirstWord word s) (h' : IsFirstWord word' s) : word = word' := by
  obtain ⟨rest, hrest⟩ := isFirstWord_iff.mp h
  obtain ⟨rest', hrest'⟩ := isFirstWord_iff.mp h'
  exact (Prod.mk.inj (Option.some.inj (hrest.symm.trans hrest'))).1

lemma exists_isFirstWord (hc : isWhitespace c = false) (before r : List Char) :
    ∃ word, IsFirstWord word (before ++ c :: r) := by
  cases h : nextWord? (before ++ c :: r) with
  | some p => exact ⟨p.1, isFirstWord_iff.mpr ⟨p.2, h⟩⟩
  | none =>
    exfalso
    unfold nextWord? at h
    split at h
    · rename_i hnil
      exact not_isBlank hc (List.dropWhile_eq_nil_iff.mp hnil)
    · exact absurd h (by simp)

lemma isFirstWord_append_left (hbefore : IsBlank before) :
    IsFirstWord word (before ++ s) ↔ IsFirstWord word s := by
  have htrim : trimStart (before ++ s) = trimStart s := List.dropWhile_append_of_pos hbefore
  have hnext : nextWord? (before ++ s) = nextWord? s := by
    unfold nextWord?
    rw [htrim]
  rw [isFirstWord_iff, isFirstWord_iff, hnext]

lemma isFirstWord_append (hafter : IsBlank after) :
    IsFirstWord word (s ++ after) ↔ IsFirstWord word s := by
  have hof {word : List Char} (h : IsFirstWord word s) : IsFirstWord word (s ++ after) := by
    obtain ⟨hne, hchars, front, back, rfl, hfront, hback⟩ := h
    refine ⟨hne, hchars, front, back ++ after, by simp only [List.append_assoc], hfront, ?_⟩
    cases back with
    | cons d back => exact Lexeme.stops_cons.mpr (Lexeme.stops_cons.mp hback)
    | nil =>
      intro d hd
      have hblank := hafter d (List.mem_of_mem_head? hd)
      simp [hblank]
  refine ⟨fun h => ?_, hof⟩
  rcases isBlank_or s with hs | ⟨front, c, r, rfl, hfront, hc⟩
  · obtain ⟨rest, hrest⟩ := isFirstWord_iff.mp h
    rw [nextWord?_of_isBlank (hs.append hafter)] at hrest
    exact absurd hrest (by simp)
  · obtain ⟨word', hword'⟩ := exists_isFirstWord hc front r
    rwa [h.unique (hof hword')]

end Text

namespace Command

open Text (IsBlank IsFirstWord)

/-- A line is a command if it begins with a colon or with the word `help`. -/
inductive IsLine (s : List Char) : Prop
  | colon {before r : List Char} (hs : s = before ++ ':' :: r) (hbefore : IsBlank before)
  | help {word : List Char} (hword : IsFirstWord word s)
      (hhelp : Unicode.lower (String.ofList word) = "help")

/-- A line ends a session if the first word after its colon is `exit` or `quit`. -/
inductive EndsSession (s : List Char) : Prop
  | intro {before r word : List Char} (hs : s = before ++ ':' :: r) (hbefore : IsBlank before)
      (hword : IsFirstWord word r)
      (hexit : Unicode.lower (String.ofList word) = "exit" ∨
        Unicode.lower (String.ofList word) = "quit")

variable {line word : String} {argument : Option String} {before r : List Char} {c : Char}

lemma isWhitespace_colon : Unicode.isWhitespace ':' = false := by
  decide

lemma ofWord_eq_exit_iff :
    ofWord word argument = exit ↔ Unicode.lower word = "exit" ∨ Unicode.lower word = "quit" := by
  unfold ofWord
  by_cases hexit : Unicode.lower word = "exit" ∨ Unicode.lower word = "quit"
  · simp [hexit]
  · simp only [hexit, if_false, iff_false]
    split
    · simp
    · split <;> simp

lemma answer?_eq_none_iff {scope : Scope} {command : Command} :
    command.answer? scope = none ↔ command = exit := by
  cases command <;> simp [answer?]

lemma ofLine?_of_isBlank (h : IsBlank line.toList) : ofLine? line = none := by
  unfold ofLine?
  rw [Text.trim_of_isBlank h]

lemma ofLine?_of_colon (hline : line.toList = before ++ ':' :: r) (hbefore : IsBlank before) :
    ofLine? line = match Text.nextWord? (Text.trimEnd r) with
      | none => some missing
      | some (word, rest) =>
        some (ofWord (String.ofList word) ((Text.nextWord? rest).map (String.ofList ·.1))) := by
  unfold ofLine?
  rw [hline, Text.trim_append_cons hbefore isWhitespace_colon]
  rfl

lemma ofLine?_of_ne_colon (hline : line.toList = before ++ c :: r) (hbefore : IsBlank before)
    (hc : Unicode.isWhitespace c = false) (hne : c ≠ ':') {word : List Char}
    (hword : IsFirstWord word line.toList) :
    ∃ topic, ofLine? line =
      if Unicode.lower (String.ofList word) = "help" then some (help topic) else none := by
  have hfirst : IsFirstWord word (c :: Text.trimEnd r) := by
    obtain ⟨after, hr, hafter⟩ := Text.exists_trimEnd r
    rw [hline, hr, ← List.cons_append] at hword
    exact (Text.isFirstWord_append hafter).mp ((Text.isFirstWord_append_left hbefore).mp hword)
  obtain ⟨rest, hrest⟩ := Text.isFirstWord_iff.mp hfirst
  refine ⟨if rest.isEmpty then none else some (String.ofList rest), ?_⟩
  unfold ofLine?
  rw [hline, Text.trim_append_cons hbefore hc]
  split
  · rename_i hnil
    exact absurd hnil (by simp)
  · rename_i hcolon
    exact absurd (List.cons.inj hcolon).1 hne
  · rename_i s hs
    rw [hrest]

/-- Blank characters, a colon and what follows it are told apart in one way only. -/
lemma eq_of_append_colon {before' r' : List Char} (hbefore : IsBlank before)
    (hbefore' : IsBlank before') (hc : Unicode.isWhitespace c = false)
    (h : before ++ ':' :: r = before' ++ c :: r') : c = ':' ∧ r = r' := by
  obtain ⟨-, htail⟩ := Lexeme.run_unique h hbefore hbefore'
    (Lexeme.stops_cons.mpr isWhitespace_colon) (Lexeme.stops_cons.mpr hc)
  obtain ⟨rfl, rfl⟩ := List.cons.inj htail
  exact ⟨rfl, rfl⟩

theorem ofLine?_eq_none_iff : ofLine? line = none ↔ ¬IsLine line.toList := by
  rcases Text.isBlank_or line.toList with hblank | ⟨before, c, r, hline, hbefore, hc⟩
  · have hno : ¬IsLine line.toList := by
      intro h
      cases h with
      | colon hs _ => exact Text.not_isBlank isWhitespace_colon (hs ▸ hblank)
      | help hword _ =>
        obtain ⟨rest, hrest⟩ := Text.isFirstWord_iff.mp hword
        rw [Text.nextWord?_of_isBlank hblank] at hrest
        exact absurd hrest (by simp)
    simp [ofLine?_of_isBlank hblank, hno]
  · by_cases hcolon : c = ':'
    · subst hcolon
      have hyes : IsLine line.toList := .colon hline hbefore
      rw [ofLine?_of_colon hline hbefore]
      cases Text.nextWord? (Text.trimEnd r) <;> simp [hyes]
    · obtain ⟨word, hword⟩ := Text.exists_isFirstWord hc before r
      rw [← hline] at hword
      obtain ⟨topic, htopic⟩ := ofLine?_of_ne_colon hline hbefore hc hcolon hword
      rw [htopic]
      split
      · rename_i hhelp
        simp [IsLine.help hword hhelp]
      · rename_i hhelp
        simp only [true_iff]
        intro h
        cases h with
        | colon hs hbefore' =>
          exact hcolon (eq_of_append_colon hbefore' hbefore hc (hs.symm.trans hline)).1
        | help hword' hhelp' => exact hhelp (hword.unique hword' ▸ hhelp')

theorem ofLine?_eq_exit_iff : ofLine? line = some exit ↔ EndsSession line.toList := by
  rcases Text.isBlank_or line.toList with hblank | ⟨before, c, r, hline, hbefore, hc⟩
  · rw [ofLine?_of_isBlank hblank]
    simp only [reduceCtorEq, false_iff]
    rintro ⟨hs, -⟩
    exact Text.not_isBlank isWhitespace_colon (hs ▸ hblank)
  · by_cases hcolon : c = ':'
    · subst hcolon
      obtain ⟨after, hr, hafter⟩ := Text.exists_trimEnd r
      rw [ofLine?_of_colon hline hbefore]
      constructor
      · intro h
        split at h
        · exact absurd h (by simp)
        · rename_i word rest hrest
          have hword : IsFirstWord word r := by
            rw [hr, Text.isFirstWord_append hafter, Text.isFirstWord_iff]
            exact ⟨rest, hrest⟩
          exact .intro hline hbefore hword (ofWord_eq_exit_iff.mp (Option.some.inj h))
      · rintro ⟨hs, hbefore', hword, hexit⟩
        obtain ⟨-, rfl⟩ := eq_of_append_colon hbefore' hbefore hc (hs.symm.trans hline)
        rw [hr, Text.isFirstWord_append hafter, Text.isFirstWord_iff] at hword
        obtain ⟨rest, hrest⟩ := hword
        simp only [hrest, Option.some.injEq]
        exact ofWord_eq_exit_iff.mpr hexit
    · obtain ⟨word, hword⟩ := Text.exists_isFirstWord hc before r
      rw [← hline] at hword
      obtain ⟨topic, htopic⟩ := ofLine?_of_ne_colon hline hbefore hc hcolon hword
      constructor
      · intro h
        rw [htopic] at h
        split at h <;> exact absurd h (by simp)
      · rintro ⟨hs, hbefore', -⟩
        exact absurd (eq_of_append_colon hbefore' hbefore hc (hs.symm.trans hline)).1 hcolon

end Command

end Calculator
