import Calculator.Proofs.Numerals

/-!
# Slices of a text

`IsSlice l slice after` says, without a scanner, that the characters `slice` with the text `after`
behind them are the lexeme `l`: an operator, a comma or a parenthesis by itself, a numeral that no
digit or point follows, or a name that no character of a name follows, with the parenthesis that it
may open. `Lexeme.first?` finds exactly the slice at the start of a text.
-/

namespace Calculator.Lexeme

/-- The text does not go on with a character of the class. -/
def Stops (p : Char → Bool) (after : List Char) : Prop :=
  ∀ c, after.head? = some c → p c = false

/-- A run of characters that can be a name. -/
structure IsName (run : List Char) : Prop where
  ne_nil : run ≠ []
  chars : ∀ c ∈ run, isNameChar c = true
  head : Stops Numeral.isDigit run

/-- The slice of a lexeme and the text after it. -/
inductive IsSlice : Lexeme → List Char → List Char → Prop
  | operator {op : Operator} {c : Char} {after : List Char} (hc : op.symbol.toList = [c]) :
    IsSlice (.operator op) [c] after
  | comma {after : List Char} : IsSlice .comma [','] after
  | close {after : List Char} : IsSlice .close [')'] after
  | literal {run after : List Char} (hrun : Numeral.IsNumeral run)
      (hafter : Stops isLiteralChar after) :
    IsSlice (.literal ((Numeral.ofRun run).toFloat false)) run after
  | name {run after : List Char} (hrun : IsName run) (hafter : Stops isNameChar after)
      (hopen : after.head? ≠ some '(') : IsSlice (.name (String.ofList run)) run after
  | call {run after : List Char} (hrun : IsName run) :
    IsSlice (.call (String.ofList run)) (run ++ ['(']) after
  /-- A parenthesis that belongs to no name opens a group. -/
  | group {after : List Char} : IsSlice (.call "") ['('] after

section Stops

variable {p : Char → Bool} {run after : List Char}

lemma stops_nil : Stops p [] := by
  intro c hc
  exact absurd hc (by simp)

lemma stops_cons {c : Char} : Stops p (c :: after) ↔ p c = false := by
  simp [Stops]

lemma takeWhile_append (hrun : ∀ c ∈ run, p c = true) (hafter : Stops p after) :
    (run ++ after).takeWhile p = run := by
  rw [List.takeWhile_append_of_pos hrun]
  cases after with
  | nil => simp
  | cons c after => simp [stops_cons.mp hafter]

lemma dropWhile_append (hrun : ∀ c ∈ run, p c = true) (hafter : Stops p after) :
    (run ++ after).dropWhile p = after := by
  rw [List.dropWhile_append_of_pos hrun]
  cases after with
  | nil => rfl
  | cons c after => simp [stops_cons.mp hafter]

lemma exists_run (p : Char → Bool) (s : List Char) :
    ∃ run after, s = run ++ after ∧ (∀ c ∈ run, p c = true) ∧ Stops p after := by
  refine ⟨s.takeWhile p, s.dropWhile p, List.takeWhile_append_dropWhile.symm,
    List.all_eq_true.mp List.all_takeWhile, ?_⟩
  intro c hc
  have h := List.head?_dropWhile_not p s
  rwa [hc] at h

end Stops

/-- The characters of numerals and names, which a slice can have several of. -/
def isWordChar (c : Char) : Bool :=
  isLiteralChar c || isNameChar c

/-- A slice of the lexeme would not end before the character. -/
def goesOnWith : Lexeme → Char → Bool
  | .literal _, c => isLiteralChar c
  | .name _, c => isNameChar c || c == '('
  | _, _ => false

section classes

variable {c : Char}

lemma ofChar?_eq_some_iff {op : Operator} :
    Operator.ofChar? c = some op ↔ op.symbol.toList = [c] := by
  constructor
  · intro h
    unfold Operator.ofChar? at h
    split at h <;> cases h <;> rfl
  · intro h
    cases op <;> simp [Operator.symbol] at h <;> subst h <;> rfl

/-- The characters of operators, the comma, the point and the parentheses are not in names. -/
lemma isNameChar_of_contains
    (h : Unicode.Ranges.contains [(0x25, 0x25), (0x28, 0x2F), (0x5E, 0x5E)] c = true) :
    isNameChar c = false := by
  have ha := Unicode.Ranges.contains_eq_false (t := Unicode.alphanumericRanges)
    (by decide +kernel) h
  have hu : c ≠ '_' := by
    rintro rfl
    exact absurd h (by decide)
  simp [isNameChar, Unicode.isAlphanumeric, ha, hu]

lemma isWordChar_of_ofChar? {op : Operator} (h : Operator.ofChar? c = some op) :
    isWordChar c = false := by
  unfold Operator.ofChar? at h
  split at h
  case h_7 => exact absurd h (by simp)
  all_goals
    rw [isWordChar, isNameChar_of_contains (by decide)]
    rfl

lemma isLiteralChar_eq_false_of_isWhitespace (h : Unicode.isWhitespace c = true) :
    isLiteralChar c = false := by
  have hd := Unicode.Ranges.contains_eq_false
    (s := Unicode.whitespaceRanges) (t := [(0x2E, 0x2E), (0x30, 0x39)]) (by decide) h
  rw [Bool.eq_false_iff] at hd ⊢
  intro hl
  apply hd
  rw [Unicode.Ranges.contains_iff]
  simp only [isLiteralChar, Numeral.isDigit, Bool.or_eq_true, Bool.and_eq_true, decide_eq_true_eq,
    beq_iff_eq] at hl
  rcases hl with ⟨hlow, hhigh⟩ | rfl
  · exact ⟨(0x30, 0x39), by simp, hlow, hhigh⟩
  · exact ⟨(0x2E, 0x2E), by simp, by decide, by decide⟩

lemma goesOnWith_of_isWhitespace {l : Lexeme} (h : Unicode.isWhitespace c = true) :
    l.goesOnWith c = false := by
  have hliteral := isLiteralChar_eq_false_of_isWhitespace h
  have hname := isNameChar_eq_false_of_isWhitespace h
  cases l with
  | literal x => exact hliteral
  | name s =>
    have hopen : c ≠ '(' := by
      rintro rfl
      exact absurd h (by decide)
    simp only [goesOnWith, hname, beq_eq_false_iff_ne.mpr hopen, Bool.or_self]
  | _ => rfl

lemma isWhitespace_of_isLiteralChar (h : isLiteralChar c = true) :
    Unicode.isWhitespace c = false := by
  rw [Bool.eq_false_iff]
  intro hw
  exact absurd h (by rw [isLiteralChar_eq_false_of_isWhitespace hw]; simp)

lemma isWordChar_eq_false_of_isWhitespace (h : Unicode.isWhitespace c = true) :
    isWordChar c = false := by
  rw [isWordChar, isLiteralChar_eq_false_of_isWhitespace h, isNameChar_eq_false_of_isWhitespace h]
  rfl

lemma isWordChar_of_isLiteralChar (h : isLiteralChar c = true) : isWordChar c = true := by
  simp [isWordChar, h]

lemma isWordChar_of_isNameChar (h : isNameChar c = true) : isWordChar c = true := by
  simp [isWordChar, h]

/-- A character of a word is none of those that are a lexeme by themselves. -/
lemma of_isWordChar (h : isWordChar c = true) :
    Operator.ofChar? c = none ∧ c ≠ ',' ∧ c ≠ ')' ∧ c ≠ '(' := by
  refine ⟨?_, ?_, ?_, ?_⟩
  · cases ho : Operator.ofChar? c with
    | none => rfl
    | some op => exact absurd h (by rw [isWordChar_of_ofChar? ho]; simp)
  all_goals
    rintro rfl
    rw [isWordChar, isNameChar_of_contains (by decide)] at h
    exact absurd h (by decide)

lemma isNameChar_of_isDigit (h : Numeral.isDigit c = true) : isNameChar c = true := by
  have hrange : Unicode.isAlphanumeric c = true := by
    obtain ⟨hlow, hhigh⟩ := Bool.and_eq_true_iff.mp h
    apply Unicode.Ranges.contains_iff.mpr
    exact ⟨(0x30, 0x39), by decide, of_decide_eq_true hlow, of_decide_eq_true hhigh⟩
  simp only [isNameChar, hrange, Bool.true_or]

/-- Only a digit is a character of both kinds. -/
lemma isLiteralChar_eq_isDigit (h : isNameChar c = true) :
    isLiteralChar c = Numeral.isDigit c := by
  have hp : c ≠ '.' := by
    rintro rfl
    rw [isNameChar_of_contains (by decide)] at h
    exact absurd h (by decide)
  simp [isLiteralChar, hp]

end classes

section first?

variable {l : Lexeme} {c : Char} {r s slice after : List Char}

lemma IsName.cons_iff : IsName (c :: s) ↔
    isNameChar c = true ∧ Numeral.isDigit c = false ∧ ∀ d ∈ s, isNameChar d = true := by
  constructor
  · rintro ⟨-, hchars, hhead⟩
    obtain ⟨hc, hs⟩ := List.forall_mem_cons.mp hchars
    exact ⟨hc, stops_cons.mp hhead, hs⟩
  · rintro ⟨hc, hd, hs⟩
    exact ⟨by simp, List.forall_mem_cons.mpr ⟨hc, hs⟩, stops_cons.mpr hd⟩

lemma IsName.append {run w : List Char} (h : IsName run) (hw : ∀ c ∈ w, isNameChar c = true) :
    IsName (run ++ w) := by
  obtain ⟨c, s, rfl⟩ := List.exists_cons_of_ne_nil h.ne_nil
  obtain ⟨hc, hd, hs⟩ := IsName.cons_iff.mp h
  exact IsName.cons_iff.mpr ⟨hc, hd, List.forall_mem_append.mpr ⟨hs, hw⟩⟩

lemma first?_of_isLiteralChar (h : isLiteralChar c = true) :
    first? c r = (Numeral.literal? (c :: r.takeWhile isLiteralChar)).map fun x =>
      (.literal x, (r.takeWhile isLiteralChar).length) := by
  obtain ⟨ho, h1, h2, -⟩ := of_isWordChar (isWordChar_of_isLiteralChar h)
  simp [first?, ho, h1, h2, h]

lemma first?_of_isNameChar (h : isNameChar c = true) (hd : Numeral.isDigit c = false) :
    first? c r =
      let run := r.takeWhile isNameChar
      if (r.drop run.length).head? = some '(' then
        some (.call (String.ofList (c :: run)), run.length + 1)
      else some (.name (String.ofList (c :: run)), run.length) := by
  obtain ⟨ho, h1, h2, h3⟩ := of_isWordChar (isWordChar_of_isNameChar h)
  have hl : isLiteralChar c = false := by rw [isLiteralChar_eq_isDigit h, hd]
  simp [first?, ho, h1, h2, h3, hl, h]

/-- A slice at the start of a text is found. -/
theorem first?_of_isSlice (h : IsSlice l (c :: s) after) :
    first? c (s ++ after) = some (l, s.length) := by
  generalize hslice : c :: s = slice at h
  cases h with
  | operator hop =>
    obtain ⟨rfl, rfl⟩ := List.cons.inj hslice
    simp [first?, ofChar?_eq_some_iff.mpr hop]
  | comma =>
    obtain ⟨rfl, rfl⟩ := List.cons.inj hslice
    rfl
  | close =>
    obtain ⟨rfl, rfl⟩ := List.cons.inj hslice
    rfl
  | group =>
    obtain ⟨rfl, rfl⟩ := List.cons.inj hslice
    rfl
  | literal hrun hafter =>
    subst hslice
    obtain ⟨hc, hs⟩ := List.forall_mem_cons.mp hrun.chars
    rw [first?_of_isLiteralChar hc, takeWhile_append hs hafter,
      (Numeral.literal?_eq_some_iff hrun.chars).mpr ⟨hrun, rfl⟩]
    rfl
  | name hrun hafter hopen =>
    subst hslice
    obtain ⟨hc, hd, hs⟩ := IsName.cons_iff.mp hrun
    simp only [first?_of_isNameChar hc hd, takeWhile_append hs hafter, List.drop_left, hopen,
      if_false]
  | @call run _ hrun =>
    obtain ⟨run', rfl⟩ : ∃ run', run = c :: run' := by
      cases run with
      | nil => exact absurd rfl hrun.ne_nil
      | cons d run' => exact ⟨run', by rw [(List.cons.inj hslice).1]⟩
    obtain rfl : s = run' ++ ['('] := (List.cons.inj hslice).2
    obtain ⟨hc, hd, hs⟩ := IsName.cons_iff.mp hrun
    have hstop : Stops isNameChar ('(' :: after) :=
      stops_cons.mpr (isNameChar_of_contains (by decide))
    simp only [first?_of_isNameChar hc hd, List.append_assoc, List.singleton_append,
      takeWhile_append hs hstop, List.drop_left, List.head?_cons, if_true, List.length_append,
      List.length_singleton]

/-- What is found at the start of a text is a slice. -/
theorem isSlice_of_first? {more : Nat} (h : first? c r = some (l, more)) :
    ∃ s after, r = s ++ after ∧ s.length = more ∧ IsSlice l (c :: s) after := by
  cases ho : Operator.ofChar? c with
  | some op =>
    simp only [first?, ho, Option.some.injEq, Prod.mk.injEq] at h
    obtain ⟨rfl, rfl⟩ := h
    exact ⟨[], r, rfl, rfl, .operator (ofChar?_eq_some_iff.mp ho)⟩
  | none =>
    by_cases h1 : c = ','
    · subst h1
      obtain ⟨rfl, rfl⟩ := Prod.mk.inj (Option.some.inj h)
      exact ⟨[], r, rfl, rfl, .comma⟩
    by_cases h2 : c = ')'
    · subst h2
      obtain ⟨rfl, rfl⟩ := Prod.mk.inj (Option.some.inj h)
      exact ⟨[], r, rfl, rfl, .close⟩
    by_cases h3 : c = '('
    · subst h3
      obtain ⟨rfl, rfl⟩ := Prod.mk.inj (Option.some.inj h)
      exact ⟨[], r, rfl, rfl, .group⟩
    by_cases hl : isLiteralChar c = true
    · obtain ⟨run, after, rfl, hrun, hafter⟩ := exists_run isLiteralChar r
      rw [first?_of_isLiteralChar hl, takeWhile_append hrun hafter, Option.map_eq_some_iff] at h
      obtain ⟨x, hx, hpair⟩ := h
      obtain ⟨rfl, rfl⟩ := Prod.mk.inj hpair
      have hchars : ∀ d ∈ c :: run, isLiteralChar d = true := List.forall_mem_cons.mpr ⟨hl, hrun⟩
      obtain ⟨hnum, rfl⟩ := (Numeral.literal?_eq_some_iff hchars).mp hx
      exact ⟨run, after, rfl, rfl, .literal hnum hafter⟩
    by_cases hn : isNameChar c = true
    · obtain ⟨run, after, rfl, hrun, hafter⟩ := exists_run isNameChar r
      have hd : Numeral.isDigit c = false := by
        rw [← isLiteralChar_eq_isDigit hn]
        simpa using hl
      have hname : IsName (c :: run) := IsName.cons_iff.mpr ⟨hn, hd, hrun⟩
      simp only [first?_of_isNameChar hn hd, takeWhile_append hrun hafter, List.drop_left] at h
      by_cases hopen : after.head? = some '('
      · obtain ⟨after', rfl⟩ := List.head?_eq_some_iff.mp hopen
        rw [if_pos hopen] at h
        obtain ⟨rfl, rfl⟩ := Prod.mk.inj (Option.some.inj h)
        exact ⟨run ++ ['('], after', by simp, by simp, .call hname⟩
      · rw [if_neg hopen] at h
        obtain ⟨rfl, rfl⟩ := Prod.mk.inj (Option.some.inj h)
        exact ⟨run, after, rfl, rfl, .name hname hafter hopen⟩
    · simp [first?, ho, h1, h2, h3, hl, hn] at h

end first?

namespace IsSlice

variable {l : Lexeme} {slice after : List Char}

lemma ne_nil (h : IsSlice l slice after) : slice ≠ [] := by
  cases h with
  | literal hrun =>
    obtain ⟨c, hc, -⟩ := hrun.digit
    exact List.ne_nil_of_mem hc
  | name hrun => exact hrun.ne_nil
  | _ => simp

/-- A slice ends where it does because it would not go on. -/
lemma stops_goesOnWith (h : IsSlice l slice after) : Stops l.goesOnWith after := by
  cases h with
  | literal _ hafter => exact hafter
  | name _ hafter hopen =>
    intro c hc
    have hne : c ≠ '(' := by
      rintro rfl
      exact hopen hc
    simp only [goesOnWith, hafter c hc, beq_eq_false_iff_ne.mpr hne, Bool.or_self]
  | _ => exact fun _ _ => rfl

lemma before {after' : List Char} (h : IsSlice l slice after) (hstop : Stops l.goesOnWith after') :
    IsSlice l slice after' := by
  cases h with
  | operator hop => exact .operator hop
  | comma => exact .comma
  | close => exact .close
  | literal hrun _ => exact .literal hrun hstop
  | name hrun _ _ =>
    refine .name hrun ?_ ?_
    · intro c hc
      exact (Bool.or_eq_false_iff.mp (hstop c hc)).1
    · intro hc
      exact absurd (hstop '(' hc) (by simp [goesOnWith])
  | call hrun => exact .call hrun
  | group => exact .group

/-- Of the text after a slice only the first character matters. -/
lemma of_head {after' : List Char} (h : IsSlice l slice after)
    (hhead : ∀ c, after'.head? = some c → after.head? = some c) : IsSlice l slice after' :=
  h.before fun c hc => h.stops_goesOnWith c (hhead c hc)

lemma slice_eq_of_name {s : String} (h : IsSlice (.name s) slice after) :
    slice = s.toList := by
  generalize hl : Lexeme.name s = l at h
  cases h with
  | name _ _ _ => rw [Lexeme.name.inj hl, String.toList_ofList]
  | _ => exact absurd hl (by simp)

lemma isNumeral {c : Char} {s : List Char} (h : IsSlice l (c :: s) after)
    (hc : isLiteralChar c = true) : Numeral.IsNumeral (c :: s) := by
  have hfirst := first?_of_isSlice h
  rw [first?_of_isLiteralChar hc, Option.map_eq_some_iff] at hfirst
  obtain ⟨x, -, hpair⟩ := hfirst
  obtain rfl := (Prod.mk.inj hpair).1
  cases h with
  | literal hrun _ => exact hrun

lemma isWhitespace_eq_false (h : IsSlice l slice after) :
    ∀ c ∈ slice, Unicode.isWhitespace c = false := by
  have hword {c : Char} (hc : isWordChar c = true) : Unicode.isWhitespace c = false := by
    rw [Bool.eq_false_iff]
    intro hw
    exact absurd hc (by rw [isWordChar_eq_false_of_isWhitespace hw]; simp)
  cases h with
  | @operator op c _ hop =>
    intro d hd
    obtain rfl := List.mem_singleton.mp hd
    rw [← ofChar?_eq_some_iff] at hop
    unfold Operator.ofChar? at hop
    split at hop
    case h_7 => exact absurd hop (by simp)
    all_goals decide
  | literal hrun =>
    exact fun c hc => hword (isWordChar_of_isLiteralChar (hrun.chars c hc))
  | name hrun => exact fun c hc => hword (isWordChar_of_isNameChar (hrun.chars c hc))
  | call hrun =>
    intro c hc
    rcases List.mem_append.mp hc with hc | hc
    · exact hword (isWordChar_of_isNameChar (hrun.chars c hc))
    · obtain rfl := List.mem_singleton.mp hc
      decide
  | _ =>
    intro c hc
    obtain rfl := List.mem_singleton.mp hc
    decide

/-- Two characters that follow each other inside of a slice are characters of a word, or the second
one is the parenthesis of a call. -/
lemma adjacent {x y : List Char} {a b : Char} (h : IsSlice l (x ++ a :: b :: y) after) :
    isWordChar a = true ∧ (isWordChar b = true ∨ b = '(') := by
  generalize hslice : x ++ a :: b :: y = slice at h
  have hsingle (c : Char) (hc : x ++ a :: b :: y = [c]) : False := by
    have := congrArg List.length hc
    simp only [List.length_append, List.length_cons, List.length_nil] at this
    omega
  cases h with
  | operator | comma | close | group => exact (hsingle _ hslice).elim
  | literal hrun =>
    subst hslice
    exact ⟨isWordChar_of_isLiteralChar (hrun.chars a (by simp)),
      .inl (isWordChar_of_isLiteralChar (hrun.chars b (by simp)))⟩
  | name hrun =>
    subst hslice
    exact ⟨isWordChar_of_isNameChar (hrun.chars a (by simp)),
      .inl (isWordChar_of_isNameChar (hrun.chars b (by simp)))⟩
  | @call run _ hrun =>
    -- Without its last character the slice is a name, and `a` is not the last one.
    have hrun' : run = x ++ a :: (b :: y).dropLast := by
      have hlast := congrArg List.dropLast hslice
      rw [List.dropLast_concat, List.dropLast_append_of_ne_nil (by simp)] at hlast
      rw [← hlast]
      rfl
    refine ⟨isWordChar_of_isNameChar (hrun.chars a (by rw [hrun']; simp)), ?_⟩
    have hb : b ∈ run ++ ['('] := by
      rw [← hslice]
      simp
    rcases List.mem_append.mp hb with hb | hb
    · exact .inl (isWordChar_of_isNameChar (hrun.chars b hb))
    · exact .inr (List.mem_singleton.mp hb)

/-- At the start of a text there is at most one slice. -/
theorem unique {l' : Lexeme} {slice' after' : List Char} (h : IsSlice l slice after)
    (h' : IsSlice l' slice' after') (heq : slice ++ after = slice' ++ after') :
    l = l' ∧ slice = slice' ∧ after = after' := by
  obtain ⟨c, s, rfl⟩ := List.exists_cons_of_ne_nil h.ne_nil
  obtain ⟨c', s', rfl⟩ := List.exists_cons_of_ne_nil h'.ne_nil
  rw [List.cons_append, List.cons_append, List.cons.injEq] at heq
  obtain ⟨rfl, heq⟩ := heq
  have hfirst := first?_of_isSlice h
  rw [heq, first?_of_isSlice h'] at hfirst
  obtain ⟨rfl, hlen⟩ := Prod.mk.inj (Option.some.inj hfirst)
  obtain ⟨rfl, rfl⟩ := List.append_inj heq hlen.symm
  exact ⟨rfl, rfl, rfl⟩

end IsSlice

end Calculator.Lexeme
