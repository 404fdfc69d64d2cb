import Calculator.Evaluation.Words
import Calculator.Proofs.Positions

/-!
# Texts in pieces

A text may be read in pieces that are scanned one by one. Where no cut is strictly inside of a
slice, the pieces have the tokens of the text, up to their positions (`scanFrom_join`), so from
every state that can be reached the pieces and the text lead to the same state, or fail alike at the
same token (`ReadAlike`).
-/

namespace Calculator

open Lexeme (IsSlice Stops isWordChar isLiteralChar)

/-- Where the slices of a row of pieces begin and end, with `position` characters before it. -/
def Piece.spans (position : Nat) : List Piece → List (Nat × Nat)
  | [] => []
  | p :: ps =>
    (position + p.blanks.length, position + p.chars.length) :: spans (position + p.chars.length) ps

namespace Decomposition

/-- The digits and points that a rest begins with are taken together, so they are one slice. -/
def spans (position : Nat) (d : Decomposition) : List (Nat × Nat) :=
  let start : Nat := position + d.charsBefore.length
  Piece.spans position d.pieces ++ [(start, start + (d.rest.takeWhile isLiteralChar).length)]

lemma spans_prepend (position : Nat) (p : Piece) (d : Decomposition) :
    (d.prepend p).spans position = (position + p.blanks.length, position + p.chars.length) ::
      d.spans (position + p.chars.length) := by
  simp only [spans, prepend, charsBefore, Piece.spans, List.flatMap_cons, List.length_append,
    List.cons_append, Nat.add_assoc]

end Decomposition

/-- The first `n` characters of a text end strictly inside of a slice. -/
def EndsInside (text : String) (n : Nat) : Prop :=
  ∃ d, Decomposes text.toList d ∧ ∃ s ∈ d.spans 0, s.1 < n ∧ n < s.2

namespace Token

/-- The tokens up to the first invalid one. -/
def uptoInvalid : List Token → List Token
  | [] => []
  | t :: ts => t :: if t.lexeme.isInvalid then [] else uptoInvalid ts

/-- The tokens of each text of a list, with the number of characters that stand before the text;
`gap` more characters stand between two texts. -/
def scanEach (gap offset : Nat) : List String → List (Int × Token)
  | [] => []
  | w :: ws => (scan w).map ((offset : Int), ·) ++ scanEach gap (offset + w.length + gap) ws

/-- Tokens with the number of characters before their text, as they stand in the whole text. -/
def inWhole (l : List (Int × Token)) : List Token :=
  l.map fun p => p.2.moved p.1

section uptoInvalid

variable {ts us : List Token} {position : Nat} {s : List Char}

lemma uptoInvalid_append_of_any (h : ts.any (·.lexeme.isInvalid) = true) :
    uptoInvalid (ts ++ us) = uptoInvalid ts := by
  induction ts with
  | nil => exact absurd h (by simp)
  | cons t ts ih =>
    by_cases ht : t.lexeme.isInvalid = true
    · simp only [List.cons_append, uptoInvalid, ht, if_true]
    · rw [List.cons_append, uptoInvalid, uptoInvalid, if_neg ht, if_neg ht,
        ih (by simpa [ht] using h)]

lemma uptoInvalid_append_of_not_any (h : ts.any (·.lexeme.isInvalid) = false) :
    uptoInvalid (ts ++ us) = ts ++ uptoInvalid us := by
  induction ts with
  | nil => rfl
  | cons t ts ih =>
    rw [List.any_cons, Bool.or_eq_false_iff] at h
    simp only [List.cons_append, uptoInvalid, h.1, Bool.false_eq_true, if_false, ih h.2]

lemma uptoInvalid_scanFrom : uptoInvalid (scanFrom position s) = scanFrom position s := by
  obtain ⟨d, hd⟩ := Decomposes.exists_of s
  induction hd generalizing position with
  | @stop blanks rest hblanks hstop hrest =>
    rw [scanFrom_blanks hblanks]
    cases rest with
    | nil => simp [uptoInvalid]
    | cons c r =>
      rw [scanFrom_rest hstop hrest]
      rfl
  | piece hblanks hslice _ ih =>
    rw [scanFrom_piece hblanks hslice, uptoInvalid, hslice.isInvalid_eq_false, if_neg (by simp), ih]

end uptoInvalid

end Token

/-- A slice is not cut where nothing that could be inside of one stands on both sides. -/
def Apart (a b : List Char) : Prop :=
  ∀ x y, a.getLast? = some x → b.head? = some y →
    ¬(isWordChar x = true ∧ (isWordChar y = true ∨ y = '('))

/-- Of two ways to cut a text, the longer first part goes on after the shorter one. -/
lemma exists_of_append_eq {a b c d : List Char} (h : a ++ b = c ++ d) (hlen : c.length ≤ a.length) :
    ∃ u, a = c ++ u ∧ d = u ++ b := by
  have hinit : c <+: a ++ b := by
    rw [h]
    exact List.prefix_append c d
  obtain ⟨u, rfl⟩ := List.prefix_of_prefix_length_le hinit (List.prefix_append a b) hlen
  rw [List.append_assoc] at h
  exact ⟨u, rfl, (List.append_cancel_left h).symm⟩

namespace Lexeme

variable {c : Char} {r r' : List Char}

/-- Whether a lexeme begins a text is decided by its first character and the digits and points that
it begins with. -/
lemma first?_eq_none_congr (h : first? c r = none)
    (hrun : (c :: r').takeWhile isLiteralChar = (c :: r).takeWhile isLiteralChar) :
    first? c r' = none := by
  by_cases hl : isLiteralChar c = true
  · rw [List.takeWhile_cons_of_pos hl, List.takeWhile_cons_of_pos hl, List.cons.injEq] at hrun
    rw [first?_of_isLiteralChar hl] at h ⊢
    rwa [hrun.2]
  by_cases hn : isNameChar c = true
  · have hd : Numeral.isDigit c = false := by
      rw [← isLiteralChar_eq_isDigit hn]
      simpa using hl
    simp only [first?_of_isNameChar hn hd] at h
    split at h <;> exact absurd h (by simp)
  · cases ho : Operator.ofChar? c with
    | some op => simp [first?, ho] at h
    | none => simpa [first?, ho, hl, hn] using h

lemma takeWhile_prefix {p : Char → Bool} {a b : List Char}
    (h : ((a ++ b).takeWhile p).length ≤ a.length) : a.takeWhile p = (a ++ b).takeWhile p := by
  obtain ⟨run, after, rfl, hrun, hafter⟩ := exists_run p a
  rw [takeWhile_append hrun hafter]
  rw [List.append_assoc] at h ⊢
  cases after with
  | nil =>
    rw [List.nil_append, List.append_nil, List.takeWhile_append_of_pos hrun,
      List.length_append] at h
    have hnil : b.takeWhile p = [] := List.length_eq_zero_iff.mp (by omega)
    rw [List.nil_append, List.takeWhile_append_of_pos hrun, hnil, List.append_nil]
  | cons c after =>
    rw [List.cons_append, takeWhile_append hrun (stops_cons.mpr (stops_cons.mp hafter))]

end Lexeme

namespace Decomposes

variable {a b text : List Char} {d : Decomposition} {n : Nat}

lemma pad {blanks : List Char} (hblanks : ∀ c ∈ blanks, Unicode.isWhitespace c = true)
    (h : Decomposes b d) : ∃ d', Decomposes (blanks ++ b) d' ∧
      ∀ n, d'.spans n = d.spans (n + blanks.length) := by
  cases h with
  | @stop blanks' rest hblanks' hstop hrest =>
    have hall : ∀ c ∈ blanks ++ blanks', Unicode.isWhitespace c = true := fun c hc =>
      (List.mem_append.mp hc).elim (hblanks c) (hblanks' c)
    refine ⟨_, by rw [← List.append_assoc]; exact .stop hall hstop hrest, fun n => ?_⟩
    simp [Decomposition.spans, Decomposition.charsBefore, Piece.spans, Nat.add_assoc]
  | @piece p text d hblanks' hslice h =>
    have hall : ∀ c ∈ blanks ++ p.blanks, Unicode.isWhitespace c = true := fun c hc =>
      (List.mem_append.mp hc).elim (hblanks c) (hblanks' c)
    have hd := Decomposes.piece (p := ⟨blanks ++ p.blanks, p.slice, p.lexeme⟩) hall hslice h
    refine ⟨_, by simpa only [Piece.chars, List.append_assoc] using hd, fun n => ?_⟩
    simp [Decomposition.spans_prepend, Piece.chars, Nat.add_assoc]

/-- A first part without a token leaves all slices to the second one. -/
lemma split_blanks (h : Decomposes (a ++ b) d) (ha : ∀ c ∈ a, Unicode.isWhitespace c = true) :
    (Token.scanFrom n a).any (·.lexeme.isInvalid) = false ∧
      Token.scanFrom n (a ++ b) = Token.scanFrom n a ++ Token.scanFrom (n + a.length) b ∧
      ∀ d', Decomposes b d' → ∀ s ∈ d'.spans (n + a.length), s ∈ d.spans n := by
  have hnone : Token.scanFrom n a = [] := by
    rw [← List.append_nil a, Token.scanFrom_blanks ha, Token.scanFrom_nil]
  refine ⟨by rw [hnone]; rfl, by rw [hnone, Token.scanFrom_blanks ha]; rfl, fun d' hd' s hs => ?_⟩
  obtain ⟨e, he, hspans⟩ := hd'.pad ha
  rwa [h.eq he, hspans]

lemma isWhitespace_of_append_eq {blanks s : List Char}
    (hblanks : ∀ c ∈ blanks, Unicode.isWhitespace c = true) (h : blanks ++ s = a ++ b)
    (hlen : a.length ≤ blanks.length) : ∀ c ∈ a, Unicode.isWhitespace c = true := by
  obtain ⟨u, rfl, -⟩ := exists_of_append_eq h hlen
  intro c hc
  exact hblanks c (List.mem_append_left u hc)

/-- A prefix of a rest that does not cut its run of digits and points is a rest itself. -/
lemma noSlice_prefix {c : Char} {x : List Char} (h : Lexeme.NoSlice (c :: (x ++ b)))
    (hlen : ((c :: (x ++ b)).takeWhile isLiteralChar).length ≤ x.length + 1) :
    Lexeme.NoSlice (c :: x) := by
  rw [Lexeme.noSlice_cons_iff] at h ⊢
  exact Lexeme.first?_eq_none_congr h (Lexeme.takeWhile_prefix (a := c :: x) hlen)

/-- A first part that goes beyond the run in the rest has the invalid token of the text. -/
lemma scanFrom_rest_append {blanks x : List Char} {c : Char}
    (hblanks : ∀ c ∈ blanks, Unicode.isWhitespace c = true)
    (hstop : Stops Unicode.isWhitespace (c :: (x ++ b))) (hrest : Lexeme.NoSlice (c :: (x ++ b)))
    (hlen : ((c :: (x ++ b)).takeWhile isLiteralChar).length ≤ x.length + 1) :
    (Token.scanFrom n (blanks ++ c :: x)).any (·.lexeme.isInvalid) = true ∧
      Token.scanFrom n (blanks ++ c :: (x ++ b)) = Token.scanFrom n (blanks ++ c :: x) := by
  have hnone := noSlice_prefix hrest hlen
  have hstop' : Stops Unicode.isWhitespace (c :: x) :=
    Lexeme.stops_cons.mpr (Lexeme.stops_cons.mp hstop)
  rw [Token.scanFrom_blanks hblanks, Token.scanFrom_blanks hblanks,
    Token.scanFrom_rest hstop' hnone, Token.scanFrom_rest hstop hrest]
  exact ⟨rfl, rfl⟩

/-- A text that is cut at no slice: its first part has the first tokens, and either one of them is
invalid and the last, or the second part has all others and its slices are slices of the text. -/
theorem split (h : Decomposes (a ++ b) d)
    (hcut : ∀ s ∈ d.spans n, ¬(s.1 < n + a.length ∧ n + a.length < s.2)) :
    ((Token.scanFrom n a).any (·.lexeme.isInvalid) = true ∧
      Token.scanFrom n (a ++ b) = Token.scanFrom n a) ∨
    ((Token.scanFrom n a).any (·.lexeme.isInvalid) = false ∧
      Token.scanFrom n (a ++ b) = Token.scanFrom n a ++ Token.scanFrom (n + a.length) b ∧
      ∀ d', Decomposes b d' → ∀ s ∈ d'.spans (n + a.length), s ∈ d.spans n) := by
  generalize htext : a ++ b = text at h
  induction h generalizing a n with
  | @stop blanks rest hblanks hstop hrest =>
    have hd : Decomposes (a ++ b) ⟨[], blanks, rest⟩ := htext ▸ .stop hblanks hstop hrest
    by_cases hlen : a.length ≤ blanks.length
    · rw [← htext]
      exact .inr (hd.split_blanks (isWhitespace_of_append_eq hblanks htext.symm hlen))
    · obtain ⟨x, rfl, rfl⟩ := exists_of_append_eq htext (by omega)
      cases x with
      | nil => exact absurd hlen (by simp)
      | cons c x =>
        rw [List.cons_append] at hstop hrest
        have hend := hcut _ (List.mem_append_right _ (List.mem_singleton.mpr rfl))
        simp only [Decomposition.charsBefore, List.flatMap_nil, List.nil_append, List.length_append,
          List.length_cons, List.cons_append] at hend
        exact .inl (scanFrom_rest_append hblanks hstop hrest (by omega))
  | @piece p text d hblanks hslice htail ih =>
    by_cases hlen : p.chars.length ≤ a.length
    · obtain ⟨a', rfl, rfl⟩ := exists_of_append_eq htext hlen
      have hslice' : IsSlice p.lexeme p.slice a' := hslice.of_head fun c hc => by
        obtain ⟨a'', rfl⟩ := List.head?_eq_some_iff.mp hc
        rfl
      have hinvalid := hslice.isInvalid_eq_false
      rw [Decomposition.spans_prepend, List.length_append, ← Nat.add_assoc] at hcut
      rw [Decomposition.spans_prepend, List.length_append, ← Nat.add_assoc,
        Token.scanFrom_piece hblanks hslice, Token.scanFrom_piece hblanks hslice', List.any_cons,
        hinvalid, Bool.false_or]
      rcases ih (List.forall_mem_cons.mp hcut).2 rfl with ⟨hany, heq⟩ | ⟨hany, heq, hspans⟩
      · exact .inl ⟨hany, by rw [heq]⟩
      · exact .inr ⟨hany, by rw [heq, List.cons_append],
          fun d' hd' s hs => List.mem_cons_of_mem _ (hspans d' hd' s hs)⟩
    · have hd : Decomposes (a ++ b) (d.prepend p) := htext ▸ .piece hblanks hslice htail
      have hshort : a.length ≤ p.blanks.length := by
        have hfirst := hcut (n + p.blanks.length, n + p.chars.length)
          (by rw [Decomposition.spans_prepend]; exact List.mem_cons_self)
        simp only at hfirst
        omega
      have hinit : p.blanks ++ (p.slice ++ text) = a ++ b := by
        rw [htext, Piece.chars, List.append_assoc]
      rw [← htext]
      exact .inr (hd.split_blanks (isWhitespace_of_append_eq hblanks hinit hshort))

/-- What a slice of a text is: the characters of a lexeme, or digits and points. -/
lemma exists_of_mem_spans {s : Nat × Nat} (h : Decomposes text d) (hs : s ∈ d.spans n) :
    ∃ before slice after, text = before ++ slice ++ after ∧ s.1 = n + before.length ∧
      s.2 = n + before.length + slice.length ∧
      ((∃ l, IsSlice l slice after) ∨ ∀ c ∈ slice, isLiteralChar c = true) := by
  induction h generalizing n with
  | @stop blanks rest hblanks hstop hrest =>
    simp only [Decomposition.spans, Piece.spans, Decomposition.charsBefore, List.flatMap_nil,
      List.nil_append, List.mem_singleton] at hs
    refine ⟨blanks, rest.takeWhile isLiteralChar, rest.dropWhile isLiteralChar, ?_, ?_, ?_, .inr ?_⟩
    · rw [List.append_assoc, List.takeWhile_append_dropWhile]
    · rw [hs]
    · rw [hs]
    · exact List.all_eq_true.mp List.all_takeWhile
  | @piece p text d hblanks hslice _ ih =>
    rw [Decomposition.spans_prepend] at hs
    rcases List.mem_cons.mp hs with rfl | hs
    · refine ⟨p.blanks, p.slice, text, rfl, rfl, ?_, .inl ⟨p.lexeme, hslice⟩⟩
      simp only [Piece.chars, List.length_append]
      omega
    · obtain ⟨before, slice, after, rfl, hstart, hend, hkind⟩ := ih hs
      refine ⟨p.chars ++ before, slice, after, by simp only [List.append_assoc], ?_, ?_, hkind⟩
      · rw [hstart, List.length_append, Nat.add_assoc]
      · rw [hend, List.length_append]
        omega

lemma not_inside_of_apart (h : Decomposes (a ++ b) d) (hab : Apart a b) :
    ∀ s ∈ d.spans n, ¬(s.1 < n + a.length ∧ n + a.length < s.2) := by
  rintro s hs ⟨hstart, hend⟩
  obtain ⟨before, slice, after, htext, h1, h2, hkind⟩ := h.exists_of_mem_spans hs
  rw [List.append_assoc] at htext
  -- The slice is `u ++ v` with the cut between the two parts.
  obtain ⟨u, rfl, hu⟩ := exists_of_append_eq htext (by omega)
  rw [List.length_append] at hstart hend
  obtain ⟨v, rfl, rfl⟩ := exists_of_append_eq hu (by omega)
  rw [List.length_append] at h2
  obtain ⟨y, v, rfl⟩ := List.exists_cons_of_ne_nil (l := v) (by rintro rfl; simp at h2; omega)
  rcases List.eq_nil_or_concat u with rfl | ⟨u, x, rfl⟩
  · simp at hstart
    omega
  · apply hab x y (by simp) rfl
    rcases hkind with ⟨l, hl⟩ | hall
    · rw [List.concat_eq_append, List.append_assoc, List.singleton_append] at hl
      exact hl.adjacent
    · exact ⟨Lexeme.isWordChar_of_isLiteralChar (hall x (by simp)),
        .inl (Lexeme.isWordChar_of_isLiteralChar (hall y (by simp)))⟩

end Decomposes

namespace Token

variable {n : Nat} {w : String} {ws : List String}

lemma inWhole_scanEach_cons {gap : Nat} : inWhole (scanEach gap n (w :: ws)) =
    scanFrom n w.toList ++ inWhole (scanEach gap (n + w.length + gap) ws) := by
  rw [scanFrom_eq_map, inWhole, scanEach, List.map_append, List.map_map]
  rfl

lemma scanFrom_join {pieces : List String} (hcut : ∀ d, Decomposes (String.join pieces).toList d →
      ∀ done left, pieces = done ++ left → ∀ s ∈ d.spans n,
        ¬(s.1 < n + (String.join done).length ∧ n + (String.join done).length < s.2)) :
    scanFrom n (String.join pieces).toList = uptoInvalid (inWhole (scanEach 0 n pieces)) := by
  induction pieces generalizing n with
  | nil =>
    rw [String.toList_join, List.flatMap_nil, scanFrom_nil]
    rfl
  | cons w ws ih =>
    obtain ⟨d, hd⟩ := Decomposes.exists_of (String.join (w :: ws)).toList
    have hcut' := hcut d hd
    have hfirst : ∀ s ∈ d.spans n, ¬(s.1 < n + w.toList.length ∧ n + w.toList.length < s.2) := by
      have h := hcut' [w] ws rfl
      rwa [String.join_cons, String.join_nil, String.append_empty, ← String.length_toList] at h
    rw [String.join_cons, String.toList_append] at hd ⊢
    rw [inWhole_scanEach_cons]
    rcases hd.split hfirst with ⟨hany, heq⟩ | ⟨hany, heq, hspans⟩
    · rw [heq, uptoInvalid_append_of_any hany, uptoInvalid_scanFrom]
    · rw [String.length_toList] at heq hspans
      rw [heq, uptoInvalid_append_of_not_any hany, ih]
      · rfl
      · intro d' hd' done left hws s hs
        have h := hcut' (w :: done) left (by rw [hws]; rfl) s (hspans d' hd' s hs)
        rwa [String.join_cons, String.length_append, ← Nat.add_assoc] at h

lemma scanFrom_append {a b : List Char} (hab : Apart a b) :
    scanFrom n (a ++ b) = uptoInvalid (scanFrom n a ++ scanFrom (n + a.length) b) := by
  obtain ⟨d, hd⟩ := Decomposes.exists_of (a ++ b)
  rcases hd.split (hd.not_inside_of_apart hab) with ⟨hany, heq⟩ | ⟨hany, heq, -⟩
  · rw [heq, uptoInvalid_append_of_any hany, uptoInvalid_scanFrom]
  · rw [heq, uptoInvalid_append_of_not_any hany, uptoInvalid_scanFrom]

lemma uptoInvalid_append_uptoInvalid (ts us : List Token) :
    uptoInvalid (ts ++ uptoInvalid us) = uptoInvalid (ts ++ us) := by
  have hidem (us : List Token) : uptoInvalid (uptoInvalid us) = uptoInvalid us := by
    induction us with
    | nil => rfl
    | cons u us ih =>
      by_cases hu : u.lexeme.isInvalid = true
      · simp [uptoInvalid, hu]
      · simp [uptoInvalid, hu, ih]
  cases h : ts.any (·.lexeme.isInvalid) with
  | true => rw [uptoInvalid_append_of_any h, uptoInvalid_append_of_any h]
  | false => rw [uptoInvalid_append_of_not_any h, uptoInvalid_append_of_not_any h, hidem]

end Token

lemma not_endsInside_of_apart {done left : List String}
    (hab : Apart (String.join done).toList (String.join left).toList) :
    ¬EndsInside (String.join (done ++ left)) (String.join done).length := by
  rintro ⟨d, hd, s, hs, hstart, hend⟩
  rw [String.join_append, String.toList_append] at hd
  refine hd.not_inside_of_apart (n := 0) hab s hs ?_
  rw [String.length_toList, Nat.zero_add]
  exact ⟨hstart, hend⟩

namespace Evaluation

open Token (uptoInvalid scanEach inWhole)

/-- Reading the tokens `l` of several texts fails at one of them with `f`, and reading the tokens
`whole` of all texts together fails at the same token with `g`, from the same state. The failures
are about the token and differ by the number of characters before its text, unless a function raises
them. -/
inductive FailsAlike (scope : Scope) (e : Evaluation) (l : List (Int × Token)) (whole : List Token)
    (f g : Failure) : Prop
  | intro {before after : List (Int × Token)} {rest : List Token} {n : Int} {t : Token}
      {d : Evaluation} (hl : l = before ++ (n, t) :: after)
      (hwhole : whole = inWhole before ++ t.moved n :: rest)
      (hbefore : (e.readAll scope (before.map (·.2))).outcome = .ok d)
      (hbefore' : (e.readAll scope (inWhole before)).outcome = .ok d)
      (hf : (d.read scope t).outcome = .error f)
      (hg : (d.read scope (t.moved n)).outcome = .error g)
      (hfg : f.IsAt t ∧ g = f.moved n ∨ Raises scope d t f ∧ g = f)

/-- What is read in pieces and what is read as a whole end in the same state, or fail alike. -/
inductive ReadAlike (scope : Scope) (e : Evaluation) (l : List (Int × Token))
    (whole : List Token) : Except Failure Evaluation → Except Failure Evaluation → Prop
  | ok (d : Evaluation) : ReadAlike scope e l whole (.ok d) (.ok d)
  | error {f g : Failure} (h : FailsAlike scope e l whole f g) :
    ReadAlike scope e l whole (.error f) (.error g)

variable {scope : Scope} {e d : Evaluation} {ts whole : List Token} {l : List (Int × Token)}
  {n : Int} {t : Token} {f g : Failure}

lemma FailsAlike.head (l : List (Int × Token)) (whole : List Token)
    (hf : (e.read scope t).outcome = .error f) (hg : (e.read scope (t.moved n)).outcome = .error g)
    (hfg : f.IsAt t ∧ g = f.moved n ∨ Raises scope e t f ∧ g = f) :
    FailsAlike scope e ((n, t) :: l) (t.moved n :: whole) f g :=
  .intro (d := e) (List.nil_append ((n, t) :: l)).symm rfl rfl rfl hf hg hfg

lemma FailsAlike.cons (hd : (e.read scope t).outcome = .ok d)
    (hd' : (e.read scope (t.moved n)).outcome = .ok d) (h : FailsAlike scope d l whole f g) :
    FailsAlike scope e ((n, t) :: l) (t.moved n :: whole) f g := by
  cases h with
  | @intro before after rest k u d' hl hwhole hbefore hbefore' hf hg hfg =>
    have hl' : (n, t) :: l = ((n, t) :: before) ++ (k, u) :: after := by rw [hl, List.cons_append]
    have hwhole' : t.moved n :: whole = inWhole ((n, t) :: before) ++ u.moved k :: rest := by
      rw [hwhole]
      rfl
    refine .intro hl' hwhole' ?_ ?_ hf hg hfg
    · rw [List.map_cons, readAll_cons, Traced.outcome_bind, hd, ok_bind, hbefore]
    · change (e.read scope (t.moved n) >>= readAll scope (inWhole before)).outcome = _
      rw [Traced.outcome_bind, hd', ok_bind, hbefore']

lemma FailsAlike.sameCause (h : FailsAlike scope e l whole f g) : f.SameCause g := by
  obtain ⟨-, -, -, -, -, -, ⟨-, rfl⟩ | ⟨-, rfl⟩⟩ := h
  · exact ⟨_, rfl⟩
  · exact .rfl

lemma exists_error_of_isInvalid (e : Evaluation) (scope : Scope) (h : t.lexeme.isInvalid = true) :
    ∃ f, (e.read scope t).outcome = .error f := by
  obtain ⟨position, hl⟩ : ∃ position, t.lexeme = .invalid position := by
    cases hl : t.lexeme with
    | invalid position => exact ⟨position, rfl⟩
    | _ => simp [hl, Lexeme.isInvalid] at h
  cases hp : e.phase with
  | finished => exact ⟨_, outcome_read_of_finished hp⟩
  | expectValue =>
    rw [outcome_read_of_expectValue hp]
    exact ⟨.invalidToken position, by simp [readValue, hl]⟩
  | expectOperator =>
    rw [outcome_read_of_expectOperator hp]
    exact ⟨.invalidToken position, by simp [readOperator, hl]⟩

/-- Each text has its own scanner, and the tokens of all of them are read in a row. -/
lemma readWords_eq_readAll (gap offset : Nat) (ws : List String) :
    e.readWords scope ws = e.readAll scope ((scanEach gap offset ws).map (·.2)) := by
  induction ws generalizing e offset with
  | nil => rfl
  | cons w ws ih =>
    have hmap : (scanEach gap offset (w :: ws)).map (·.2) =
        Token.scan w ++ (scanEach gap (offset + w.length + gap) ws).map (·.2) := by
      rw [scanEach, List.map_append, List.map_map]
      congr 1
      exact List.map_id _
    rw [hmap, readAll_append, readWords, readText]
    congr 1
    funext d
    exact ih _

/-- Tokens of pieces and the same tokens in the whole text are read alike. -/
theorem Accounted.readAlike (h : e.Accounted ts) (scope : Scope) (l : List (Int × Token)) :
    ReadAlike scope e l (uptoInvalid (inWhole l)) (e.readAll scope (l.map (·.2))).outcome
      (e.readAll scope (uptoInvalid (inWhole l))).outcome := by
  induction l generalizing e ts with
  | nil => exact .ok e
  | cons p l ih =>
    obtain ⟨n, t⟩ := p
    have hwhole : uptoInvalid (inWhole ((n, t) :: l)) = t.moved n ::
        if (t.moved n).lexeme.isInvalid then [] else uptoInvalid (inWhole l) := rfl
    rw [hwhole, List.map_cons, readAll_cons, readAll_cons, Traced.outcome_bind,
      Traced.outcome_bind]
    cases ht : (e.read scope t).outcome with
    | error f =>
      rcases h.error_moved ht n with ⟨hat, hg⟩ | ⟨hraises, hg⟩
      · rw [hg, error_bind, error_bind]
        exact .error (.head _ _ ht hg (.inl ⟨hat, rfl⟩))
      · rw [hg, error_bind, error_bind]
        exact .error (.head _ _ ht hg (.inr ⟨hraises, rfl⟩))
    | ok d =>
      have hmoved : (e.read scope (t.moved n)).outcome = .ok d := h.read_moved ht
      have hvalid : (t.moved n).lexeme.isInvalid = false := by
        rw [Bool.eq_false_iff]
        intro hi
        obtain ⟨f, hf⟩ := exists_error_of_isInvalid e scope hi
        exact absurd (hmoved.symm.trans hf) (by simp)
      rw [hmoved, hvalid, ok_bind, ok_bind, if_neg (by simp)]
      have hrest := ih (h.read ht).1
      generalize (d.readAll scope (l.map (·.2))).outcome = x at hrest ⊢
      generalize (d.readAll scope (uptoInvalid (inWhole l))).outcome = y at hrest ⊢
      cases hrest with
      | ok d' => exact .ok d'
      | error hfails => exact .error (hfails.cons ht hmoved)

/-- A text that is cut at no slice is read alike in pieces and at once, from every state that can be
reached. Its tokens are those of the pieces up to the first invalid one, each moved by the number of
characters before its piece. -/
theorem Reachable.readWords_join {pieces : List String} (h : e.Reachable ts)
    (hcut : ∀ done left, pieces = done ++ left →
      ¬EndsInside (String.join pieces) (String.join done).length) (scope : Scope) :
    Token.scan (String.join pieces) = uptoInvalid (inWhole (scanEach 0 0 pieces)) ∧
      ReadAlike scope e (scanEach 0 0 pieces) (Token.scan (String.join pieces))
        (e.readWords scope pieces).outcome (e.readText scope (String.join pieces)).outcome := by
  have hscan : Token.scan (String.join pieces) = uptoInvalid (inWhole (scanEach 0 0 pieces)) := by
    refine Token.scanFrom_join fun d hd done left hpieces s hs hinside => ?_
    rw [Nat.zero_add] at hinside
    exact hcut done left hpieces ⟨d, hd, s, hs, hinside⟩
  refine ⟨hscan, ?_⟩
  rw [Evaluation.readText, hscan, readWords_eq_readAll 0 0]
  exact h.accounted.readAlike scope (scanEach 0 0 pieces)

/-- Two pieces behind an open call; the second one has an invalid token. -/
theorem readWords_join_open_call :
    ∃ (scope : Scope) (e : Evaluation),
      e.Reachable [⟨.literal 3, 0⟩, ⟨.call "F", 1⟩] ∧ e.phase ≠ .finished ∧
      e.calls.map (·.name) = ["f", "imul"] ∧
      (∀ done left, ["2, -x", " y) $"] = done ++ left →
        ¬EndsInside (String.join ["2, -x", " y) $"]) (String.join done).length) ∧
      ReadAlike scope e (scanEach 0 0 ["2, -x", " y) $"])
        (Token.scan (String.join ["2, -x", " y) $"])) (e.readWords scope ["2, -x", " y) $"]).outcome
        (e.readText scope (String.join ["2, -x", " y) $"])).outcome := by
  let scope : Scope := ⟨{}, ⟨[("f", Primitive.max.function)]⟩⟩
  let e : Evaluation :=
    ⟨[⟨Primitive.max.function, .barrier, 1, "f"⟩, Operator.imul.pending], ⟨[3]⟩, .expectValue⟩
  have hr : (({} : Evaluation).readAll scope [⟨.literal 3, 0⟩, ⟨.call "F", 1⟩]).outcome = .ok e :=
    rfl
  have h : e.Reachable [⟨.literal 3, 0⟩, ⟨.call "F", 1⟩] := Reachable.readAll scope _ .start hr
  have hcut : ∀ done left, ["2, -x", " y) $"] = done ++ left →
      ¬EndsInside (String.join ["2, -x", " y) $"]) (String.join done).length := by
    intro done left hpieces
    rw [hpieces]
    refine not_endsInside_of_apart ?_
    intro x y hx hy
    rcases done with _ | ⟨first, _ | ⟨second, done⟩⟩
    · exact absurd hx (by simp [String.join])
    · obtain ⟨-, rfl⟩ := List.cons.inj hpieces
      obtain rfl : ' ' = y := Option.some.inj hy
      have hblank := Lexeme.isWordChar_eq_false_of_isWhitespace (c := ' ') (by decide)
      exact fun hxy => absurd hxy.2 (by simp [hblank])
    · obtain ⟨-, hpieces⟩ := List.cons.inj hpieces
      obtain ⟨-, hpieces⟩ := List.cons.inj hpieces
      obtain ⟨-, rfl⟩ := List.append_eq_nil_iff.mp hpieces.symm
      exact absurd hy (by simp [String.join])
  exact ⟨scope, e, h, by decide, rfl, hcut, (Reachable.readWords_join h hcut scope).2⟩

end Evaluation

namespace Scope

open Evaluation (FailsAlike)
open Token (uptoInvalid scanEach inWhole)

/-- Tokens of pieces have the value of the same tokens in the whole text, or they fail like them;
without a position, if it is the end that fails. -/
lemma evaluateTokens_alike (scope : Scope) (l : List (Int × Token)) :
    (∃ x, (scope.evaluateTokens (l.map (·.2))).outcome = .ok x ∧
        (scope.evaluateTokens (uptoInvalid (inWhole l))).outcome = .ok x) ∨
      ∃ f g, (scope.evaluateTokens (l.map (·.2))).outcome = .error f ∧
        (scope.evaluateTokens (uptoInvalid (inWhole l))).outcome = .error g ∧
        (FailsAlike scope {} l (uptoInvalid (inWhole l)) f g ∨ g = f ∧ f.position? = none) := by
  have halike := Evaluation.accounted_start.readAlike scope l
  rw [evaluateTokens, evaluateTokens, Traced.outcome_bind, Traced.outcome_bind]
  generalize hx : (Evaluation.readAll scope (l.map (·.2)) {}).outcome = x at halike ⊢
  generalize hy : (Evaluation.readAll scope (uptoInvalid (inWhole l)) {}).outcome = y at halike ⊢
  cases halike with
  | error hfails =>
    rw [error_bind, error_bind]
    exact .inr ⟨_, _, rfl, rfl, .inl hfails⟩
  | ok d =>
    rw [ok_bind, Traced.outcome_bind]
    rcases (Evaluation.surveyed_of_readAll hy).finish scope with
      ⟨-, hr⟩ | ⟨-, -, hr⟩ | ⟨-, -, r, hr⟩
    · rw [hr, error_bind]
      exact .inr ⟨_, _, rfl, rfl, .inr ⟨rfl, rfl⟩⟩
    · rw [hr, error_bind]
      exact .inr ⟨_, _, rfl, rfl, .inr ⟨rfl, rfl⟩⟩
    · rw [hr, ok_bind]
      exact .inl ⟨r.1, rfl, rfl⟩

lemma evaluateWords_alike (scope : Scope) {gap : Nat} {words : List String} {text : String}
    (hscan : Token.scan text = uptoInvalid (inWhole (scanEach gap 0 words))) :
    (∃ x, (scope.evaluateWords words).outcome = .ok x ∧ (scope.evaluate text).outcome = .ok x) ∨
      ∃ f g, (scope.evaluateWords words).outcome = .error f ∧
        (scope.evaluate text).outcome = .error g ∧
        (FailsAlike scope {} (scanEach gap 0 words) (Token.scan text) f g ∨
          g = f ∧ f.position? = none) := by
  have hwords : scope.evaluateWords words =
      scope.evaluateTokens ((scanEach gap 0 words).map (·.2)) := by
    rw [evaluateWords, evaluateTokens, ← Evaluation.readWords_eq_readAll]
  rw [hwords, evaluate, hscan]
  exact scope.evaluateTokens_alike (scanEach gap 0 words)

end Scope

end Calculator
