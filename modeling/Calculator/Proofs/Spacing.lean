import Calculator.Proofs.Joining
import Calculator.Proofs.Pieces
import Mathlib.Data.List.Chain

/-!
# Other blank characters

The slices of a text can be written with other blank characters around them. While some stay wherever
a numeral or a name would go on with the next slice (`Piece.GapsKept`), the lexemes and what comes of
them are the same. In each other case the lexemes are not the same.
-/

namespace Calculator

open Lexeme (IsSlice Stops isLiteralChar)
open Numeral (IsNumeral)
open Token (uptoInvalid inWhole)

namespace Piece

/-- The characters are blank ones and a slice of the lexeme, as it stands in some text. -/
structure IsWritten (p : Piece) : Prop where
  blanks : ∀ c ∈ p.blanks, Unicode.isWhitespace c = true
  slice : ∃ after, IsSlice p.lexeme p.slice after

def written (p : Piece) : List Char × Lexeme :=
  (p.slice, p.lexeme)

/-- The slice of the first piece would go on with that of the second one. -/
def NeedsGap (p q : Piece) : Prop :=
  ∃ c, q.slice.head? = some c ∧ p.lexeme.goesOnWith c = true

/-- Blank characters stand between two slices wherever the first one would go on with the other. -/
def GapsKept (row : List Piece) : Prop :=
  row.IsChain fun p q => p.NeedsGap q → q.blanks ≠ []

def rowChars (row : List Piece) (last : List Char) : List Char :=
  row.flatMap chars ++ last

lemma rowChars_cons (p : Piece) (row : List Piece) (last : List Char) :
    rowChars (p :: row) last = p.chars ++ rowChars row last := by
  simp only [rowChars, List.flatMap_cons, List.append_assoc]

lemma map_lexeme_tokens (position : Nat) (row : List Piece) :
    (tokens position row).map (·.lexeme) = row.map (·.lexeme) := by
  induction row generalizing position with
  | nil => rfl
  | cons p row ih => rw [tokens, List.map_cons, List.map_cons, ih]

variable {p : Piece} {row : List Piece} {last : List Char} {position : Nat}

section

variable (hlast : ∀ c ∈ last, Unicode.isWhitespace c = true)

include hlast

lemma head?_rowChars (hrow : ∀ q ∈ row, q.IsWritten) {c : Char}
    (hc : (rowChars row last).head? = some c) :
    Unicode.isWhitespace c = true ∨
      ∃ q row', row = q :: row' ∧ q.blanks = [] ∧ q.slice.head? = some c := by
  cases row with
  | nil => exact .inl (hlast c (List.mem_of_mem_head? hc))
  | cons q row =>
    obtain ⟨hq, -⟩ := List.forall_mem_cons.mp hrow
    obtain ⟨after, hslice⟩ := hq.slice
    rw [rowChars_cons, chars] at hc
    cases hb : q.blanks with
    | nil =>
      obtain ⟨d, s, hs⟩ := List.exists_cons_of_ne_nil hslice.ne_nil
      rw [hb, hs] at hc
      refine .inr ⟨q, row, rfl, hb, ?_⟩
      rw [hs]
      exact hc
    | cons d blanks =>
      rw [hb] at hc
      obtain rfl := Option.some.inj hc
      exact .inl (hq.blanks d (by rw [hb]; exact List.mem_cons_self))

lemma stops_rowChars_iff (hrow : ∀ q ∈ row, q.IsWritten) :
    Stops p.lexeme.goesOnWith (rowChars row last) ↔
      ∀ q ∈ row.head?, p.NeedsGap q → q.blanks ≠ [] := by
  constructor
  · rintro hstop q hq ⟨c, hc, hgoes⟩ hb
    obtain ⟨row', rfl⟩ := List.head?_eq_some_iff.mp hq
    have hhead : (rowChars (q :: row') last).head? = some c := by
      obtain ⟨s, hs⟩ := List.head?_eq_some_iff.mp hc
      rw [rowChars_cons, chars, hb, hs]
      rfl
    exact absurd hgoes (by rw [hstop c hhead]; simp)
  · intro hgap c hc
    rcases head?_rowChars hlast hrow hc with hblank | ⟨q, row', rfl, hb, hq⟩
    · exact Lexeme.goesOnWith_of_isWhitespace hblank
    · rw [Bool.eq_false_iff]
      intro hgoes
      exact hgap q rfl ⟨c, hq, hgoes⟩ hb

lemma gapsKept_cons_iff (hrow : ∀ q ∈ row, q.IsWritten) : GapsKept (p :: row) ↔
    Stops p.lexeme.goesOnWith (rowChars row last) ∧ GapsKept row := by
  rw [stops_rowChars_iff hlast hrow]
  exact List.isChain_cons

lemma scanFrom_rowChars (hrow : ∀ q ∈ row, q.IsWritten) (hgaps : GapsKept row) :
    Token.scanFrom position (rowChars row last) = tokens position row := by
  induction row generalizing position with
  | nil =>
    have hscan : Token.scanFrom position (last ++ []) = _ := Token.scanFrom_blanks hlast
    rw [List.append_nil, Token.scanFrom_nil] at hscan
    exact hscan
  | cons p row ih =>
    obtain ⟨hp, hrow⟩ := List.forall_mem_cons.mp hrow
    obtain ⟨hstop, hgaps⟩ := (gapsKept_cons_iff hlast hrow).mp hgaps
    obtain ⟨after, hslice⟩ := hp.slice
    rw [rowChars_cons, Token.scanFrom_piece hp.blanks (hslice.before hstop), ih hrow hgaps, tokens]

lemma exists_numeral (hrow : ∀ q ∈ row, q.IsWritten)
    (h : ¬Stops isLiteralChar (rowChars row last)) :
    ∃ run rest, IsNumeral run ∧ rowChars row last = run ++ rest := by
  by_contra hno
  apply h
  intro c hc
  rcases head?_rowChars hlast hrow hc with hblank | ⟨q, row', rfl, hb, hq⟩
  · exact Lexeme.isLiteralChar_eq_false_of_isWhitespace hblank
  · rw [Bool.eq_false_iff]
    intro hliteral
    obtain ⟨after, hslice⟩ := (hrow q List.mem_cons_self).slice
    obtain ⟨s, hs⟩ := List.head?_eq_some_iff.mp hq
    rw [hs] at hslice
    refine hno ⟨c :: s, rowChars row' last, hslice.isNumeral hliteral, ?_⟩
    rw [rowChars_cons, chars, hb, hs, List.nil_append]

/-- A numeral right before another one is no token of its own. -/
lemma count_literal_le (hrow : ∀ q ∈ row, q.IsWritten) {slice after : List Char} {x : Float}
    (hslice : IsSlice (.literal x) slice after) (h : ¬Stops isLiteralChar (rowChars row last)) :
    Token.count (slice ++ rowChars row last) ≤ Token.count (rowChars row last) := by
  obtain ⟨run, rest, hrun, hrest⟩ := exists_numeral hlast hrow h
  rw [hrest]
  cases hslice with
  | literal hslice _ => exact Token.count_append_numeral_le hslice.chars hrun rest

lemma count_rowChars_le (hrow : ∀ q ∈ row, q.IsWritten) :
    Token.count (rowChars row last) ≤ row.length := by
  induction row with
  | nil =>
    have hcount : Token.count (last ++ []) = _ := Token.count_blanks hlast
    rw [List.append_nil, Token.count_nil] at hcount
    exact Nat.le_of_eq hcount
  | cons p row ih =>
    obtain ⟨hp, hrow⟩ := List.forall_mem_cons.mp hrow
    obtain ⟨after, hslice⟩ := hp.slice
    have hrest := ih hrow
    have hpiece : Token.count (p.slice ++ rowChars row last) ≤
        1 + Token.count (rowChars row last) := by
      by_cases hstop : Stops p.lexeme.goesOnWith (rowChars row last)
      · exact Nat.le_of_eq (Token.count_slice (hslice.before hstop))
      cases hl : p.lexeme with
      | literal x =>
        rw [hl] at hslice hstop
        have hle := count_literal_le hlast hrow hslice hstop
        omega
      | name s =>
        rw [hl] at hslice
        cases hslice with
        | name hname _ _ => exact Token.count_name_append_le hname _
      | _ =>
        rw [hl] at hstop
        exact absurd (fun _ _ => rfl) hstop
    rw [rowChars_cons, chars, List.append_assoc, Token.count_blanks hp.blanks, List.length_cons]
    omega

/-- Where a gap is missing other lexemes are found. -/
lemma gapsKept_of_lexemes (hrow : ∀ q ∈ row, q.IsWritten)
    (h : (Token.scanFrom position (rowChars row last)).map (·.lexeme) = row.map (·.lexeme)) :
    GapsKept row := by
  induction row generalizing position with
  | nil => exact List.isChain_nil
  | cons p row ih =>
    obtain ⟨hp, hrow⟩ := List.forall_mem_cons.mp hrow
    obtain ⟨after, hslice⟩ := hp.slice
    rw [rowChars_cons] at h
    have hstop : Stops p.lexeme.goesOnWith (rowChars row last) := by
      by_contra hstop
      cases hl : p.lexeme with
      | literal x =>
        -- The next numeral is lost, and nothing behind it makes up for that.
        rw [hl] at hslice hstop
        have hle := count_literal_le hlast hrow hslice hstop
        have hrest := count_rowChars_le hlast hrow
        have hlength := congrArg List.length h
        rw [List.length_map, List.length_map, Token.length_scanFrom, chars, List.append_assoc,
          Token.count_blanks hp.blanks, List.length_cons] at hlength
        omega
      | name s =>
        rw [hl] at hslice hstop
        rw [chars, List.append_assoc, Token.scanFrom_blanks hp.blanks, List.map_cons, hl] at h
        exact hstop (Token.stops_of_name hslice h)
      | _ =>
        rw [hl] at hstop
        exact absurd (fun _ _ => rfl) hstop
    rw [Token.scanFrom_piece hp.blanks (hslice.before hstop), List.map_cons, List.map_cons] at h
    exact (gapsKept_cons_iff hlast hrow).mpr ⟨hstop, ih hrow (List.cons.inj h).2⟩

end

end Piece

lemma Decomposes.isWritten {text : List Char} {d : Decomposition} (h : Decomposes text d) :
    ∀ p ∈ d.pieces, p.IsWritten := by
  induction h with
  | stop => exact fun p hp => absurd hp List.not_mem_nil
  | piece hblanks hslice _ ih => exact List.forall_mem_cons.mpr ⟨⟨hblanks, _, hslice⟩, ih⟩

lemma Decomposes.scan_eq {text : String} {d : Decomposition} (h : Decomposes text.toList d)
    (hvalid : ∀ t ∈ Token.scan text, t.lexeme.isInvalid = false) :
    Token.scan text = Piece.tokens 0 d.pieces := by
  have hscan : Token.scan text = d.tokens 0 := h.scanFrom_eq 0
  by_cases hrest : d.rest = []
  · rw [hscan, Decomposition.tokens, if_pos hrest, List.append_nil]
  · rw [hscan, Decomposition.tokens, if_neg hrest] at hvalid
    have hinvalid := hvalid _ (List.mem_append_right _ (List.mem_singleton.mpr rfl))
    exact absurd hinvalid (by simp [Lexeme.isInvalid])

/-- Tokens with the same lexemes are the same tokens, each moved by itself. -/
lemma Token.exists_inWhole {ts us : List Token} (h : us.map (·.lexeme) = ts.map (·.lexeme))
    (hvalid : ∀ t ∈ ts, t.lexeme.isInvalid = false) :
    ∃ l : List (Int × Token), l.map (·.2) = ts ∧ uptoInvalid (inWhole l) = us := by
  induction ts generalizing us with
  | nil =>
    obtain rfl := List.map_eq_nil_iff.mp h
    exact ⟨[], rfl, rfl⟩
  | cons t ts ih =>
    obtain ⟨u, us, rfl, hu, hus⟩ := List.map_eq_cons_iff.mp h
    obtain ⟨ht, hvalid⟩ := List.forall_mem_cons.mp hvalid
    obtain ⟨l, rfl, rfl⟩ := ih hus hvalid
    have hlexeme : t.lexeme = u.lexeme := hu.symm
    have hmoved : t.moved (u.position - t.position) = u := by
      rw [moved, Lexeme.moved_of_isInvalid ht, Int.add_comm, Int.sub_add_cancel, hlexeme]
    refine ⟨(u.position - t.position, t) :: l, rfl, ?_⟩
    change uptoInvalid (t.moved (u.position - t.position) :: inWhole l) = _
    rw [hlexeme] at ht
    rw [hmoved, uptoInvalid, ht, if_neg Bool.false_ne_true]

namespace Scope

lemma evaluate_of_lexemes (scope : Scope) {text text' : String}
    (h : (Token.scan text').map (·.lexeme) = (Token.scan text).map (·.lexeme))
    (hvalid : ∀ t ∈ Token.scan text, t.lexeme.isInvalid = false) :
    (∃ x, (scope.evaluate text).outcome = .ok x ∧ (scope.evaluate text').outcome = .ok x) ∨
      ∃ f g, (scope.evaluate text).outcome = .error f ∧
        (scope.evaluate text').outcome = .error g ∧ f.SameCause g := by
  obtain ⟨l, htext, htext'⟩ := Token.exists_inWhole h hvalid
  have halike := scope.evaluateTokens_alike l
  rw [htext, htext'] at halike
  rcases halike with hvalue | ⟨f, g, hf, hg, hfails | ⟨rfl, -⟩⟩
  · exact .inl hvalue
  · exact .inr ⟨f, g, hf, hg, hfails.sameCause⟩
  · exact .inr ⟨g, g, hf, hg, .rfl⟩

/-- The slices of a text without an invalid token can be written with any blank characters around
them: with the same lexemes, each token at its slice, the text has the same value or fails for the
same cause. Only between a numeral and a digit or point, and between a name and a character of a name
or a parenthesis, some must stay; without them the lexemes change. -/
theorem evaluate_respaced (scope : Scope) {text : String} {d : Decomposition} {row : List Piece}
    {last : List Char} (hd : Decomposes text.toList d)
    (hvalid : ∀ t ∈ Token.scan text, t.lexeme.isInvalid = false)
    (hrow : row.map Piece.written = d.pieces.map Piece.written)
    (hblanks : ∀ p ∈ row, ∀ c ∈ p.blanks, Unicode.isWhitespace c = true)
    (hlast : ∀ c ∈ last, Unicode.isWhitespace c = true) :
    let respaced := String.ofList (Piece.rowChars row last)
    (Piece.GapsKept row →
      Token.scan respaced = Piece.tokens 0 row ∧
        ((∃ x, (scope.evaluate text).outcome = .ok x ∧
            (scope.evaluate respaced).outcome = .ok x) ∨
          ∃ f g, (scope.evaluate text).outcome = .error f ∧
            (scope.evaluate respaced).outcome = .error g ∧ f.SameCause g ∧ g.kind = f.kind)) ∧
      ((Token.scan respaced).map (·.lexeme) = (Token.scan text).map (·.lexeme) ↔
        Piece.GapsKept row) := by
  intro respaced
  have hwritten : ∀ p ∈ row, p.IsWritten := by
    intro p hp
    refine ⟨hblanks p hp, ?_⟩
    have hmem : p.written ∈ d.pieces.map Piece.written := by
      rw [← hrow]
      exact List.mem_map_of_mem hp
    obtain ⟨q, hq, heq⟩ := List.mem_map.mp hmem
    obtain ⟨hslice, hlexeme⟩ := Prod.mk.inj heq
    rw [← hslice, ← hlexeme]
    exact (hd.isWritten q hq).slice
  have hlexemes : (Token.scan text).map (·.lexeme) = row.map (·.lexeme) := by
    have hsnd := congrArg (List.map Prod.snd) hrow
    rw [List.map_map, List.map_map] at hsnd
    rw [hd.scan_eq hvalid, Piece.map_lexeme_tokens]
    exact hsnd.symm
  have hscan : Token.scan respaced = Token.scanFrom 0 (Piece.rowChars row last) := by
    rw [Token.scan, String.toList_ofList]
  have hkept (hgaps : Piece.GapsKept row) : Token.scan respaced = Piece.tokens 0 row := by
    rw [hscan]
    exact Piece.scanFrom_rowChars hlast hwritten hgaps
  have hsame : (Token.scan respaced).map (·.lexeme) = (Token.scan text).map (·.lexeme) ↔
      Piece.GapsKept row := by
    rw [hlexemes]
    constructor
    · intro h
      rw [hscan] at h
      exact Piece.gapsKept_of_lexemes hlast hwritten h
    · intro hgaps
      rw [hkept hgaps, Piece.map_lexeme_tokens]
  refine ⟨?_, hsame⟩
  intro hgaps
  refine ⟨hkept hgaps, ?_⟩
  rcases scope.evaluate_of_lexemes (hsame.mpr hgaps) hvalid with hvalue | ⟨f, g, hf, hg, hfg⟩
  · exact .inl hvalue
  · exact .inr ⟨f, g, hf, hg, hfg, hfg.kind_eq⟩

/-- A name and a group keep a gap between them, though not the one that they had. -/
theorem evaluate_respaced_group :
    ∃ (d : Decomposition) (row : List Piece), Decomposes "x (2)".toList d ∧
      String.ofList (Piece.rowChars row ['\t']) = " x\n( 2)\t" ∧ Piece.GapsKept row ∧
      Token.scan " x\n( 2)\t" = Piece.tokens 0 row ∧
      (Token.scan " x\n( 2)\t").map (·.lexeme) = (Token.scan "x (2)").map (·.lexeme) := by
  let two : Lexeme := .literal ((Numeral.ofRun ['2']).toFloat false)
  let pieces (a b c : List Char) : List Piece :=
    [⟨a, ['x'], .name "x"⟩, ⟨b, ['('], .call ""⟩, ⟨c, ['2'], two⟩, ⟨[], [')'], .close⟩]
  let d : Decomposition := ⟨pieces [] [' '] [], [], []⟩
  let row : List Piece := pieces [' '] ['\n'] [' ']
  have hname : IsSlice (.name "x") ['x'] " (2)".toList := by
    refine .name (Lexeme.IsName.cons_iff.mpr ⟨by decide, by decide, by simp⟩) ?_ (by simp)
    exact Lexeme.stops_cons.mpr (Lexeme.isNameChar_eq_false_of_isWhitespace (by decide))
  have htwo : IsSlice two ['2'] ")".toList := by
    have hdigit : ∀ c ∈ ['2'], Numeral.isDigit c = true :=
      List.forall_mem_singleton.mpr (by decide)
    refine .literal ((Numeral.isNumeral_digits hdigit).mpr (by simp)) ?_
    exact Lexeme.stops_cons.mpr (by decide)
  have hblank {c : Char} (h : Unicode.isWhitespace c = true) :
      ∀ d ∈ [c], Unicode.isWhitespace d = true := List.forall_mem_singleton.mpr h
  have hend : Decomposes ([] ++ []) ⟨[], [], []⟩ :=
    .stop (by simp) Lexeme.stops_nil Lexeme.noSlice_nil
  have hclose : Decomposes [')'] ⟨[⟨[], [')'], .close⟩], [], []⟩ :=
    .piece (p := ⟨[], [')'], .close⟩) (by simp) .close hend
  have hd : Decomposes "x (2)".toList d :=
    .piece (p := ⟨[], ['x'], .name "x"⟩) (by simp) hname
      (.piece (p := ⟨[' '], ['('], .call ""⟩) (hblank (by decide)) .group
        (.piece (p := ⟨[], ['2'], two⟩) (by simp) htwo hclose))
  have hvalid : ∀ t ∈ Token.scan "x (2)", t.lexeme.isInvalid = false := by
    have hscan : Token.scan "x (2)" = d.tokens 0 := hd.scanFrom_eq 0
    rw [hscan]
    simp [Decomposition.tokens, d, pieces, Piece.tokens, Lexeme.isInvalid, two]
  have hrow : row.map Piece.written = d.pieces.map Piece.written := rfl
  have hblanks : ∀ p ∈ row, ∀ c ∈ p.blanks, Unicode.isWhitespace c = true := by
    intro p hp
    simp only [row, pieces, List.mem_cons, List.not_mem_nil, or_false] at hp
    rcases hp with rfl | rfl | rfl | rfl
    · exact hblank (by decide)
    · exact hblank (by decide)
    · exact hblank (by decide)
    · simp
  have hlast : ∀ c ∈ ['\t'], Unicode.isWhitespace c = true := hblank (by decide)
  have hgaps : Piece.GapsKept row := by
    have hstop : Lexeme.isLiteralChar ')' = false := by decide
    simp [Piece.GapsKept, row, pieces, Piece.NeedsGap, two, Lexeme.goesOnWith, hstop]
  obtain ⟨hkept, hiff⟩ := evaluate_respaced Scope.initial hd hvalid hrow hblanks hlast
  exact ⟨d, row, hd, rfl, hgaps, (hkept hgaps).1, hiff.mpr hgaps⟩

end Scope

end Calculator
