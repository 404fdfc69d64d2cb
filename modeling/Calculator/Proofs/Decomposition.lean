import Calculator.Proofs.Slices

/-!
# The decomposition of a text

A text is a row of pieces, each a slice of a lexeme with all the blank characters in front of it,
then blank characters, then a rest that begins no lexeme. `Decomposes text d` is this relation, said
without a scanner. Every text has exactly one decomposition, and its tokens are those that
`Token.scan` finds.
-/

namespace Calculator

open Lexeme (IsSlice Stops)

/-- A lexeme, the characters that it is written with and the blank characters in front of them. -/
structure Piece where
  blanks : List Char
  slice : List Char
  lexeme : Lexeme

def Piece.chars (p : Piece) : List Char :=
  p.blanks ++ p.slice

/-- The tokens of a row of pieces that `position` characters precede. -/
def Piece.tokens (position : Nat) : List Piece → List Token
  | [] => []
  | p :: ps =>
    ⟨p.lexeme, (position + p.blanks.length : Nat)⟩ :: tokens (position + p.chars.length) ps

/-- A row of pieces, the blank characters behind it and the rest of the text. -/
structure Decomposition where
  pieces : List Piece
  blanks : List Char
  rest : List Char

/-- No lexeme begins the text. -/
def Lexeme.NoSlice (rest : List Char) : Prop :=
  ∀ l slice after, rest = slice ++ after → ¬IsSlice l slice after

namespace Decomposition

/-- The characters in front of the rest. -/
def charsBefore (d : Decomposition) : List Char :=
  d.pieces.flatMap Piece.chars ++ d.blanks

/-- The tokens of a decomposed text that `position` characters precede; a rest is one more token,
without a lexeme. -/
def tokens (position : Nat) (d : Decomposition) : List Token :=
  let start : Nat := position + d.charsBefore.length
  Piece.tokens position d.pieces ++ if d.rest = [] then [] else [⟨.invalid start, start⟩]

def prepend (p : Piece) (d : Decomposition) : Decomposition :=
  { d with pieces := p :: d.pieces }

lemma tokens_prepend (position : Nat) (p : Piece) (d : Decomposition) :
    (d.prepend p).tokens position =
      ⟨p.lexeme, (position + p.blanks.length : Nat)⟩ :: d.tokens (position + p.chars.length) := by
  simp only [tokens, prepend, charsBefore, Piece.tokens, List.flatMap_cons, List.length_append,
    List.cons_append, Nat.add_assoc]

end Decomposition

/-- Each slice is as long as it can be, and no blank character is left to a slice or to the rest. -/
inductive Decomposes : List Char → Decomposition → Prop
  | stop {blanks rest : List Char} (hblanks : ∀ c ∈ blanks, Unicode.isWhitespace c = true)
      (hstop : Stops Unicode.isWhitespace rest) (hrest : Lexeme.NoSlice rest) :
    Decomposes (blanks ++ rest) ⟨[], blanks, rest⟩
  | piece {p : Piece} {text : List Char} {d : Decomposition}
      (hblanks : ∀ c ∈ p.blanks, Unicode.isWhitespace c = true)
      (hslice : IsSlice p.lexeme p.slice text) (h : Decomposes text d) :
    Decomposes (p.chars ++ text) (d.prepend p)

namespace Lexeme

variable {l : Lexeme} {c : Char} {r slice after : List Char}

lemma noSlice_nil : NoSlice [] := by
  intro l slice after h hs
  exact hs.ne_nil (List.append_eq_nil_iff.mp h.symm).1

lemma noSlice_cons_iff : NoSlice (c :: r) ↔ first? c r = none := by
  constructor
  · intro h
    cases hf : first? c r with
    | none => rfl
    | some found =>
      obtain ⟨s, after, rfl, -, hs⟩ := isSlice_of_first? hf
      exact absurd hs (h _ (c :: s) after rfl)
  · intro h l slice after heq hs
    obtain ⟨d, s, rfl⟩ := List.exists_cons_of_ne_nil hs.ne_nil
    rw [List.cons_append, List.cons.injEq] at heq
    obtain ⟨rfl, rfl⟩ := heq
    rw [first?_of_isSlice hs] at h
    exact absurd h (by simp)

lemma IsSlice.stops_isWhitespace (h : IsSlice l slice after) :
    Stops Unicode.isWhitespace (slice ++ after) := by
  obtain ⟨c, s, rfl⟩ := List.exists_cons_of_ne_nil h.ne_nil
  exact stops_cons.mpr (h.isWhitespace_eq_false c (by simp))

lemma run_unique {p : Char → Bool} {run run' after after' : List Char}
    (h : run ++ after = run' ++ after') (hrun : ∀ c ∈ run, p c = true)
    (hrun' : ∀ c ∈ run', p c = true) (hafter : Stops p after) (hafter' : Stops p after') :
    run = run' ∧ after = after' := by
  have htake := congrArg (List.takeWhile p) h
  have hdrop := congrArg (List.dropWhile p) h
  rw [takeWhile_append hrun hafter, takeWhile_append hrun' hafter'] at htake
  rw [dropWhile_append hrun hafter, dropWhile_append hrun' hafter'] at hdrop
  exact ⟨htake, hdrop⟩

end Lexeme

namespace Token

variable {position : Nat} {l : Lexeme} {c : Char} {r s slice after blanks : List Char}

lemma scanFrom_blanks (h : ∀ c ∈ blanks, Unicode.isWhitespace c = true) :
    scanFrom position (blanks ++ s) = scanFrom (position + blanks.length) s := by
  induction blanks generalizing position with
  | nil => rfl
  | cons c blanks ih =>
    obtain ⟨hc, hblanks⟩ := List.forall_mem_cons.mp h
    rw [List.cons_append, scanFrom_cons_of_isWhitespace hc, ih hblanks, List.length_cons]
    congr 1
    omega

lemma scanFrom_slice (h : IsSlice l slice after) :
    scanFrom position (slice ++ after) =
      ⟨l, position⟩ :: scanFrom (position + slice.length) after := by
  obtain ⟨c, s, rfl⟩ := List.exists_cons_of_ne_nil h.ne_nil
  have hc := h.isWhitespace_eq_false c (by simp)
  rw [List.cons_append, scanFrom_cons_of_first?_eq_some hc (Lexeme.first?_of_isSlice h),
    List.drop_left, List.length_cons]
  congr 2
  omega

lemma scanFrom_piece {p : Piece} (hblanks : ∀ c ∈ p.blanks, Unicode.isWhitespace c = true)
    (hslice : IsSlice p.lexeme p.slice after) :
    scanFrom position (p.chars ++ after) = ⟨p.lexeme, (position + p.blanks.length : Nat)⟩ ::
      scanFrom (position + p.chars.length) after := by
  rw [Piece.chars, List.append_assoc, scanFrom_blanks hblanks, scanFrom_slice hslice,
    List.length_append, Nat.add_assoc]

lemma scanFrom_rest (hstop : Stops Unicode.isWhitespace (c :: r))
    (h : Lexeme.NoSlice (c :: r)) :
    scanFrom position (c :: r) = [⟨.invalid position, position⟩] :=
  scanFrom_cons_of_first?_eq_none (Lexeme.stops_cons.mp hstop) (Lexeme.noSlice_cons_iff.mp h)
    position

end Token

namespace Decomposes

variable {text : List Char} {d d' : Decomposition}

lemma chars_eq (h : Decomposes text d) : text = d.charsBefore ++ d.rest := by
  induction h with
  | stop => rfl
  | piece _ _ _ ih =>
    rw [ih]
    simp only [Decomposition.prepend, Decomposition.charsBefore, List.flatMap_cons,
      List.append_assoc]

/-- The scanner finds the tokens of a decomposition. -/
theorem scanFrom_eq (h : Decomposes text d) (position : Nat) :
    Token.scanFrom position text = d.tokens position := by
  induction h generalizing position with
  | @stop blanks rest hblanks hstop hrest =>
    rw [Token.scanFrom_blanks hblanks]
    cases rest with
    | nil => simp [Decomposition.tokens, Piece.tokens]
    | cons c r =>
      rw [Token.scanFrom_rest hstop hrest]
      simp [Decomposition.tokens, Piece.tokens, Decomposition.charsBefore]
  | piece hblanks hslice _ ih =>
    rw [Decomposition.tokens_prepend, Token.scanFrom_piece hblanks hslice, ih]

/-- Every text has a decomposition. -/
theorem exists_of (text : List Char) : ∃ d, Decomposes text d := by
  induction hn : text.length using Nat.strongRecOn generalizing text with
  | ind n ih =>
    obtain ⟨blanks, rest, rfl, hblanks, hstop⟩ := Lexeme.exists_run Unicode.isWhitespace text
    cases rest with
    | nil => exact ⟨_, .stop hblanks hstop Lexeme.noSlice_nil⟩
    | cons c r =>
      cases hf : Lexeme.first? c r with
      | none => exact ⟨_, .stop hblanks hstop (Lexeme.noSlice_cons_iff.mpr hf)⟩
      | some found =>
        obtain ⟨s, after, rfl, -, hslice⟩ := Lexeme.isSlice_of_first? hf
        have hlt : after.length < n := by
          rw [← hn]
          simp only [List.length_append, List.length_cons]
          omega
        obtain ⟨d, hd⟩ := ih after.length hlt after rfl
        have hpiece := Decomposes.piece (p := ⟨blanks, c :: s, found.1⟩) hblanks hslice hd
        rw [Piece.chars, List.append_assoc] at hpiece
        exact ⟨_, hpiece⟩

lemma lexeme_ne_invalid (h : Decomposes text d) :
    ∀ p ∈ d.pieces, ∀ n : Int, p.lexeme ≠ .invalid n := by
  induction h with
  | stop => exact fun p hp => absurd hp (by simp)
  | @piece p _ _ _ hslice _ ih =>
    refine List.forall_mem_cons.mpr ⟨fun n hn => ?_, ih⟩
    rw [hn] at hslice
    cases hslice

/-- Where the blank characters end, a decomposition stops or goes on with a slice. -/
lemma cases_of_blanks {blanks s : List Char} (hblanks : ∀ c ∈ blanks, Unicode.isWhitespace c = true)
    (hs : Stops Unicode.isWhitespace s) (h : Decomposes (blanks ++ s) d) :
    (Lexeme.NoSlice s ∧ d = ⟨[], blanks, s⟩) ∨
      ∃ slice l after d', s = slice ++ after ∧ IsSlice l slice after ∧ Decomposes after d' ∧
        d = d'.prepend ⟨blanks, slice, l⟩ := by
  generalize htext : blanks ++ s = text at h
  cases h with
  | stop hblanks' hstop hrest =>
    obtain ⟨rfl, rfl⟩ := Lexeme.run_unique htext hblanks hblanks' hs hstop
    exact .inl ⟨hrest, rfl⟩
  | @piece p after d' hblanks' hslice h =>
    rw [Piece.chars, List.append_assoc] at htext
    obtain ⟨rfl, rfl⟩ :=
      Lexeme.run_unique htext hblanks hblanks' hs hslice.stops_isWhitespace
    exact .inr ⟨p.slice, p.lexeme, after, d', rfl, hslice, h, rfl⟩

/-- No text has two decompositions. -/
theorem eq (h : Decomposes text d) (h' : Decomposes text d') : d = d' := by
  induction h generalizing d' with
  | stop hblanks hstop hrest =>
    rcases h'.cases_of_blanks hblanks hstop with ⟨-, rfl⟩ | ⟨slice, l, after, _, rfl, hs, -⟩
    · rfl
    · exact absurd hs (hrest l slice after rfl)
  | @piece p text d hblanks hslice _ ih =>
    rw [Piece.chars, List.append_assoc] at h'
    rcases h'.cases_of_blanks hblanks hslice.stops_isWhitespace with
      ⟨hnone, -⟩ | ⟨slice, l, after, d'', heq, hs, hafter, rfl⟩
    · exact absurd hslice (hnone p.lexeme p.slice text rfl)
    · obtain ⟨hl, hsl, rfl⟩ := hslice.unique hs heq
      rw [ih hafter, ← hl, ← hsl]

end Decomposes

/-- The tokens of a text: it has exactly one decomposition into slices that are as long as they can
be, with all blank characters between them. Each slice is one token, which stands where the slice
begins and is not invalid; a rest that begins no lexeme is one invalid token more. -/
theorem Token.scan_decomposes (text : String) :
    ∃ d : Decomposition, Decomposes text.toList d ∧
      (∀ d', Decomposes text.toList d' → d' = d) ∧
      text.toList = d.pieces.flatMap Piece.chars ++ d.blanks ++ d.rest ∧
      (∀ p ∈ d.pieces, ∀ n : Int, p.lexeme ≠ .invalid n) ∧
      Token.scan text = Piece.tokens 0 d.pieces ++
        (if d.rest = [] then []
         else [⟨.invalid d.charsBefore.length, d.charsBefore.length⟩]) := by
  obtain ⟨d, hd⟩ := Decomposes.exists_of text.toList
  refine ⟨d, hd, fun d' hd' => hd'.eq hd, hd.chars_eq, hd.lexeme_ne_invalid, ?_⟩
  rw [Token.scan, hd.scanFrom_eq, Decomposition.tokens, Nat.zero_add]

end Calculator
