import Calculator.Proofs.Decomposition
import Calculator.Proofs.Faults

/-!
# Positions

`moved n` shifts the position of a token or a failure by `n` characters. A text behind others is
scanned into the moved tokens, and a moved token is read as it is from every state that can be
reached: with the same state if it is read at all, and else with the moved failure, or with that of
a function, which knows of no position.
-/

namespace Calculator

def Lexeme.isInvalid : Lexeme → Bool
  | .invalid _ => true
  | _ => false

def Lexeme.moved (n : Int) : Lexeme → Lexeme
  | .invalid position => .invalid (position + n)
  | l => l

def Token.moved (n : Int) (t : Token) : Token :=
  ⟨t.lexeme.moved n, t.position + n⟩

namespace Failure

/-- Where the token stands that a failure is about. -/
def position? : Failure → Option Int
  | invalidToken p | notSign _ p | commaForValue p | closeForValue p | literalForOperator _ p
  | strayComma p | strayClose p => some p
  | _ => none

def moved (n : Int) : Failure → Failure
  | invalidToken p => invalidToken (p + n)
  | notSign op p => notSign op (p + n)
  | commaForValue p => commaForValue (p + n)
  | closeForValue p => closeForValue (p + n)
  | literalForOperator x p => literalForOperator x (p + n)
  | strayComma p => strayComma (p + n)
  | strayClose p => strayClose (p + n)
  | f => f

/-- The failures differ at most in the position of the token that they are about. -/
def SameCause (f g : Failure) : Prop :=
  ∃ n : Int, g = f.moved n

/-- If the failure has a position, it is that of the token. -/
def IsAt (f : Failure) (t : Token) : Prop :=
  ∀ p, f.position? = some p → t.lexeme = .invalid p ∨ t.position = p

variable {f g h : Failure} {m n : Int}

lemma kind_moved : (f.moved n).kind = f.kind := by
  cases f <;> rfl

lemma moved_moved : (f.moved m).moved n = f.moved (m + n) := by
  cases f <;> simp [moved, Int.add_assoc]

lemma moved_zero : f.moved 0 = f := by
  cases f <;> simp [moved]

lemma moved_of_position? (h : f.position? = none) : f.moved n = f := by
  cases f <;> first | rfl | exact absurd h (by simp [position?])

lemma SameCause.rfl : SameCause f f :=
  ⟨0, moved_zero.symm⟩

lemma SameCause.symm (h : SameCause f g) : SameCause g f := by
  obtain ⟨n, hn⟩ := h
  refine ⟨-n, ?_⟩
  rw [hn, moved_moved, Int.add_right_neg, moved_zero]

lemma SameCause.trans (hfg : SameCause f g) (hgh : SameCause g h) : SameCause f h := by
  obtain ⟨m, hm⟩ := hfg
  obtain ⟨n, hn⟩ := hgh
  refine ⟨m + n, ?_⟩
  rw [hn, hm, moved_moved]

lemma SameCause.kind_eq (h : SameCause f g) : g.kind = f.kind := by
  obtain ⟨n, rfl⟩ := h
  exact kind_moved

end Failure

section scanning

variable {l : Lexeme} {t : Token} {n : Int}

lemma Lexeme.moved_of_isInvalid (h : l.isInvalid = false) : l.moved n = l := by
  cases l <;> first | rfl | exact absurd h (by simp [Lexeme.isInvalid])

lemma Lexeme.IsSlice.isInvalid_eq_false {slice after : List Char} (h : l.IsSlice slice after) :
    l.isInvalid = false := by
  cases h <;> rfl

lemma Token.scanFrom_add (position n : Nat) (s : List Char) :
    scanFrom (position + n) s = (scanFrom position s).map (moved n) := by
  obtain ⟨d, hd⟩ := Decomposes.exists_of s
  induction hd generalizing position with
  | @stop blanks rest hblanks hstop hrest =>
    rw [scanFrom_blanks hblanks, scanFrom_blanks hblanks]
    cases rest with
    | nil => simp
    | cons c r =>
      rw [scanFrom_rest hstop hrest, scanFrom_rest hstop hrest]
      simp [moved, Lexeme.moved]
      omega
  | @piece p text d hblanks hslice _ ih =>
    have hl := Lexeme.moved_of_isInvalid (n := n) hslice.isInvalid_eq_false
    have hnext : position + n + p.chars.length = position + p.chars.length + n := by omega
    rw [scanFrom_piece hblanks hslice, scanFrom_piece hblanks hslice, hnext, ih, List.map_cons,
      moved, hl]
    congr 2
    simp only [Int.natCast_add]
    omega

/-- A token stands inside of its text; the position that an invalid one tells is its own. -/
lemma Token.position_of_mem_scanFrom {position : Nat} {s : List Char}
    (h : t ∈ scanFrom position s) :
    (position : Int) ≤ t.position ∧ t.position < position + s.length ∧
      ∀ p, t.lexeme = .invalid p → t.position = p := by
  obtain ⟨d, hd⟩ := Decomposes.exists_of s
  induction hd generalizing position with
  | @stop blanks rest hblanks hstop hrest =>
    rw [scanFrom_blanks hblanks] at h
    cases rest with
    | nil => exact absurd h (by simp)
    | cons c r =>
      rw [scanFrom_rest hstop hrest, List.mem_singleton] at h
      subst h
      simp only [List.length_append, List.length_cons]
      exact ⟨by omega, by omega, fun p hp => Lexeme.invalid.inj hp⟩
  | @piece p text d hblanks hslice _ ih =>
    rw [scanFrom_piece hblanks hslice] at h
    have hpos := List.length_pos_of_ne_nil hslice.ne_nil
    have hlength : p.chars.length = p.blanks.length + p.slice.length := List.length_append
    rw [List.length_append]
    rcases List.mem_cons.mp h with rfl | h
    · refine ⟨by simp only; omega, by simp only; omega, fun q hq => ?_⟩
      have hinvalid := hslice.isInvalid_eq_false
      simp only at hq
      rw [hq] at hinvalid
      exact absurd hinvalid (by simp [Lexeme.isInvalid])
    · obtain ⟨hlow, hhigh, hinvalid⟩ := ih h
      exact ⟨by omega, by omega, hinvalid⟩

lemma Token.scanFrom_eq_map (n : Nat) (s : String) :
    scanFrom n s.toList = (scan s).map (moved n) := by
  rw [scan, ← scanFrom_add, Nat.zero_add]

end scanning

namespace Evaluation

variable {scope : Scope} {ts : List Token} {e d : Evaluation} {t : Token} {f : Failure} {n : Int}

lemma outcome_readValue_moved (h : (e.readValue scope t).outcome = .ok d) :
    (e.readValue scope (t.moved n)).outcome = .ok d := by
  cases hl : t.lexeme with
  | operator op =>
    by_cases ho : op.isSign = true
    · simpa [readValue, Token.moved, Lexeme.moved, hl, ho] using h
    · simp [readValue, hl, ho] at h
  | literal | name | call => simpa [readValue, Token.moved, Lexeme.moved, hl] using h
  | _ => simp [readValue, hl] at h

/-- A token that is read leads to the same state wherever it stands. -/
lemma Accounted.read_moved (hacc : e.Accounted ts) (h : (e.read scope t).outcome = .ok d) :
    (e.read scope (t.moved n)).outcome = .ok d := by
  cases hp : e.phase with
  | finished =>
    rw [outcome_read_of_finished hp] at h
    exact absurd h (by simp)
  | expectValue =>
    rw [outcome_read_of_expectValue hp] at h ⊢
    exact outcome_readValue_moved h
  | expectOperator =>
    rw [outcome_read_of_expectOperator hp] at h ⊢
    have hnamed (hn : t.lexeme.isNamed = true) (hn' : (t.moved n).lexeme.isNamed = true) :
        (e.readOperator scope (t.moved n)).outcome = .ok d := by
      obtain ⟨base, hbase, -⟩ := hacc.pushOperator hp scope .imul
      rw [outcome_readOperator_named hn hbase] at h
      rw [outcome_readOperator_named hn' hbase]
      exact outcome_readValue_moved h
    obtain ⟨base, hbase, -⟩ := hacc.applyWhile hp scope Nat.one_pos
    cases hl : t.lexeme with
    | invalid position => simp [readOperator, hl] at h
    | literal x => simp [readOperator, hl] at h
    | operator op => simpa [readOperator, Token.moved, Lexeme.moved, hl] using h
    | name s => exact hnamed (by rw [hl]; rfl) (by rw [Token.moved, hl]; rfl)
    | call s => exact hnamed (by rw [hl]; rfl) (by rw [Token.moved, hl]; rfl)
    | comma =>
      have hl' : (t.moved n).lexeme = .comma := by rw [Token.moved, hl]; rfl
      rw [outcome_readOperator_comma hl hbase] at h
      rw [outcome_readOperator_comma hl' hbase]
      cases hnext : base.nextArgument with
      | none => simp [hnext] at h
      | some e' => simpa [hnext] using h
    | close =>
      have hl' : (t.moved n).lexeme = .close := by rw [Token.moved, hl]; rfl
      rw [outcome_readOperator_close hl hbase] at h
      rw [outcome_readOperator_close hl' hbase]
      by_cases hc : base.calls.isEmpty = true
      · simp [hc] at h
      · simpa [hc] using h

lemma FailsAsValue.moved (h : FailsAsValue scope t f) (e : Evaluation) (n : Int) :
    (f.IsAt t ∧ FailsAsValue scope (t.moved n) (f.moved n)) ∨
      Raises scope e t f ∧ FailsAsValue scope (t.moved n) f := by
  have hlexeme (hl : t.lexeme.isInvalid = false) : (t.moved n).lexeme = t.lexeme :=
    Lexeme.moved_of_isInvalid hl
  cases h with
  | invalid hl =>
    exact .inl ⟨fun p hp => .inl (Option.some.inj hp ▸ hl), .invalid (by rw [Token.moved, hl]; rfl)⟩
  | notSign hl ho =>
    have hl' := (hlexeme (by rw [hl]; rfl)).trans hl
    exact .inl ⟨fun p hp => .inr (Option.some.inj hp), .notSign hl' ho⟩
  | comma hl =>
    have hl' := (hlexeme (by rw [hl]; rfl)).trans hl
    exact .inl ⟨fun p hp => .inr (Option.some.inj hp), .comma hl'⟩
  | close hl =>
    have hl' := (hlexeme (by rw [hl]; rfl)).trans hl
    exact .inl ⟨fun p hp => .inr (Option.some.inj hp), .close hl'⟩
  | name hl hv =>
    have hl' := (hlexeme (by rw [hl]; rfl)).trans hl
    rcases valueOf_error_iff.mp hv with ⟨hg, hx, rfl⟩ | ⟨g, hg, hf⟩
    · exact .inl ⟨fun p hp => absurd hp (by simp [Failure.position?]), .name hl' hv⟩
    · exact .inr ⟨.constant _ g hl hg hf, .name hl' hv⟩
  | call hl hf =>
    have hl' := (hlexeme (by rw [hl]; rfl)).trans hl
    obtain ⟨-, rfl⟩ := function_error_iff.mp hf
    exact .inl ⟨fun p hp => absurd hp (by simp [Failure.position?]), .call hl' hf⟩

/-- A token that fails does so wherever it stands. Its failure tells the new position, unless it is
that of a function. -/
lemma Accounted.error_moved (hacc : e.Accounted ts) (h : (e.read scope t).outcome = .error f)
    (n : Int) :
    (f.IsAt t ∧ (e.read scope (t.moved n)).outcome = .error (f.moved n)) ∨
      Raises scope e t f ∧ (e.read scope (t.moved n)).outcome = .error f := by
  have hlexeme (hl : t.lexeme.isInvalid = false) : (t.moved n).lexeme = t.lexeme :=
    Lexeme.moved_of_isInvalid hl
  cases hacc.fails h with
  | finished hp =>
    exact .inl ⟨fun p hpos => absurd hpos (by simp [Failure.position?]),
      hacc.error_of_fails (.finished hp)⟩
  | value hp hv =>
    rcases hv.moved e n with ⟨hat, hv'⟩ | ⟨hr, hv'⟩
    · exact .inl ⟨hat, hacc.error_of_fails (.value hp hv')⟩
    · exact .inr ⟨hr, hacc.error_of_fails (.value hp hv')⟩
  | named hp hn hv =>
    have hn' : (t.moved n).lexeme.isNamed = true := by
      rw [hlexeme (by cases hl : t.lexeme <;> simp [hl, Lexeme.isNamed, Lexeme.isInvalid] at hn ⊢)]
      exact hn
    rcases hv.moved e n with ⟨hat, hv'⟩ | ⟨hr, hv'⟩
    · exact .inl ⟨hat, hacc.error_of_fails (.named hp hn' hv')⟩
    · exact .inr ⟨hr, hacc.error_of_fails (.named hp hn' hv')⟩
  | invalid hp hl =>
    exact .inl ⟨fun p hpos => .inl (Option.some.inj hpos ▸ hl),
      hacc.error_of_fails (.invalid hp (by rw [Token.moved, hl]; rfl))⟩
  | literal hp hl =>
    have hl' := (hlexeme (by rw [hl]; rfl)).trans hl
    exact .inl ⟨fun p hpos => .inr (Option.some.inj hpos),
      hacc.error_of_fails (.literal hp hl')⟩
  | comma hp hl hc =>
    have hl' := (hlexeme (by rw [hl]; rfl)).trans hl
    exact .inl ⟨fun p hpos => .inr (Option.some.inj hpos),
      hacc.error_of_fails (.comma hp hl' hc)⟩
  | close hp hl hc =>
    have hl' := (hlexeme (by rw [hl]; rfl)).trans hl
    exact .inl ⟨fun p hpos => .inr (Option.some.inj hpos),
      hacc.error_of_fails (.close hp hl' hc)⟩
  | closing hp hl hd hc ht hf =>
    have hl' := (hlexeme (by rw [hl]; rfl)).trans hl
    exact .inr ⟨hacc.raises_of_closing hp hl hd hc ht hf,
      hacc.error_of_fails (.closing hp hl' hd hc ht hf)⟩

end Evaluation

end Calculator
