import Calculator.Proofs.Settling

/-!
# The grammar of expressions

Which lists of tokens are expressions, and what an expression means, without a stack. `Derives n ts
t` says that the nonterminal `n` derives the tokens `ts` with the tree `t`:

    sum           ::= product | sum ('+' | '-') product
    product       ::= juxtaposition | product ('*' | '/' | '%') juxtaposition
    juxtaposition ::= signed | juxtaposition IMUL signed | juxtaposition power
    signed        ::= power | ('+' | '-') signed
    power         ::= atom | atom '^' signed
    atom          ::= literal | name | call sum (',' sum)* ')'

The power right after a juxtaposition begins with a name or a call. A tree is evaluated from the
leaves; an operator's node always calls the operator's own primitive.
-/

namespace Calculator

inductive Tree where
  | literal (x : Float)
  | name (s : String)
  | call (s : String) (args : List Tree)
  | sign (op : Operator) (t : Tree)
  | binary (op : Operator) (l r : Tree)
  /-- A product that no operator stands for. -/
  | juxtaposed (l r : Tree)

/-- Calls a function and reports the call. -/
def Scope.apply (scope : Scope) (name : String) (f : Function) (args : List Float) :
    Traced Float := do
  let x ← Traced.ofExcept (f scope.vars args)
  Traced.report (.applied name args x)
  return x

namespace Tree

/-- Whether the tree is a name or a call, or a power of one. -/
def isNamed : Tree → Bool
  | name _ | call _ _ => true
  | binary .pow l _ => l.isNamed
  | _ => false

mutual

/-- The value of a tree, with the calls that it takes: a node is applied after its children. -/
def evaluate (scope : Scope) : Tree → Traced Float
  | literal x => return x
  | name s => Traced.ofExcept (scope.valueOf s)
  | call s args => do
    let f ← Traced.ofExcept (scope.function (Unicode.lower s))
    let xs ← evaluateAll scope args
    scope.apply (Unicode.lower s) f xs
  | sign op t => do
    let x ← t.evaluate scope
    scope.apply op.name op.primitive.function [x]
  | binary op l r => do
    let x ← l.evaluate scope
    let y ← r.evaluate scope
    scope.apply op.name op.primitive.function [x, y]
  | juxtaposed l r => do
    let x ← l.evaluate scope
    let y ← r.evaluate scope
    scope.apply Operator.imul.name Operator.imul.primitive.function [x, y]

def evaluateAll (scope : Scope) : List Tree → Traced (List Float)
  | [] => return []
  | t :: ts => do
    let x ← t.evaluate scope
    let xs ← evaluateAll scope ts
    return x :: xs

end

lemma evaluateAll_append (scope : Scope) (ts us : List Tree) :
    evaluateAll scope (ts ++ us) = do
      let xs ← evaluateAll scope ts
      let ys ← evaluateAll scope us
      return xs ++ ys := by
  induction ts with
  | nil => simp only [List.nil_append, evaluateAll, pure_bind, bind_pure]
  | cons t ts ih =>
    simp only [List.cons_append, evaluateAll, ih, bind_assoc, pure_bind]

lemma evaluateAll_append_singleton (scope : Scope) (ts : List Tree) (t : Tree) :
    evaluateAll scope (ts ++ [t]) = do
      let xs ← evaluateAll scope ts
      let x ← t.evaluate scope
      return xs ++ [x] := by
  simp only [evaluateAll_append, evaluateAll, bind_assoc, pure_bind]

end Tree

inductive Nonterminal where
  | sum
  | product
  | juxtaposition
  | signed
  | power
  | atom

/-- How tightly a nonterminal binds; a looser one derives what a tighter one derives. -/
def Nonterminal.rank : Nonterminal → Nat
  | sum => 1
  | product => 2
  | juxtaposition => 3
  | signed => 4
  | power => 5
  | atom => 6

namespace Nonterminal

lemma rank_injective {m n : Nonterminal} (h : n.rank = m.rank) : n = m := by
  cases m <;> cases n <;> simp [rank] at h ⊢

lemma rank_pos (n : Nonterminal) : 0 < n.rank := by
  cases n <;> decide

lemma exists_rank_succ (n : Nonterminal) (h : 1 < n.rank) :
    ∃ m : Nonterminal, n.rank = m.rank + 1 := by
  cases n with
  | sum => exact absurd h (by decide)
  | product => exact ⟨.sum, rfl⟩
  | juxtaposition => exact ⟨.product, rfl⟩
  | signed => exact ⟨.juxtaposition, rfl⟩
  | power => exact ⟨.signed, rfl⟩
  | atom => exact ⟨.power, rfl⟩

end Nonterminal

namespace Operator

/-- What an operator between two values derives. -/
def node : Operator → Nonterminal
  | add | sub => .sum
  | mul | div | rem => .product
  | imul => .juxtaposition
  | pow => .power

/-- What stands on the left of an operator: it groups to the left, except for a power. -/
def left : Operator → Nonterminal
  | pow => .atom
  | op => op.node

def right : Operator → Nonterminal
  | add | sub => .product
  | mul | div | rem => .juxtaposition
  | imul | pow => .signed

end Operator

/-- The arguments of a call, with commas at the given positions between them. -/
def argumentTokens (first : List Token) (rest : List (Int × List Token)) : List Token :=
  first ++ rest.flatMap fun r => ⟨.comma, r.1⟩ :: r.2

lemma argumentTokens_nil (first : List Token) : argumentTokens first [] = first := by
  simp [argumentTokens]

lemma argumentTokens_cons (first next : List Token) (p : Int) (rest : List (Int × List Token)) :
    argumentTokens first ((p, next) :: rest) =
      first ++ ⟨.comma, p⟩ :: argumentTokens next rest := by
  simp [argumentTokens]

/-- An argument of a call, and the position of the comma that sets it apart. -/
structure ParsedArgument where
  comma : Int
  tokens : List Token
  tree : Tree

/-- The grammar. By `unit` each nonterminal derives what the next tighter one derives. -/
inductive Derives : Nonterminal → List Token → Tree → Prop
  | unit {m n : Nonterminal} {ts : List Token} {t : Tree} (hmn : n.rank = m.rank + 1)
      (h : Derives n ts t) : Derives m ts t
  | binary {op : Operator} {ts us : List Token} {l r : Tree} (p : Int)
      (hl : Derives op.left ts l) (hr : Derives op.right us r) :
    Derives op.node (ts ++ ⟨.operator op, p⟩ :: us) (.binary op l r)
  | juxtaposed {ts us : List Token} {l r : Tree} (hl : Derives .juxtaposition ts l)
      (hr : Derives .power us r) (hn : r.isNamed = true) :
    Derives .juxtaposition (ts ++ us) (.juxtaposed l r)
  | sign {op : Operator} {ts : List Token} {t : Tree} (p : Int) (ho : op.isSign = true)
      (h : Derives .signed ts t) : Derives .signed (⟨.operator op, p⟩ :: ts) (.sign op t)
  | literal (x : Float) (p : Int) : Derives .atom [⟨.literal x, p⟩] (.literal x)
  | name (s : String) (p : Int) : Derives .atom [⟨.name s, p⟩] (.name s)
  | call {first : List Token} {t : Tree} {rest : List ParsedArgument} (s : String) (p q : Int)
      (hfirst : Derives .sum first t) (hrest : ∀ a ∈ rest, Derives .sum a.tokens a.tree) :
    Derives .atom
      (⟨.call s, p⟩ :: argumentTokens first (rest.map fun a => (a.comma, a.tokens)) ++
        [⟨.close, q⟩])
      (.call s (t :: rest.map (·.tree)))

namespace Derives

lemma loosen {m n : Nonterminal} {ts : List Token} {t : Tree} (hmn : m.rank ≤ n.rank)
    (h : Derives n ts t) : Derives m ts t := by
  obtain ⟨d, hd⟩ := Nat.exists_eq_add_of_le hmn
  induction d generalizing n with
  | zero => exact Nonterminal.rank_injective hd ▸ h
  | succ d ih =>
    have hpos : 1 < n.rank := by
      have hm := m.rank_pos
      omega
    obtain ⟨k, hk⟩ := n.exists_rank_succ hpos
    exact ih (by omega) (.unit hk h) (by omega)

/-- What is derived with a named tree begins with a name or an open call. -/
lemma exists_isNamed {n : Nonterminal} {ts : List Token} {t : Tree} (h : Derives n ts t)
    (ht : t.isNamed = true) : ∃ u us, ts = u :: us ∧ u.lexeme.isNamed = true := by
  induction h with
  | unit _ _ ih => exact ih ht
  | @binary op ts us l r p _ _ ihl _ =>
    have hl : l.isNamed = true := by
      cases op <;> first | exact ht | exact absurd ht (by simp [Tree.isNamed])
    obtain ⟨u, us', rfl, hu⟩ := ihl hl
    exact ⟨u, _, rfl, hu⟩
  | juxtaposed _ _ _ _ _ => exact absurd ht (by simp [Tree.isNamed])
  | sign _ _ _ _ => exact absurd ht (by simp [Tree.isNamed])
  | literal x p => exact absurd ht (by simp [Tree.isNamed])
  | name s p => exact ⟨_, _, rfl, rfl⟩
  | call s p q _ _ _ _ => exact ⟨_, _, rfl, rfl⟩

end Derives

end Calculator
