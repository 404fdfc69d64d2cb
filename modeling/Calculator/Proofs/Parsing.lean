import Calculator.Proofs.Grammar

/-!
# Parsing without values

The stacks of an evaluation with trees in the place of values. A `Parse` has a frame for each
pending call, with the trees that the call has so far, and the operand while an operator is
expected. `parse` reads tokens by the rules of an evaluation and never looks at a scope; it finds
every tree that the grammar derives (`Derives.parse_eq`).
-/

namespace Calculator

/-- A pending call and the trees of what stands to its left. -/
inductive Frame where
  | sign (op : Operator)
  | binary (op : Operator) (l : Tree)
  | juxtaposed (l : Tree)
  | call (s : String) (args : List Tree)

namespace Frame

def order : Frame → Order
  | sign _ => .unary
  | binary op _ => op.order
  | juxtaposed _ => .imul
  | call _ _ => .barrier

/-- The tree of the call when its last argument is there. -/
def close : Frame → Tree → Tree
  | sign op, t => .sign op t
  | binary op l, t => .binary op l t
  | juxtaposed l, t => .juxtaposed l t
  | call s args, t => .call s (args ++ [t])

/-- What the last argument is derived from. -/
def awaits : Frame → Nonterminal
  | sign _ => .signed
  | binary op _ => op.right
  | juxtaposed _ => .power
  | call _ _ => .sum

end Frame

/-- What the tokens to come are derived from. -/
def awaited : List Frame → Nonterminal
  | [] => .sum
  | f :: _ => f.awaits

/-- Closes the frames from the top of the level `k` and above. -/
def reduce (k : Nat) : List Frame → Tree → List Frame × Tree
  | [], t => ([], t)
  | f :: fs, t => if k ≤ f.order.level then reduce k fs (f.close t) else (f :: fs, t)

section reduce

variable {k : Nat} {f : Frame} {fs : List Frame} {t : Tree}

lemma reduce_cons_of_le (h : k ≤ f.order.level) : reduce k (f :: fs) t = reduce k fs (f.close t) :=
  if_pos h

lemma reduce_cons_of_lt (h : f.order.level < k) : reduce k (f :: fs) t = (f :: fs, t) :=
  if_neg (by omega)

end reduce

/-- What is read so far: the frames, the top one first, and the operand that no frame has yet. -/
structure Parse where
  frames : List Frame := []
  operand : Option Tree := none

namespace Parse

/-- The innermost open call with one more argument, when everything above it is closed, and the
frames below it. -/
def innermost (frames : List Frame) (t : Tree) : Option (String × List Tree × List Frame) :=
  match reduce 1 frames t with
  | (.call s args :: below, u) => some (s, args ++ [u], below)
  | _ => none

def readValue (frames : List Frame) (t : Token) : Option Parse :=
  match t.lexeme with
  | .literal x => some ⟨frames, some (.literal x)⟩
  | .operator op => if op.isSign then some ⟨.sign op :: frames, none⟩ else none
  | .name s => some ⟨frames, some (.name s)⟩
  | .call s => some ⟨.call s [] :: frames, none⟩
  | .invalid _ | .comma | .close => none

def juxtapose (frames : List Frame) (u : Tree) (t : Token) : Option Parse :=
  let (frames, u) := reduce Operator.imul.reach frames u
  readValue (.juxtaposed u :: frames) t

def readOperator (frames : List Frame) (u : Tree) (t : Token) : Option Parse :=
  match t.lexeme with
  | .operator op =>
    let (frames, u) := reduce op.reach frames u
    some ⟨.binary op u :: frames, none⟩
  | .name _ | .call _ => juxtapose frames u t
  | .comma => (innermost frames u).map fun (s, args, below) => ⟨.call s args :: below, none⟩
  | .close => (innermost frames u).map fun (s, args, below) => ⟨below, some (.call s args)⟩
  | .invalid _ | .literal _ => none

def read (p : Parse) (t : Token) : Option Parse :=
  match p.operand with
  | none => readValue p.frames t
  | some u => readOperator p.frames u t

def readAll (ts : List Token) (p : Parse) : Option Parse :=
  ts.foldlM read p

/-- The tree of everything that is read, if all calls are closed. -/
def result (p : Parse) : Option Tree :=
  match p.operand with
  | none => none
  | some u =>
    match reduce 1 p.frames u with
    | ([], t) => some t
    | _ => none

@[simp] lemma readAll_nil (p : Parse) : p.readAll [] = some p := rfl

lemma readAll_cons (p : Parse) (t : Token) (ts : List Token) :
    p.readAll (t :: ts) = (p.read t).bind (readAll ts) :=
  List.foldlM_cons

lemma readAll_append (p : Parse) (ts us : List Token) :
    p.readAll (ts ++ us) = (p.readAll ts).bind (readAll us) :=
  List.foldlM_append

end Parse

/-- The tree of a list of tokens. -/
def parse (ts : List Token) : Option Tree :=
  (Parse.readAll ts {}).bind Parse.result

/-- How far the frames that a nonterminal leaves open are closed alike, whether its operators are
read one by one or its tree is there at once. -/
def Nonterminal.settled : Nonterminal → Nat
  | sum => 1
  | product => 2
  | juxtaposition => 3
  | signed | power => 4
  | atom => 6

namespace Operator

lemma settled_node_le (op : Operator) :
    op.node.settled ≤ op.right.settled ∧ op.node.settled ≤ op.order.level := by
  cases op <;> decide

lemma reach_le_settled (op : Operator) : op.reach ≤ op.left.settled := by
  cases op <;> decide

lemma rank_node_le (op : Operator) : op.node.rank ≤ op.left.rank := by
  cases op <;> decide

end Operator

/-- An operator leaves alone exactly the frames that can take what it derives. -/
lemma Frame.level_lt_reach_iff {f : Frame} {op : Operator} :
    f.order.level < op.reach ↔ f.awaits.rank ≤ op.node.rank := by
  cases f with
  | sign op' =>
    simp only [order, awaits]
    cases op <;> decide
  | binary op' l =>
    simp only [order, awaits]
    cases op' <;> cases op <;> decide
  | juxtaposed l =>
    simp only [order, awaits]
    cases op <;> decide
  | call s args =>
    simp only [order, awaits]
    cases op <;> decide

lemma reduce_reach (op : Operator) {fs : List Frame} (h : (awaited fs).rank ≤ op.node.rank)
    (t : Tree) : reduce op.reach fs t = (fs, t) := by
  cases fs with
  | nil => rfl
  | cons f fs => exact reduce_cons_of_lt (Frame.level_lt_reach_iff.mpr h)

/-- Read over any frames that await the nonterminal, the tokens leave what the tree would leave. -/
def ReadAs (n : Nonterminal) (ts : List Token) (t : Tree) : Prop :=
  ∀ fs : List Frame, (awaited fs).rank ≤ n.rank →
    ∃ gs u, Parse.readAll ts ⟨fs, none⟩ = some ⟨gs, some u⟩ ∧
      ∀ k, k ≤ n.settled → reduce k gs u = reduce k fs t

namespace ReadAs

lemma innermost {ts : List Token} {t : Tree} (h : ReadAs .sum ts t) (s : String) (args : List Tree)
    (fs : List Frame) : ∃ gs u, Parse.readAll ts ⟨.call s args :: fs, none⟩ = some ⟨gs, some u⟩ ∧
      Parse.innermost gs u = some (s, args ++ [t], fs) := by
  obtain ⟨gs, u, hread, hreduce⟩ := h (.call s args :: fs) (Nat.le_refl 1)
  refine ⟨gs, u, hread, ?_⟩
  have hcall : reduce 1 gs u = (.call s args :: fs, t) :=
    (hreduce 1 (Nat.le_refl 1)).trans (reduce_cons_of_lt Nat.one_pos)
  rw [Parse.innermost, hcall]

/-- The arguments of a call and the parenthesis that closes it. The induction is on the arguments;
`args` are the trees of those before the first one. -/
lemma argumentTokens {first : List Token} {t : Tree} {rest : List ParsedArgument}
    (hfirst : ReadAs .sum first t) (hrest : ∀ a ∈ rest, ReadAs .sum a.tokens a.tree) (s : String)
    (args : List Tree) (fs : List Frame) (q : Int) :
    Parse.readAll
        (argumentTokens first (rest.map fun a => (a.comma, a.tokens)) ++ [⟨.close, q⟩])
        ⟨.call s args :: fs, none⟩ =
      some ⟨fs, some (.call s (args ++ t :: rest.map (·.tree)))⟩ := by
  obtain ⟨gs, u, hread, hcall⟩ := hfirst.innermost s args fs
  induction rest generalizing first t args gs u with
  | nil =>
    rw [List.map_nil, argumentTokens_nil, Parse.readAll_append, hread, Option.bind_some,
      Parse.readAll_cons]
    simp only [Parse.read, Parse.readOperator, hcall, Option.map_some, Option.bind_some,
      Parse.readAll_nil, List.map_nil]
  | cons a rest ih =>
    obtain ⟨ha, hmore⟩ := List.forall_mem_cons.mp hrest
    obtain ⟨gs', u', hread', hcall'⟩ := ha.innermost s (args ++ [t]) fs
    rw [List.map_cons, argumentTokens_cons, List.append_assoc, Parse.readAll_append, hread,
      Option.bind_some, List.cons_append, Parse.readAll_cons]
    simp only [Parse.read, Parse.readOperator, hcall, Option.map_some, Option.bind_some]
    rw [ih ha hmore (args ++ [t]) gs' u' hread' hcall']
    simp

end ReadAs

namespace Derives

/-- The rules of an evaluation build what the grammar derives. -/
theorem readAs {n : Nonterminal} {ts : List Token} {t : Tree} (h : Derives n ts t) :
    ReadAs n ts t := by
  induction h with
  | @unit m n ts t hmn _ ih =>
    intro fs hfs
    obtain ⟨gs, u, hread, hreduce⟩ := ih fs (by omega)
    refine ⟨gs, u, hread, fun k hk => hreduce k (Nat.le_trans hk ?_)⟩
    cases m <;> cases n <;> simp [Nonterminal.rank] at hmn <;> decide
  | @binary op ts us l r p _ _ ihl ihr =>
    intro fs hfs
    obtain ⟨gs, u, hread, hreduce⟩ := ihl fs (Nat.le_trans hfs op.rank_node_le)
    -- Reading the operator closes all that the left operand left open and nothing below it.
    have hleft : reduce op.reach gs u = (fs, l) :=
      (hreduce op.reach op.reach_le_settled).trans (reduce_reach op hfs l)
    obtain ⟨gs', u', hread', hreduce'⟩ := ihr (.binary op l :: fs) (Nat.le_refl op.right.rank)
    refine ⟨gs', u', ?_, ?_⟩
    · rw [Parse.readAll_append, hread, Option.bind_some, Parse.readAll_cons]
      simp only [Parse.read, Parse.readOperator, hleft, Option.bind_some]
      exact hread'
    · intro k hk
      have hnode := op.settled_node_le
      rw [hreduce' k (by omega)]
      exact reduce_cons_of_le (Nat.le_trans hk hnode.2)
  | @juxtaposed ts us l r _ hr hn ihl ihr =>
    intro fs hfs
    obtain ⟨gs, u, hread, hreduce⟩ := ihl fs hfs
    have hleft : reduce Operator.imul.reach gs u = (fs, l) :=
      (hreduce 3 (Nat.le_refl 3)).trans (reduce_reach .imul hfs l)
    obtain ⟨gs', u', hread', hreduce'⟩ := ihr (.juxtaposed l :: fs) (Nat.le_refl 5)
    obtain ⟨v, vs, rfl, hv⟩ := hr.exists_isNamed hn
    refine ⟨gs', u', ?_, ?_⟩
    · -- The first token of the power puts the product in front of itself.
      have hjuxtapose : Parse.read ⟨gs, some u⟩ v = Parse.read ⟨.juxtaposed l :: fs, none⟩ v := by
        cases hl : v.lexeme with
        | name s => simp only [Parse.read, Parse.readOperator, hl, Parse.juxtapose, hleft]
        | call s => simp only [Parse.read, Parse.readOperator, hl, Parse.juxtapose, hleft]
        | _ => simp [hl, Lexeme.isNamed] at hv
      rw [Parse.readAll_append, hread, Option.bind_some, Parse.readAll_cons, hjuxtapose,
        ← Parse.readAll_cons]
      exact hread'
    · intro k hk
      have hk3 : k ≤ 3 := hk
      rw [hreduce' k (Nat.le_trans hk3 (by decide))]
      exact reduce_cons_of_le hk3
  | @sign op ts t p ho _ ih =>
    intro fs hfs
    obtain ⟨gs, u, hread, hreduce⟩ := ih (.sign op :: fs) (Nat.le_refl 4)
    refine ⟨gs, u, ?_, ?_⟩
    · rw [Parse.readAll_cons]
      simp only [Parse.read, Parse.readValue, ho, if_true, Option.bind_some]
      exact hread
    · intro k hk
      rw [hreduce k hk]
      exact reduce_cons_of_le hk
  | literal x p => exact fun fs _ => ⟨fs, .literal x, rfl, fun _ _ => rfl⟩
  | name s p => exact fun fs _ => ⟨fs, .name s, rfl, fun _ _ => rfl⟩
  | @call first t rest s p q _ _ ihfirst ihrest =>
    intro fs _
    refine ⟨fs, .call s (t :: rest.map (·.tree)), ?_, fun _ _ => rfl⟩
    rw [List.cons_append, Parse.readAll_cons]
    exact ReadAs.argumentTokens ihfirst ihrest s [] fs q

/-- The tree of an expression is found. -/
theorem parse_eq {ts : List Token} {t : Tree} (h : Derives .sum ts t) : parse ts = some t := by
  obtain ⟨gs, u, hread, hreduce⟩ := h.readAs [] (Nat.le_refl 1)
  have hall : reduce 1 gs u = ([], t) := hreduce 1 (Nat.le_refl 1)
  rw [parse, hread, Option.bind_some]
  simp only [Parse.result, hall]

/-- The grammar is not ambiguous. -/
theorem unique {n : Nonterminal} {ts : List Token} {t u : Tree} (ht : Derives n ts t)
    (hu : Derives n ts u) : t = u := by
  have hsum : Nonterminal.sum.rank ≤ n.rank := n.rank_pos
  exact Option.some.inj ((ht.loosen hsum).parse_eq.symm.trans (hu.loosen hsum).parse_eq)

end Derives

end Calculator
