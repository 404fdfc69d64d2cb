import Calculator.Proofs.Parsing

/-!
# Only expressions are parsed

`Opened ts fs` says that the tokens `ts` leave the frames `fs` open: each frame has its left operand
or its first arguments derived by the grammar, and fits what the frame below it awaits. Reading a
token keeps this, so the tree that is found at the end is derived from all tokens (`derives_iff`).
-/

namespace Calculator

/-- Whether the operand to come has to begin with a name or a call. -/
def needsName : List Frame → Bool
  | .juxtaposed _ :: _ => true
  | _ => false

/-- What a frame derives when it is closed. -/
def Frame.node : Frame → Nonterminal
  | .sign _ => .signed
  | .binary op _ => op.node
  | .juxtaposed _ => .juxtaposition
  | .call _ _ => .atom

/-- A tree that the nonterminal derives can be the operand of the top frame. -/
structure Fits (fs : List Frame) (n : Nonterminal) (t : Tree) : Prop where
  rank_le : (awaited fs).rank ≤ n.rank
  named : needsName fs = true → t.isNamed = true

/-- The arguments of an open call that a comma already follows. -/
def closedArguments (done : List ParsedArgument) : List Token :=
  done.flatMap fun a => a.tokens ++ [⟨.comma, a.comma⟩]

/-- The tokens leave the frames open. -/
inductive Opened : List Token → List Frame → Prop
  | start : Opened [] []
  | sign {ts : List Token} {fs : List Frame} {op : Operator} (p : Int) (h : Opened ts fs)
      (hfs : (awaited fs).rank ≤ Nonterminal.signed.rank) (hn : needsName fs = false)
      (ho : op.isSign = true) : Opened (ts ++ [⟨.operator op, p⟩]) (.sign op :: fs)
  | binary {ts us : List Token} {fs : List Frame} {op : Operator} {l : Tree} (p : Int)
      (h : Opened ts fs) (hl : Derives op.left us l) (hfs : ∀ r, Fits fs op.node (.binary op l r)) :
    Opened (ts ++ us ++ [⟨.operator op, p⟩]) (.binary op l :: fs)
  | juxtaposed {ts us : List Token} {fs : List Frame} {l : Tree} (h : Opened ts fs)
      (hl : Derives .juxtaposition us l) (hfs : ∀ r, Fits fs .juxtaposition (.juxtaposed l r)) :
    Opened (ts ++ us) (.juxtaposed l :: fs)
  | call {ts : List Token} {fs : List Frame} (done : List ParsedArgument) (s : String) (p : Int)
      (h : Opened ts fs) (hdone : ∀ a ∈ done, Derives .sum a.tokens a.tree) :
    Opened (ts ++ ⟨.call s, p⟩ :: closedArguments done) (.call s (done.map (·.tree)) :: fs)

lemma needsName_eq_false_of_rank {fs : List Frame}
    (h : (awaited fs).rank < Nonterminal.power.rank) : needsName fs = false := by
  cases fs with
  | nil => rfl
  | cons f fs =>
    cases f with
    | juxtaposed l => exact absurd h (Nat.lt_irrefl 5)
    | _ => rfl

lemma rank_awaited_le {fs : List Frame} (h : needsName fs = false) :
    (awaited fs).rank ≤ Nonterminal.signed.rank := by
  cases fs with
  | nil => decide
  | cons f fs =>
    cases f with
    | sign op => exact Nat.le_refl 4
    | binary op l =>
      simp only [awaited, Frame.awaits]
      cases op <;> decide
    | juxtaposed l => exact absurd h (by simp [needsName])
    | call s args => exact Nat.le_of_ble_eq_true rfl

lemma Fits.of_atom {fs : List Frame} {t : Tree} (h : needsName fs = true → t.isNamed = true) :
    Fits fs .atom t := by
  refine ⟨?_, h⟩
  by_cases hn : needsName fs = true
  · cases fs with
    | nil => exact absurd hn (by decide)
    | cons f fs =>
      cases f with
      | juxtaposed l => exact Nat.le_succ 5
      | _ => exact absurd hn (by simp [needsName])
  · exact Nat.le_trans (rank_awaited_le (by simpa using hn)) (by decide)

/-- A power begins with a name if its left operand does, and only powers can follow a
juxtaposition. -/
lemma Fits.binary {op : Operator} {fs : List Frame} {l : Tree}
    (hfs : (awaited fs).rank ≤ op.node.rank) (hn : needsName fs = true → l.isNamed = true)
    (r : Tree) : Fits fs op.node (.binary op l r) := by
  by_cases hop : op = .pow
  · subst hop
    exact ⟨hfs, hn⟩
  · have hneeds : needsName fs = false := needsName_eq_false_of_rank (by
      refine Nat.lt_of_le_of_lt hfs ?_
      cases op <;> first | decide | exact absurd rfl hop)
    exact ⟨hfs, fun h => absurd h (by simp [hneeds])⟩

lemma Fits.juxtaposed {fs : List Frame} {l : Tree}
    (hfs : (awaited fs).rank ≤ Nonterminal.juxtaposition.rank) (r : Tree) :
    Fits fs .juxtaposition (.juxtaposed l r) := by
  have hneeds : needsName fs = false :=
    needsName_eq_false_of_rank (Nat.lt_of_le_of_lt hfs (by decide))
  exact ⟨hfs, fun h => absurd h (by simp [hneeds])⟩

namespace Opened

variable {ts us : List Token} {fs gs : List Frame} {t u : Tree} {n : Nonterminal}

/-- The top frame, closed by its operand, is the operand of the frame below it. -/
lemma close {f : Frame} (h : Opened ts (f :: fs)) (hf : 0 < f.order.level) (ht : Derives n us t)
    (hfits : Fits (f :: fs) n t) :
    ∃ ts' us', ts ++ us = ts' ++ us' ∧ Opened ts' fs ∧ Derives f.node us' (f.close t) ∧
      Fits fs f.node (f.close t) := by
  cases h with
  | @sign ts _ op p h hfs hn ho =>
    refine ⟨ts, ⟨.operator op, p⟩ :: us, by simp, h, .sign p ho (ht.loosen hfits.rank_le), hfs, ?_⟩
    exact fun hneeds => absurd hneeds (by simp [hn])
  | @binary ts vs _ op l p h hl hfs =>
    exact ⟨ts, vs ++ ⟨.operator op, p⟩ :: us, by simp, h,
      .binary p hl (ht.loosen hfits.rank_le), hfs t⟩
  | @juxtaposed ts vs _ l h hl hfs =>
    exact ⟨ts, vs ++ us, by simp, h,
      .juxtaposed hl (ht.loosen hfits.rank_le) (hfits.named rfl), hfs t⟩
  | call done s p h hdone => exact absurd hf (Nat.lt_irrefl 0)

end Opened

lemma Frame.level_le_rank_node (f : Frame) : f.order.level ≤ f.node.rank := by
  cases f with
  | binary op l =>
    simp only [order, node]
    cases op <;> decide
  | _ => exact Nat.le_of_ble_eq_true rfl

lemma level_lt_of_reduce {k : Nat} {fs gs : List Frame} {f : Frame} {t u : Tree}
    (h : reduce k fs t = (f :: gs, u)) : f.order.level < k := by
  induction fs generalizing t with
  | nil => exact absurd h (by simp [reduce])
  | cons f' fs ih =>
    by_cases hk : k ≤ f'.order.level
    · exact ih ((reduce_cons_of_le hk).symm.trans h)
    · rw [reduce_cons_of_lt (by omega)] at h
      obtain ⟨⟨rfl, rfl⟩, rfl⟩ := by simpa using h
      omega

/-- The frames that are left await what the operator derives. -/
lemma rank_awaited_of_reduce {op : Operator} {fs gs : List Frame} {t u : Tree}
    (h : reduce op.reach fs t = (gs, u)) : (awaited gs).rank ≤ op.node.rank := by
  cases gs with
  | nil => exact op.node.rank_pos
  | cons f gs => exact Frame.level_lt_reach_iff.mp (level_lt_of_reduce h)

namespace Opened

variable {ts us : List Token} {fs gs : List Frame} {t u : Tree} {n : Nonterminal}

/-- Closing frames keeps the tokens: what was the operand becomes a longer one. -/
lemma reduce {k : Nat} (h : Opened ts fs) (hk : 0 < k) (ht : Derives n us t) (hn : k ≤ n.rank)
    (hfits : Fits fs n t) (hr : Calculator.reduce k fs t = (gs, u)) :
    ∃ ts' us' m, ts ++ us = ts' ++ us' ∧ Opened ts' gs ∧ Derives m us' u ∧ k ≤ m.rank ∧
      Fits gs m u := by
  induction fs generalizing ts us t n with
  | nil =>
    obtain ⟨rfl, rfl⟩ := Prod.mk.inj hr
    exact ⟨ts, us, n, rfl, h, ht, hn, hfits⟩
  | cons f fs ih =>
    by_cases hf : k ≤ f.order.level
    · rw [reduce_cons_of_le hf] at hr
      obtain ⟨ts', us', hsplit, h', ht', hfits'⟩ := h.close (by omega) ht hfits
      rw [hsplit]
      exact ih h' ht' (Nat.le_trans hf f.level_le_rank_node) hfits' hr
    · rw [reduce_cons_of_lt (by omega)] at hr
      obtain ⟨rfl, rfl⟩ := Prod.mk.inj hr
      exact ⟨ts, us, n, rfl, h, ht, hn, hfits⟩

end Opened

/-- What was read leaves the frames open and the operand after them, which is a single atom. -/
inductive Parse.Reads : List Token → Parse → Prop
  | frames {ts : List Token} {fs : List Frame} (h : Opened ts fs) (hn : needsName fs = false) :
    Reads ts ⟨fs, none⟩
  | operand {ts us : List Token} {fs : List Frame} {t : Tree} (h : Opened ts fs)
      (ht : Derives .atom us t) (hn : needsName fs = true → t.isNamed = true) :
    Reads (ts ++ us) ⟨fs, some t⟩

namespace Opened

variable {ts us : List Token} {fs gs : List Frame} {t u : Tree} {tok : Token} {p : Parse}

lemma readValue (h : Opened ts fs) (hn : needsName fs = true → tok.lexeme.isNamed = true)
    (hr : Parse.readValue fs tok = some p) : p.Reads (ts ++ [tok]) := by
  obtain ⟨lexeme, position⟩ := tok
  cases lexeme with
  | invalid q => exact absurd hr (by simp [Parse.readValue])
  | comma => exact absurd hr (by simp [Parse.readValue])
  | close => exact absurd hr (by simp [Parse.readValue])
  | literal x =>
    obtain rfl := Option.some.inj hr
    exact .operand h (.literal x position) fun hneeds =>
      absurd (hn hneeds) (by simp [Lexeme.isNamed])
  | operator op =>
    have hneeds : needsName fs = false := by
      by_cases hc : needsName fs = true
      · exact absurd (hn hc) (by simp [Lexeme.isNamed])
      · simpa using hc
    by_cases ho : op.isSign = true
    · simp only [Parse.readValue, ho, if_true, Option.some.injEq] at hr
      subst hr
      exact .frames (.sign position h (rank_awaited_le hneeds) hneeds ho) rfl
    · exact absurd hr (by simp [Parse.readValue, ho])
  | name s =>
    obtain rfl := Option.some.inj hr
    exact .operand h (.name s position) fun _ => rfl
  | call s =>
    obtain rfl := Option.some.inj hr
    exact .frames (.call [] s position h (by simp)) rfl

lemma left {op : Operator} (h : Opened ts fs) (ht : Derives .atom us t)
    (hn : needsName fs = true → t.isNamed = true)
    (hr : Calculator.reduce op.reach fs t = (gs, u)) :
    ∃ ts' us', ts ++ us = ts' ++ us' ∧ Opened ts' gs ∧ Derives op.left us' u ∧
      (needsName gs = true → u.isNamed = true) := by
  have hrank : op.reach ≤ Nonterminal.atom.rank := by
    cases op <;> decide
  have hleft : op.left.rank = op.reach := by
    cases op <;> rfl
  obtain ⟨ts', us', m, hsplit, h', hu, hm, hfits⟩ :=
    h.reduce op.reach_pos ht hrank (.of_atom hn) hr
  exact ⟨ts', us', hsplit, h', hu.loosen (by omega), hfits.named⟩

/-- The innermost open call has all its arguments derived by the grammar. -/
lemma innermost {s : String} {args : List Tree} {below : List Frame} (h : Opened ts fs)
    (ht : Derives .atom us t) (hn : needsName fs = true → t.isNamed = true)
    (hr : Parse.innermost fs t = some (s, args, below)) :
    ∃ ts' q done last u, ts ++ us = ts' ++ ⟨.call s, q⟩ :: closedArguments done ++ last ∧
      Opened ts' below ∧ (∀ a ∈ done, Derives .sum a.tokens a.tree) ∧ Derives .sum last u ∧
      args = done.map (·.tree) ++ [u] := by
  rw [Parse.innermost] at hr
  split at hr
  · rename_i s' done' below' u hreduce
    obtain ⟨rfl, rfl, rfl⟩ := by simpa using hr
    obtain ⟨ts', us', m, hsplit, h', hu, hm, -⟩ :=
      h.reduce Nat.one_pos ht (by decide) (.of_atom hn) hreduce
    cases h' with
    | @call ts₀ _ done _ q h₀ hdone =>
      exact ⟨ts₀, q, done, us', u, hsplit, h₀, hdone, hu.loosen hm, rfl⟩
  · exact absurd hr (by simp)

end Opened

/-- The tokens of an open call and its last argument, with the first argument apart. -/
lemma exists_argumentTokens {done : List ParsedArgument} {last : List Token} {u : Tree}
    (hdone : ∀ a ∈ done, Derives .sum a.tokens a.tree) (hlast : Derives .sum last u) :
    ∃ (first : List Token) (t : Tree) (rest : List ParsedArgument), closedArguments done ++ last =
        argumentTokens first (rest.map fun a => (a.comma, a.tokens)) ∧
      Derives .sum first t ∧ (∀ a ∈ rest, Derives .sum a.tokens a.tree) ∧
      done.map (·.tree) ++ [u] = t :: rest.map (·.tree) := by
  induction done with
  | nil => exact ⟨last, u, [], (argumentTokens_nil last).symm, hlast, by simp, rfl⟩
  | cons a done ih =>
    obtain ⟨first, t, rest, htokens, hfirst, hrest, htrees⟩ :=
      ih (List.forall_mem_cons.mp hdone).2
    refine ⟨a.tokens, a.tree, ⟨a.comma, first, t⟩ :: rest, ?_,
      (List.forall_mem_cons.mp hdone).1, ?_, ?_⟩
    · rw [List.map_cons, argumentTokens_cons, ← htokens]
      simp [closedArguments]
    · exact List.forall_mem_cons.mpr ⟨hfirst, hrest⟩
    · rw [List.map_cons, List.cons_append, htrees, List.map_cons]

namespace Parse

variable {ts us : List Token} {p p' : Parse} {tok : Token} {t : Tree}

/-- Every token that is read is part of a frame or of the operand. -/
theorem Reads.read (h : p.Reads ts) (hr : p.read tok = some p') : p'.Reads (ts ++ [tok]) := by
  obtain ⟨lexeme, position⟩ := tok
  cases h with
  | frames h hn => exact h.readValue (fun hneeds => absurd hneeds (by simp [hn])) hr
  | @operand ts us fs t h ht hn =>
    have hnamed (hl : (⟨lexeme, position⟩ : Token).lexeme.isNamed = true)
        (hj : Parse.juxtapose fs t ⟨lexeme, position⟩ = some p') :
        p'.Reads (ts ++ us ++ [⟨lexeme, position⟩]) := by
      cases hreduce : reduce Operator.imul.reach fs t with
      | mk gs u =>
        obtain ⟨ts', us', hsplit, h', hu, hname⟩ := h.left ht hn hreduce
        simp only [Parse.juxtapose, hreduce] at hj
        have hopened := Opened.juxtaposed h' hu (.juxtaposed (rank_awaited_of_reduce hreduce))
        rw [hsplit]
        exact hopened.readValue (fun _ => hl) hj
    cases lexeme with
    | invalid q => exact absurd hr (by simp [Parse.read, Parse.readOperator])
    | literal x => exact absurd hr (by simp [Parse.read, Parse.readOperator])
    | name s => exact hnamed rfl hr
    | call s => exact hnamed rfl hr
    | operator op =>
      cases hreduce : reduce op.reach fs t with
      | mk gs u =>
        obtain ⟨ts', us', hsplit, h', hu, hname⟩ := h.left ht hn hreduce
        simp only [Parse.read, Parse.readOperator, hreduce, Option.some.injEq] at hr
        subst hr
        rw [hsplit]
        exact .frames (.binary position h' hu (.binary (rank_awaited_of_reduce hreduce) hname)) rfl
    | comma =>
      simp only [Parse.read, Parse.readOperator, Option.map_eq_some_iff] at hr
      obtain ⟨⟨s, args, below⟩, hinner, rfl⟩ := hr
      obtain ⟨ts', q, done, last, u, hsplit, h', hdone, hlast, rfl⟩ := h.innermost ht hn hinner
      have hall : ∀ a ∈ done ++ [⟨position, last, u⟩], Derives .sum a.tokens a.tree :=
        List.forall_mem_append.mpr ⟨hdone, List.forall_mem_singleton.mpr hlast⟩
      have hcall := Opened.call _ s q h' hall
      rw [hsplit]
      have hreads := Reads.frames hcall rfl
      simp only [closedArguments, List.flatMap_append, List.map_append] at hreads ⊢
      simpa using hreads
    | close =>
      simp only [Parse.read, Parse.readOperator, Option.map_eq_some_iff] at hr
      obtain ⟨⟨s, args, below⟩, hinner, rfl⟩ := hr
      obtain ⟨ts', q, done, last, u, hsplit, h', hdone, hlast, rfl⟩ := h.innermost ht hn hinner
      obtain ⟨first, v, rest, htokens, hfirst, hrest, htrees⟩ := exists_argumentTokens hdone hlast
      have hclose := Reads.operand h' (.call s q position hfirst hrest) fun _ => rfl
      rw [← htokens] at hclose
      rw [hsplit, htrees]
      simpa using hclose

theorem Reads.readAll (h : p.Reads ts) (hr : p.readAll us = some p') : p'.Reads (ts ++ us) := by
  induction us generalizing ts p with
  | nil =>
    obtain rfl := Option.some.inj hr
    rwa [List.append_nil]
  | cons u us ih =>
    rw [readAll_cons, Option.bind_eq_some_iff] at hr
    obtain ⟨q, hq, hr⟩ := hr
    have hall := ih (h.read hq) hr
    rwa [List.append_assoc] at hall

lemma Reads.derives (h : p.Reads ts) (hr : p.result = some t) : Derives .sum ts t := by
  cases h with
  | frames h hn => exact absurd hr (by simp [result])
  | @operand ts us fs u h hu hn =>
    simp only [result] at hr
    split at hr
    · rename_i v hreduce
      obtain rfl := Option.some.inj hr
      obtain ⟨ts', us', m, hsplit, h', hv, hm, -⟩ :=
        h.reduce Nat.one_pos hu (by decide) (.of_atom hn) hreduce
      cases h' with
      | start =>
        rw [hsplit]
        exact hv.loosen hm
    · exact absurd hr (by simp)

end Parse

/-- The rules of an evaluation find exactly the trees that the grammar derives. -/
theorem derives_iff {ts : List Token} {t : Tree} : Derives .sum ts t ↔ parse ts = some t := by
  refine ⟨Derives.parse_eq, fun h => ?_⟩
  obtain ⟨p, hp, hr⟩ := Option.bind_eq_some_iff.mp h
  have hreads := (Parse.Reads.frames .start rfl).readAll hp
  exact hreads.derives hr

-- A sign binds looser than a power and tighter than the product in front of a name.
example :
    parse [⟨.operator .sub, 0⟩, ⟨.literal 2, 1⟩, ⟨.operator .pow, 2⟩, ⟨.operator .sub, 3⟩,
      ⟨.literal 3, 4⟩, ⟨.name "x", 5⟩] =
    some (.juxtaposed
      (.sign .sub (.binary .pow (.literal 2) (.sign .sub (.literal 3)))) (.name "x")) := rfl

end Calculator
