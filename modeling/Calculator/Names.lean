import Calculator.Unicode.Lowercase

/-!
# Tables of names

A table binds names to values without regard to capitals: every name is kept and looked up in its
small letters. The entries stand in the order of their names and the last binding of a name wins.
-/

namespace Calculator

structure NameTable (α : Type) where
  entries : List (String × α) := []

namespace NameTable

/-- The first value under a key. -/
def find? {α : Type} (key : String) : List (String × α) → Option α
  | [] => none
  | (k, a) :: r => if k = key then some a else find? key r

/-- Puts a value under a key, before the first greater one. -/
def insert {α : Type} (key : String) (a : α) : List (String × α) → List (String × α)
  | [] => [(key, a)]
  | (k, b) :: r =>
    if k = key then (key, a) :: r
    else if key < k then (key, a) :: (k, b) :: r
    else (k, b) :: insert key a r

variable {α : Type}

def get? (t : NameTable α) (name : String) : Option α :=
  find? (Unicode.lower name) t.entries

def contains (t : NameTable α) (name : String) : Bool :=
  (t.get? name).isSome

def set (t : NameTable α) (name : String) (a : α) : NameTable α :=
  ⟨insert (Unicode.lower name) a t.entries⟩

/-- The table that binds the names of a list one after the other. -/
def ofList (l : List (String × α)) : NameTable α :=
  l.foldl (fun t p => t.set p.1 p.2) {}

def keys (t : NameTable α) : List String :=
  t.entries.map (·.1)

def size (t : NameTable α) : Nat :=
  t.entries.length

theorem find?_insert (key k : String) (a : α) (l : List (String × α)) :
    find? k (insert key a l) = if key = k then some a else find? k l := by
  induction l with
  | nil => rfl
  | cons p r ih =>
    obtain ⟨k', b⟩ := p
    unfold insert
    split
    · rename_i h
      subst h
      simp only [find?]
      split <;> rfl
    · split
      · simp only [find?]
      · simp only [find?, ih]
        split
        · rename_i h _ h'
          subst h'
          simp [Ne.symm h]
        · rfl

/-- Setting a name decides the value of every spelling of it and of no other name. -/
theorem get?_set (t : NameTable α) (name m : String) (a : α) :
    (t.set name a).get? m = if Unicode.lower name = Unicode.lower m then some a else t.get? m :=
  find?_insert ..

end NameTable

end Calculator
