import Calculator.Arithmetic.Primitive
import Calculator.Names

/-!
# Scopes

A scope binds the names of variables and of functions. The variable `ans` and the primitive
functions are bound from the start.
-/

namespace Calculator

abbrev Variables := NameTable Float

/-- The value of a variable. -/
def Variables.value (vars : Variables) (name : String) : Except Failure Float :=
  match vars.get? name with
  | some x => .ok x
  | none => .error (.unknownVariable name)

/-- A function is given the variables of its scope and the arguments of the call. -/
abbrev Function := Variables → List Float → Except Failure Float

def Primitive.function (f : Primitive) : Function := fun _ args => f.call args

structure Scope where
  vars : Variables
  functions : NameTable Function

namespace Scope

def initial : Scope where
  vars := NameTable.ofList [("ans", 0.0)]
  functions := NameTable.ofList (Primitive.catalogue.map fun (name, f) => (name, f.function))

/-- Sets a variable. -/
def assign (scope : Scope) (name : String) (x : Float) : Scope :=
  { scope with vars := scope.vars.set name x }

/-- Binds the name of a function, whether it was bound before or not. -/
def define (scope : Scope) (name : String) (f : Function) : Scope :=
  { scope with functions := scope.functions.set name f }

def defines (scope : Scope) (name : String) : Bool :=
  scope.functions.contains name

def function (scope : Scope) (name : String) : Except Failure Function :=
  match scope.functions.get? name with
  | some f => .ok f
  | none => .error (.unknownFunction name)

/-- The value of a bare name: a function of that name is called without arguments, and only where
there is none the name is that of a variable. -/
def valueOf (scope : Scope) (name : String) : Except Failure Float :=
  match scope.functions.get? name with
  | some f => f scope.vars []
  | none => scope.vars.value name

end Scope

end Calculator
