import Croupier.Ty

/-!
# Entities

What a name can stand for: a variable or a function. An entity is told from every other by its
number, whatever their names and types: two occurrences in a program denote the same entity
exactly when they carry the same number.

All there is to know about a variable is known when it is declared. The result type of a
function is not: until its body has been read it is only what the author ascribed. So settled
result types are kept apart, in a table `Returns` from function numbers to types, and the type
of a function is a question asked of such a table.
-/

namespace Croupier

/-- Who may write to a variable. -/
inductive Access where
  /-- Variables and loop iterators. -/
  | mutable
  /-- Parameters and the constants of the standard library. -/
  | readOnly
  /-- Variables declared once and for all. -/
  | constant
deriving DecidableEq

/-- A variable. -/
structure Var where
  id : Nat
  name : String
  access : Access
  ty : Ty

/-- Where a function comes from, and what is known of its signature from the start. -/
inductive Func.Origin where
  /-- Declared by the program, perhaps with a type ascribed to its result. -/
  | declared (params : List Var) (ascribed : Option Ty)
  /-- Provided by the machine, with a fixed signature. -/
  | intrinsic (signature : Signature)
  /-- Provided by the machine, for any number of arguments. -/
  | variadic (returns : Ty)

/-- A function. -/
structure Func where
  id : Nat
  name : String
  origin : Func.Origin

/-- What a name can stand for. -/
inductive Entity where
  | var (v : Var)
  | func (f : Func)

/-- The result types settled so far, by function number, the latest first. -/
abbrev Returns := List (Nat × Ty)

/-- Two variables that differ at most in their number. -/
def Var.same (v w : Var) : Bool := v.name == w.name && v.access == w.access && v.ty == w.ty

namespace Func

/-- The parameters of a declared function; the machine's functions have none of their own. -/
def params (f : Func) : List Var :=
  match f.origin with
  | .declared params _ => params
  | .intrinsic _ | .variadic _ => []

/-- The type ascribed to the result. -/
def ascribed (f : Func) : Option Ty :=
  match f.origin with
  | .declared _ ascribed => ascribed
  | .intrinsic _ | .variadic _ => none

/-- Whether the machine provides the function. -/
def isIntrinsic (f : Func) : Bool :=
  match f.origin with
  | .declared _ _ => false
  | .intrinsic _ | .variadic _ => true

/-- Whether any number of arguments will do. -/
def isVariadic (f : Func) : Bool :=
  match f.origin with
  | .variadic _ => true
  | .declared _ _ | .intrinsic _ => false

/-- The signature as far as it is settled. Before its result is settled, a declared function
returns what was ascribed to it, or `any`. -/
def signature (returns : Returns) (f : Func) : Signature :=
  match f.origin with
  | .declared params ascribed =>
    ⟨params.map Var.ty, (returns.lookup f.id).getD (ascribed.getD .any)⟩
  | .intrinsic signature => signature
  | .variadic result => ⟨[], result⟩

/-- The type of a function as far as it is settled. -/
def ty (returns : Returns) (f : Func) : Ty := (f.signature returns).ty

/-- The type of a call of the function as far as it is settled. -/
def returnTy (returns : Returns) (f : Func) : Ty := (f.signature returns).returns

/-- How many arguments a call has to pass. -/
def arity (f : Func) : Nat :=
  match f.origin with
  | .declared params _ => params.length
  | .intrinsic signature => signature.params.length
  | .variadic _ => 0

end Func

/-- Two optional types that are both absent, or present and the same. -/
def Ty.sameOption : Option Ty → Option Ty → Bool
  | none, none => true
  | some s, some t => s == t
  | _, _ => false

/-- Two lists of variables that differ at most in numbers. -/
def Var.sameList : List Var → List Var → Bool
  | [], [] => true
  | v :: vs, w :: ws => v.same w && Var.sameList vs ws
  | _, _ => false

/-- Two functions, of two programs with the given settled results, that differ at most in
numbers. -/
def Func.same (R S : Returns) (f g : Func) : Bool :=
  f.name == g.name &&
  match f.origin, g.origin with
  | .declared ps a, .declared qs b =>
    Var.sameList ps qs && Ty.sameOption a b &&
      Ty.sameOption (R.lookup f.id) (S.lookup g.id)
  | .intrinsic s, .intrinsic t => s.same t
  | .variadic s, .variadic t => s == t
  | _, _ => false

namespace Entity

/-- The number of an entity. -/
def id : Entity → Nat
  | var v => v.id
  | func f => f.id

/-- The name under which an entity was declared. -/
def name : Entity → String
  | var v => v.name
  | func f => f.name

/-- The type of an entity as far as it is settled. -/
def ty (returns : Returns) : Entity → Ty
  | var v => v.ty
  | func f => f.ty returns

end Entity

end Croupier
