/-!
# Types

The types of the language and the relations between them. A type is a primitive, an array, a
function or a union. Unions are flat and small: `Ty.unionOf` flattens, keeps the first of equal
members and gives up with `any` beyond `Ty.unionLimit` members, so every union built through it
has two or three members.

Two types are the same (`Ty.same`, also written `==`) when they agree node by node, except that
the members of a union may come in any order. Beside it stand the weaker `Ty.compatible`, in
which `any` fits everything, and the partial `Ty.promote`, which says what arithmetic makes of
two operands.
-/

namespace Croupier

/-- The built-in types. `any` is the type of everything that is not known more precisely. -/
inductive Prim where
  | int
  | float
  | boolean
  | string
  | any
deriving DecidableEq

namespace Prim

/-- All built-in types, in the order in which they are listed to users. -/
def all : List Prim := [int, float, boolean, string, any]

/-- The name under which a built-in type is written. -/
def spelling : Prim → String
  | int => "int"
  | float => "float"
  | boolean => "boolean"
  | string => "string"
  | any => "any"

/-- The built-in type of a given name. -/
def ofSpelling? (text : String) : Option Prim := all.find? (·.spelling == text)

/-- Every primitive type is found under its own spelling. -/
theorem ofSpelling?_spelling (p : Prim) : ofSpelling? p.spelling = some p := by
  cases p <;> decide

/-- The types on which arithmetic makes sense. -/
def isNumeric : Prim → Bool
  | int | float => true
  | boolean | string | any => false

/-- The types whose values have no parts. -/
def isScalar : Prim → Bool
  | int | float | boolean => true
  | string | any => false

end Prim

/-- A type of the language. -/
inductive Ty where
  | prim (kind : Prim)
  | array (element : Ty)
  | func (params : List Ty) (returns : Ty)
  | union (members : List Ty)

instance : Inhabited Ty := ⟨.prim .any⟩

namespace Ty

@[match_pattern] abbrev int : Ty := prim .int
@[match_pattern] abbrev float : Ty := prim .float
@[match_pattern] abbrev boolean : Ty := prim .boolean
@[match_pattern] abbrev string : Ty := prim .string
@[match_pattern] abbrev any : Ty := prim .any

/-! ### Sameness -/

mutual

/-- Two types are the same when they agree node by node; unions agree when they have equally
many members and for each member on the left there is one on the right that is the same as it. -/
def same : Ty → Ty → Bool
  | prim p, prim q => p == q
  | array s, array t => same s t
  | func ps r, func qs s => sameList ps qs && same r s
  | union ms, union ns => ms.length == ns.length && allAmong ms ns
  | _, _ => false
termination_by structural t => t

/-- Sameness of two lists of types, position by position. -/
def sameList : List Ty → List Ty → Bool
  | [], [] => true
  | t :: ts, u :: us => same t u && sameList ts us
  | _, _ => false
termination_by structural ts => ts

/-- For each type on the left there is one on the right that is the same as it. -/
def allAmong : List Ty → List Ty → Bool
  | [], _ => true
  | t :: ts, us => us.any (fun u => converse t u) && allAmong ts us
termination_by structural ts => ts

/-- `converse t s` is `same s t`, by recursion on `t`. -/
def converse : Ty → Ty → Bool
  | prim p, prim q => q == p
  | array t, array s => converse t s
  | func ps r, func qs s => converseList ps qs && converse r s
  | union ms, union ns => ns.length == ms.length && ns.all (fun n => isAmong ms n)
  | _, _ => false
termination_by structural t => t

/-- `converseList ts ss` is `sameList ss ts`, by recursion on `ts`. -/
def converseList : List Ty → List Ty → Bool
  | [], [] => true
  | t :: ts, u :: us => converse t u && converseList ts us
  | _, _ => false
termination_by structural ts => ts

/-- Some type of the list is the same as the given one. -/
def isAmong : List Ty → Ty → Bool
  | [], _ => false
  | t :: ts, u => same t u || isAmong ts u
termination_by structural ts => ts

end

instance : BEq Ty := ⟨same⟩

/-! ### Unions -/

/-- A union with more members than this is of no use to anyone and becomes `any`. -/
def unionLimit : Nat := 3

mutual

/-- The members of a type, unions opened at every depth. -/
def parts : Ty → List Ty
  | union ms => partsList ms
  | t => [t]

/-- The members of all types of a list, one after the other. -/
def partsList : List Ty → List Ty
  | [] => []
  | t :: ts => parts t ++ partsList ts

end

/-- Adds a type at the end of a list unless the list has it already. -/
def addNew (seen : List Ty) (t : Ty) : List Ty :=
  if seen.any (fun u => u == t) then seen else seen ++ [t]

/-- The distinct members of a list of types, in the order of their first appearance. -/
def flatten (ts : List Ty) : List Ty := (partsList ts).foldl addNew []

/-- The union of a list of types: the type itself when only one is left after flattening, and
`any` when there is none or there are too many. -/
def unionOf (ts : List Ty) : Ty :=
  match flatten ts with
  | [] => any
  | [t] => t
  | members => if members.length ≤ unionLimit then union members else any

/-! ### Classification -/

/-- The built-in type that a type is, if it is one. -/
def prim? : Ty → Option Prim
  | prim p => some p
  | _ => none

def isAny : Ty → Bool
  | any => true
  | _ => false

def isNumeric : Ty → Bool
  | prim p => p.isNumeric
  | _ => false

def isScalar : Ty → Bool
  | prim p => p.isScalar
  | _ => false

/-- Whether a value of this type may stand where a number is needed. -/
def mayBeNumeric (t : Ty) : Bool := t.isNumeric || t.isAny

/-- Sameness with `any` as a wildcard on either side. -/
def compatible (s t : Ty) : Bool := s.isAny || t.isAny || s == t

/-- What an array of this type holds; `any` for everything that is no array. -/
def element : Ty → Ty
  | array t => t
  | _ => any

/-- The common type of two operands: the left one when they are the same, `float` when an `int`
meets a `float`. -/
def promote (s t : Ty) : Option Ty :=
  if s == t then some s
  else match s, t with
    | int, float => some float
    | float, int => some float
    | _, _ => none

/-! ### Text -/

mutual

/-- A type as it is written for users. -/
def text : Ty → String
  | prim p => p.spelling
  | array t => "[" ++ text t ++ "]"
  | func ps r => "(" ++ String.intercalate ", " (texts ps) ++ ") -> " ++ text r
  | union ms => String.intercalate " | " (texts ms)

/-- The texts of a list of types. -/
def texts : List Ty → List String
  | [] => []
  | t :: ts => text t :: texts ts

end

end Ty

/-- What a function takes and gives. -/
structure Signature where
  params : List Ty
  returns : Ty

namespace Signature

/-- The type of the functions with this signature. -/
def ty (s : Signature) : Ty := .func s.params s.returns

/-- Sameness of both halves. -/
def same (s t : Signature) : Bool := Ty.sameList s.params t.params && s.returns == t.returns

end Signature

end Croupier
