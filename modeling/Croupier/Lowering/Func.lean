import Croupier.Lowering.Expr
import Croupier.Program.Visit

/-!
# Lowering functions

The rules for a declared function once its body is typed. A function without an ascribed result
returns the union of what its `return` statements give (`Ty.unionOf` over `returnTypes`); with
one, each of them has to be admitted by it (`reconcile`). A function that calls itself is typed
before its result is known, so it has to be ascribed in full (`checkRecursion`).
-/

namespace Croupier

namespace Source.Param

/-- The type of a parameter: what is ascribed to it, or `any`. -/
def ty (p : Param) : Ty :=
  match p.ascribed with
  | none => .any
  | some names => names.ty

end Source.Param

open Source (Param)

/-- The first parameter whose name is among `seen` or stands earlier in the list. -/
def firstRepeated (seen : List String) : List Param → Option Ident
  | [] => none
  | p :: ps =>
    if seen.contains p.name.name then some p.name else firstRepeated (p.name.name :: seen) ps

/-- The names of parameters have to differ. -/
def checkParams (params : List Param) : Except Fault Unit :=
  match firstRepeated [] params with
  | some name => refuse (.duplicateParameter name.name) name.span
  | none => .ok ()

/-- The variables of a parameter list, numbered from `id` on. -/
def paramVars (id : Nat) : List Param → List Var
  | [] => []
  | p :: ps => ⟨id, p.name.name, .readOnly, p.ty⟩ :: paramVars (id + 1) ps

/-! ### Recursion -/

/-- Whether a call of the function occurs anywhere in a body, nested functions included. -/
def callsItself (f : Func) (body : List Stmt) : Bool :=
  (Stmt.visitsOf (fun _ => true) body).any fun
    | .call callee _ _ => callee.id == f.id
    | _ => false

/-- A function in full: with a result type, and parameters narrower than `any`. -/
def checkAscribed (name : Ident) (params : List Param) (paramsSpan : Span)
    (ascribed : Option Ascription) : Except Fault Unit :=
  match ascribed with
  | none => refuse (.recursionNeedsReturn name.name) name.span
  | some _ =>
    match (params.filter (·.ty.isAny)).map (·.name.name) with
    | [] => .ok ()
    | missing => refuse (.recursionNeedsParams name.name missing) paramsSpan

/-- A function that calls itself has to be ascribed in full. -/
def checkRecursion (f : Func) (body : List Stmt) (name : Ident) (params : List Param)
    (paramsSpan : Span) (ascribed : Option Ascription) : Except Fault Unit :=
  if callsItself f body then checkAscribed name params paramsSpan ascribed else .ok ()

/-! ### Results -/

/-- The types that the `return` statements of a body give, in the order in which they are
written. Those of nested functions belong to them. -/
def returnTypes (returns : Returns) (body : List Stmt) : List Ty :=
  let follow : Visit → Bool
    | .declareFunc _ _ | .returnValue _ | .expression _ => false
    | _ => true
  (Stmt.visitsOf follow body).filterMap fun
    | .returnValue value => some (value.ty returns)
    | _ => none

/-- Whether each member of a type is compatible with an expected one. -/
def Ty.admittedBy (expected : List Ty) (found : Ty) : Bool :=
  (Ty.flatten [found]).all (fun member => expected.any (fun t => t.compatible member))

/-- The result type of a function whose `return` statements give the types `returned`. -/
def reconcile (function : String) (ascribed : Option Ascription) (returned : List Ty)
    (span : Span) : Except Fault Ty :=
  match ascribed with
  | none => .ok (Ty.unionOf returned)
  | some names =>
    match returned.find? (fun found => !found.admittedBy names.members) with
    | some found => refuse (.returnMismatch function names.members found) span
    | none => .ok names.ty

end Croupier
