import Croupier.Lowering.Func
import Croupier.Lowering.Session

/-!
# Lowering programs

From a program as written to a typed one, statement by statement and from top to bottom. Every
declaration takes a fresh number and is bound in the innermost frame; the bodies of functions
and loops get frames of their own, the arms of an `if` do not. The first broken rule ends the
work.

A function settles its result when its body has been read, and no sooner: mentions of it within
its own body see only what was ascribed.
-/

namespace Croupier

/-! ### Rules -/

/-- A frame declares a name only once. -/
def checkUndeclared (scope : Scope) (name : Ident) : Except Fault Unit :=
  if scope.has name.name then refuse (.duplicateDeclaration name.name) name.span else .ok ()

/-- Only a loop can be left. -/
def checkInLoop (scope : Scope) (span : Span) : Except Fault Unit :=
  if scope.inLoop then .ok () else refuse .breakOutsideLoop span

/-- Only a function can be returned from. -/
def checkInFunction (scope : Scope) (span : Span) : Except Fault Unit :=
  if scope.inFunction then .ok () else refuse .returnOutsideFunction span

/-- The variable whose storage a target lies in. -/
def Expr.rootVar? : Expr → Option Var
  | .var v => some v
  | .subscript base _ _ => base.rootVar?
  | .member base _ _ => base.rootVar?
  | _ => none

/-- Only what lies in a mutable variable can be written to. -/
def checkAssignable (target : Expr) (span : Span) : Except Fault Unit :=
  match target.rootVar? with
  | some v =>
    match v.access with
    | .mutable => .ok ()
    | .constant => refuse (.constantReassigned v.name) span
    | .readOnly => refuse (.readOnly v.name) span
  | none =>
    match target with
    | .func f => refuse (.readOnly f.name) span
    | _ => refuse (.readOnly "expression") span

/-- Only a number can be moved by one. -/
def checkBump (returns : Returns) (target : Expr) (span : Span) : Except Fault Unit :=
  if (target.ty returns).mayBeNumeric then .ok ()
  else refuse (.bumpNotNumeric (target.ty returns)) span

/-- The sign of a number that is written out, negations included. -/
def Expr.literalSign? : Expr → Option Ordering
  | .int n => some (compare n 0)
  | .float x => some (if x == 0.0 then .eq else if x < 0.0 then .lt else .gt)
  | .unary (.operator .negate) operand _ => operand.literalSign?.map Ordering.swap
  | _ => none

/-- A turn counts down when its step is written as a negative number, and up otherwise. A step
written as zero is refused. -/
def turnDirection (step : Expr) (span : Span) : Except Fault Direction :=
  match step.literalSign? with
  | some .eq => refuse .zeroStep span
  | some .lt => .ok .descending
  | some .gt | none => .ok .ascending

/-- The iterator of a turn is a number when its bounds are. -/
def turnTy (low high : Ty) : Ty := ((low.promote high).filter Ty.isNumeric).getD .any

/-! ### Statements -/

namespace Source

open Lowering

mutual

/-- The typed form of a statement, and the scope behind it. -/
def Stmt.lower (strictness : Strictness) (scope : Scope) : Stmt → Lowering (Croupier.Stmt × Scope)
  | .declareVar _ constant name init => do
    checked (checkUndeclared scope name)
    let init ← reading strictness scope init.lower
    let returns ← settled
    let id ← reserve 1
    let v : Var := ⟨id, name.name, if constant then .constant else .mutable, init.ty returns⟩
    return (.declareVar v init, scope.bind name.name (.var v))
  | .declareFunc span name params paramsSpan ascribed body => do
    checked (checkUndeclared scope name)
    checked (checkParams params)
    let id ← reserve (params.length + 1)
    let vars := paramVars (id + 1) params
    let f : Func := ⟨id, name.name, .declared vars (ascribed.map Ascription.ty)⟩
    let scope := scope.bind name.name (.func f)
    let (body, _) ← Stmt.lowerList strictness (scope.pushFunction.bindAll vars) body
    checked (checkRecursion f body name params paramsSpan ascribed)
    let returns ← settled
    let result ← checked (reconcile name.name ascribed (returnTypes returns body) span)
    settle id result
    return (.declareFunc f body, scope)
  | .bump span op target => do
    let target ← reading strictness scope target.lower
    let returns ← settled
    checked (checkBump returns target span)
    checked (checkAssignable target span)
    return (.bump op target, scope)
  | .assign span target source => do
    let target ← reading strictness scope target.lower
    checked (checkAssignable target span)
    let source ← reading strictness scope source.lower
    return (.assign target source, scope)
  | .call _ value => do
    let value ← reading strictness scope value.lower
    return (.call value, scope)
  | .breakLoop span => do
    checked (checkInLoop scope span)
    return (.breakLoop, scope)
  | .returnValue span value => do
    checked (checkInFunction scope span)
    let value ← reading strictness scope value.lower
    return (.returnValue value, scope)
  | .returnNone span => do
    checked (checkInFunction scope span)
    return (.returnNone, scope)
  | .branch _ test body .nothing => do
    let test ← reading strictness scope test.lowerCondition
    let (body, scope) ← Stmt.lowerList strictness scope body
    return (.shortBranch test body, scope)
  | .branch _ test body orElse => do
    let test ← reading strictness scope test.lowerCondition
    let (body, scope) ← Stmt.lowerList strictness scope body
    let (orElse, scope) ← Else.lower strictness scope orElse
    return (.branch test body orElse, scope)
  | .whileLoop _ test body => do
    let test ← reading strictness scope test.lowerCondition
    let (body, _) ← Stmt.lowerList strictness scope.pushLoop body
    return (.whileLoop test body, scope)
  | .forEach _ iterator collection body => do
    let collection ← reading strictness scope collection.lower
    let returns ← settled
    let id ← reserve 1
    let v : Var := ⟨id, iterator.name, .mutable, (collection.ty returns).element⟩
    let (body, _) ← Stmt.lowerList strictness (scope.pushLoop.bind iterator.name (.var v)) body
    return (.forEach v collection body, scope)
  | .forTurn _ iterator _ [low, high, step] body => do
    let place := step.span
    let low ← reading strictness scope low.lower
    let high ← reading strictness scope high.lower
    let step ← reading strictness scope step.lower
    let direction ← checked (turnDirection step place)
    let returns ← settled
    let id ← reserve 1
    let v : Var := ⟨id, iterator.name, .mutable, turnTy (low.ty returns) (high.ty returns)⟩
    let (body, _) ← Stmt.lowerList strictness (scope.pushLoop.bind iterator.name (.var v)) body
    return (.forTurn v low high step direction body, scope)
  | .forTurn _ _ turnSpan args _ => checked (refuse (.turnArity args.length) turnSpan)

/-- The typed form of what follows an arm, and the scope behind it. -/
def Else.lower (strictness : Strictness) (scope : Scope) : Else → Lowering (Croupier.Else × Scope)
  | .nothing => return (.block [], scope)
  | .elseIf test body orElse => do
    let test ← reading strictness scope test.lowerCondition
    let (body, scope) ← Stmt.lowerList strictness scope body
    let (orElse, scope) ← Else.lower strictness scope orElse
    return (.elseIf test body orElse, scope)
  | .block body => do
    let (body, scope) ← Stmt.lowerList strictness scope body
    return (.block body, scope)

/-- The typed forms of statements that follow each other, and the scope behind the last. -/
def Stmt.lowerList (strictness : Strictness) (scope : Scope) :
    List Stmt → Lowering (List Croupier.Stmt × Scope)
  | [] => return ([], scope)
  | s :: ss => do
    let (first, scope) ← Stmt.lower strictness scope s
    let (rest, scope) ← Stmt.lowerList strictness scope ss
    return (first :: rest, scope)

end

end Source

/-- The scope in which the statements of a program are read. -/
def Scope.program : Scope := Scope.root.push

/-- Checks a program and gives it types, or says which rule it breaks first. -/
def Source.lower (strictness : Strictness) (tree : List Source.Stmt) : Except Fault Program :=
  match Source.Stmt.lowerList strictness Scope.program tree Session.initial with
  | .ok (body, _) session => .ok ⟨body, session.returns⟩
  | .error fault _ => .error fault

end Croupier
