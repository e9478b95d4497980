import Croupier.Program.Basic

/-!
# Visits

A walk through a program meets every block, statement and expression in the order in which it is
written, and each before its parts. What it meets is a `Visit`. Some constructs are met in more
than one guise: a variable declaration is met as a statement and then as a declaration, a call
as an expression and then as a call, and each arm of an `if` as an arm.

`Stmt.visitsOf` gives the visits as a list. It takes a test that decides which visits are
followed further: the parts of a visit that fails the test are left out, the visit itself stays.
-/

namespace Croupier

/-- Something met on a walk, with its parts. -/
inductive Visit where
  | block (body : List Stmt)
  | statement (s : Stmt)
  | declareVar (v : Var) (init : Expr)
  | declareFunc (f : Func) (body : List Stmt)
  | assign (target source : Expr)
  | returnValue (value : Expr)
  | arm (test : Expr) (body : List Stmt) (orElse : Else)
  | forEach (iterator : Var) (collection : Expr) (body : List Stmt)
  | forTurn (iterator : Var) (low high step : Expr) (direction : Direction) (body : List Stmt)
  | expression (e : Expr)
  | call (callee : Func) (args : List Expr) (ty : Ty)

/-- A visit, and behind it what it leads to if it is followed. -/
def Visit.meet (follow : Visit → Bool) (visit : Visit) (further : List Visit) : List Visit :=
  visit :: if follow visit then further else []

open Visit (meet)

mutual

/-- What a walk through an expression meets. -/
def Expr.visits (follow : Visit → Bool) : Expr → List Visit
  | e@(.int _) | e@(.float _) | e@(.string _) | e@(.bool _) | e@(.var _) | e@(.func _)
  | e@(.emptyArray _) => [.expression e]
  | .array items ty =>
    meet follow (.expression (.array items ty)) (Expr.visitsList follow items)
  | .object members =>
    meet follow (.expression (.object members)) (Expr.visitsMembers follow members)
  | .binary head left right ty =>
    meet follow (.expression (.binary head left right ty))
      (left.visits follow ++ right.visits follow)
  | .unary head operand ty =>
    meet follow (.expression (.unary head operand ty)) (operand.visits follow)
  | .subscript base index ty =>
    meet follow (.expression (.subscript base index ty)) (base.visits follow ++ index.visits follow)
  | .member base field ty =>
    meet follow (.expression (.member base field ty)) (base.visits follow)
  | .call callee args ty =>
    meet follow (.expression (.call callee args ty))
      (meet follow (.call callee args ty) (Expr.visitsList follow args))

/-- What a walk through several expressions meets. -/
def Expr.visitsList (follow : Visit → Bool) : List Expr → List Visit
  | [] => []
  | e :: es => e.visits follow ++ Expr.visitsList follow es

/-- What a walk through the members of an object meets. -/
def Expr.visitsMembers (follow : Visit → Bool) : List (String × Expr) → List Visit
  | [] => []
  | (_, e) :: members => e.visits follow ++ Expr.visitsMembers follow members

end

mutual

/-- What a walk through a statement meets. -/
def Stmt.visits (follow : Visit → Bool) : Stmt → List Visit
  | .declareVar v init =>
    meet follow (.statement (.declareVar v init))
      (meet follow (.declareVar v init) (init.visits follow))
  | .declareFunc f body =>
    meet follow (.statement (.declareFunc f body))
      (meet follow (.declareFunc f body)
        (meet follow (.block body) (Stmt.visitsList follow body)))
  | .assign target source =>
    meet follow (.statement (.assign target source))
      (meet follow (.assign target source) (target.visits follow ++ source.visits follow))
  | .bump op target => meet follow (.statement (.bump op target)) (target.visits follow)
  | .call value => meet follow (.statement (.call value)) (value.visits follow)
  | .breakLoop => [.statement .breakLoop]
  | .returnValue value =>
    meet follow (.statement (.returnValue value))
      (meet follow (.returnValue value) (value.visits follow))
  | .returnNone => [.statement .returnNone]
  | .branch test body orElse =>
    meet follow (.statement (.branch test body orElse))
      (meet follow (.arm test body orElse)
        (test.visits follow ++ meet follow (.block body) (Stmt.visitsList follow body) ++
          orElse.visits follow))
  | .shortBranch test body =>
    meet follow (.statement (.shortBranch test body))
      (test.visits follow ++ meet follow (.block body) (Stmt.visitsList follow body))
  | .whileLoop test body =>
    meet follow (.statement (.whileLoop test body))
      (test.visits follow ++ meet follow (.block body) (Stmt.visitsList follow body))
  | .forEach iterator collection body =>
    meet follow (.statement (.forEach iterator collection body))
      (meet follow (.forEach iterator collection body)
        (collection.visits follow ++ meet follow (.block body) (Stmt.visitsList follow body)))
  | .forTurn iterator low high step direction body =>
    meet follow (.statement (.forTurn iterator low high step direction body))
      (meet follow (.forTurn iterator low high step direction body)
        (low.visits follow ++ high.visits follow ++ step.visits follow ++
          meet follow (.block body) (Stmt.visitsList follow body)))

/-- What a walk through the further arms of an `if` meets. -/
def Else.visits (follow : Visit → Bool) : Else → List Visit
  | .elseIf test body orElse =>
    meet follow (.arm test body orElse)
      (test.visits follow ++ meet follow (.block body) (Stmt.visitsList follow body) ++
        orElse.visits follow)
  | .block body => meet follow (.block body) (Stmt.visitsList follow body)

/-- What a walk through the statements of a block meets. -/
def Stmt.visitsList (follow : Visit → Bool) : List Stmt → List Visit
  | [] => []
  | s :: ss => s.visits follow ++ Stmt.visitsList follow ss

end

/-- What a walk through a block meets, the block itself first. -/
def Stmt.visitsOf (follow : Visit → Bool) (body : List Stmt) : List Visit :=
  meet follow (.block body) (Stmt.visitsList follow body)

end Croupier
