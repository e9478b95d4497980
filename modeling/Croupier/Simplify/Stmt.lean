import Croupier.Simplify.Expr

/-!
# Simplifying programs

One pass over a program. Expressions are simplified, and statements that can have no effect
disappear: an assignment of a variable to itself, a branch that is not taken, a loop that never
runs. A statement is replaced by a list of statements, because a branch that is always taken
leaves its body in place.
-/

namespace Croupier

/-- What an assignment leaves when its parts are simplified: nothing, if it assigns to itself. -/
def simplifyAssign (target source : Expr) : List Stmt :=
  if source.sameReference target then [] else [.assign target source]

/-- What an `if` leaves when its parts are simplified: the arm that is taken, if that is known. -/
def simplifyBranch (test : Expr) (body : List Stmt) (orElse : Else) : List Stmt :=
  match test with
  | .bool true => body
  | .bool false =>
    match orElse with
    | .elseIf test body orElse => [.branch test body orElse]
    | .block body => body
  | _ => [.branch test body orElse]

/-- What an `if` with one arm leaves. -/
def simplifyShortBranch (test : Expr) (body : List Stmt) : List Stmt :=
  match test with
  | .bool true => body
  | .bool false => []
  | _ => [.shortBranch test body]

/-- The statements behind an arm: an `if` on its own goes on as a further arm. -/
def Else.ofList : List Stmt → Else
  | [.branch test body orElse] => .elseIf test body orElse
  | body => .block body

/-- What a `while` leaves: nothing, if its test is the literal `false`. -/
def simplifyWhile (test : Expr) (body : List Stmt) : List Stmt :=
  match test with
  | .bool false => []
  | _ => [.whileLoop test body]

/-- What a loop over a collection leaves: nothing, if there is nothing in it. -/
def simplifyForEach (iterator : Var) (collection : Expr) (body : List Stmt) : List Stmt :=
  match collection with
  | .emptyArray _ => []
  | _ => [.forEach iterator collection body]

/-- Whether a turn between two literals is over before it starts. -/
def turnIsOver (direction : Direction) (low high : Expr) : Bool :=
  match Numeral.ofExpr? low, Numeral.ofExpr? high with
  | some l, some h =>
    match direction with
    | .ascending => l.compare? h == some .gt
    | .descending => l.compare? h == some .lt
  | _, _ => false

/-- What a turn leaves: nothing, if it is over before it starts. -/
def simplifyForTurn (iterator : Var) (low high step : Expr) (direction : Direction)
    (body : List Stmt) : List Stmt :=
  if turnIsOver direction low high then [] else [.forTurn iterator low high step direction body]

mutual

/-- The statements that a statement leaves. -/
def Stmt.simplify (returns : Returns) : Stmt → List Stmt
  | .declareVar v init => [.declareVar v (init.simplify returns)]
  | .declareFunc f body => [.declareFunc f (Stmt.simplifyList returns body)]
  | .assign target source => simplifyAssign (target.simplify returns) (source.simplify returns)
  | .bump op target => [.bump op (target.simplify returns)]
  | .call value => [.call (value.simplify returns)]
  | .breakLoop => [.breakLoop]
  | .returnValue value => [.returnValue (value.simplify returns)]
  | .returnNone => [.returnNone]
  | .branch test body orElse =>
    simplifyBranch (test.simplify returns) (Stmt.simplifyList returns body)
      (Else.simplify returns orElse)
  | .shortBranch test body =>
    simplifyShortBranch (test.simplify returns) (Stmt.simplifyList returns body)
  | .whileLoop test body => simplifyWhile (test.simplify returns) (Stmt.simplifyList returns body)
  | .forEach iterator collection body =>
    simplifyForEach iterator (collection.simplify returns) (Stmt.simplifyList returns body)
  | .forTurn iterator low high step direction body =>
    simplifyForTurn iterator (low.simplify returns) (high.simplify returns) (step.simplify returns)
      direction (Stmt.simplifyList returns body)

/-- The arms that the further arms of an `if` leave. -/
def Else.simplify (returns : Returns) : Else → Else
  | .elseIf test body orElse =>
    Else.ofList (simplifyBranch (test.simplify returns) (Stmt.simplifyList returns body)
      (Else.simplify returns orElse))
  | .block body => .block (Stmt.simplifyList returns body)

/-- The statements that a block leaves. -/
def Stmt.simplifyList (returns : Returns) : List Stmt → List Stmt
  | [] => []
  | s :: ss => Stmt.simplify returns s ++ Stmt.simplifyList returns ss

end

/-- One pass over a program. -/
def Program.simplify (p : Program) : Program :=
  { p with body := Stmt.simplifyList p.returns p.body }

end Croupier
