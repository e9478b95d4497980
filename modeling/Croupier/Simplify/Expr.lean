import Croupier.Simplify.Numeral

/-!
# Simplifying expressions

One pass over an expression, from the leaves upward. Operations on literals are carried out
(`BinaryOperator.fold`), operations that leave one operand as it is are dropped
(`simplifyOperation`), and an `and` or `or` with a literal operand is decided (`shortCircuit?`).
The types kept in an expression stay as they are.
-/

namespace Croupier

namespace Expr

def isZero (e : Expr) : Bool := ((Numeral.ofExpr? e).map Numeral.isZero).getD false

def isOne (e : Expr) : Bool := ((Numeral.ofExpr? e).map Numeral.isOne).getD false

end Expr

/-- What becomes of an `and` or `or` with a literal operand. -/
inductive ShortCircuit where
  /-- The literal decides. -/
  | decided (value : Bool)
  /-- The left operand decides. -/
  | left
  /-- The right operand decides. -/
  | right
deriving DecidableEq

/-- The truth value that decides a logical operator on its own, from either side. -/
def BinaryOperator.absorbing? : BinaryOperator → Option Bool
  | .and => some false
  | .or => some true
  | _ => none

/-- A literal operand that is absorbing decides; any other leaves the decision to its partner. -/
def shortCircuit? (op : BinaryOperator) (left right : Expr) : Option ShortCircuit :=
  match op.absorbing? with
  | none => none
  | some absorbing =>
    match left, right with
    | .bool a, .bool b =>
      if a = absorbing ∨ b = absorbing then some (.decided absorbing) else some .right
    | .bool a, _ => if a = absorbing then some (.decided absorbing) else some .right
    | _, .bool b => if b = absorbing then some (.decided absorbing) else some .left
    | _, _ => none

/-- Drops an operation that has no effect beside a literal `0` or `1`. -/
def simplifyIdentity (returns : Returns) (op : BinaryOperator) (left right : Expr) (ty : Ty) :
    Expr :=
  let kept : Expr := .binary (.operator op) left right ty
  match op with
  | .add => if right.isZero then left else if left.isZero then right else kept
  | .subtract =>
    if right.isZero then left else if left.isZero then .negation returns right else kept
  | .multiply =>
    if right.isOne then left
    else if left.isOne then right
    else if left.isZero || right.isZero then .int 0
    else kept
  | .divide => if right.isOne then left else if left.isZero then .int 0 else kept
  | .power => if right.isZero || left.isOne then .int 1 else if right.isOne then left else kept
  | _ => kept

/-- An operation on simplified operands: carried out on literals, or dropped, or kept. -/
def simplifyOperation (returns : Returns) (op : BinaryOperator) (left right : Expr) (ty : Ty) :
    Expr :=
  match Numeral.ofExpr? left, Numeral.ofExpr? right with
  | some a, some b => (op.fold a b).getD (simplifyIdentity returns op left right ty)
  | _, _ => simplifyIdentity returns op left right ty

/-- An operation on one simplified operand: the sign of a literal is changed on the spot. -/
def simplifyUnary (head : UnaryHead) (operand : Expr) (ty : Ty) : Expr :=
  match head, Numeral.ofExpr? operand with
  | .operator .negate, some n => n.negate.expr
  | _, _ => .unary head operand ty

mutual

/-- The simplified form of an expression. Variables named `true` and `false` are the truth
values. An `and` or `or` is decided by the operands as they were before they are simplified
themselves. -/
def Expr.simplify (returns : Returns) : Expr → Expr
  | .var v =>
    if v.name == "true" then .bool true else if v.name == "false" then .bool false else .var v
  | .binary (.intrinsic i) left right ty =>
    .binary (.intrinsic i) (Expr.simplify returns left) (Expr.simplify returns right) ty
  | .binary (.operator op) left right ty =>
    match shortCircuit? op left right with
    | some (.decided value) => .bool value
    | some .left => Expr.simplify returns left
    | some .right => Expr.simplify returns right
    | none =>
      simplifyOperation returns op (Expr.simplify returns left) (Expr.simplify returns right) ty
  | .unary head operand ty => simplifyUnary head (Expr.simplify returns operand) ty
  | .array items ty => .array (Expr.simplifyList returns items) ty
  | .object members => .object (Expr.simplifyMembers returns members)
  | .subscript base index ty =>
    .subscript (Expr.simplify returns base) (Expr.simplify returns index) ty
  | .member base field ty => .member (Expr.simplify returns base) field ty
  | .call callee args ty => .call callee (Expr.simplifyList returns args) ty
  | e@(.int _) | e@(.float _) | e@(.string _) | e@(.bool _) | e@(.func _) | e@(.emptyArray _) => e

/-- The simplified forms of several expressions. -/
def Expr.simplifyList (returns : Returns) : List Expr → List Expr
  | [] => []
  | e :: es => Expr.simplify returns e :: Expr.simplifyList returns es

/-- The simplified forms of the members of an object. -/
def Expr.simplifyMembers (returns : Returns) : List (String × Expr) → List (String × Expr)
  | [] => []
  | (key, e) :: members => (key, Expr.simplify returns e) :: Expr.simplifyMembers returns members

end

end Croupier
