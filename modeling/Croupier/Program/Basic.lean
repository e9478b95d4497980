import Croupier.Operator
import Croupier.Library

/-!
# Typed programs

A program after all its names have been resolved and all its types computed. Occurrences of
names hold the entity they stand for, and every expression has a type (`Expr.ty`). Compound
expressions keep the type that was computed for them; a function, mentioned by itself, has
whatever type the program's table of settled results gives it.

An expression keeps its type, so changing a part of it never changes the type of the whole. The
functions `Expr.negation`, `Expr.arrayOf`, `Expr.subscriptOf`, `Expr.memberOf` and `Expr.callOf`
build an expression together with the type that belongs to it.
-/

namespace Croupier

/-- What a binary node computes: an operator, or an intrinsic of two arguments. -/
inductive BinaryHead where
  | operator (op : BinaryOperator)
  | intrinsic (i : Intrinsic)
deriving DecidableEq

/-- What a unary node computes: an operator, or an intrinsic of one argument. -/
inductive UnaryHead where
  | operator (op : UnaryOperator)
  | intrinsic (i : Intrinsic)
deriving DecidableEq

/-- The way in which a turn counts. -/
inductive Direction where
  | ascending
  | descending
deriving DecidableEq

namespace Direction

/-- How a direction is written. -/
def spelling : Direction → String
  | ascending => "ascending"
  | descending => "descending"

/-- A turn goes on while its iterator stands in this relation to the upper bound. -/
def operator : Direction → BinaryOperator
  | ascending => .less
  | descending => .greater

end Direction

/-- A typed expression. -/
inductive Expr where
  | int (value : Int)
  | float (value : Float)
  | string (value : String)
  | bool (value : Bool)
  | var (v : Var)
  | func (f : Func)
  | array (items : List Expr) (ty : Ty)
  | emptyArray (element : Ty)
  | object (members : List (String × Expr))
  | binary (head : BinaryHead) (left right : Expr) (ty : Ty)
  | unary (head : UnaryHead) (operand : Expr) (ty : Ty)
  | subscript (base index : Expr) (ty : Ty)
  | member (base : Expr) (field : String) (ty : Ty)
  | call (callee : Func) (args : List Expr) (ty : Ty)

mutual

/-- A typed statement. -/
inductive Stmt where
  | declareVar (v : Var) (init : Expr)
  | declareFunc (f : Func) (body : List Stmt)
  | assign (target source : Expr)
  | bump (op : BumpOperator) (target : Expr)
  /-- An expression evaluated for its effect. -/
  | call (value : Expr)
  | breakLoop
  | returnValue (value : Expr)
  | returnNone
  /-- An `if` with something behind its first arm. -/
  | branch (test : Expr) (body : List Stmt) (orElse : Else)
  /-- An `if` with one arm. -/
  | shortBranch (test : Expr) (body : List Stmt)
  | whileLoop (test : Expr) (body : List Stmt)
  | forEach (iterator : Var) (collection : Expr) (body : List Stmt)
  | forTurn (iterator : Var) (low high step : Expr) (direction : Direction) (body : List Stmt)

/-- What follows an arm of an `if`. -/
inductive Else where
  | elseIf (test : Expr) (body : List Stmt) (orElse : Else)
  | block (body : List Stmt)

end

/-- A typed program: its statements, and the settled result types of the functions that it
declares. -/
structure Program where
  body : List Stmt
  returns : Returns

namespace Expr

/-- The type of an expression. -/
def ty (returns : Returns) : Expr → Ty
  | int _ => .int
  | float _ => .float
  | string _ => .string
  | bool _ => .boolean
  | var v => v.ty
  | func f => f.ty returns
  | array _ t => t
  | emptyArray t => .array t
  | object _ => .any
  | binary _ _ _ t => t
  | unary _ _ t => t
  | subscript _ _ t => t
  | member _ _ t => t
  | call _ _ t => t

/-- The expression that denotes an entity. -/
def ofEntity : Entity → Expr
  | .var v => var v
  | .func f => func f

/-- The negation of an expression has its operand's type. -/
def negation (returns : Returns) (operand : Expr) : Expr :=
  unary (.operator .negate) operand (operand.ty returns)

/-- An array has the element type of its first item, and of anything when it has none. -/
def arrayOf (returns : Returns) : List Expr → Expr
  | [] => emptyArray .any
  | item :: items => array (item :: items) (.array (item.ty returns))

/-- A subscript has the element type of what it is taken of. -/
def subscriptOf (returns : Returns) (base index : Expr) : Expr :=
  subscript base index (base.ty returns).element

/-- Nothing is known of the members of an object. -/
def memberOf (base : Expr) (field : String) : Expr := member base field .any

/-- A call of a function. Calling an intrinsic with one or two arguments is an operation of its
own. -/
def callOf (returns : Returns) (callee : Func) (args : List Expr) : Expr :=
  match callee.intrinsic?, args with
  | some i, [x] => unary (.intrinsic i) x (callee.returnTy returns)
  | some i, [x, y] => binary (.intrinsic i) x y (callee.returnTy returns)
  | _, _ => call callee args (callee.returnTy returns)

def isNumericLiteral : Expr → Bool
  | int _ | float _ => true
  | _ => false

def isFunc : Expr → Bool
  | func _ => true
  | _ => false

/-- Both expressions are occurrences of one entity. -/
def sameReference : Expr → Expr → Bool
  | var v, var w => v.id == w.id
  | func f, func g => f.id == g.id
  | _, _ => false

end Expr

end Croupier
