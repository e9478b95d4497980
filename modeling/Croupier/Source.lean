import Croupier.Ty
import Croupier.Operator

/-!
# Source trees

Programs as their author wrote them: identifiers are names, types appear only where they are
ascribed, and every construct knows where it stands in the text. Nothing about a source tree has
been checked.
-/

namespace Croupier

/-- A stretch of the program text, in bytes, `stop` excluded. -/
structure Span where
  start : Nat
  stop : Nat
deriving DecidableEq

/-- A stretch of text as it is shown to users. -/
def Span.text (s : Span) : String := toString s.start ++ ".." ++ toString s.stop

/-- A name together with its place. -/
structure Ident where
  name : String
  span : Span
deriving DecidableEq

/-- The type names that a program can write. -/
inductive TypeName where
  | int
  | float
  | bool
  | string
  | any
deriving DecidableEq

namespace TypeName

/-- All type names. -/
def all : List TypeName := [int, float, bool, string, any]

/-- How a type name is written. -/
def spelling : TypeName → String
  | int => "Int"
  | float => "Float"
  | bool => "Bool"
  | string => "String"
  | any => "Any"

/-- The type name that is written in a given way. -/
def ofSpelling? (text : String) : Option TypeName := all.find? (·.spelling == text)

/-- Every name of a type is found under its own spelling. -/
theorem ofSpelling?_spelling (n : TypeName) : ofSpelling? n.spelling = some n := by
  cases n <;> decide

/-- The built-in type behind a type name. -/
def prim : TypeName → Prim
  | int => .int
  | float => .float
  | bool => .boolean
  | string => .string
  | any => .any

end TypeName

/-- The type names ascribed to a parameter or a result: a value of any of them will do. -/
abbrev Ascription := List TypeName

namespace Ascription

/-- The distinct types that an ascription admits. -/
def members (names : Ascription) : List Ty := Ty.flatten (names.map (fun n => .prim n.prim))

/-- The type that an ascription stands for. -/
def ty (names : Ascription) : Ty := Ty.unionOf (members names)

end Ascription

namespace Source

/-- A parameter of a function, with what its author says of its type. -/
structure Param where
  name : Ident
  ascribed : Option Ascription

/-- An expression as written. -/
inductive Expr where
  | int (span : Span) (value : Int)
  | float (span : Span) (value : Float)
  | string (span : Span) (value : String)
  | bool (span : Span) (value : Bool)
  | ident (span : Span) (name : Ident)
  | binary (span : Span) (op : BinaryOperator) (left right : Expr)
  | unary (span : Span) (op : UnaryOperator) (operand : Expr)
  | call (span : Span) (callee : Expr) (args : List Expr)
  | subscript (span : Span) (base index : Expr)
  | member (span : Span) (base : Expr) (field : String)
  | array (span : Span) (items : List Expr)
  | object (span : Span) (members : List (String × Expr))

/-- Where an expression stands. -/
def Expr.span : Expr → Span
  | int s _ | float s _ | string s _ | bool s _ | ident s _ | binary s _ _ _ | unary s _ _
  | call s _ _ | subscript s _ _ | member s _ _ | array s _ | object s _ => s

mutual

/-- A statement as written. -/
inductive Stmt where
  /-- `hand x = init`, or `all in x = init` for a constant. -/
  | declareVar (span : Span) (constant : Bool) (name : Ident) (init : Expr)
  /-- `deal f(params) -> ascribed`; `paramsSpan` is the place of the whole parameter list. -/
  | declareFunc (span : Span) (name : Ident) (params : List Param) (paramsSpan : Span)
      (ascribed : Option Ascription) (body : List Stmt)
  | bump (span : Span) (op : BumpOperator) (target : Expr)
  | assign (span : Span) (target source : Expr)
  /-- An expression evaluated for its effect. -/
  | call (span : Span) (value : Expr)
  | breakLoop (span : Span)
  | returnValue (span : Span) (value : Expr)
  | returnNone (span : Span)
  | branch (span : Span) (test : Expr) (body : List Stmt) (orElse : Else)
  | whileLoop (span : Span) (test : Expr) (body : List Stmt)
  | forEach (span : Span) (iterator : Ident) (collection : Expr) (body : List Stmt)
  /-- `for i in turn(args)`; `turnSpan` is the place of `turn(args)`. -/
  | forTurn (span : Span) (iterator : Ident) (turnSpan : Span) (args : List Expr) (body : List Stmt)

/-- What follows the first arm of an `if`. -/
inductive Else where
  | nothing
  | elseIf (test : Expr) (body : List Stmt) (orElse : Else)
  | block (body : List Stmt)

end

end Source

/-! ### Trees without places -/

/-- The place of what has none. -/
def Span.none : Span := ⟨0, 0⟩

namespace Source

/-- A name without a place. -/
def label (name : String) : Ident := ⟨name, .none⟩

/-- The mention of a name. -/
def mention (name : String) : Expr := .ident .none (label name)

/-- A whole number. -/
def number (n : Int) : Expr := .int .none n

/-- `hand name = init`. -/
def declare (name : String) (init : Expr) : Stmt := .declareVar .none false (label name) init

end Source

end Croupier
