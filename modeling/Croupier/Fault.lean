import Croupier.Library
import Croupier.Source

/-!
# Faults

Why a program is refused. A `Cause` says which rule was broken and by what; a `Fault` adds the
place. The wording is in `Cause.message` and nowhere else.
-/

namespace Croupier

/-- The rules that a program can break. -/
inductive Cause where
  /-- A frame declares a name twice. -/
  | duplicateDeclaration (name : String)
  /-- A parameter list has a name twice. -/
  | duplicateParameter (name : String)
  /-- A name is used that nothing in scope bears. -/
  | undeclared (name : String)
  /-- Something other than a function is called. -/
  | notCallable
  /-- A call passes the wrong number of arguments. -/
  | callArity (expected actual : Nat)
  /-- A turn does not have three arguments. -/
  | turnArity (actual : Nat)
  /-- A truth value is needed. -/
  | notBoolean (found : Ty)
  /-- Something other than a number is moved by one. -/
  | bumpNotNumeric (found : Ty)
  /-- An intrinsic on numbers gets something else. -/
  | argumentNotNumeric (intrinsic : Intrinsic) (found : Ty)
  /-- A subscript is taken of a value without parts. -/
  | notSubscriptable (found : Ty)
  /-- Something is written to that cannot be. -/
  | readOnly (name : String)
  /-- A constant is written to. -/
  | constantReassigned (name : String)
  /-- A function is an operand. -/
  | functionOperand
  /-- Two operands do not go together. -/
  | typeMismatch (left right : Ty)
  /-- A function returns what its author did not ascribe to it. -/
  | returnMismatch (function : String) (expected : List Ty) (found : Ty)
  /-- A recursive function has no type ascribed to its result. -/
  | recursionNeedsReturn (function : String)
  /-- A recursive function has parameters of any type. -/
  | recursionNeedsParams (function : String) (params : List String)
  /-- There is no loop to leave. -/
  | breakOutsideLoop
  /-- There is no function to return from. -/
  | returnOutsideFunction
  /-- A turn would not get anywhere. -/
  | zeroStep

namespace Cause

/-- What the author of a program is told. -/
def message : Cause → String
  | duplicateDeclaration name => "Identifier " ++ name ++ " already declared"
  | duplicateParameter name => "Duplicate parameter name: " ++ name
  | undeclared name => "Identifier " ++ name ++ " not declared"
  | notCallable => "Expected a function call on a function identifier"
  | callArity expected actual =>
    toString expected ++ " argument(s) required but " ++ toString actual ++ " passed"
  | turnArity _ => "TurnCall requires exactly three parameters"
  | notBoolean found => "Expected a boolean value but found " ++ found.text
  | bumpNotNumeric found => "Cannot bump a variable of type " ++ found.text
  | argumentNotNumeric intrinsic found =>
    "Expected a numeric argument to " ++ intrinsic.spelling ++ " but found " ++ found.text
  | notSubscriptable found => "Cannot subscript a value of type " ++ found.text
  | readOnly name => name ++ " is read only"
  | constantReassigned _ =>
    "Can't back out of your all in! (redeclaration of allin(const) variable)"
  | functionOperand => "Functions cannot appear in this context"
  | typeMismatch left right => "Expression type mismatch: " ++ left.text ++ " vs " ++ right.text
  | returnMismatch function expected found =>
    "Function " ++ function ++ " must return one of \x7b" ++
      String.intercalate ", " (Ty.texts expected) ++ "\x7d but returns " ++ found.text
  | recursionNeedsReturn function =>
    "Recursive function " ++ function ++ " requires a return type annotation"
  | recursionNeedsParams function params =>
    "Recursive function " ++ function ++ " requires type annotations on parameters: " ++
      String.intercalate ", " params
  | breakOutsideLoop => "Break statement must be inside a loop"
  | returnOutsideFunction => "Return statement must be inside a function"
  | zeroStep => "Step size must be non-zero"

/-- Two causes that agree in rule and details, types being compared by `Ty.same`. -/
def same : Cause → Cause → Bool
  | duplicateDeclaration m, duplicateDeclaration n => m == n
  | duplicateParameter m, duplicateParameter n => m == n
  | undeclared m, undeclared n => m == n
  | notCallable, notCallable => true
  | callArity e a, callArity f b => e == f && a == b
  | turnArity a, turnArity b => a == b
  | notBoolean s, notBoolean t => s == t
  | bumpNotNumeric s, bumpNotNumeric t => s == t
  | argumentNotNumeric i s, argumentNotNumeric j t => i == j && s == t
  | notSubscriptable s, notSubscriptable t => s == t
  | readOnly m, readOnly n => m == n
  | constantReassigned m, constantReassigned n => m == n
  | functionOperand, functionOperand => true
  | typeMismatch s t, typeMismatch u v => s == u && t == v
  | returnMismatch f es s, returnMismatch g fs t => f == g && Ty.sameList es fs && s == t
  | recursionNeedsReturn f, recursionNeedsReturn g => f == g
  | recursionNeedsParams f ps, recursionNeedsParams g qs => f == g && ps == qs
  | breakOutsideLoop, breakOutsideLoop => true
  | returnOutsideFunction, returnOutsideFunction => true
  | zeroStep, zeroStep => true
  | _, _ => false

end Cause

/-- A broken rule and, where it is known, the place. -/
structure Fault where
  cause : Cause
  span : Option Span

/-- The cause, and the place behind it. -/
def Fault.message (fault : Fault) : String :=
  match fault.span with
  | none => fault.cause.message
  | some span => fault.cause.message ++ " (at " ++ span.text ++ ")"

/-- Text that is no program. -/
structure Unreadable where
  reason : String
  span : Span

/-- The reason, and the place behind it. -/
def Unreadable.message (u : Unreadable) : String := u.reason ++ " (at " ++ u.span.text ++ ")"

/-- Why a text does not compile. -/
inductive Rejection where
  | unreadable (u : Unreadable)
  | faulty (fault : Fault)

/-- What the author of the text is told. -/
def Rejection.message : Rejection → String
  | unreadable u => u.message
  | faulty fault => fault.message

end Croupier
