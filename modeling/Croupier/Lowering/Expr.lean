import Croupier.Program.Basic
import Croupier.Fault
import Croupier.Scope

/-!
# Lowering expressions

From an expression as written to a typed one. Names are looked up in the scope, types are
computed from the parts upward, and the first broken rule ends the work: parts are read from
left to right, and the rules for a construct are checked when its parts are done. The one
exception is a subscript, whose base is checked before its index is read.
-/

namespace Croupier

/-- How `and` and `or` treat operands that are not truth values. -/
inductive Strictness where
  | lenient
  | strict
deriving DecidableEq

namespace Strictness

/-- Both ways. -/
def all : List Strictness := [lenient, strict]

/-- How a strictness is written. -/
def spelling : Strictness → String
  | lenient => "lenient"
  | strict => "strict"

/-- The strictness that is written in a given way. -/
def ofSpelling? (text : String) : Option Strictness := all.find? (·.spelling == text)

/-- Every level of strictness is found under its own spelling. -/
theorem ofSpelling?_spelling (s : Strictness) : ofSpelling? s.spelling = some s := by
  cases s <;> decide

end Strictness

/-- What an expression is read against: the scope, the result types settled so far, and how
strictly. -/
structure Setting where
  strictness : Strictness
  returns : Returns
  scope : Scope

/-- Refuses a program. -/
def refuse {α : Type} (cause : Cause) (span : Span) : Except Fault α := .error ⟨cause, some span⟩

/-! ### Rules -/

/-- A truth value is wanted. -/
def checkBoolean (returns : Returns) (e : Expr) (span : Span) : Except Fault Unit :=
  if (e.ty returns).compatible .boolean then .ok () else refuse (.notBoolean (e.ty returns)) span

/-- The operands of arithmetic and of comparisons have to go together. -/
def checkOperands (returns : Returns) (left right : Expr) (span : Span) : Except Fault Unit :=
  let l := left.ty returns
  let r := right.ty returns
  if left.isFunc || right.isFunc then refuse .functionOperand span
  else if l.compatible r || (l.promote r).isSome then .ok ()
  else refuse (.typeMismatch l r) span

/-- Operands of `and` and `or` have to be truth values when it is taken strictly. -/
def checkLogical (setting : Setting) (left right : Expr) (span : Span) : Except Fault Unit :=
  match setting.strictness with
  | .lenient => .ok ()
  | .strict => do
    checkBoolean setting.returns left span
    checkBoolean setting.returns right span

/-- The type of an operation, provided that its operands are fit for it. -/
def binaryTy (setting : Setting) (op : BinaryOperator) (left right : Expr) (span : Span) :
    Except Fault Ty :=
  match op.opClass with
  | .arithmetic => do
    checkOperands setting.returns left right span
    return ((left.ty setting.returns).promote (right.ty setting.returns)).getD .any
  | .comparison => do
    checkOperands setting.returns left right span
    return .boolean
  | .logical => do
    checkLogical setting left right span
    return .boolean

/-- A subscript can be taken of anything that may have parts. -/
def checkSubscriptable (returns : Returns) (base : Expr) (span : Span) : Except Fault Unit :=
  if (base.ty returns).isScalar then refuse (.notSubscriptable (base.ty returns)) span else .ok ()

/-- A call passes as many arguments as the function takes. -/
def checkArity (f : Func) (actual : Nat) (span : Span) : Except Fault Unit :=
  if f.isVariadic || actual == f.arity then .ok () else refuse (.callArity f.arity actual) span

/-- The first argument that cannot be a number, with its place. -/
def firstNonNumeric (returns : Returns) : List (Expr × Span) → Option (Ty × Span)
  | [] => none
  | (e, span) :: rest =>
    if (e.ty returns).mayBeNumeric then firstNonNumeric returns rest else some (e.ty returns, span)

/-- An intrinsic on numbers takes only what may be a number; other functions take anything.
`places` are the places of the arguments. -/
def checkArguments (returns : Returns) (f : Func) (args : List Expr) (places : List Span) :
    Except Fault Unit :=
  match f.intrinsic? with
  | some i =>
    if i.wantsNumbers then
      match firstNonNumeric returns (args.zip places) with
      | some (found, place) => refuse (.argumentNotNumeric i found) place
      | none => .ok ()
    else .ok ()
  | none => .ok ()

/-- The call of an expression with arguments: only a function can be called, with as many
arguments as it takes and with arguments that are fit for it. -/
def callOn (returns : Returns) (callee : Expr) (args : List Expr) (places : List Span)
    (span : Span) : Except Fault Expr :=
  match callee with
  | .func f => do
    checkArity f args.length span
    checkArguments returns f args places
    return .callOf returns f args
  | _ => refuse .notCallable span

/-! ### Expressions -/

namespace Source

mutual

/-- The typed form of an expression. -/
def Expr.lower (setting : Setting) : Expr → Except Fault Croupier.Expr
  | .int _ value => .ok (.int value)
  | .float _ value => .ok (.float value)
  | .string _ value => .ok (.string value)
  | .bool _ value => .ok (.bool value)
  | .ident _ name =>
    match setting.scope.lookup name.name with
    | some entity => .ok (.ofEntity entity)
    | none => refuse (.undeclared name.name) name.span
  | .binary span op left right => do
    let left ← Expr.lower setting left
    let right ← Expr.lower setting right
    let ty ← binaryTy setting op left right span
    return .binary (.operator op) left right ty
  | .unary _ op operand => do
    let operand ← Expr.lower setting operand
    return .unary (.operator op) operand (operand.ty setting.returns)
  | .call span callee args => do
    let callee ← Expr.lower setting callee
    let lowered ← Expr.lowerList setting args
    callOn setting.returns callee lowered (args.map Expr.span) span
  | .subscript _ base index => do
    let array ← Expr.lower setting base
    checkSubscriptable setting.returns array base.span
    let index ← Expr.lower setting index
    return .subscriptOf setting.returns array index
  | .member _ base field => do
    let base ← Expr.lower setting base
    return .memberOf base field
  | .array _ items => do
    let items ← Expr.lowerList setting items
    return .arrayOf setting.returns items
  | .object _ members => do
    let members ← Expr.lowerMembers setting members
    return .object members

/-- The typed forms of several expressions. -/
def Expr.lowerList (setting : Setting) : List Expr → Except Fault (List Croupier.Expr)
  | [] => .ok []
  | e :: es => do
    let first ← Expr.lower setting e
    let rest ← Expr.lowerList setting es
    return first :: rest

/-- The typed forms of the members of an object. -/
def Expr.lowerMembers (setting : Setting) :
    List (String × Expr) → Except Fault (List (String × Croupier.Expr))
  | [] => .ok []
  | (key, e) :: members => do
    let value ← Expr.lower setting e
    let rest ← Expr.lowerMembers setting members
    return (key, value) :: rest

end

/-- The typed form of a condition, which has to be a truth value. -/
def Expr.lowerCondition (setting : Setting) (e : Expr) : Except Fault Croupier.Expr := do
  let test ← e.lower setting
  checkBoolean setting.returns test e.span
  return test

end Source

end Croupier
