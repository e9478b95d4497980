import Croupier.Program.Basic

/-!
# What expressions evaluate to

A reference evaluator for typed expressions, against which simplifying is judged. It looks at no
types: an expression has a value or it has none, and it has none as soon as something goes wrong
on the way. What can go wrong is

* an operand of the wrong kind, and a variable without a value;
* `/`, `%` or `%%` by zero, and `**` with a negative exponent;
* a subscript out of range, and a member that the object does not have.

Integers are exact. `/` and `%` cut off toward zero, `%%` rounds down, `0 ** 0` is `1`. An `and`
or `or` looks at its right operand only if the left one has not decided, and the operands that it
looks at have to be truth values.

Floats, calls and intrinsics are no part of this: an expression that comes upon one has no value.

Some of it is a matter of taste: whether truth values can be compared by `==`, what a function is
as a value, which position of an array is the first one. A `Reading` settles these matters, and
`Expr.evalIn` evaluates by a given one. `Expr.eval` is the evaluator of `Reading.usual`.
-/

namespace Croupier

/-- What an expression can stand for. A function is known by its number. -/
inductive Value where
  | int (n : Int)
  | bool (b : Bool)
  | string (s : String)
  | array (items : List Value)
  | object (members : List (String × Value))
  | func (id : Nat)

namespace Value

def int? : Value → Option Int
  | int n => some n
  | _ => none

def bool? : Value → Option Bool
  | bool b => some b
  | _ => none

def items? : Value → Option (List Value)
  | array items => some items
  | _ => none

/-- The item of an array at a position. -/
def item? : Value → Value → Option Value
  | array items, int i => if i < 0 then none else items[i.toNat]?
  | _, _ => none

/-- The member of an object under a name; a later one hides an earlier one. -/
def member? (field : String) : Value → Option Value
  | object members => members.reverse.lookup field
  | _ => none

end Value

/-- What the variables hold, by number. -/
abbrev Store := Nat → Option Value

/-- The store in which one variable holds something else. -/
def Store.set (σ : Store) (id : Nat) (x : Option Value) : Store :=
  fun i => if i = id then x else σ i

namespace BinaryOperator

/-- Arithmetic and comparison of integers. -/
def onInts (a b : Int) : BinaryOperator → Option Value
  | add => some (.int (a + b))
  | subtract => some (.int (a - b))
  | multiply => some (.int (a * b))
  | divide => if b = 0 then none else some (.int (a.tdiv b))
  | remainder => if b = 0 then none else some (.int (a.tmod b))
  | floorDivide => if b = 0 then none else some (.int (a.fdiv b))
  | power => if b < 0 then none else some (.int (Int.pow a b.toNat))
  | equal => some (.bool (decide (a = b)))
  | notEqual => some (.bool (decide (a ≠ b)))
  | less => some (.bool (decide (a < b)))
  | lessOrEqual => some (.bool (decide (a ≤ b)))
  | greater => some (.bool (decide (b < a)))
  | greaterOrEqual => some (.bool (decide (b ≤ a)))
  | and | or => none

/-- Things that are not numbers can only be told apart. -/
def onSame (same : Bool) : BinaryOperator → Option Value
  | equal => some (.bool same)
  | notEqual => some (.bool (!same))
  | _ => none

/-- What an operator other than `and` and `or` makes of two values. -/
def apply (op : BinaryOperator) : Value → Value → Option Value
  | .int a, .int b => op.onInts a b
  | .bool a, .bool b => op.onSame (a == b)
  | .string a, .string b => op.onSame (a == b)
  | _, _ => none

end BinaryOperator

/-- What an operator makes of one value. -/
def UnaryOperator.apply : UnaryOperator → Value → Option Value
  | negate, .int n => some (.int (-n))
  | not, .bool b => some (.bool (!b))
  | _, _ => none

/-- What an operator makes of its operands; `right` is what the right one evaluates to if it is
looked at. -/
def BinaryOperator.combine (op : BinaryOperator) (left right : Option Value) : Option Value :=
  match op with
  | .and =>
    match left.bind Value.bool? with
    | some true => (right.bind Value.bool?).map .bool
    | some false => some (.bool false)
    | none => none
  | .or =>
    match left.bind Value.bool? with
    | some true => some (.bool true)
    | some false => (right.bind Value.bool?).map .bool
    | none => none
  | op => left.bind fun a => right.bind fun b => op.apply a b

mutual

/-- The value of an expression. -/
def Expr.eval (σ : Store) : Expr → Option Value
  | .int n => some (.int n)
  | .string s => some (.string s)
  | .bool b => some (.bool b)
  | .var v => σ v.id
  | .func f => some (.func f.id)
  | .array items _ => (Expr.evalList σ items).map .array
  | .emptyArray _ => some (.array [])
  | .object members => (Expr.evalMembers σ members).map .object
  | .binary (.operator op) left right _ => op.combine (left.eval σ) (right.eval σ)
  | .unary (.operator op) operand _ => (operand.eval σ).bind op.apply
  | .subscript base index _ =>
    (base.eval σ).bind fun array => (index.eval σ).bind fun i => array.item? i
  | .member base field _ => (base.eval σ).bind (Value.member? field)
  | .float _ | .binary (.intrinsic _) _ _ _ | .unary (.intrinsic _) _ _ | .call _ _ _ => none

/-- The values of several expressions. -/
def Expr.evalList (σ : Store) : List Expr → Option (List Value)
  | [] => some []
  | e :: es => (e.eval σ).bind fun x => (Expr.evalList σ es).map (x :: ·)

/-- The values of the members of an object. -/
def Expr.evalMembers (σ : Store) : List (String × Expr) → Option (List (String × Value))
  | [] => some []
  | (key, e) :: members =>
    (e.eval σ).bind fun x => (Expr.evalMembers σ members).map ((key, x) :: ·)

end

namespace Expr

/-- The truth value of an expression. -/
def truth (e : Expr) (σ : Store) : Option Bool := (e.eval σ).bind Value.bool?

/-- The integer that an expression evaluates to. -/
def number (e : Expr) (σ : Store) : Option Int := (e.eval σ).bind Value.int?

/-- The items of the array that an expression evaluates to. -/
def items (e : Expr) (σ : Store) : Option (List Value) := (e.eval σ).bind Value.items?

end Expr

/-! ### Readings -/

/-- What may be taken one way or another. -/
structure Reading where
  /-- What a function stands for where it is not called. -/
  mention : Func → Option Value
  /-- Whether two values that are not both integers are the same, if they may be compared. -/
  same : Value → Value → Option Bool
  /-- The item of an array at a position. -/
  item : Value → Value → Option Value
  /-- The member of an object under a name. -/
  member : String → Value → Option Value

namespace Reading

/-- Truth values and strings can be told apart, and a function is a value. -/
def usual : Reading where
  mention f := some (.func f.id)
  same
    | .bool a, .bool b => some (a == b)
    | .string a, .string b => some (a == b)
    | _, _ => none
  item := Value.item?
  member := Value.member?

/-- Only integers can be compared, and a function is no value. -/
def plain : Reading := { usual with mention := fun _ => none, same := fun _ _ => none }

/-- What an operator other than `and` and `or` makes of two values. -/
def apply (I : Reading) (op : BinaryOperator) : Value → Value → Option Value
  | .int a, .int b => op.onInts a b
  | a, b => (I.same a b).bind op.onSame

/-- What an operator makes of its operands; `right` is what the right one evaluates to if it is
looked at. -/
def combine (I : Reading) (op : BinaryOperator) (left right : Option Value) : Option Value :=
  match op with
  | .and | .or => op.combine left right
  | op => left.bind fun a => right.bind fun b => I.apply op a b

end Reading

mutual

/-- The value of an expression by a reading. -/
def Expr.evalIn (I : Reading) (σ : Store) : Expr → Option Value
  | .int n => some (.int n)
  | .string s => some (.string s)
  | .bool b => some (.bool b)
  | .var v => σ v.id
  | .func f => I.mention f
  | .array items _ => (Expr.evalListIn I σ items).map .array
  | .emptyArray _ => some (.array [])
  | .object members => (Expr.evalMembersIn I σ members).map .object
  | .binary (.operator op) left right _ => I.combine op (left.evalIn I σ) (right.evalIn I σ)
  | .unary (.operator op) operand _ => (operand.evalIn I σ).bind op.apply
  | .subscript base index _ =>
    (base.evalIn I σ).bind fun array => (index.evalIn I σ).bind fun i => I.item array i
  | .member base field _ => (base.evalIn I σ).bind (I.member field)
  | .float _ | .binary (.intrinsic _) _ _ _ | .unary (.intrinsic _) _ _ | .call _ _ _ => none

/-- The values of several expressions. -/
def Expr.evalListIn (I : Reading) (σ : Store) : List Expr → Option (List Value)
  | [] => some []
  | e :: es => (e.evalIn I σ).bind fun x => (Expr.evalListIn I σ es).map (x :: ·)

/-- The values of the members of an object. -/
def Expr.evalMembersIn (I : Reading) (σ : Store) :
    List (String × Expr) → Option (List (String × Value))
  | [] => some []
  | (key, e) :: members =>
    (e.evalIn I σ).bind fun x => (Expr.evalMembersIn I σ members).map ((key, x) :: ·)

end

namespace Reading

/-- In the usual reading operators do what they usually do. -/
theorem usual_apply (op : BinaryOperator) (a b : Value) : usual.apply op a b = op.apply a b := by
  cases a <;> cases b <;> rfl

theorem usual_combine (op : BinaryOperator) (left right : Option Value) :
    usual.combine op left right = op.combine left right := by
  cases op <;> simp only [combine, BinaryOperator.combine, usual_apply]

end Reading

mutual

/-- In the usual reading an expression has its usual value. -/
theorem Expr.evalIn_usual (σ : Store) (e : Expr) : e.evalIn .usual σ = e.eval σ := by
  match e with
  | .int _ | .string _ | .bool _ | .var _ | .func _ | .emptyArray _ | .float _ | .call _ _ _
  | .binary (.intrinsic _) _ _ _ | .unary (.intrinsic _) _ _ => rfl
  | .array items _ => rw [Expr.evalIn, Expr.eval, Expr.evalListIn_usual σ items]
  | .object members => rw [Expr.evalIn, Expr.eval, Expr.evalMembersIn_usual σ members]
  | .binary (.operator op) left right _ =>
    rw [Expr.evalIn, Expr.eval, left.evalIn_usual σ, right.evalIn_usual σ, Reading.usual_combine]
  | .unary (.operator op) operand _ => rw [Expr.evalIn, Expr.eval, operand.evalIn_usual σ]
  | .subscript base index _ =>
    rw [Expr.evalIn, Expr.eval, base.evalIn_usual σ, index.evalIn_usual σ]
    rfl
  | .member base field _ =>
    rw [Expr.evalIn, Expr.eval, base.evalIn_usual σ]
    rfl

theorem Expr.evalListIn_usual (σ : Store) (es : List Expr) :
    Expr.evalListIn .usual σ es = Expr.evalList σ es := by
  match es with
  | [] => rfl
  | e :: es => rw [Expr.evalListIn, Expr.evalList, e.evalIn_usual σ, Expr.evalListIn_usual σ es]

theorem Expr.evalMembersIn_usual (σ : Store) (members : List (String × Expr)) :
    Expr.evalMembersIn .usual σ members = Expr.evalMembers σ members := by
  match members with
  | [] => rfl
  | (_, e) :: members =>
    rw [Expr.evalMembersIn, Expr.evalMembers, e.evalIn_usual σ, Expr.evalMembersIn_usual σ members]

end

end Croupier
