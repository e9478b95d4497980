/-!
# Operators

The operators that a program can write, and their spellings. Each spelling belongs to one
operator, so that reading a spelling back gives the operator it came from.
-/

namespace Croupier

/-- Operators between two operands. `floorDivide` rounds its quotient down where `divide` cuts
it off toward zero. -/
inductive BinaryOperator where
  | add
  | subtract
  | multiply
  | divide
  | remainder
  | floorDivide
  | power
  | equal
  | notEqual
  | less
  | lessOrEqual
  | greater
  | greaterOrEqual
  | and
  | or
deriving DecidableEq

/-- What a binary operator makes of its operands: a number, the outcome of a comparison, or a
combination of truth values. -/
inductive OperatorClass where
  | arithmetic
  | comparison
  | logical
deriving DecidableEq

namespace BinaryOperator

/-- All binary operators. -/
def all : List BinaryOperator :=
  [add, subtract, multiply, divide, remainder, floorDivide, power,
    equal, notEqual, less, lessOrEqual, greater, greaterOrEqual, and, or]

/-- How an operator is written. -/
def spelling : BinaryOperator → String
  | add => "+"
  | subtract => "-"
  | multiply => "*"
  | divide => "/"
  | remainder => "%"
  | floorDivide => "%%"
  | power => "**"
  | equal => "=="
  | notEqual => "!="
  | less => "<"
  | lessOrEqual => "<="
  | greater => ">"
  | greaterOrEqual => ">="
  | and => "and"
  | or => "or"

/-- The operator that is written in a given way. -/
def ofSpelling? (text : String) : Option BinaryOperator := all.find? (·.spelling == text)

/-- Every binary operator is found under its own spelling. -/
theorem ofSpelling?_spelling (op : BinaryOperator) : ofSpelling? op.spelling = some op := by
  cases op <;> decide

/-- The class of an operator. -/
def opClass : BinaryOperator → OperatorClass
  | add | subtract | multiply | divide | remainder | floorDivide | power => .arithmetic
  | equal | notEqual | less | lessOrEqual | greater | greaterOrEqual => .comparison
  | and | or => .logical

end BinaryOperator

/-- Operators on one operand. -/
inductive UnaryOperator where
  | negate
  | not
deriving DecidableEq

namespace UnaryOperator

/-- All unary operators. -/
def all : List UnaryOperator := [negate, not]

/-- How an operator is written. -/
def spelling : UnaryOperator → String
  | negate => "-"
  | not => "!"

/-- The operator that is written in a given way. -/
def ofSpelling? (text : String) : Option UnaryOperator := all.find? (·.spelling == text)

/-- Every unary operator is found under its own spelling. -/
theorem ofSpelling?_spelling (op : UnaryOperator) : ofSpelling? op.spelling = some op := by
  cases op <;> decide

end UnaryOperator

/-- The statements that move a number by one. -/
inductive BumpOperator where
  | increment
  | decrement
deriving DecidableEq

namespace BumpOperator

/-- Both bump operators. -/
def all : List BumpOperator := [increment, decrement]

/-- How an operator is written, behind its target. -/
def spelling : BumpOperator → String
  | increment => "++"
  | decrement => "--"

/-- The operator that is written in a given way. -/
def ofSpelling? (text : String) : Option BumpOperator := all.find? (·.spelling == text)

/-- Every bump is found under its own spelling. -/
theorem ofSpelling?_spelling (op : BumpOperator) : ofSpelling? op.spelling = some op := by
  cases op <;> decide

end BumpOperator

end Croupier
