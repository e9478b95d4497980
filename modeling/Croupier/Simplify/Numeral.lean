import Croupier.Program.Basic
import Croupier.Binary64.Basic

/-!
# Arithmetic on literals

What an operator makes of two numbers that are written out. Two integers give an exact integer,
or the outcome of an exact comparison. As soon as one of the operands is a float, both are
floats, an integer being rounded to the nearest one. An operation stays undone (`none`) where
running it would fail or leave the finite numbers: division by zero, a negative exponent, a
power too large to write down, a result that is no finite float, a comparison with a NaN.
-/

namespace Croupier

/-- A number that is written out. -/
inductive Numeral where
  | int (value : Int)
  | float (value : Float)

namespace Numeral

/-- The number that an expression writes out. -/
def ofExpr? : Expr → Option Numeral
  | .int n => some (int n)
  | .float x => some (float x)
  | _ => none

/-- The expression that writes a number out. -/
def expr : Numeral → Expr
  | int n => .int n
  | float x => .float x

/-- The float nearest to a number. -/
def toFloat : Numeral → Float
  | int n => Binary64.ofInt n
  | float x => x

def isZero : Numeral → Bool
  | int n => n == 0
  | float x => x == 0.0

def isOne : Numeral → Bool
  | int n => n == 1
  | float x => x == 1.0

/-- The number with its sign changed. -/
def negate : Numeral → Numeral
  | int n => int (-n)
  | float x => float (-x)

/-- How two numbers compare; a NaN compares with nothing. -/
def compare? : Numeral → Numeral → Option Ordering
  | int m, int n => some (compare m n)
  | m, n => Binary64.compare? m.toFloat n.toFloat

end Numeral

/-- How many binary digits a natural number has. -/
def bitLength (n : Nat) : Nat := if n = 0 then 0 else n.log2 + 1

/-- Powers that might have more binary digits than this stay undone. -/
def powerLimit : Nat := 4096

/-- Exponents from here on stay undone, whatever the base. -/
def exponentLimit : Nat := Nat.pow 2 32

/-- Digits are counted in 64 bits, and a count that does not fit stays at the largest one. -/
def countLimit : Nat := Nat.pow 2 64 - 1

/-- How many binary digits a power has at most, as far as they can be counted. -/
def powerDigits (base : Int) (exponent : Nat) : Nat :=
  Nat.min (bitLength base.natAbs * exponent) countLimit

/-- Where the counting ends makes no difference to whether a power is small enough. -/
theorem powerLimit_lt_powerDigits {base : Int} {exponent : Nat} :
    powerLimit < powerDigits base exponent ↔ powerLimit < bitLength base.natAbs * exponent := by
  have hlimit : powerLimit < countLimit := by decide
  exact Nat.lt_min.trans (and_iff_left hlimit)

/-- The power of an integer, if the exponent is natural and the result is small enough to write
down. -/
def intPower? (base exponent : Int) : Option Int :=
  if exponent < 0 then none
  else if exponentLimit ≤ exponent.toNat then none
  else if powerLimit < powerDigits base exponent.toNat then none
  else some (Int.pow base exponent.toNat)

namespace BinaryOperator

/-- What a comparison says of operands that compare in a given way. -/
def holds? : BinaryOperator → Ordering → Option Bool
  | equal, o => some o.isEq
  | notEqual, o => some o.isNe
  | less, o => some o.isLT
  | lessOrEqual, o => some o.isLE
  | greater, o => some o.isGT
  | greaterOrEqual, o => some o.isGE
  | _, _ => none

/-- The exact result of an operation on integers. -/
def foldInt (a b : Int) : BinaryOperator → Option Expr
  | add => some (.int (a + b))
  | subtract => some (.int (a - b))
  | multiply => some (.int (a * b))
  | divide => if b = 0 then none else some (.int (a.tdiv b))
  | remainder => if b = 0 then none else some (.int (a.tmod b))
  | floorDivide => if b = 0 then none else some (.int (a.fdiv b))
  | power => (intPower? a b).map .int
  | op => (op.holds? (compare a b)).map .bool

/-- A float, unless it is infinite or a NaN. -/
def finite? (x : Float) : Option Expr := if x.isFinite then some (.float x) else none

/-- The result of an operation on floats. -/
def foldFloat (a b : Float) : BinaryOperator → Option Expr
  | add => finite? (a + b)
  | subtract => finite? (a - b)
  | multiply => finite? (a * b)
  | divide => if b == 0.0 then none else finite? (a / b)
  | remainder => if b == 0.0 then none else finite? (Binary64.remainder a b)
  | floorDivide => if b == 0.0 then none else finite? (Binary64.floor (a / b))
  | power => finite? (a.pow b)
  | op => ((Binary64.compare? a b).bind op.holds?).map .bool

/-- The result of an operation on two numbers that are written out. -/
def fold (op : BinaryOperator) : Numeral → Numeral → Option Expr
  | .int a, .int b => op.foldInt a b
  | a, b => op.foldFloat a.toFloat b.toFloat

end BinaryOperator

end Croupier
