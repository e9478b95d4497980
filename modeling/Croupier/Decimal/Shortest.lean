import Croupier.Binary64.Basic

/-!
# Shortest decimals

The decimal with the fewest digits that still reads back as a given float. A decimal reads back
as the float `m · 2 ^ q` when it lies between the midpoints to the two neighbouring floats; a
midpoint itself counts when `m` is even, because reading rounds a half to the even neighbour.

With `n` digits the only candidates are the two multiples of the unit that enclose the float.
The first `n` for which one of them reads back is taken, and of two candidates the nearer, or
the greater when both are equally near. All comparisons are made between natural numbers: the
float, its midpoints and the unit are brought to a common denominator first.
-/

namespace Croupier.Decimal

/-- The number `digits · 10 ^ exponent`. -/
structure Scaled where
  digits : Nat
  exponent : Int

/-- A positive float and the midpoints to its neighbours, as numerators over one denominator. -/
structure Interval where
  value : Nat
  low : Nat
  high : Nat
  denominator : Nat
  /-- Whether the midpoints themselves read back as the float. -/
  closed : Bool

/-- The interval around `mantissa · 2 ^ exponent`. The lower neighbour is only half as far away
where the mantissa is the least of its binade. -/
def interval (mantissa : Nat) (exponent : Int) : Interval :=
  let below :=
    if mantissa = Nat.pow 2 Binary64.storedBits ∧ Binary64.leastExponent < exponent then 1 else 2
  let scale := Nat.pow 2 (exponent - 2).toNat
  ⟨4 * mantissa * scale, (4 * mantissa - below) * scale, (4 * mantissa + 2) * scale,
    Nat.pow 2 (2 - exponent).toNat, mantissa % 2 == 0⟩

/-- Whether `digits · up / down`, for a unit given as a fraction, lies in an interval. -/
def Interval.has (i : Interval) (digits up down : Nat) : Bool :=
  let n := digits * up * i.denominator
  if i.closed then i.low * down ≤ n && n ≤ i.high * down
  else i.low * down < n && n < i.high * down

/-- The power of ten `10 ^ e` as a fraction. -/
def unit (e : Int) : Nat × Nat := (Nat.pow 10 e.toNat, Nat.pow 10 (-e).toNat)

/-- The multiple of `10 ^ e` that is nearest to the middle of an interval among those that lie
in it. -/
def Interval.candidate? (i : Interval) (e : Int) : Option Nat :=
  let (up, down) := unit e
  let step := up * i.denominator
  let value := i.value * down
  let floor := value / step
  match i.has floor up down, i.has (floor + 1) up down with
  | true, true => if 2 * (value % step) < step then some floor else some (floor + 1)
  | true, false => some floor
  | false, true => some (floor + 1)
  | false, false => none

/-- The exponent of the leading digit of a positive fraction: the greatest `e` with `10 ^ e` at
most `n / d`, searched downward from `e`. -/
def leading (n d : Nat) (e : Int) : Nat → Int
  | 0 => e
  | fuel + 1 =>
    let (up, down) := unit e
    if up * d ≤ n * down then e else leading n d (e - 1) fuel

/-- No float has its leading digit at a higher power of ten than this. -/
def greatestLeading : Int := 308

/-- The leading digits of floats lie at this many powers of ten. -/
def leadingCount : Nat := 633

/-- Seventeen digits are enough for every float. -/
def mostDigits : Nat := 17

/-- The first candidate with at least `mostDigits - remaining` digits, for a leading digit at
`e`. -/
def Interval.search (i : Interval) (e : Int) : Nat → Scaled
  | 0 => ⟨i.value / i.denominator, 0⟩
  | remaining + 1 =>
    let exponent := e - (mostDigits - (remaining + 1) : Nat)
    match i.candidate? exponent with
    | some digits => ⟨digits, exponent⟩
    | none => i.search e remaining

/-- The shortest decimal that reads back as `mantissa · 2 ^ exponent`. -/
def shortest (mantissa : Nat) (exponent : Int) : Scaled :=
  let i := interval mantissa exponent
  i.search (leading i.value i.denominator greatestLeading leadingCount) mostDigits

end Croupier.Decimal
