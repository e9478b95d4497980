/-!
# Binary64 arithmetic in exact terms

A finite float is `± mantissa · 2 ^ exponent` with natural mantissa. `Finite.ofFloat?` takes a
float apart in this way, and `nearest` goes back: it rounds any number of this form to the
nearest float, a half going to the even neighbour, and to an infinity beyond the largest float.
Remainder and floor are computed on the exact numbers.
-/

namespace Croupier.Binary64

/-- A finite float, taken apart. -/
structure Finite where
  negative : Bool
  mantissa : Nat
  exponent : Int

/-- How many binary digits of a mantissa are stored. -/
def storedBits : Nat := 52

/-- The exponent of the smallest positive float. -/
def leastExponent : Int := -1074

/-- The sign bit of a float. -/
def isNegative (x : Float) : Bool := x.toBits.toNat / Nat.pow 2 63 == 1

/-- The exponent field of a float, as it is stored. -/
def exponentField (x : Float) : Nat := x.toBits.toNat / Nat.pow 2 storedBits % Nat.pow 2 11

/-- The mantissa field of a float, as it is stored. -/
def mantissaField (x : Float) : Nat := x.toBits.toNat % Nat.pow 2 storedBits

/-- The sign, mantissa and exponent of a float; none for infinities and NaN. -/
def Finite.ofFloat? (x : Float) : Option Finite :=
  let e := exponentField x
  if e == 2047 then none
  else if e == 0 then some ⟨isNegative x, mantissaField x, leastExponent⟩
  else some ⟨isNegative x, mantissaField x + Nat.pow 2 storedBits, leastExponent + (e - 1 : Nat)⟩

/-- The quotient `n / d` rounded to the nearest natural number, a half to the even one. -/
def roundDiv (n d : Nat) : Nat :=
  let q := n / d
  let twice := 2 * (n % d)
  if twice < d then q else if d < twice then q + 1 else q + q % 2

/-- The stored form of positive infinity. -/
def infinityBits : Nat := 2047 * Nat.pow 2 storedBits

/-- The stored form of the float nearest to `mantissa · 2 ^ exponent`, without the sign. A float
with 53-bit mantissa `m` and exponent `leastExponent + k` is stored as `k · 2 ^ 52 + m`, and so
is a subnormal one, with `k = 0`; rounding up to the next power of two carries into the
exponent. -/
def nearestBits (mantissa : Nat) (exponent : Int) : Nat :=
  if mantissa = 0 then 0
  else
    let full := exponent + mantissa.log2 - storedBits
    let target := if full < leastExponent then leastExponent else full
    let shift := target - exponent
    let rounded :=
      if shift ≤ 0 then mantissa * Nat.pow 2 (-shift).toNat
      else roundDiv mantissa (Nat.pow 2 shift.toNat)
    min ((target - leastExponent).toNat * Nat.pow 2 storedBits + rounded) infinityBits

/-- The float nearest to `± mantissa · 2 ^ exponent`. -/
def nearest (negative : Bool) (mantissa : Nat) (exponent : Int) : Float :=
  let bits := nearestBits mantissa exponent
  Float.ofBits (if negative then bits + Nat.pow 2 63 else bits).toUInt64

/-- The float nearest to an integer. -/
def ofInt (n : Int) : Float := nearest (n < 0) n.natAbs 0

/-- The remainder of a division whose quotient is cut off toward zero; it has the sign of `a`,
and it is exact. -/
def remainder (a b : Float) : Float :=
  match Finite.ofFloat? a, Finite.ofFloat? b with
  | some x, some y =>
    if y.mantissa = 0 then 0.0 / 0.0
    else
      let e := min x.exponent y.exponent
      let m := x.mantissa * Nat.pow 2 (x.exponent - e).toNat
      let n := y.mantissa * Nat.pow 2 (y.exponent - e).toNat
      nearest x.negative (m % n) e
  | some _, none => if b.isNaN then b else a
  | none, _ => 0.0 / 0.0

/-- The greatest whole float that is not greater. -/
def floor (x : Float) : Float :=
  match Finite.ofFloat? x with
  | none => x
  | some f =>
    if 0 ≤ f.exponent then x
    else
      let unit := Nat.pow 2 (-f.exponent).toNat
      let whole := if f.negative then (f.mantissa + (unit - 1)) / unit else f.mantissa / unit
      nearest f.negative whole 0

/-- How two floats compare; a NaN compares with nothing. -/
def compare? (a b : Float) : Option Ordering :=
  if a < b then some .lt else if a == b then some .eq else if b < a then some .gt else none

end Croupier.Binary64
