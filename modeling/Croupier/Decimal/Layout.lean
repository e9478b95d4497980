import Croupier.Decimal.Shortest

/-!
# Written floats

How the digits of a float are laid out. A layout says for which exponents of the leading digit a
number is written positionally, with a point among its digits; all others are written with one
digit in front of the point and the exponent behind.
-/

namespace Croupier.Decimal

/-- The decisions of a way to write floats. -/
structure Layout where
  /-- The least exponent of the leading digit that is written positionally. -/
  leastPositional : Int
  /-- The greatest exponent of the leading digit that is written positionally. -/
  greatestPositional : Int
  /-- What stands behind a positional number without a fraction. -/
  wholeMark : List Char
  /-- What stands in front of an exponent. -/
  exponentMark : List Char
  infinity : List Char
  notANumber : List Char

/-- The digits of a number, without trailing zeros. -/
def significant (digits : Nat) : List Char :=
  ((Nat.toDigits 10 digits).reverse.dropWhile (· == '0')).reverse

/-- The text of an integer. -/
def intText (n : Int) : List Char :=
  if n < 0 then '-' :: Nat.toDigits 10 n.natAbs else Nat.toDigits 10 n.natAbs

/-- A positional number with the leading digit at `10 ^ e`. -/
def Layout.positional (layout : Layout) (digits : List Char) (e : Int) : List Char :=
  if e < 0 then '0' :: '.' :: List.replicate (-e - 1).toNat '0' ++ digits
  else
    let whole := e.toNat + 1
    if digits.length ≤ whole then
      digits ++ List.replicate (whole - digits.length) '0' ++ layout.wholeMark
    else digits.take whole ++ '.' :: digits.drop whole

/-- A number with one digit in front of the point and its exponent behind. -/
def Layout.scientific (layout : Layout) (digits : List Char) (e : Int) : List Char :=
  let head :=
    match digits with
    | d :: f :: fraction => d :: '.' :: f :: fraction
    | _ => digits
  head ++ layout.exponentMark ++ intText e

/-- A decimal, laid out. -/
def Layout.decimal (layout : Layout) (d : Scaled) : List Char :=
  let e := d.exponent + (Nat.toDigits 10 d.digits).length - 1
  let digits := significant d.digits
  if layout.leastPositional ≤ e ∧ e ≤ layout.greatestPositional then layout.positional digits e
  else layout.scientific digits e

/-- A float, laid out. -/
def Layout.float (layout : Layout) (x : Float) : String :=
  match Binary64.Finite.ofFloat? x with
  | some f =>
    let magnitude :=
      if f.mantissa = 0 then '0' :: layout.wholeMark
      else layout.decimal (shortest f.mantissa f.exponent)
    String.ofList (if f.negative then '-' :: magnitude else magnitude)
  | none =>
    String.ofList
      (if x.isNaN then layout.notANumber
      else if Binary64.isNegative x then '-' :: layout.infinity
      else layout.infinity)

end Croupier.Decimal
