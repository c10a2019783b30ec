/-!
Binary64 numbers as exact values, and the number nearest to a decimal. A finite number is
`mantissa * 2 ^ exponent` with a sign; the mantissa is below `2 ^ 53` and the exponent between
`-1074` and `971`, and a mantissa below `2 ^ 52` occurs with the least exponent only. All of it is
arithmetic on `Nat`, so a statement about a value is a statement about its two numbers.
-/

namespace ActivationOrder

/-- A number of the binary64 format. -/
inductive Binary64 where
  | nan
  | infinity (negative : Bool)
  | finite (negative : Bool) (mantissa : Nat) (exponent : Int)
  deriving DecidableEq, Repr

namespace Binary64

/-- The least exponent of a finite number. -/
def leastExponent : Int := -1074

/-- The greatest exponent of a finite number. -/
def greatestExponent : Int := 971

/-- The natural number nearest to `num / den`; a half goes to the even neighbour. -/
def roundDiv (num den : Nat) : Nat :=
  let low := num / den
  let rest := num % den
  if 2 * rest > den || (2 * rest == den && low % 2 == 1) then low + 1 else low

/-- The quotient `num / den` divided by `2 ^ exponent`, as a numerator and a denominator. -/
def scaled (num den : Nat) (exponent : Int) : Nat × Nat :=
  (num * Nat.pow 2 (-exponent).toNat, den * Nat.pow 2 exponent.toNat)

/-- The exponent of the leading bit of `num / den`. -/
def leadingBit (num den : Nat) : Int :=
  let guess : Int := (num.log2 : Int) - den.log2
  let (n, d) := scaled num den guess
  if d ≤ n then guess else guess - 1

/-- The number nearest to the positive quotient `num / den`. -/
def ofQuotient (negative : Bool) (num den : Nat) : Binary64 :=
  let exponent := max (leadingBit num den - 52) leastExponent
  let (n, d) := scaled num den exponent
  let mantissa := roundDiv n d
  let (mantissa, exponent) :=
    if mantissa = Nat.pow 2 53 then (Nat.pow 2 52, exponent + 1) else (mantissa, exponent)
  if exponent > greatestExponent then .infinity negative else .finite negative mantissa exponent

/-- The number nearest to `digits * 10 ^ power`. Far outside the format's range the answer is known
without computing the power: all finite numbers lie between `10 ^ -324` and `10 ^ 309`. -/
def ofDecimal (negative : Bool) (digits : Nat) (power : Int) : Binary64 :=
  let size : Int := power + (Nat.toDigits 10 digits).length
  if digits = 0 || size < -400 then .finite negative 0 leastExponent
  else if size > 400 then .infinity negative
  else ofQuotient negative (digits * Nat.pow 10 power.toNat) (Nat.pow 10 (-power).toNat)

end Binary64

end ActivationOrder
