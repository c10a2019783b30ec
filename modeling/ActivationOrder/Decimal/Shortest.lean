import ActivationOrder.Decimal.Binary64

/-!
The shortest decimal of a binary64 number: of the decimals that read back as the number, those with
the fewest digits, and of these the nearest; an exact tie goes to the larger one. The reals that
read back form an interval, whose ends belong to it when the mantissa is even. If a point of a
decimal grid lies in the interval, so does one of the two grid points next to the number, so the
search looks at these two only, from the coarsest grid down.
-/

namespace ActivationOrder.Binary64

/-- The reals that read back as `mantissa * 2 ^ exponent`, as multiples of `2 ^ (exponent - 2)`: the
number lies at `4 * mantissa`, and below a power of two the neighbour is half as far. -/
def readBackLow (mantissa : Nat) (exponent : Int) : Nat :=
  if mantissa = Nat.pow 2 52 ∧ exponent > leastExponent then 4 * mantissa - 1 else 4 * mantissa - 2

/-- The upper end of the interval of `readBackLow`. -/
def readBackHigh (mantissa : Nat) : Nat := 4 * mantissa + 2

/-- The multiple of `10 ^ power` that reads back as the number and is nearest to it, if any. -/
def gridPoint? (mantissa : Nat) (exponent : Int) (power : Int) : Option Nat :=
  let unit := Nat.pow 2 (exponent - 2).toNat * Nat.pow 10 (-power).toNat
  let grid := Nat.pow 10 power.toNat * Nat.pow 2 (-(exponent - 2)).toNat
  let value := 4 * mantissa * unit
  let low := readBackLow mantissa exponent * unit
  let high := readBackHigh mantissa * unit
  let readsBack := fun count : Nat =>
    if mantissa % 2 = 0 then low ≤ count * grid && count * grid ≤ high
    else low < count * grid && count * grid < high
  let below := value / grid
  let above := below + 1
  match readsBack below, readsBack above with
  | true, true => some (if value - below * grid < above * grid - value then below else above)
  | true, false => some below
  | false, true => some above
  | false, false => none

/-- The shortest decimal of a positive finite number: its digits as a number, and the power of ten
of the last one. The powers start above the greatest finite number and end below the least. -/
def shortest (mantissa : Nat) (exponent : Int) : Nat × Int :=
  let found := (List.range 700).findSome? fun step : Nat =>
    let power := 310 - (step : Int)
    (gridPoint? mantissa exponent power).map fun digits => (digits, power)
  found.getD (0, 0)

/-- The digits of `digits * 10 ^ power` in positional notation, with at least one decimal. -/
def positional (digits : Nat) (power : Int) : List Char :=
  let text := Nat.toDigits 10 digits
  if power ≥ 0 then text ++ List.replicate power.toNat '0' ++ ['.', '0']
  else
    let places := (-power).toNat
    let filled := List.replicate (places + 1 - text.length) '0' ++ text
    filled.take (filled.length - places) ++ '.' :: filled.drop (filled.length - places)

/-- How messages write a number: positional, with the shortest digits. -/
def text : Binary64 → String
  | .nan => "NaN"
  | .infinity negative => if negative then "-inf" else "inf"
  | .finite negative mantissa exponent =>
    let (digits, power) := if mantissa = 0 then (0, 0) else shortest mantissa exponent
    String.ofList ((if negative then ['-'] else []) ++ positional digits power)

end ActivationOrder.Binary64
