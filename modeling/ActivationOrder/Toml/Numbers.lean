import ActivationOrder.Text.Character
import ActivationOrder.Toml.Value

/-!
Integers and floats. Digits may be parted by single underscores, each between two digits. Decimal
numbers have no leading zeros; the other bases have no sign. Integers are 64-bit signed numbers. A
float too great for its format is refused when it is positive, and infinite when it is negative.
-/

namespace ActivationOrder.Toml

/-- The digits that follow a digit. -/
def moreDigits (isDigit : Char → Bool) : List Char → List Char × List Char
  | [] => ([], [])
  | c :: rest =>
    if isDigit c then
      let (digits, rest) := moreDigits isDigit rest
      (c :: digits, rest)
    else if c == '_' && rest.head?.any isDigit then moreDigits isDigit rest
    else ([], c :: rest)

/-- One digit or more. -/
def digits (isDigit : Char → Bool) : List Char → Option (List Char × List Char)
  | [] => none
  | c :: rest =>
    if isDigit c then
      let (more, rest) := moreDigits isDigit rest
      some (c :: more, rest)
    else none

/-- A sign, if there is one, and whether it is a minus. -/
def sign : List Char → Bool × List Char
  | '+' :: rest => (false, rest)
  | '-' :: rest => (true, rest)
  | text => (false, text)

/-- The digits of a decimal number before its point. -/
def decimalDigits : List Char → Option (List Char × List Char)
  | '0' :: rest => some (['0'], rest)
  | text => digits isDigit text

/-- The value of digits in a base. -/
def valueOf (base : Nat) (digits : List Char) : Nat :=
  digits.foldl (fun value c => value * base + (Text.hexValue? c).getD 0) 0

/-- The integer, if it has 64 bits. -/
def fitting (value : Int) : Option Value :=
  if -9223372036854775808 ≤ value ∧ value ≤ 9223372036854775807 then some (.integer value) else none

/-- Whether a character is a digit of a base up to sixteen. -/
def isDigitOf (base : Nat) (c : Char) : Bool := (Text.hexValue? c).any (· < base)

/-- An integer without sign in another base than ten. -/
def based (base : Nat) (text : List Char) : Option (Value × List Char) := do
  let (ds, rest) ← digits (isDigitOf base) text
  let value ← fitting (valueOf base ds)
  pure (value, rest)

/-- An integer. -/
def integer : List Char → Option (Value × List Char)
  | '0' :: 'x' :: rest => based 16 rest
  | '0' :: 'o' :: rest => based 8 rest
  | '0' :: 'b' :: rest => based 2 rest
  | text => do
    let (negative, rest) := sign text
    let (ds, rest) ← decimalDigits rest
    let size : Int := valueOf 10 ds
    let value ← fitting (if negative then -size else size)
    pure (value, rest)

/-- An exponent: a letter, a sign and digits. -/
def exponent : List Char → Option (Int × List Char)
  | [] => none
  | c :: rest => do
    if c == 'e' || c == 'E' then
      let (negative, rest) := sign rest
      let (ds, rest) ← digits isDigit rest
      let size : Int := valueOf 10 ds
      pure (if negative then -size else size, rest)
    else none

/-- A point and the digits after it. -/
def fraction : List Char → Option (List Char × List Char)
  | '.' :: rest => digits isDigit rest
  | _ => none

/-- What follows the digits of a float before its point: a fraction, an exponent, or both. -/
def floatTail (text : List Char) : Option ((List Char × Int) × List Char) :=
  match fraction text with
  | some (decimals, rest) =>
    match exponent rest with
    | some (power, rest) => some ((decimals, power), rest)
    | none => some ((decimals, 0), rest)
  | none => (exponent text).map fun (power, rest) => (([], power), rest)

/-- A float in digits. -/
def finiteFloat (text : List Char) : Option (Value × List Char) := do
  let (negative, rest) := sign text
  let (whole, rest) ← decimalDigits rest
  let ((decimals, power), rest) ← floatTail rest
  match Binary64.ofDecimal negative (valueOf 10 (whole ++ decimals)) (power - decimals.length) with
  | .infinity false => none
  | number => pure (.float number, rest)

/-- A float that is no number or infinite. -/
def specialFloat (text : List Char) : Option (Value × List Char) :=
  let (negative, rest) := sign text
  match rest with
  | 'i' :: 'n' :: 'f' :: rest => some (.float (.infinity negative), rest)
  | 'n' :: 'a' :: 'n' :: rest => some (.float .nan, rest)
  | _ => none

/-- A float. -/
def float (text : List Char) : Option (Value × List Char) := finiteFloat text <|> specialFloat text

end ActivationOrder.Toml
