/-!
# Values

Expressions evaluate to `nil`, a truth value, a double or a text. A double is read from a decimal
and written as the shortest one that stands for it.
-/

/-!
## Rounding to the nearest double

The finite doubles without a sign are the whole multiples `units pattern` of
2⁻¹⁰⁷⁴, where `pattern` is the number that their bits spell. Patterns grow with
the magnitudes they stand for, and the pattern after the last finite one stands
for infinity. Rounding a fraction to a double is therefore rounding to a
pattern, and it is exact arithmetic on natural numbers.
-/

namespace Reckon.Binary64

/-- The number of places behind the binary point that hold every finite double
exactly. As many decimal places hold them too. -/
def fractionPlaces : Nat := 1074

/-- The pattern of infinity, one more than that of the largest finite double. -/
def infinity : Nat := 2047 <<< 52

/-- The magnitude of a double as a multiple of the smallest one. Up to 2⁵³ the
pattern is the magnitude; from there on each further 2⁵² patterns double the
distance between neighbours. -/
def units (pattern : Nat) : Nat :=
  let scale := (pattern >>> 52) - 1
  (pattern - (scale <<< 52)) <<< scale

/-- The whole number nearest to a quotient, the even one of two. -/
def divideToEven (numerator denominator : Nat) : Nat :=
  let quotient := numerator / denominator
  match compare (2 * (numerator % denominator)) denominator with
  | .lt => quotient
  | .eq => quotient + quotient % 2
  | .gt => quotient + 1

/-- The pattern of the double nearest to a fraction, the even one of two. A
quotient of more than 53 bits loses the bits beyond them, and a carry out of the
53 bits lands in the pattern's exponent, where it belongs. -/
def nearest (numerator denominator : Nat) : Nat :=
  let scaled := numerator <<< fractionPlaces
  let scale := (scaled / denominator).log2 - 52
  min (divideToEven scaled (denominator <<< scale) + (scale <<< 52)) infinity

/-- The double with a pattern and no sign. -/
def ofPattern (pattern : Nat) : Float :=
  .ofBits (UInt64.ofNat pattern)

/-- The pattern of a double without its sign. -/
def pattern (double : Float) : Nat :=
  double.toBits.toNat % (1 <<< 63)

/-- Whether the sign of a double is negative; zero has two signs. -/
def isNegative (double : Float) : Bool :=
  (1 <<< 63) ≤ double.toBits.toNat

end Reckon.Binary64

/-!
## Decimals

A decimal is a whole number of tenths, hundredths and so on. It is what a number
is written as: digits, and perhaps a point with more digits. There is neither a
sign nor an exponent.
-/

namespace Reckon

/-- The number `coefficient / 10 ^ places`. -/
structure Decimal where
  coefficient : Nat
  places : Nat
  deriving DecidableEq, Repr

namespace Decimal

/-- The decimal with these digits before and after the point. -/
def ofDigits (whole fraction : List Char) : Decimal where
  coefficient := Nat.ofDigitChars 10 (whole ++ fraction) 0
  places := fraction.length

/-- The double nearest to a decimal. -/
def toFloat (decimal : Decimal) : Float :=
  Binary64.ofPattern (Binary64.nearest decimal.coefficient (Nat.pow 10 decimal.places))

/-- The digits after the point, without the zeros at their end. -/
def fractionDigits (decimal : Decimal) : List Char :=
  let digits := Nat.toDigits 10 (decimal.coefficient % Nat.pow 10 decimal.places)
  ((digits.leftpad decimal.places '0').reverse.dropWhile (· == '0')).reverse

/-- A decimal in digits: the whole part, and after a point the rest if there is
any. -/
def toText (decimal : Decimal) : List Char :=
  Nat.toDigits 10 (decimal.coefficient / Nat.pow 10 decimal.places) ++
    match decimal.fractionDigits with
    | [] => []
    | digits => '.' :: digits

end Decimal

end Reckon

/-!
## The shortest decimal of a double

Every finite double is a whole number of 10⁻¹⁰⁷⁴. Its digits are cut off behind
the first one, the first two and so on, until one of the two neighbours that are
left rounds to the double again. So the search ends at the fewest digits that
stand for the double, and cutting off nothing always succeeds.
-/

namespace Reckon.Decimal

/-- The double with a pattern, as a whole number of 10⁻¹⁰⁷⁴. -/
def exactCoefficient (pattern : Nat) : Nat :=
  Binary64.units pattern * Nat.pow 5 Binary64.fractionPlaces

/-- Whether a whole number of 10⁻¹⁰⁷⁴ rounds to the double with a pattern. -/
def roundsTo (pattern coefficient : Nat) : Bool :=
  Binary64.nearest coefficient (Nat.pow 10 Binary64.fractionPlaces) == pattern

/-- The neighbour of an exact coefficient that ends in a number of zeros and
rounds to the pattern. Of two the nearer is chosen, and the larger if both are
equally near. -/
def neighbour? (pattern exact zeros : Nat) : Option Nat :=
  let step := Nat.pow 10 zeros
  let below := exact / step * step
  let above := below + step
  if roundsTo pattern below then
    if roundsTo pattern above then
      some (if exact - below < above - exact then below else above)
    else some below
  else if roundsTo pattern above then some above
  else none

/-- The neighbour with the most zeros at its end, up to a number of them, or the
exact coefficient itself. -/
def fewestDigits (pattern exact : Nat) : (zeros : Nat) → Nat
  | 0 => exact
  | zeros + 1 =>
      (neighbour? pattern exact (zeros + 1)).getD (fewestDigits pattern exact zeros)

/-- The decimal with the fewest digits that rounds to a double, and the nearest
to the double among these. -/
def shortest (pattern : Nat) : Decimal where
  coefficient :=
    let exact := exactCoefficient pattern
    fewestDigits pattern exact ((Nat.toDigits 10 exact).length - 1)
  places := Binary64.fractionPlaces

end Reckon.Decimal

/-!
## Values of expressions

Values are compared across kinds without an error, and every value can be written out.
-/

namespace Reckon

inductive Value where
  | nil
  | boolean (truth : Bool)
  | number (double : Float)
  | text (content : String)
  deriving DecidableEq, Inhabited

namespace Value

/-- Everything but `nil` and `false` counts as true, zero and the empty text
included. -/
def isTruthy : Value → Bool
  | .nil => false
  | .boolean truth => truth
  | .number _ => true
  | .text _ => true

/-- Equality of the language. Values of different kinds are unequal, and numbers
are compared as doubles: the two zeros are equal, and a NaN equals nothing. -/
def equals : Value → Value → Bool
  | .nil, .nil => true
  | .boolean left, .boolean right => left == right
  | .number left, .number right => left == right
  | .text left, .text right => left == right
  | _, _ => false

instance : BEq Value := ⟨equals⟩

/-- A number without its sign: the fewest digits that read back to it, never in
scientific notation. -/
def magnitudeText (double : Float) : String :=
  if Binary64.pattern double = Binary64.infinity then "inf"
  else String.ofList (Decimal.shortest (Binary64.pattern double)).toText

/-- A number is written with its sign, which a NaN does not have. -/
def numberText (double : Float) : String :=
  if double.isNaN then "NaN"
  else if Binary64.isNegative double then "-" ++ magnitudeText double
  else magnitudeText double

/-- The written form of a value; a text stands without quotes. -/
def toText : Value → String
  | .nil => "nil"
  | .boolean true => "true"
  | .boolean false => "false"
  | .number double => numberText double
  | .text content => content

end Value

end Reckon
