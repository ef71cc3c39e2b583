import MusicMacro.Number.Double

/-!
# Decimal text of floating-point numbers

A double is written with the fewest significant digits that read back to it, and of those
digits the nearest to its value (`Magnitude.shortest`).  The digits are found on the decimal
grids of one to seventeen places by exact comparison with the interval of values that round
to the magnitude.

The written form (`Double.text`) is positional for decimal exponents from -4 to 15 and always
shows a point or an exponent; outside, one digit stands before the point and the exponent has
a sign and at least two digits.
-/

namespace MusicMacro

/-! ## Decimal digits of natural numbers -/

/-- The number of decimal digits of `n`; zero has one. -/
def decimalLength (n : Nat) : Nat :=
  if n < 10 then 1 else decimalLength (n / 10) + 1
termination_by n

/-- Drops the trailing zeros of a positive decimal number and counts them. -/
def stripZeros (n : Nat) : Nat × Nat :=
  if 0 < n ∧ n % 10 = 0 then ((stripZeros (n / 10)).1, (stripZeros (n / 10)).2 + 1) else (n, 0)
termination_by n

namespace Magnitude

/-- `10^324` exceeds the units in one whole, so that every positive magnitude has a digit
before the point once multiplied by it. -/
def decimalShift : Nat := 324

/-- The decimal exponent of a positive magnitude: the place of its first digit. -/
def decimalExponent (m : Magnitude) : Int :=
  (decimalLength (m.units * Nat.pow 10 decimalShift / unitsPerWhole) : Int) - 1 - decimalShift

/-- Whether `count * 10^place` rounds to this magnitude.  The values that do lie between the
midpoints to the neighbours, which belong to the magnitude when its last bit is even; below a
power of two the lower neighbour is twice as near. -/
def readsBack (m : Magnitude) (count : Nat) (place : Int) : Bool :=
  let gap := spacing m.units
  let below := if 1 < gap ∧ m.units = Nat.pow 2 m.units.log2 then gap / 2 else gap
  let scaled := 4 * count * unitsPerWhole * Nat.pow 10 place.toNat
  let low := (4 * m.units - 2 * below) * Nat.pow 10 (-place).toNat
  let high := (4 * m.units + 2 * gap) * Nat.pow 10 (-place).toNat
  if m.units / gap % 2 = 0 then low ≤ scaled && scaled ≤ high else low < scaled && scaled < high

/-- The number of steps of `10^place` nearest to the magnitude, among the two neighbours on
that grid that round to it. -/
def decimalAt? (m : Magnitude) (place : Int) : Option Nat :=
  let num := m.units * Nat.pow 10 (-place).toNat
  let den := unitsPerWhole * Nat.pow 10 place.toNat
  let nearest := roundDiv num den
  let other := roundAway num den
  if m.readsBack nearest place then some nearest
  else if m.readsBack other place then some other
  else none

/-- The first decimal found with `digits` significant digits or more, trying `fuel` counts. -/
def shortestFrom (m : Magnitude) : (fuel digits : Nat) → Nat × Int
  | 0, _ => (0, 0)
  | fuel + 1, digits =>
    let place := m.decimalExponent - digits + 1
    match m.decimalAt? place with
    | some count => (count, place)
    | none => m.shortestFrom fuel (digits + 1)

/-- The digits of a positive magnitude and the place of the last one: the fewest digits that
read back, the nearest of those, without trailing zeros. -/
def shortest (m : Magnitude) : Nat × Int :=
  let (count, place) := m.shortestFrom 17 1
  let (digits, zeros) := stripZeros count
  (digits, place + zeros)

end Magnitude

/-! ## The written form -/

/-- An exponent mark: its sign and at least two digits. -/
def exponentText (exponent : Int) : String :=
  let digits := toString exponent.natAbs
  "e" ++ (if exponent < 0 then "-" else "+") ++ (if digits.length < 2 then "0" else "") ++ digits

/-- Lays out decimal digits whose last one stands at `place`. -/
def layOutDecimal (digits : Nat) (place : Int) : String :=
  let shown := (toString digits).toList
  let exponent : Int := place + shown.length - 1
  if exponent < -4 || 15 < exponent then
    let (first, rest) := (shown.take 1, shown.drop 1)
    String.ofList (if rest.isEmpty then first else first ++ '.' :: rest) ++ exponentText exponent
  else if exponent < 0 then
    "0." ++ String.ofList (List.replicate (-exponent - 1).toNat '0' ++ shown)
  else
    let width := exponent.toNat + 1
    let whole := shown.take width ++ List.replicate (width - shown.length) '0'
    let rest := shown.drop width
    String.ofList whole ++ "." ++ (if rest.isEmpty then "0" else String.ofList rest)

/-- The text of a magnitude. -/
def Magnitude.text (m : Magnitude) : String :=
  if m.units = 0 then "0.0" else layOutDecimal m.shortest.1 m.shortest.2

namespace Double

/-- The text of a double: the shortest decimal that reads back. -/
def text : Double → String
  | .finite s m => (if s then "-" else "") ++ m.text
  | .infinite s => if s then "-inf" else "inf"
  | .nan => "nan"

/-! ## Reading decimals -/

/-- The double nearest to `digits * 10^exponent`.  Exponents so large or small that the value
must overflow or vanish are not evaluated. -/
def ofDecimal (negative : Bool) (digits : Nat) (exponent : Int) : Double :=
  if digits = 0 then .finite negative .zero
  else if 400 < exponent + decimalLength digits then .infinite negative
  else if exponent + decimalLength digits < -400 then .finite negative .zero
  else ofUnits negative (digits * Nat.pow 10 exponent.toNat * Magnitude.unitsPerWhole)
    (Nat.pow 10 (-exponent).toNat)

end Double

end MusicMacro
