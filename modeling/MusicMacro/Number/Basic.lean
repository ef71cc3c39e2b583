import MusicMacro.Number.Decimal
import MusicMacro.Number.Error

/-!
# Numbers

Input may give a number as a whole number or as a floating-point one, and answers keep the
difference (`Number`).  Comparisons between the two kinds are exact, arithmetic goes through
doubles as soon as one side is a double.
-/

namespace MusicMacro

/-- A whole number as a double, refused when it rounds beyond the finite ones. -/
def doubleOfInt (n : Int) : Except NumberError Double :=
  match Double.ofInt? n with
  | some x => .ok x
  | none => .error .tooLargeForDouble

/-- A quotient of whole numbers as the nearest double, refused beyond the finite ones. -/
def doubleOfQuotient (num den : Int) : Except NumberError Double :=
  if den = 0 then .error .divisionByZero
  else
    let x := Double.ofUnits (decide (num < 0) != decide (den < 0))
      (num.natAbs * Magnitude.unitsPerWhole) den.natAbs
    if x.isFinite then .ok x else .error .quotientTooLarge

/-- A number as documents write it. -/
inductive Number where
  | whole (value : Int)
  | real (value : Double)
deriving DecidableEq

namespace Number

def text : Number → String
  | whole n => toString n
  | real x => x.text

def toDouble : Number → Except NumberError Double
  | whole n => doubleOfInt n
  | real x => .ok x

/-- The nearest double, infinite beyond the finite ones. -/
def nearest : Number → Double
  | whole n => .ofFraction n 1
  | real x => x

/-- The whole number left when a fraction is dropped. -/
def truncate : Number → Except NumberError Int
  | whole n => .ok n
  | real x => x.truncate.mapError .notWhole

/-- The number with a whole number added to it. -/
def shift (a : Number) (n : Int) : Number :=
  match a with
  | whole m => whole (m + n)
  | real x => real (x + .ofFraction n 1)

/-- The product, exact for whole numbers. -/
def multiply (a b : Number) : Except NumberError Number :=
  match a, b with
  | whole m, whole n => .ok (whole (m * n))
  | a, b => do return real ((← a.toDouble) * (← b.toDouble))

/-- The quotient as a double; that of whole numbers is rounded once. -/
def divide (a b : Number) : Except NumberError Double :=
  match a, b with
  | whole m, whole n => doubleOfQuotient m n
  | a, b => do
    let x ← a.toDouble
    let y ← b.toDouble
    if y.equal .zero then throw .realDivisionByZero else return x / y

/-! ## Order -/

/-- A whole number against a double, exactly. -/
def compareWhole? (n : Int) : Double → Option Ordering
  | .nan => none
  | .infinite s => some (if s then .gt else .lt)
  | .finite s m => some (compare (n * Magnitude.unitsPerWhole) (Double.signedUnits s m))

/-- Exact comparison; `none` when a side is not a number. -/
def compare? : Number → Number → Option Ordering
  | whole a, whole b => some (compare a b)
  | whole a, real y => compareWhole? a y
  | real x, whole b => (compareWhole? b x).map Ordering.swap
  | real x, real y => x.compare? y

def less (a b : Number) : Bool := compare? a b = some .lt

def atMost (a b : Number) : Bool := compare? a b = some .lt || compare? a b = some .eq

def equal (a b : Number) : Bool := compare? a b = some .eq

/-- The first of the largest numbers of a list, under `less`. -/
def largest? : List Number → Option Number
  | [] => none
  | a :: rest => some (rest.foldl (fun best b => if best.less b then b else best) a)

/-- Rounds to a number of decimal places; whole numbers stay. -/
def roundPlaces (places : Nat) : Number → Number
  | whole n => whole n
  | real x => real (x.roundPlaces places)

end Number

end MusicMacro
