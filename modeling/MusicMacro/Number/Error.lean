import MusicMacro.Number.Double
import MusicMacro.Text.Quoted

/-!
# What can go wrong with a number

The failures of converting between whole numbers, floating-point numbers and their texts.
-/

namespace MusicMacro

/-- The most decimal digits a whole number may have in a text. -/
def digitLimit : Nat := 4300

/-- A failed conversion. -/
inductive NumberError where
  /-- A whole number beyond every finite double. -/
  | tooLargeForDouble
  /-- A quotient of whole numbers beyond every finite double. -/
  | quotientTooLarge
  /-- A power beyond every finite double. -/
  | powerOutOfRange
  /-- A value without whole-number form. -/
  | notWhole (cause : Double.WholeError)
  /-- A text that is no whole number. -/
  | invalidWhole (text : String)
  /-- A text that is no floating-point number. -/
  | invalidReal (text : String)
  /-- A text with more digits than the limit. -/
  | tooManyDigits (count : Nat)
  /-- A whole number divided by zero. -/
  | divisionByZero
  /-- A division by zero with a double in it. -/
  | realDivisionByZero
deriving DecidableEq

namespace NumberError

def message : NumberError → String
  | tooLargeForDouble => "int too large to convert to float"
  | quotientTooLarge => "integer division result too large for a float"
  | powerOutOfRange => "(34, 'Numerical result out of range')"
  | notWhole cause => cause.message
  | invalidWhole text =>
    "invalid literal for int() with base 10: " ++ String.ofList ((quoted text).toList.take 200)
  | invalidReal text => "could not convert string to float: " ++ quoted text
  | tooManyDigits count =>
    "Exceeds the limit (" ++ toString digitLimit ++ " digits) for integer string conversion: " ++
      "value has " ++ toString count ++
      " digits; use sys.set_int_max_str_digits() to increase the limit"
  | divisionByZero => "division by zero"
  | realDivisionByZero => "float division by zero"

end NumberError

end MusicMacro
