import MusicMacro.Number.Basic
import MusicMacro.Text.Digit
import MusicMacro.Text.Blank

/-!
# Reading numbers from texts

A number in a text may stand between blanks, may have a sign, may use the digits of any
script, and may have a single underscore between two digits.  `readWhole` reads whole numbers
of at most `digitLimit` digits, `readReal` decimals with an optional fraction and exponent
and the names of the infinities and of the value that is not a number.
-/

namespace MusicMacro

/-- A blank around a number; the information separators are not among them. -/
def isNumberBlank (c : Char) : Bool := isBlank c && !(28 ≤ c.toNat && c.toNat ≤ 31)

/-- Drops the blanks at both ends of a number. -/
def trimNumber (text : List Char) : List Char :=
  ((text.dropWhile isNumberBlank).reverse.dropWhile isNumberBlank).reverse

/-- The text without blanks at both ends and with every digit in its ASCII form. -/
def plainDigits (text : String) : List Char :=
  (trimNumber text.toList).map fun c => (digitValue? c).elim c fun d => Char.ofNat (48 + d)

/-- Removes the underscores, each of which must stand between two digits. -/
def dropUnderscores? (beforeDigit : Bool) : List Char → Option (List Char)
  | [] => some []
  | '_' :: rest =>
    match rest with
    | c :: _ => if beforeDigit && c.isDigit then dropUnderscores? false rest else none
    | [] => none
  | c :: rest => (dropUnderscores? c.isDigit rest).map (c :: ·)

/-- Splits off a sign. -/
def splitSign : List Char → Bool × List Char
  | '-' :: rest => (true, rest)
  | '+' :: rest => (false, rest)
  | text => (false, text)

/-- The whole number that a text spells. -/
def readWhole (text : String) : Except NumberError Int :=
  let (negative, body) := splitSign (plainDigits text)
  -- Digits are counted up to the first character that cannot continue the number.
  let run := (body.takeWhile fun c => c.isDigit || c == '_').filter Char.isDigit
  match dropUnderscores? false body with
  | some digits =>
    if digits.isEmpty then .error (.invalidWhole text)
    else if digitLimit < run.length then .error (.tooManyDigits run.length)
    else if digits.all Char.isDigit then
      .ok (if negative then -(digitsValue digits : Int) else digitsValue digits)
    else .error (.invalidWhole text)
  | none => .error (.invalidWhole text)

/-- An optional exponent: its value, or `none` if the text is not one. -/
def readExponent? : List Char → Option Int
  | [] => some 0
  | mark :: rest =>
    if mark = 'e' ∨ mark = 'E' then
      let (negative, digits) := splitSign rest
      if digits.isEmpty || !digits.all Char.isDigit then none
      else some (if negative then -(digitsValue digits : Int) else digitsValue digits)
    else none

/-- An unsigned decimal with optional fraction and exponent. -/
def readDecimal? (negative : Bool) (text : List Char) : Option Double :=
  let (whole, afterWhole) := text.span Char.isDigit
  let (fraction, afterFraction) :=
    match afterWhole with
    | '.' :: rest => rest.span Char.isDigit
    | rest => ([], rest)
  if whole.isEmpty && fraction.isEmpty then none
  else (readExponent? afterFraction).map fun exponent =>
    .ofDecimal negative (digitsValue (whole ++ fraction)) (exponent - fraction.length)

/-- The double that a text spells. -/
def readReal (text : String) : Except NumberError Double :=
  let result := do
    let body ← dropUnderscores? false (plainDigits text)
    let (negative, unsigned) := splitSign body
    let name := String.ofList (unsigned.map Char.toLower)
    if name = "inf" ∨ name = "infinity" then some (Double.infinite negative)
    else if name = "nan" then some .nan
    else readDecimal? negative unsigned
  match result with
  | some x => .ok x
  | none => .error (.invalidReal text)

end MusicMacro
