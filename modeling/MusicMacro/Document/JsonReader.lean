import MusicMacro.Document
import MusicMacro.Number.Literal
import MusicMacro.Text.Scalar

/-!
# Reading JSON

A text is read as one JSON value between blanks (`Document.ofJson`).  Beside the standard
forms the names `NaN`, `Infinity` and `-Infinity` are numbers, a later entry of a key replaces
an earlier one, and a number without fraction and exponent is whole, of at most `digitLimit`
digits.  A refusal names what was expected and where (`JsonError.message`).

The reader works on the characters that are left; a position is told by their number.
-/

namespace MusicMacro

/-- What is wrong at a place of a JSON text. -/
inductive JsonFault where
  | byteOrderMark
  | value
  | propertyName
  | colon
  | comma
  | unterminatedString
  | controlCharacter
  | escape
  | unicodeEscape
  | extraData
deriving DecidableEq, Repr

def JsonFault.message : JsonFault → String
  | byteOrderMark => "Unexpected UTF-8 BOM (decode using utf-8-sig)"
  | value => "Expecting value"
  | propertyName => "Expecting property name enclosed in double quotes"
  | colon => "Expecting ':' delimiter"
  | comma => "Expecting ',' delimiter"
  | unterminatedString => "Unterminated string starting at"
  | controlCharacter => "Invalid control character at"
  | escape => "Invalid \\escape"
  | unicodeEscape => "Invalid \\uXXXX escape"
  | extraData => "Extra data"

/-- A refusal of a JSON text: a fault before the last `left` characters, or a number with too
many digits. -/
inductive JsonRefusal where
  | fault (fault : JsonFault) (left : Nat)
  | number (error : NumberError)

/-- A refusal with its place as line, column and number of characters before it. -/
inductive JsonError where
  | fault (fault : JsonFault) (line column position : Nat)
  | number (error : NumberError)

def JsonError.message : JsonError → String
  | fault f line column position =>
    f.message ++ ": line " ++ toString line ++ " column " ++ toString column ++
      " (char " ++ toString position ++ ")"
  | number e => e.message

namespace JsonReader

def isJsonBlank (c : Char) : Bool := c == ' ' || c == '\t' || c == '\n' || c == '\r'

def skipBlanks (text : List Char) : List Char := text.dropWhile isJsonBlank

/-- The value of a hexadecimal digit. -/
def hexValue? (c : Char) : Option Nat :=
  if '0' ≤ c ∧ c ≤ '9' then some (c.toNat - 48)
  else if 'a' ≤ c ∧ c ≤ 'f' then some (c.toNat - 87)
  else if 'A' ≤ c ∧ c ≤ 'F' then some (c.toNat - 55)
  else none

/-- The UTF-16 unit that four hexadecimal digits spell. -/
def readUnit? : List Char → Option (Nat × List Char)
  | a :: b :: c :: d :: rest => do
    let a ← hexValue? a
    let b ← hexValue? b
    let c ← hexValue? c
    let d ← hexValue? d
    some (((a * 16 + b) * 16 + c) * 16 + d, rest)
  | _ => none

/-- The character after `\u`: four digits, which another such escape may complete to a pair.
Some character must follow the digits. -/
def readUnicodeEscape (text : List Char) : Except JsonRefusal (Char × List Char) :=
  let broken (left : Nat) : Except JsonRefusal (Char × List Char) :=
    .error (.fault .unicodeEscape left)
  if (text.drop 4).isEmpty then broken (text.length + 1)
  else
    match readUnit? text with
    | none => broken (text.length + 1)
    | some (unit, rest) =>
      match rest with
      | '\\' :: 'u' :: more =>
        if 0xD800 ≤ unit ∧ unit < 0xDC00 ∧ !(rest.drop 6).isEmpty then
          match readUnit? more with
          | none => broken (more.length + 1)
          | some (low, after) =>
            if 0xDC00 ≤ low ∧ low < 0xE000 then
              .ok (Char.ofNat (0x10000 + (unit - 0xD800) * 0x400 + (low - 0xDC00)), after)
            else .ok (charOfCode unit, rest)
        else .ok (charOfCode unit, rest)
      | _ => .ok (charOfCode unit, rest)

/-- The character that a letter stands for after a backslash. -/
def shortEscape? : Char → Option Char
  | '"' => some '"'
  | '\\' => some '\\'
  | '/' => some '/'
  | 'b' => some (Char.ofNat 8)
  | 'f' => some (Char.ofNat 12)
  | 'n' => some '\n'
  | 'r' => some '\r'
  | 't' => some '\t'
  | _ => none

/-- Reads the rest of a string up to its closing quote; the opening one stood before `start`. -/
def readString (start : List Char) :
    (fuel : Nat) → List Char → Except JsonRefusal (List Char × List Char)
  | 0, _ => .error (.fault .unterminatedString (start.length + 1))
  | _ + 1, [] => .error (.fault .unterminatedString (start.length + 1))
  | fuel + 1, c :: rest =>
    if c = '"' then .ok ([], rest)
    else if c = '\\' then
      match rest with
      | [] => .error (.fault .unterminatedString (start.length + 1))
      | 'u' :: digits =>
        match readUnicodeEscape digits with
        | .error e => .error e
        | .ok (ch, after) =>
          (readString start fuel after).map fun (chars, left) => (ch :: chars, left)
      | letter :: after =>
        match shortEscape? letter with
        | none => .error (.fault .escape (rest.length + 1))
        | some ch => (readString start fuel after).map fun (chars, left) => (ch :: chars, left)
    else if c.toNat < 32 then .error (.fault .controlCharacter (rest.length + 1))
    else (readString start fuel rest).map fun (chars, left) => (c :: chars, left)

/-- Reads the string whose opening quote has been taken off. -/
def readStringBody (fuel : Nat) (text : List Char) : Except JsonRefusal (String × List Char) :=
  (readString text fuel text).map fun (chars, rest) => (String.ofList chars, rest)

/-- The whole digits of a number: a single zero, or digits that do not start with one. -/
def readWholeDigits? : List Char → Option (List Char × List Char)
  | '0' :: rest => some (['0'], rest)
  | text =>
    let (digits, rest) := text.span Char.isDigit
    if digits.isEmpty then none else some (digits, rest)

/-- A point and at least one digit, if they are there. -/
def readFraction : List Char → List Char × List Char
  | '.' :: rest =>
    let (digits, after) := rest.span Char.isDigit
    if digits.isEmpty then ([], '.' :: rest) else (digits, after)
  | text => ([], text)

/-- An exponent with at least one digit, if it is there. -/
def readExponent (text : List Char) : Option Int × List Char :=
  match text with
  | mark :: rest =>
    if mark = 'e' ∨ mark = 'E' then
      let (negative, unsigned) := splitSign rest
      let (digits, after) := unsigned.span Char.isDigit
      if digits.isEmpty then (none, text)
      else
        let size : Int := digitsValue digits
        (some (if negative then -size else size), after)
    else (none, text)
  | [] => (none, [])

/-- Reads a number; `none` if the text does not start with one. -/
def readNumber? (text : List Char) : Option (Except JsonRefusal (Document × List Char)) := do
  let negative := text.head? = some '-'
  let (digits, afterWhole) ← readWholeDigits? (if negative then text.drop 1 else text)
  let (fraction, afterFraction) := readFraction afterWhole
  let (exponent?, rest) := readExponent afterFraction
  if fraction.isEmpty && exponent?.isNone then
    if digitLimit < digits.length then some (.error (.number (.tooManyDigits digits.length)))
    else
      let size : Int := digitsValue digits
      some (.ok (.whole (if negative then -size else size), rest))
  else
    let value := Double.ofDecimal negative (digitsValue (digits ++ fraction))
      (exponent?.getD 0 - fraction.length)
    some (.ok (.real value, rest))

/-- The values that are written by a name. -/
def names : List (List Char × Document) :=
  [("null".toList, .null), ("true".toList, .bool true), ("false".toList, .bool false),
    ("NaN".toList, .real .nan), ("Infinity".toList, .real (.infinite false)),
    ("-Infinity".toList, .real (.infinite true))]

/-- A value written by a name or a number. -/
def readScalar (text : List Char) : Except JsonRefusal (Document × List Char) :=
  match names.find? fun (name, _) => name.isPrefixOf text with
  | some (name, value) => .ok (value, text.drop name.length)
  | none => (readNumber? text).getD (.error (.fault .value text.length))

mutual

/-- Reads the value that the text starts with. -/
def readValue : (fuel : Nat) → List Char → Except JsonRefusal (Document × List Char)
  | 0, text => .error (.fault .value text.length)
  | fuel + 1, text =>
    match text with
    | '"' :: rest => (readStringBody fuel rest).map fun (s, after) => (.text s, after)
    | '[' :: rest =>
      match skipBlanks rest with
      | ']' :: after => .ok (.list [], after)
      | items => (readItems fuel items).map fun (values, after) => (.list values, after)
    | '\x7b' :: rest =>
      match skipBlanks rest with
      | '\x7d' :: after => .ok (.map [], after)
      | entries => (readEntries fuel [] entries).map fun (values, after) => (.map values, after)
    | _ => readScalar text

/-- Reads the items of a list up to its closing bracket. -/
def readItems : (fuel : Nat) → List Char → Except JsonRefusal (List Document × List Char)
  | 0, text => .error (.fault .value text.length)
  | fuel + 1, text =>
    match readValue fuel text with
    | .error e => .error e
    | .ok (value, rest) =>
      match skipBlanks rest with
      | ']' :: after => .ok ([value], after)
      | ',' :: more =>
        (readItems fuel (skipBlanks more)).map fun (values, after) => (value :: values, after)
      | other => .error (.fault .comma other.length)

/-- Reads the entries of a map up to its closing brace, after those already read. -/
def readEntries : (fuel : Nat) → List (String × Document) → List Char →
    Except JsonRefusal (List (String × Document) × List Char)
  | 0, _, text => .error (.fault .propertyName text.length)
  | fuel + 1, entries, text =>
    match text with
    | '"' :: rest =>
      match readStringBody fuel rest with
      | .error e => .error e
      | .ok (key, rest) =>
        match skipBlanks rest with
        | ':' :: rest =>
          match readValue fuel (skipBlanks rest) with
          | .error e => .error e
          | .ok (value, rest) =>
            let entries := Document.insertEntry key value entries
            match skipBlanks rest with
            | '\x7d' :: after => .ok (entries, after)
            | ',' :: more => readEntries fuel entries (skipBlanks more)
            | other => .error (.fault .comma other.length)
        | other => .error (.fault .colon other.length)
    | other => .error (.fault .propertyName other.length)

end

/-- Reads a text that holds one value between blanks.  An opening bracket takes two of the fuel and
any other character at most one, so it lasts to the end of the text. -/
def readText (text : List Char) : Except JsonRefusal Document :=
  if text.head? = some (Char.ofNat 0xFEFF) then .error (.fault .byteOrderMark text.length)
  else
    match readValue (2 * text.length + 2) (skipBlanks text) with
    | .error e => .error e
    | .ok (value, rest) =>
      match skipBlanks rest with
      | [] => .ok value
      | other => .error (.fault .extraData other.length)

/-- Places a refusal in the text. -/
def place (text : List Char) : JsonRefusal → JsonError
  | .number e => .number e
  | .fault f left =>
    let position := text.length - left
    let before := text.take position
    let column := (before.reverse.takeWhile (· ≠ '\n')).length + 1
    .fault f (before.count '\n' + 1) column position

end JsonReader

/-- The document that a JSON text holds. -/
def Document.ofJson (text : String) : Except JsonError Document :=
  (JsonReader.readText text.toList).mapError (JsonReader.place text.toList)

end MusicMacro
