import MusicMacro.Document
import MusicMacro.Number.Error
import MusicMacro.Notation.Batch
import MusicMacro.Storage.Path

/-!
# Checked fields

Songs and settings are read from the fields of a map, each of which asks something of the value
it is given (`Requirement`).  All fields are checked before anything is refused: a refusal lists
every fault in the order of the fields (`Checked.apply`).

Whole numbers may be given as truth values, as doubles without a fraction, or as texts
(`wholeField`); texts, lists and paths must be given as such.
-/

namespace MusicMacro

/-- What a field asks of its value. -/
inductive Requirement where
  /-- That there is a value. -/
  | given
  | text
  | list
  | timestamp
  | path
  | policy
  /-- The name of a song, which this text is not. -/
  | songName (name : String)
  | whole
  /-- A double without a fraction. -/
  | wholeReal
  /-- A double with a value. -/
  | finite
  /-- A text that spells a whole number. -/
  | wholeText
  /-- A whole number small enough to read. -/
  | wholeSize
  | positive
deriving DecidableEq

namespace Requirement

def message : Requirement → String
  | given => "Field required"
  | text => "Input should be a valid string"
  | list => "Input should be a valid list"
  | timestamp => "Input should be a valid datetime"
  | path => "Input is not a valid path for <class 'pathlib.Path'>"
  | policy => "Input should be 'abort' or 'continue'"
  | songName name => "Value error, Invalid song name: " ++ name
  | whole => "Input should be a valid integer"
  | wholeReal => "Input should be a valid integer, got a number with a fractional part"
  | finite => "Input should be a finite number"
  | wholeText => "Input should be a valid integer, unable to parse string as an integer"
  | wholeSize => "Unable to parse input string as an integer, exceeded maximum size"
  | positive => "Input should be greater than 0"

/-- The name of the requirement. -/
def code : Requirement → String
  | given => "missing"
  | text => "string_type"
  | list => "list_type"
  | timestamp => "datetime_type"
  | path => "path_type"
  | policy => "enum"
  | songName _ => "value_error"
  | whole => "int_type"
  | wholeReal => "int_from_float"
  | finite => "finite_number"
  | wholeText => "int_parsing"
  | wholeSize => "int_parsing_size"
  | positive => "greater_than"

end Requirement

/-- A value that is not what its field asks for. -/
structure FieldFault where
  place : List String
  requirement : Requirement
  value : Document

namespace FieldFault

/-- The field, with the index of an item after a point. -/
def placeText (f : FieldFault) : String := String.intercalate "." f.place

/-- The longest start of a text that has at most so many bytes. -/
def startWithin (bytes : Nat) : List Char → List Char
  | [] => []
  | c :: rest => if c.utf8Size ≤ bytes then c :: startWithin (bytes - c.utf8Size) rest else []

/-- A text of more than 50 bytes shortened to the characters within its first 25 and its last 24
bytes. -/
def shortened (text : String) : String :=
  if text.utf8ByteSize ≤ 50 then text
  else
    let chars := text.toList
    String.ofList (startWithin 25 chars) ++ "..." ++
      String.ofList (startWithin 24 chars.reverse).reverse

def report (f : FieldFault) : String :=
  f.placeText ++ "\n  " ++ f.requirement.message ++ " [type=" ++ f.requirement.code ++
    ", input_value=" ++ shortened f.value.shown ++ ", input_type=" ++ f.value.shortKind ++ "]"

end FieldFault

/-- The faults of the fields of a subject. -/
structure ValidationError where
  subject : String
  faults : List FieldFault

/-- The faults one after the other under their number. -/
def ValidationError.message (e : ValidationError) : String :=
  let count := e.faults.length
  toString count ++ (if count = 1 then " validation error for " else " validation errors for ") ++
    e.subject ++ String.join (e.faults.map fun f => "\n" ++ f.report)

/-! ## Checking -/

/-- What checked fields give, or their faults. -/
abbrev Checked (α : Type) := Except (List FieldFault) α

namespace Checked

/-- A value, or a function of fields that are still to be given. -/
def start {α : Type} (a : α) : Checked α := .ok a

/-- Gives one more field to a function of fields.  The faults of both are kept. -/
def apply {α β : Type} : Checked (α → β) → Checked α → Checked β
  | .ok f, .ok a => .ok (f a)
  | .ok _, .error later => .error later
  | .error earlier, .ok _ => .error earlier
  | .error earlier, .error later => .error (earlier ++ later)

/-- The values of a list, or the faults of all of them. -/
def all {α : Type} : List (Checked α) → Checked (List α)
  | [] => .ok []
  | first :: rest => ((start List.cons).apply first).apply (all rest)

/-- What the fields of a subject give. -/
def done {α : Type} (subject : String) (checked : Checked α) : Except ValidationError α :=
  checked.mapError (⟨subject, ·⟩)

end Checked

/-- The fields of a map with their values. -/
abbrev Fields := List (String × Document)

def refuse {α : Type} (place : List String) (requirement : Requirement) (value : Document) :
    Checked α := .error [⟨place, requirement, value⟩]

/-- Checks the value of a field that may be left out. -/
def fieldD {α : Type} (fields : Fields) (key : String) (default : α)
    (check : List String → Document → Checked α) : Checked α :=
  match Document.lookup? key fields with
  | none => .ok default
  | some value => check [key] value

/-- Checks the value of a field that must be there. -/
def field {α : Type} (fields : Fields) (key : String)
    (check : List String → Document → Checked α) : Checked α :=
  match Document.lookup? key fields with
  | none => refuse [key] .given (.map fields)
  | some value => check [key] value

def checkText (place : List String) : Document → Checked String
  | .text s => .ok s
  | d => refuse place .text d

/-- A list of texts; each item that is none is a fault of its own. -/
def checkTexts (place : List String) : Document → Checked (List String)
  | .list items =>
    Checked.all (items.zipIdx.map fun (item, i) => checkText (place ++ [toString i]) item)
  | d => refuse place .list d

def checkPath (place : List String) : Document → Checked Path
  | .text s => .ok (.ofText s)
  | d => refuse place .path d

def checkPolicy (place : List String) (d : Document) : Checked ErrorPolicy :=
  match d with
  | .text name => (ErrorPolicy.ofName? name).elim (refuse place .policy d) .ok
  | d => refuse place .policy d

def checkTimestamp (place : List String) (d : Document) : Checked Timestamp :=
  match d with
  | .timestamp t => .ok t
  | .text s =>
    match Timestamp.read s with
    | .ok t => .ok t
    | .error _ => refuse place .timestamp d
  | d => refuse place .timestamp d

/-! ## Whole numbers -/

/-- A text without the zeros of an empty fraction at its end. -/
def dropEmptyFraction (text : List Char) : List Char :=
  let (before, fraction) := text.span (· ≠ '.')
  match fraction with
  | '.' :: zeros => if zeros.all (· = '0') then before else text
  | _ => text

/-- The digits of a whole number after the zeros in front of it, which underscores may set apart.
Further on an underscore stands between two digits. -/
def wholeDigits? (text : List Char) : Option (List Char) :=
  let digits := text.dropWhile fun c => c = '0' ∨ c = '_'
  let spans := pieces '_' digits
  if !text.head?.any Char.isDigit then none
  else if digits.isEmpty then (if text.getLast? = some '0' then some ['0'] else none)
  else if spans.all fun span => !span.isEmpty && span.all Char.isDigit then some spans.flatten
  else none

/-- The whole number that a text given to a field spells. -/
def fieldWhole (text : String) : Except Requirement Int :=
  let (negative, body) := splitSign (trimNumber text.toList)
  match wholeDigits? (dropEmptyFraction body) with
  | none => .error .wholeText
  | some digits =>
    if digitLimit < digits.length then .error .wholeSize
    else .ok (if negative then -(digitsValue digits : Int) else digitsValue digits)

/-- The whole number that a value stands for.  Doubles are taken within 64 bits. -/
def wholeValue : Document → Except Requirement Int
  | .whole n => .ok n
  | .bool b => .ok b.toInt
  | .text s => fieldWhole s
  | .real x =>
    match x.truncate with
    | .error _ => .error .finite
    | .ok n =>
      if !(Number.equal (.whole n) (.real x)) then .error .wholeReal
      else if n.natAbs < Nat.pow 2 63 then .ok n else .error .wholeSize
  | _ => .error .whole

/-- A whole number above zero. -/
def checkPositive (place : List String) (d : Document) : Checked { n : Int // 0 < n } :=
  match wholeValue d with
  | .error requirement => refuse place requirement d
  | .ok n => if positive : 0 < n then .ok ⟨n, positive⟩ else refuse place .positive d

end MusicMacro
