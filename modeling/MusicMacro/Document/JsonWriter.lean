import MusicMacro.Document

/-!
# Writing JSON

A document is written with its keys in order (`Document.jsonText`), on one line or with every
entry on a line of its own, indented by its depth.  Texts use only ASCII: the quote, the
backslash and the control characters have short escapes, all other characters outside the
printable ASCII range are written by their UTF-16 units.  Doubles are written as their
shortest decimal, and the values without one by name.

A timestamp has no JSON form; writers refuse a document that holds one
(`Document.hasTimestamp`).
-/

namespace MusicMacro

/-- A UTF-16 unit as an escape. -/
def jsonUnit (unit : Nat) : List Char := '\\' :: 'u' :: hexDigits 4 unit

/-- A character inside a JSON string. -/
def jsonChar (c : Char) : List Char :=
  if c = '"' then ['\\', '"']
  else if c = '\\' then ['\\', '\\']
  else if c = '\n' then ['\\', 'n']
  else if c = '\r' then ['\\', 'r']
  else if c = '\t' then ['\\', 't']
  else if c.toNat = 12 then ['\\', 'f']
  else if c.toNat = 8 then ['\\', 'b']
  else if 32 ≤ c.toNat ∧ c.toNat < 127 then [c]
  else if c.toNat < 0x10000 then jsonUnit c.toNat
  else
    let high := (c.toNat - 0x10000) / 0x400
    let low := (c.toNat - 0x10000) % 0x400
    jsonUnit (0xD800 + high) ++ jsonUnit (0xDC00 + low)

/-- A text as a JSON string. -/
def jsonString (s : String) : String :=
  String.ofList ('"' :: s.toList.flatMap jsonChar ++ ['"'])

/-- A double as a JSON number, or the name that stands for it. -/
def jsonReal : Double → String
  | .nan => "NaN"
  | .infinite negative => if negative then "-Infinity" else "Infinity"
  | x => x.text

/-- How entries are set apart: on one line, or each on a line indented by so many blanks for
each level. -/
inductive JsonLayout where
  | line
  | indented (width : Nat)

namespace JsonLayout

/-- What stands before the first entry, or after the last one, at a depth. -/
def lineBreak (layout : JsonLayout) (depth : Nat) : String :=
  match layout with
  | line => ""
  | indented width => "\n" ++ String.ofList (List.replicate (width * depth) ' ')

/-- What stands between two entries at a depth. -/
def separator (layout : JsonLayout) (depth : Nat) : String :=
  match layout with
  | line => ", "
  | indented _ => "," ++ layout.lineBreak depth

/-- Entries between brackets; nothing stands between the brackets of an empty list. -/
def enclose (layout : JsonLayout) (depth : Nat) (opening closing : String)
    (entries : List String) : String :=
  if entries.isEmpty then opening ++ closing
  else opening ++ layout.lineBreak (depth + 1) ++
    String.intercalate (layout.separator (depth + 1)) entries ++ layout.lineBreak depth ++ closing

end JsonLayout

namespace Document

mutual

/-- The JSON text of a document at a depth. -/
def jsonAt (layout : JsonLayout) (depth : Nat) : Document → String
  | null => "null"
  | bool b => if b then "true" else "false"
  | whole n => toString n
  | real x => jsonReal x
  | text s => jsonString s
  | list items => layout.enclose depth "[" "]" (jsonItems layout (depth + 1) items)
  | map entries => layout.enclose depth "\x7b" "\x7d" (jsonEntries layout (depth + 1) entries)
  | timestamp t => jsonString t.isoText

def jsonItems (layout : JsonLayout) (depth : Nat) : List Document → List String
  | [] => []
  | item :: rest => item.jsonAt layout depth :: jsonItems layout depth rest

def jsonEntries (layout : JsonLayout) (depth : Nat) : List (String × Document) → List String
  | [] => []
  | (key, value) :: rest =>
    (jsonString key ++ ": " ++ value.jsonAt layout depth) :: jsonEntries layout depth rest

end

def jsonText (layout : JsonLayout) (d : Document) : String := d.jsonAt layout 0

mutual

/-- Whether a timestamp stands anywhere in the document. -/
def hasTimestamp : Document → Bool
  | list items => anyTimestamp items
  | map entries => anyEntryTimestamp entries
  | timestamp _ => true
  | _ => false

def anyTimestamp : List Document → Bool
  | [] => false
  | item :: rest => item.hasTimestamp || anyTimestamp rest

def anyEntryTimestamp : List (String × Document) → Bool
  | [] => false
  | (_, value) :: rest => value.hasTimestamp || anyEntryTimestamp rest

end

end Document

end MusicMacro
