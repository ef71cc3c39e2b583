import MusicMacro.Number.Basic
import MusicMacro.Timestamp

/-!
# Documents

A `Document` is what a JSON or YAML file holds once it is read: scalars, lists and maps from
texts to documents in the order of their keys.  Only YAML files hold timestamps.  Days without a
time, binary data, sets and keys that are no texts, which YAML has as well, are left out.

Messages name the kind of a document (`Document.kind`) and show its value
(`Document.shown`); used as a text, a document is its own text or its shown form
(`Document.asText`).
-/

namespace MusicMacro

inductive Document where
  | null
  | bool (value : Bool)
  | whole (value : Int)
  | real (value : Double)
  | text (value : String)
  | list (items : List Document)
  | map (entries : List (String × Document))
  | timestamp (value : Timestamp)

namespace Document

instance : Inhabited Document := ⟨null⟩

def ofNumber : Number → Document
  | .whole n => whole n
  | .real x => real x

/-- The entry of a key, if the map has it. -/
def lookup? (key : String) (entries : List (String × Document)) : Option Document :=
  entries.lookup key

/-- Adds an entry at the end, or replaces the one of the same key in its place. -/
def insertEntry (key : String) (value : Document) :
    List (String × Document) → List (String × Document)
  | [] => [(key, value)]
  | (k, v) :: rest =>
    if k = key then (k, value) :: rest else (k, v) :: insertEntry key value rest

/-- What messages call this kind of document. -/
def kind : Document → String
  | null => "NoneType"
  | bool _ => "bool"
  | whole _ => "int"
  | real _ => "float"
  | text _ => "str"
  | list _ => "list"
  | map _ => "dict"
  | timestamp _ => "datetime.datetime"

/-- The kind of a document without the family it belongs to. -/
def shortKind : Document → String
  | timestamp _ => "datetime"
  | d => d.kind

mutual

/-- The document as messages show its value. -/
def shown : Document → String
  | null => "None"
  | bool b => if b then "True" else "False"
  | whole n => toString n
  | real x => x.text
  | text s => quoted s
  | list items => "[" ++ String.intercalate ", " (shownItems items) ++ "]"
  | map entries => "\x7b" ++ String.intercalate ", " (shownEntries entries) ++ "\x7d"
  | timestamp t => t.shown

def shownItems : List Document → List String
  | [] => []
  | item :: rest => item.shown :: shownItems rest

def shownEntries : List (String × Document) → List String
  | [] => []
  | (key, value) :: rest => (quoted key ++ ": " ++ value.shown) :: shownEntries rest

end

/-- The document as a text: a text is itself and a timestamp is written with a blank between
date and time. -/
def asText : Document → String
  | text s => s
  | timestamp t => t.textWith " "
  | d => d.shown

/-- Whether the document counts as given: zero, empty and absent values do not. -/
def isGiven : Document → Bool
  | null => false
  | bool b => b
  | whole n => n ≠ 0
  | real x => !(x.equal .zero)
  | text s => s ≠ ""
  | list items => !items.isEmpty
  | map entries => !entries.isEmpty
  | timestamp _ => true

end Document

end MusicMacro
