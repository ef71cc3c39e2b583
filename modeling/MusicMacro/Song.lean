import MusicMacro.Event
import MusicMacro.Text.Alphanumeric
import MusicMacro.Validation

/-!
# Songs

A `Song` is a named batch of notation strings, one per part, with the moments it was made and
last changed.  Its name consists of letters and numerals, beside which `-` and `_` may stand.

A song is made from checked fields (`Song.ofFields`), and has a document form
(`Song.toDocument`) from which it is read again (`Song.ofDocument`).  Documents may leave out
all but the name, and may give the parts as any values, which are taken as their texts.
-/

namespace MusicMacro

/-- Whether a text may name a song. -/
def isSongName (name : String) : Bool :=
  let kept := name.toList.filter fun c => c ≠ '_' && c ≠ '-'
  !kept.isEmpty && kept.all isAlphanumeric

/-- A named batch of notation strings. -/
structure Song where
  schema : String
  name : String
  description : String
  created : Timestamp
  modified : Timestamp
  parts : List String
  name_valid : isSongName name = true
deriving DecidableEq

/-- Why a document holds no song. -/
inductive SongError where
  | form (error : FormError)
  | fields (error : ValidationError)
  | timestamp (error : TimestampError)

def SongError.message : SongError → String
  | form e => e.message
  | fields e => e.message
  | timestamp e => e.message

namespace Song

/-- The version of the document form. -/
def schemaVersion : String := "song/v1"

/-- A text that may name a song. -/
def checkName (place : List String) (d : Document) : Checked { name : String // isSongName name } :=
  match d with
  | .text name =>
    if valid : isSongName name then .ok ⟨name, valid⟩ else refuse place (.songName name) d
  | d => refuse place .text d

/-- The song of the given fields, made now; other fields are left aside. -/
def ofFields (now : Timestamp) (fields : Fields) : Except ValidationError Song :=
  let build (schema : String) (name : { name : String // isSongName name }) (description : String)
      (created modified : Timestamp) (parts : List String) : Song :=
    ⟨schema, name.1, description, created, modified, parts, name.2⟩
  Checked.done "Song" <|
    Checked.start build
      |>.apply (fieldD fields "schema_version" schemaVersion checkText)
      |>.apply (field fields "name" checkName)
      |>.apply (fieldD fields "description" "" checkText)
      |>.apply (fieldD fields "created" now checkTimestamp)
      |>.apply (fieldD fields "modified" now checkTimestamp)
      |>.apply (fieldD fields "parts" [] checkTexts)

/-- The song with a part at its end, and the index of that part. -/
def addPart (song : Song) (text : String) : Song × Nat :=
  ({ song with parts := song.parts ++ [text] }, song.parts.length)

/-- The document form of a song. -/
def toDocument (song : Song) : Document :=
  .map [("schema", .text song.schema), ("name", .text song.name),
    ("description", .text song.description), ("created", .text song.created.isoText),
    ("modified", .text song.modified.isoText), ("parts", .list (song.parts.map .text))]

/-- A moment that a document gives: as such, or as a text. -/
def moment : Document → Except TimestampError Timestamp
  | .timestamp t => .ok t
  | d => Timestamp.read d.asText

/-- A moment under a key, now if there is none. -/
def momentD (entries : Fields) (key : String) (now : Timestamp) : Except SongError Timestamp :=
  match Document.lookup? key entries with
  | none => .ok now
  | some d => (moment d).mapError .timestamp

/-- The song that a document describes; moments it leaves out are now. -/
def ofDocument (now : Timestamp) (d : Document) : Except SongError Song := do
  let schema ← (d.entryD "schema" (.text schemaVersion)).mapError .form
  let name ← (d.require "name").mapError .form
  let description ← (d.entryD "description" (.text "")).mapError .form
  let parts ← ((d.entryD "parts" (.list [])).bind Document.items).mapError .form
  let fields : Fields := [("schema_version", schema), ("name", name),
    ("description", description), ("parts", .list (parts.map fun part => .text part.asText))]
  let song ← (ofFields now fields).mapError .fields
  match d with
  | .map entries =>
    let created ← momentD entries "created" now
    let modified ← momentD entries "modified" now
    return { song with created, modified }
  | _ => return song

end Song

end MusicMacro
