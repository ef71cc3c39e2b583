import MusicMacro.Document.JsonReader
import MusicMacro.Document.JsonWriter
import MusicMacro.Event
import MusicMacro.Notation.Batch
import MusicMacro.Pitch

/-!
# Scores

A `Score` keeps the compiled parts of a batch with the notation they come from, and the indices
of the strings that did not compile.  Its document form (`Score.toDocument`) has the parts in
index order and names every pitch; written as JSON and read again (`Score.ofJson`) it gives the
same parts.

A score that is read has the values that its document gives (`Score.Given`).  Its events are
checked, but its indices, its failed indices and the stops of its events may be anything; if they
are numbers it is a `Score` (`Score.Given.score?`).
-/

namespace MusicMacro

/-- A compiled part with its source.  Documents may give the source any value. -/
structure ScorePart where
  index : Int
  source : Document
  events : List Event

namespace ScorePart

/-- Length of the part in seconds: where its last event stops. -/
def duration (p : ScorePart) : Number := (p.events.getLast?.map (·.stop)).getD (.real .zero)

/-- Number of tones that sound in the part. -/
def toneCount (p : ScorePart) : Nat := (p.events.flatMap (·.tones)).length

/-- The name of an index, `R` for a rest. -/
def indexName : Option Nat → String
  | none => "R"
  | some i => spell i

def toDocument (p : ScorePart) : Document :=
  .map [("index", .whole p.index), ("source", p.source), ("duration", .ofNumber p.duration),
    ("events", .list (p.events.map fun e =>
      .map (e.entries ++ [("names", .list (e.indices.map fun i => .text (indexName i)))])))]

end ScorePart

/-- A batch of compiled parts.  Documents may give the schema and the name any value. -/
structure Score where
  schema : Document
  name : Document
  parts : List ScorePart
  failed : List Int

namespace Score

/-- The version of the document form. -/
def schemaVersion : String := "mml_score/v1"

/-- The score of compiled notation: a part for each index that compiled, and the other indices
as failed. -/
def ofCompiled (texts : List String) (parts : List (Nat × List Event)) (name : String) : Score where
  schema := .text schemaVersion
  name := .text name
  parts := (parts.mergeSort fun a b => a.1 ≤ b.1).map fun (index, events) =>
    ⟨index, .text ((texts[index]?).getD ""), events⟩
  failed := ((List.range texts.length).filter fun i => (parts.lookup i).isNone).map Int.ofNat

/-- Length of the longest part in seconds. -/
def duration (s : Score) : Number :=
  (Number.largest? (s.parts.map (·.duration))).getD (.real .zero)

/-- Number of events of all parts. -/
def eventCount (s : Score) : Nat := (s.parts.flatMap (·.events)).length

/-- The events of each part by index; a later part replaces one of the same index. -/
def eventsByPart (s : Score) : List (Int × List Event) :=
  let latest := s.parts.reverse
  ((s.parts.map (·.index)).eraseDups).filterMap fun i =>
    (latest.find? (·.index = i)).map fun p => (i, p.events)

/-- The parts in index order. -/
def sortedParts (s : Score) : List ScorePart := s.parts.mergeSort fun a b => a.index ≤ b.index

def sortedFailed (s : Score) : List Int := s.failed.mergeSort (· ≤ ·)

def toDocument (s : Score) : Document :=
  .map [("schema", s.schema), ("name", s.name), ("duration", .ofNumber s.duration),
    ("parts", .list (s.sortedParts.map (·.toDocument))),
    ("failed", .list (s.sortedFailed.map .whole))]

def toJson (s : Score) (indent : Nat) : String := s.toDocument.jsonText (.indented indent)

/-- The least and the greatest index that sounds, both zero when none does. -/
def indexRange (s : Score) : Nat × Nat :=
  let indices := s.parts.flatMap fun p => p.events.flatMap fun e => e.tones.map (·.index)
  ((indices.min?).getD 0, (indices.max?).getD 0)

/-- The score at a glance; its length is rounded to a millionth of a second. -/
def summary (s : Score) : Document :=
  let (low, high) := s.indexRange
  .map [("name", s.name), ("parts", .whole s.parts.length),
    ("failed", .list (s.sortedFailed.map .whole)), ("total_events", .whole s.eventCount),
    ("duration", .ofNumber (s.duration.roundPlaces 6)),
    ("index_range", .list [.whole low, .whole high])]

end Score

/-! ## Reading -/

/-- A part as a document gives it. -/
structure ScorePart.Given where
  index : Document
  source : Document
  events : List Event.Given

/-- A score as a document gives it. -/
structure Score.Given where
  schema : Document
  name : Document
  parts : List ScorePart.Given
  failed : List Document

namespace ScorePart

/-- The part with its values as documents give them. -/
def given (p : ScorePart) : Given := ⟨.whole p.index, p.source, p.events.map (·.given)⟩

/-- The part that is given, if its index is a whole number and the times of its events are
numbers. -/
def Given.part? (p : Given) : Option ScorePart := do
  let events ← p.events.mapM (·.event?)
  return ⟨← p.index.whole?, p.source, events⟩

/-- The part that a document describes.  Any value will do for its index. -/
def ofDocument (d : Document) : Except FormError Given := do
  let index ← d.require "index"
  let source ← d.entryD "source" (.text "")
  let events ← (← (← d.entryD "events" (.list [])).items).mapM Event.ofDocument
  return ⟨index, source, events⟩

end ScorePart

namespace Score

/-- The score with its values as documents give them. -/
def given (s : Score) : Given :=
  ⟨s.schema, s.name, s.parts.map (·.given), s.failed.map .whole⟩

/-- The score that is given, if its indices are whole numbers and the times of its events are
numbers. -/
def Given.score? (s : Given) : Option Score := do
  let parts ← s.parts.mapM (·.part?)
  return ⟨s.schema, s.name, parts, ← s.failed.mapM (·.whole?)⟩

/-- The score that a document describes.  Any values will do for the failed indices. -/
def ofDocument (d : Document) : Except FormError Given := do
  let schema ← d.entryD "schema" (.text schemaVersion)
  let name ← d.entryD "name" (.text "")
  let parts ← (← (← d.entryD "parts" (.list [])).items).mapM ScorePart.ofDocument
  let failed ← (← d.entryD "failed" (.list [])).items
  return ⟨schema, name, parts, failed⟩

/-- Why a text holds no score. -/
inductive ReadError where
  | json (error : JsonError)
  | form (error : FormError)

def ReadError.message : ReadError → String
  | json e => e.message
  | form e => e.message

/-- The score that a JSON text describes. -/
def ofJson (text : String) : Except ReadError Given :=
  match Document.ofJson text with
  | .error e => .error (.json e)
  | .ok d => (ofDocument d).mapError .form

end Score

end MusicMacro
