import MusicMacro.Document
import MusicMacro.Number.Literal

/-!
# Events

An `Event` is one note, chord or rest on the timeline of a part: the positions of its chord,
each a sounding tone or a rest, and its start, duration and stop in seconds from the part's own
beginning.

Events come from compiled notation (`Event.make`) or from a document (`Event.ofDocument`); either
way the duration must be positive and the start must not be negative.  The indices and times of a
document are checked but not converted, and its stop is not looked at, so that such an event has the
values of its entries (`Event.Given`).  It is an `Event` if they are numbers (`Event.Given.event?`).
-/

namespace MusicMacro

/-- One position of a chord: a semitone index, or none for a rest, and a frequency in hertz. -/
structure Position where
  index : Option Nat
  frequency : Double
deriving DecidableEq

/-- A note, chord or rest with its place on the timeline. -/
structure Event where
  positions : List Position
  start : Number
  duration : Number
  stop : Number
deriving DecidableEq

/-- A position that sounds: its place in the chord, its index and its frequency. -/
structure SoundingTone where
  place : Nat
  index : Nat
  frequency : Double
deriving DecidableEq

namespace Event

/-- Indices of the chord, none for a rest. -/
def indices (e : Event) : List (Option Nat) := e.positions.map (·.index)

def frequencies (e : Event) : List Double := e.positions.map (·.frequency)

/-- Whether no position sounds. -/
def isRest (e : Event) : Bool := e.positions.all (·.index.isNone)

/-- The positions that sound, with their places among all positions from `place` on. -/
def soundingFrom (place : Nat) : List Position → List SoundingTone
  | [] => []
  | p :: rest =>
    match p.index with
    | none => soundingFrom (place + 1) rest
    | some index => ⟨place, index, p.frequency⟩ :: soundingFrom (place + 1) rest

/-- The tones that sound, in chord order; their places count the rests. -/
def tones (e : Event) : List SoundingTone := soundingFrom 0 e.positions

end Event

/-! ## Refusals -/

/-- Why a description is no event. -/
inductive EventError where
  | notParallel (indices frequencies : Nat)
  | duration (given : Document)
  | start (given : Document)
  | index (given : Document)

def EventError.message : EventError → String
  | notParallel indices frequencies =>
    "indices and frequencies must be parallel, got " ++ toString indices ++ " and " ++
      toString frequencies
  | duration given => "Duration must be positive, got " ++ given.shown
  | start given => "Start must be >= 0, got " ++ given.shown
  | index given => "Index must be a non-negative int or REST, got " ++ given.shown

/-- A duration, given as a document, must not be zero or less; the value that is not a number
passes. -/
def Event.checkDuration (given : Document) (duration : Number) : Except EventError Unit :=
  if duration.atMost (.whole 0) then .error (.duration given) else .ok ()

/-- A start, given as a document, must not be below zero; the value that is not a number passes. -/
def Event.checkStart (given : Document) (start : Number) : Except EventError Unit :=
  if start.less (.whole 0) then .error (.start given) else .ok ()

/-- The event of resolved positions: its duration and then its start are checked. -/
def Event.make (positions : List Position) (start duration stop : Number) :
    Except EventError Event := do
  checkDuration (.ofNumber duration) duration
  checkStart (.ofNumber start) start
  return ⟨positions, start, duration, stop⟩

/-! ## Documents -/

/-- The mark of a rest among indices. -/
def restMark : String := "REST"

/-- Why a document does not have the expected form. -/
inductive FormError where
  /-- A map lacks an entry. -/
  | missing (key : String)
  /-- A document without entries by key. -/
  | notKeyed (kind : String)
  /-- A document that is no map where optional entries are looked up. -/
  | noEntries (kind : String)
  /-- A document without items. -/
  | notIterable (kind : String)
  /-- A document without a length. -/
  | noLength (kind : String)
  /-- A document without order among numbers. -/
  | notOrdered (relation kind : String)
  /-- A document that is no frequency. -/
  | notReal (kind : String)
  | number (error : NumberError)
  | event (error : EventError)

def FormError.message : FormError → String
  | missing key => quoted key
  | notKeyed kind =>
    if kind = "list" then "list indices must be integers or slices, not str"
    else if kind = "str" then "string indices must be integers, not 'str'"
    else "'" ++ kind ++ "' object is not subscriptable"
  | noEntries kind => "'" ++ kind ++ "' object has no attribute 'get'"
  | notIterable kind => "'" ++ kind ++ "' object is not iterable"
  | noLength kind => "object of type '" ++ kind ++ "' has no len()"
  | notOrdered relation kind =>
    "'" ++ relation ++ "' not supported between instances of '" ++ kind ++ "' and 'int'"
  | notReal kind => "float() argument must be a string or a real number, not '" ++ kind ++ "'"
  | number e => e.message
  | event e => e.message

namespace Document

/-- The entry of a key that must be there. -/
def require (key : String) : Document → Except FormError Document
  | map entries => (lookup? key entries).elim (.error (.missing key)) .ok
  | d => .error (.notKeyed d.kind)

/-- The entry of a key, or a default. -/
def entryD (d : Document) (key : String) (default : Document) : Except FormError Document :=
  match d with
  | map entries => .ok ((lookup? key entries).getD default)
  | d => .error (.noEntries d.kind)

/-- The items of a list; a text has its characters and a map its keys. -/
def items : Document → Except FormError (List Document)
  | list items => .ok items
  | text s => .ok (s.toList.map fun c => .text (String.ofList [c]))
  | map entries => .ok (entries.map fun (key, _) => .text key)
  | d => .error (.notIterable d.kind)

/-- How many items a list has, characters a text or entries a map. -/
def size : Document → Except FormError Nat
  | list items => .ok items.length
  | text s => .ok s.length
  | map entries => .ok entries.length
  | d => .error (.noLength d.kind)

/-- The number that a document is; truth values count as one and zero. -/
def number? : Document → Option Number
  | whole n => some (.whole n)
  | real x => some (.real x)
  | bool b => some (.whole b.toInt)
  | _ => none

/-- A number to compare with zero. -/
def ordered (relation : String) (d : Document) : Except FormError Number :=
  d.number?.elim (.error (.notOrdered relation d.kind)) .ok

/-- A double, also from a text that spells one. -/
def toReal : Document → Except FormError Double
  | whole n => (doubleOfInt n).mapError .number
  | real x => .ok x
  | bool b => .ok (.ofFraction b.toInt 1)
  | text s => (readReal s).mapError .number
  | d => .error (.notReal d.kind)

/-- The whole number that a document is; truth values count as one and zero. -/
def whole? : Document → Option Int
  | whole n => some n
  | bool b => some b.toInt
  | _ => none

/-- An index: the rest mark, or a whole number from zero on. -/
def toIndex (d : Document) : Except FormError (Option Nat) :=
  match d with
  | text s => if s = restMark then .ok none else .error (.event (.index d))
  | whole n => if n < 0 then .error (.event (.index d)) else .ok (some n.toNat)
  | bool b => .ok (some b.toNat)
  | d => .error (.event (.index d))

end Document

namespace Event

/-- An event as a document gives it: frequencies are doubles, and all else has the values of its
entries. -/
structure Given where
  indices : List Document
  frequencies : List Double
  start : Document
  duration : Document
  stop : Document

/-- The event that a document describes.  Any value will do for its stop. -/
def ofDocument (d : Document) : Except FormError Given := do
  let indices ← (← d.require "indices").items
  let frequencies ← (← (← d.require "frequencies").items).mapM Document.toReal
  let start ← d.require "start"
  let duration ← d.require "duration"
  let stop ← d.require "stop"
  if indices.length ≠ frequencies.length then
    throw (.event (.notParallel indices.length frequencies.length))
  (checkDuration duration (← duration.ordered "<=")).mapError .event
  (checkStart start (← start.ordered "<")).mapError .event
  let _ ← indices.mapM Document.toIndex
  return ⟨indices, frequencies, start, duration, stop⟩

/-- The event that is given, if its times are numbers. -/
def Given.event? (e : Given) : Option Event := do
  let indices ← e.indices.mapM fun i => i.toIndex.toOption
  let start ← e.start.number?
  let duration ← e.duration.number?
  let stop ← e.stop.number?
  return ⟨List.zipWith Position.mk indices e.frequencies, start, duration, stop⟩

/-- An index as documents write it. -/
def indexDocument : Option Nat → Document
  | none => .text restMark
  | some i => .whole i

/-- The event with its values as documents give them. -/
def given (e : Event) : Given where
  indices := e.indices.map indexDocument
  frequencies := e.frequencies
  start := .ofNumber e.start
  duration := .ofNumber e.duration
  stop := .ofNumber e.stop

/-- The entries of the document that describes the event. -/
def entries (e : Event) : List (String × Document) :=
  [("indices", .list (e.indices.map indexDocument)),
    ("frequencies", .list (e.frequencies.map .real)),
    ("start", .ofNumber e.start), ("duration", .ofNumber e.duration), ("stop", .ofNumber e.stop)]

def toDocument (e : Event) : Document := .map e.entries

end Event

end MusicMacro
