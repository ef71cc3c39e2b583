import MusicMacro.Notation.Batch
import MusicMacro.Playback.Part
import MusicMacro.Playback.Source
import MusicMacro.Warning

/-!
# Sessions

A `Session` is the whole state of playback: the wrapped source, the installed parts, the timers
that run and the clock they run on, who waits for silence, and a log of everything that was done.
An installed part plays exactly while its entry names a timer (`PartEntry.isPlaying`).

Calls to sources and hooks may fail, so a `Step` gives the new session together with the error
that ended it early; what was done before the error stays done.
-/

namespace MusicMacro

/-! ## Naming parts -/

/-- How a caller names a part: by a number, or by a text, which is the index of none. -/
inductive PartName where
  | number (n : Number)
  | text (s : String)
deriving DecidableEq

namespace PartName

/-- The part of an index. -/
def ofIndex (index : Nat) : PartName := .number (.whole index)

def shown : PartName → String
  | number n => n.text
  | text s => s

/-- The index that is meant, if the number is a whole one from zero on. -/
def index? : PartName → Option Nat
  | text _ => none
  | number n =>
    match n.truncate with
    | .ok k => if 0 ≤ k ∧ n.equal (.whole k) then some k.toNat else none
    | .error _ => none

end PartName

/-! ## Errors -/

/-- Why a step of playback ended early. -/
inductive PlaybackError where
  /-- A call raised: its name and how many calls of that name came before it. -/
  | raised (name : CallName) (count : Nat)
  | noPart (name : PartName)
  | noSource
  | source (error : SourceError)
  | unknownShape (error : UnknownName)
  /-- A source lacks a method of its shape. -/
  | missingMethod (kind method : String)
  /-- A hook was taken away between two of its calls. -/
  | missingHook
  | compile (error : CompileError)

def PlaybackError.message : PlaybackError → String
  | raised name count => name.text ++ " " ++ toString count ++ " failed"
  | noPart name => "No part at index " ++ name.shown ++ "."
  | noSource => "No sound source prepared. Call prepare() first."
  | source e => e.message
  | unknownShape e => e.message
  | missingMethod kind method => "'" ++ kind ++ "' object has no attribute '" ++ method ++ "'"
  | missingHook => "'NoneType' object is not callable"
  | compile e => e.message

/-! ## State -/

/-- The hooks that a caller has installed. -/
structure Hooks where
  started : Bool
  stopped : Bool
  ended : Bool
  refused : Bool
deriving DecidableEq

namespace Hooks

def all : Hooks := ⟨true, true, true, true⟩

def none : Hooks := ⟨false, false, false, false⟩

end Hooks

/-- An installed part: its index, a number of its own, its timer while it plays, and the event
taken last. -/
structure PartEntry where
  index : Nat
  serial : Nat
  part : Part
  timer : Option Nat
  lastEvent : Option Event
deriving DecidableEq

def PartEntry.isPlaying (e : PartEntry) : Bool := e.timer.isSome

/-- A timer that ends the event of a part when it is due. -/
structure Timer where
  serial : Nat
  due : Double
  index : Nat
  entry : Nat
  event : Event
  routing : Option String
  onProcess : Option String
deriving DecidableEq

/-- Someone who waits until nothing plays. -/
inductive Waiter where
  /-- Began to wait during the present command. -/
  | arrived
  | waiting
  | done
deriving DecidableEq, Repr

/-- What a caller asks of playback. -/
inductive Command where
  | prepare (source : SoundSource) (texts : List String) (shape : Option String)
  | play (part : PartName) (routing onProcess : Option String)
  | playAll (routing onProcess : Option String)
  | halt (onProcess : Option String)
  | install (hooks : Hooks)
  /-- Lets time pass, and the timers due by then fire, at most `limit` of them. -/
  | advance (seconds : Double) (limit : Nat)
  /-- Lets timers fire until none is left, at most `limit` of them. -/
  | run (limit : Nat)
  | look (part : PartName)
  | overview
  | wait

/-- What playback answers. -/
inductive Reply where
  | done
  | accepted
  | indices (indices : List Nat)
  | count (n : Nat)
  | entry (entry : PartEntry)
  | overview (adapter : Option Adapter) (policy : ErrorPolicy) (registry : List PartEntry)

/-- What was done, at a reading of the clock and on behalf of a part where that matters. -/
inductive LogItem where
  | call (time : Double) (index : Nat) (call : Call)
  /-- An event of an entry was handed to the wrapped source of this number. -/
  | dispatched (time : Double) (index entry adapter : Nat) (starting : Bool) (event : Event)
  /-- An entry had no event left to take. -/
  | finished (time : Double) (index entry : Nat)
  | warned (warning : Warning)
  | fired (time : Double)
  /-- An error came out of a timer. -/
  | escaped (error : PlaybackError)
  /-- A command was given during a call. -/
  | answered (command : Command) (reply : Except PlaybackError Reply)

/-- The state of playback. -/
structure Session where
  hooks : Hooks
  policy : ErrorPolicy
  adapter : Option Adapter
  /-- How many sources were wrapped so far. -/
  adapters : Nat
  /-- Installed parts in the order of their installation. -/
  registry : List PartEntry
  /-- Parts that are installed no more. -/
  discarded : List PartEntry
  /-- Whether nothing was playing when this was last told. -/
  idle : Bool
  waiters : List Waiter
  clock : Double
  /-- Running timers in the order of their creation. -/
  timers : List Timer
  /-- How many entries and timers were created so far. -/
  created : Nat
  /-- How many calls of each name were made so far. -/
  counts : List (CallName × Nat)
  /-- What was done, the latest first. -/
  log : List LogItem

namespace Session

def initial (hooks : Hooks) (policy : ErrorPolicy) : Session where
  hooks := hooks
  policy := policy
  adapter := none
  adapters := 0
  registry := []
  discarded := []
  idle := true
  waiters := []
  clock := .zero
  timers := []
  created := 0
  counts := []
  log := []

/-- Whether no installed part plays. -/
def isPaused (s : Session) : Bool := s.registry.all fun e => !e.isPlaying

/-- The installed part of an index. -/
def entryAt? (s : Session) (index : Nat) : Option PartEntry :=
  s.registry.find? (·.index = index)

/-- The installed part that a name means. -/
def entryNamed? (s : Session) (name : PartName) : Option PartEntry := name.index?.bind s.entryAt?

/-- The entry of this number, installed or discarded. -/
def entryOf? (s : Session) (serial : Nat) : Option PartEntry :=
  (s.registry ++ s.discarded).find? (·.serial = serial)

def record (s : Session) (item : LogItem) : Session := { s with log := item :: s.log }

/-- How many calls of a name were made. -/
def countOf (s : Session) (name : CallName) : Nat := (s.counts.lookup name).getD 0

/-- The session after a call was counted and logged. -/
def recordCall (s : Session) (index : Nat) (c : Call) : Session :=
  { s.record (.call s.clock index c) with
    counts := (c.name, s.countOf c.name + 1) :: s.counts.filter (·.1 ≠ c.name) }

/-- Tells those who wait that nothing plays, if that is so and they have not been told. -/
def updateIdle (s : Session) : Session :=
  if s.isPaused && !s.idle then
    { s with
      idle := true
      waiters := s.waiters.map fun w => if w = .waiting then .done else w }
  else s

/-- Those who began to wait during a command wait on, unless nothing plays. -/
def settleWaiters (s : Session) : Session :=
  { s with
    waiters := s.waiters.map fun w =>
      if w = .arrived then (if s.idle then .done else .waiting) else w }

/-- Replaces the entry of this number where it is installed. -/
def replaceEntry (s : Session) (entry : PartEntry) : Session :=
  { s with registry := s.registry.map fun e => if e.serial = entry.serial then entry else e }

end Session

/-! ## Steps -/

/-- A step of playback: the session after it, and the error that ended it early. -/
abbrev Step := Session → Session × Option PlaybackError

namespace Step

def skip : Step := fun s => (s, none)

def fail (e : PlaybackError) : Step := fun s => (s, some e)

/-- A change of the session that cannot fail. -/
def change (f : Session → Session) : Step := fun s => (f s, none)

/-- The second step follows if the first one succeeds. -/
def andThen (first second : Step) : Step := fun s =>
  match first s with
  | (s, none) => second s
  | (s, some e) => (s, some e)

/-- The second step follows in any case; its error comes before that of the first. -/
def andAlways (first second : Step) : Step := fun s =>
  let (s, e) := first s
  let (s, later) := second s
  (s, later.or e)

/-- A step for each item, up to the first error. -/
def forEach {α : Type} (f : α → Step) : List α → Step
  | [] => skip
  | a :: rest => (f a).andThen (forEach f rest)

/-- A step that depends on the session. -/
def given (f : Session → Step) : Step := fun s => f s s

end Step

/-- How the outside takes a call that is made on behalf of a part. -/
abbrev Handler := Nat → Call → Step

end MusicMacro
