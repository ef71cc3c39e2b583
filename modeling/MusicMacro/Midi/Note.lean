import MusicMacro.Event
import MusicMacro.Pitch

/-!
# MIDI notes

A `MidiNote` is one sounding tone with its place on a grid of ticks, counted from the start of
the piece.  The grid is laid against a reference tempo (`TickGrid`): the seconds of an event are
multiplied by its resolution and its tempo, divided by sixty and rounded to the nearest tick
(`TickGrid.ticks`).

Every tone of an event becomes a note of its own and rests become none (`notesOfPart`).  The
parts of a batch sound on channels of their own, the drum channel left out (`channelOfPart`,
`notesOfParts`).
-/

namespace MusicMacro

/-! ## Notes -/

/-- A note: key, start and duration in ticks, velocity and channel. -/
structure MidiNote where
  key : Fin 128
  start : Nat
  duration : Nat
  velocity : Fin 128
  channel : Fin 16
deriving DecidableEq

/-- Why values do not make MIDI notes. -/
inductive MidiError where
  | key (value : Int)
  | velocity (value : Int)
  | channel (value : Int)
  | start (value : Int)
  | duration (value : Int)
  /-- A tempo whose beat has a length that a file cannot hold. -/
  | tempo
  | number (error : NumberError)
deriving DecidableEq

def MidiError.message : MidiError → String
  | key value => "Pitch must be 0-127, got " ++ toString value
  | velocity value => "Velocity must be 0-127, got " ++ toString value
  | channel value => "Channel must be 0-15, got " ++ toString value
  | start value => "Start ticks must be >= 0, got " ++ toString value
  | duration value => "Duration ticks must be >= 0, got " ++ toString value
  | tempo => "attribute must be in range 0..16777215"
  | number e => e.message

/-- A value from zero on and below a bound. -/
def finOfInt? (bound : Nat) (value : Int) : Option (Fin bound) :=
  if h : 0 ≤ value ∧ value < bound then some ⟨value.toNat, by omega⟩ else none

/-- A value from zero on. -/
def natOfInt? (value : Int) : Option Nat := if 0 ≤ value then some value.toNat else none

/-- The note of these values, the first of which that is out of its range refuses it. -/
def MidiNote.make (key start duration velocity channel : Int) : Except MidiError MidiNote :=
  match finOfInt? 128 key, finOfInt? 128 velocity, finOfInt? 16 channel, natOfInt? start,
    natOfInt? duration with
  | none, _, _, _, _ => .error (.key key)
  | _, none, _, _, _ => .error (.velocity velocity)
  | _, _, none, _, _ => .error (.channel channel)
  | _, _, _, none, _ => .error (.start start)
  | _, _, _, _, none => .error (.duration duration)
  | some k, some v, some c, some s, some d => .ok ⟨k, s, d, v, c⟩

/-! ## The grid -/

/-- Ticks of a quarter note, and the tempo at which they are counted. -/
structure TickGrid where
  ticksPerBeat : Int
  bpm : Int
deriving DecidableEq

namespace TickGrid

def standard : TickGrid := ⟨480, 120⟩

/-- The tick nearest to a time in seconds, halfway the even one. -/
def ticks (grid : TickGrid) (seconds : Number) : Except NumberError Int := do
  let beats ← seconds.multiply (.whole grid.ticksPerBeat)
  let minutes ← beats.multiply (.whole grid.bpm)
  let ticks ← minutes.divide (.whole 60)
  ticks.round.mapError .notWhole

end TickGrid

/-! ## Parts -/

/-- The velocity of notes that are given none. -/
def standardVelocity : Int := 100

/-- The channel that carries drums. -/
def drumChannel : Nat := 9

/-- The channels of parts, in order. -/
def melodicChannels : List Nat := (List.range 16).filter (· ≠ drumChannel)

/-- The channel of a part; parts beyond the last channel start again with the first. -/
def channelOfPart (index : Int) : Nat :=
  (melodicChannels[(index.fmod melodicChannels.length).toNat]?).getD 0

/-- The notes of an event, all with its start and duration. -/
def notesOfEvent (grid : TickGrid) (velocity channel : Int) (e : Event) :
    Except MidiError (List MidiNote) := do
  let start ← (grid.ticks e.start).mapError .number
  let stop ← (grid.ticks e.stop).mapError .number
  e.tones.mapM fun tone => MidiNote.make (midiKey tone.index) start (stop - start) velocity channel

/-- The notes of a part, event by event. -/
def notesOfPart (grid : TickGrid) (velocity channel : Int) :
    List Event → Except MidiError (List MidiNote)
  | [] => .ok []
  | e :: rest => do
    let first ← notesOfEvent grid velocity channel e
    return first ++ (← notesOfPart grid velocity channel rest)

/-- The notes of parts, in index order. -/
def notesOfParts (grid : TickGrid) (velocity : Int) (parts : List (Int × List Event)) :
    Except MidiError (List MidiNote) := do
  let ordered := parts.mergeSort fun a b => a.1 ≤ b.1
  return (← ordered.mapM fun (index, events) =>
    notesOfPart grid velocity (channelOfPart index) events).flatten

end MusicMacro
