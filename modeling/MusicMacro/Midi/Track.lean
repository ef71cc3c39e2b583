import MusicMacro.Midi.Note

/-!
# MIDI tracks

A track sets the tempo, gives the notes as messages in time order and ends (`MidiTrack.ofNotes`).
Every note is switched on at its start and off at its stop; at one tick all notes are switched
off before any is switched on, and otherwise messages keep the order of their notes
(`orderedMessages`).  Each message tells the ticks since the message before it (`deltas`).
-/

namespace MusicMacro

/-! ## Messages -/

/-- Switching a note of a channel on or off. -/
structure NoteMessage where
  isOn : Bool
  channel : Fin 16
  key : Fin 128
  velocity : Fin 128
deriving DecidableEq

/-- A message at a time in ticks. -/
structure TimedMessage where
  time : Nat
  message : NoteMessage
deriving DecidableEq

namespace MidiNote

/-- The message that starts the note. -/
def onMessage (n : MidiNote) : TimedMessage := ⟨n.start, true, n.channel, n.key, n.velocity⟩

/-- The message that ends the note. -/
def offMessage (n : MidiNote) : TimedMessage :=
  ⟨n.start + n.duration, false, n.channel, n.key, 0⟩

end MidiNote

/-- Whether a message may stand before another: it is earlier, or at the same tick and not
switching on before a switching off. -/
def TimedMessage.precedes (a b : TimedMessage) : Bool :=
  a.time < b.time || (a.time = b.time && (!a.message.isOn || b.message.isOn))

/-- The messages of notes in time order. -/
def orderedMessages (notes : List MidiNote) : List TimedMessage :=
  (notes.flatMap fun n => [n.onMessage, n.offMessage]).mergeSort TimedMessage.precedes

/-- Messages timed from the message before each, the first from `time`. -/
def deltas (time : Nat) : List TimedMessage → List TimedMessage
  | [] => []
  | m :: rest => ⟨m.time - time, m.message⟩ :: deltas m.time rest

/-! ## Tracks -/

/-- What three bytes can count to. -/
def tempoLimit : Nat := 16777216

/-- A track: the length of a quarter note in microseconds, which takes three bytes, and messages,
each timed from the one before it. -/
structure MidiTrack where
  tempo : Fin tempoLimit
  messages : List TimedMessage
deriving DecidableEq

namespace MidiTrack

/-- The whole microseconds of a quarter note at a tempo. -/
def microseconds (bpm : Number) : Except NumberError Int := do
  let length ← (Number.whole 60000000).divide bpm
  length.truncate.mapError .notWhole

/-- The track of notes at a tempo. -/
def ofNotes (bpm : Number) (notes : List MidiNote) : Except MidiError MidiTrack :=
  match microseconds bpm with
  | .error e => .error (.number e)
  | .ok length =>
    match finOfInt? tempoLimit length with
    | none => .error .tempo
    | some tempo => .ok ⟨tempo, deltas 0 (orderedMessages notes)⟩

end MidiTrack

end MusicMacro
