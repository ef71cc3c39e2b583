import MusicMacro.Midi.Track

/-!
# MIDI files

A `MidiFile` is a track with the resolution of its ticks, written as a file of type 1 with that
one track (`MidiFile.bytes`).  Times are
written in groups of seven bits with the highest group first (`variableLength`), and a message
whose status byte equals that of the message before it leaves it out (`noteBytes`).

The resolution has 16 bits with a sign; a file with any other cannot be written.
-/

namespace MusicMacro

abbrev Bytes := List UInt8

/-- The lowest `count` bytes of a number, the highest of them first. -/
def bigEndian : Nat → Nat → Bytes
  | 0, _ => []
  | count + 1, n => bigEndian count (n / 256) ++ [UInt8.ofNat (n % 256)]

/-- Groups of seven bits, the highest first, each marked as followed by another. -/
def continuedGroups (n : Nat) : Bytes :=
  if n = 0 then [] else continuedGroups (n / 128) ++ [UInt8.ofNat (128 + n % 128)]
termination_by n

/-- A number in groups of seven bits, the highest first; the last group has no mark. -/
def variableLength (n : Nat) : Bytes := continuedGroups (n / 128) ++ [UInt8.ofNat (n % 128)]

/-- The byte that tells the kind and channel of a message. -/
def NoteMessage.status (m : NoteMessage) : UInt8 :=
  UInt8.ofNat ((if m.isOn then 0x90 else 0x80) + m.channel)

/-- Timed messages after one of the given status, if any. -/
def noteBytes (running : Option UInt8) : List TimedMessage → Bytes
  | [] => []
  | ⟨time, m⟩ :: rest =>
    let status := if running = some m.status then [] else [m.status]
    variableLength time ++ status ++ [UInt8.ofNat m.key, UInt8.ofNat m.velocity] ++
      noteBytes (some m.status) rest

/-- A chunk: its name of four letters, its length and its content. -/
def chunk (name : String) (content : Bytes) : Bytes :=
  name.toList.map (fun c => UInt8.ofNat c.toNat) ++ bigEndian 4 content.length ++ content

/-- The events of a track, from the tempo to the end mark. -/
def MidiTrack.bytes (t : MidiTrack) : Bytes :=
  variableLength 0 ++ [0xFF, 0x51, 0x03] ++ bigEndian 3 t.tempo ++ noteBytes none t.messages ++
    variableLength 0 ++ [0xFF, 0x2F, 0x00]

/-- A track and the ticks of its quarter notes. -/
structure MidiFile where
  ticksPerBeat : Int
  track : MidiTrack
deriving DecidableEq

/-- A resolution beyond 16 bits. -/
structure ResolutionError where
  ticksPerBeat : Int
deriving DecidableEq

def ResolutionError.message (_ : ResolutionError) : String :=
  "'h' format requires -32768 <= number <= 32767"

namespace MidiFile

/-- The file of parts on a grid, at the tempo of the grid. -/
def ofParts (grid : TickGrid) (velocity : Int) (parts : List (Int × List Event)) :
    Except MidiError MidiFile := do
  let notes ← notesOfParts grid velocity parts
  return ⟨grid.ticksPerBeat, ← MidiTrack.ofNotes (.whole grid.bpm) notes⟩

/-- The bytes of the file, unless its resolution does not fit. -/
def bytes (f : MidiFile) : Except ResolutionError Bytes :=
  if -32768 ≤ f.ticksPerBeat ∧ f.ticksPerBeat ≤ 32767 then
    let resolution := (f.ticksPerBeat.fmod 65536).toNat
    .ok (chunk "MThd" (bigEndian 2 1 ++ bigEndian 2 1 ++ bigEndian 2 resolution) ++
      chunk "MTrk" f.track.bytes)
  else .error ⟨f.ticksPerBeat⟩

end MidiFile

end MusicMacro
