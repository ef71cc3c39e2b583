import MusicMacro.Number.Literal

/-!
# Pitches

A pitch is a number of semitones above the lowest A, its *index*: index 0 sounds at 27.5 Hz and
index 39 is the C in the middle of the keyboard.  Octave `n` of the notation starts at its C and
covers the indices `12 * (n - 1) + 3` to `12 * (n - 1) + 14` (`PitchLetter.indexIn`).

A chord is kept compact below its first tone (`foldChord`), an index sounds at a power of the
semitone ratio (`frequency`) and is shown by a sharp-only name with its octave (`spell`).
-/

namespace MusicMacro

/-! ## Letters and tones -/

/-- The seven pitch letters. -/
inductive PitchLetter where
  | c | d | e | f | g | a | b
deriving DecidableEq, Repr

namespace PitchLetter

def all : List PitchLetter := [c, d, e, f, g, a, b]

/-- The letter as it is written. -/
def symbol : PitchLetter → Char
  | c => 'C'
  | d => 'D'
  | e => 'E'
  | f => 'F'
  | g => 'G'
  | a => 'A'
  | b => 'B'

def name (l : PitchLetter) : String := String.ofList [l.symbol]

/-- Semitones of the letter above the octave's lowest index; A and B lie beyond twelve, so the
octave changes between B and C. -/
def offset : PitchLetter → Int
  | c => 3
  | d => 5
  | e => 7
  | f => 8
  | g => 10
  | a => 12
  | b => 14

/-- The letter written by a character, in either case. -/
def ofChar? (ch : Char) : Option PitchLetter :=
  match ch.toUpper with
  | 'C' => some c
  | 'D' => some d
  | 'E' => some e
  | 'F' => some f
  | 'G' => some g
  | 'A' => some a
  | 'B' => some b
  | _ => none

/-- The letter of exactly this name. -/
def ofName? (name : String) : Option PitchLetter := all.find? (·.name = name)

/-- Index of the letter in an octave, raised by an accidental. -/
def indexIn (l : PitchLetter) (octave accidental : Int) : Int :=
  12 * (octave - 1) + l.offset + accidental

end PitchLetter

/-- What can go wrong with a pitch. -/
inductive PitchError where
  | unknownLetter (name : String)
  | restHasNoIndex
deriving DecidableEq

def PitchError.message : PitchError → String
  | unknownLetter name => "Unknown pitch letter: " ++ name
  | restHasNoIndex => "A rest has no pitch index"

/-- The pitch letter that a text names, in either case and between blanks. -/
def PitchLetter.parse (text : String) : Except PitchError PitchLetter :=
  match stripBlanks text.toList with
  | [ch] => (PitchLetter.ofChar? ch).elim (.error (.unknownLetter text)) .ok
  | _ => .error (.unknownLetter text)

/-- One tone of a chord: a letter and the semitones that its accidental adds, or a rest. -/
structure Tone where
  letter : Option PitchLetter
  accidental : Int
deriving DecidableEq

namespace Tone

def rest : Tone := ⟨none, 0⟩

def isRest (t : Tone) : Bool := t.letter.isNone

/-- Index of the tone in an octave. -/
def indexIn (t : Tone) (octave : Int) : Except PitchError Int :=
  match t.letter with
  | none => .error .restHasNoIndex
  | some l => .ok (l.indexIn octave t.accidental)

/-- Index of the tone in an octave, none for a rest. -/
def index? (t : Tone) (octave : Int) : Option Int :=
  t.letter.map fun l => l.indexIn octave t.accidental

/-- The tone as it is written; a rest is `R`. -/
def text (t : Tone) : String :=
  match t.letter with
  | none => "R"
  | some l => l.name ++ (if t.accidental = 1 then "#" else if t.accidental = -1 then "-" else "")

end Tone

/-- Semitones added by an accidental sign. -/
def accidentalShift? : Char → Option Int
  | '#' => some 1
  | '+' => some 1
  | '-' => some (-1)
  | _ => none

/-- The tone that a letter starts: a rest for `R`, in either case. -/
def Tone.ofLetter? (ch : Char) (shift : Int) : Option Tone :=
  if ch = 'R' ∨ ch = 'r' then some .rest
  else (PitchLetter.ofChar? ch).map fun l => ⟨some l, shift⟩

/-- The tones of a text, left to right: each letter takes the accidental right after it, and
all other characters are passed over. -/
def parseTones : List Char → List Tone
  | [] => []
  | ch :: rest =>
    let shift := (rest.head?.bind accidentalShift?).getD 0
    (Tone.ofLetter? ch shift).toList ++ parseTones rest

/-! ## Chords -/

/-- Lowers every tone after the first that is not below it.  Rests stay, and so does a chord that
starts with one. -/
def foldChordBy {α : Type} (atMost : α → α → Bool) (lower : α → α) :
    List (Option α) → List (Option α)
  | some first :: rest =>
    some first :: rest.map fun index? => index?.map fun i =>
      if atMost first i then lower i else i
  | indices => indices

/-- Lowers every index after the first that is not below it by one octave. -/
def foldChord : List (Option Int) → List (Option Int) := foldChordBy (· ≤ ·) (· - 12)

/-- Folds a chord whose indices need not be whole numbers. -/
def foldNumbers : List (Option Number) → List (Option Number) :=
  foldChordBy Number.atMost (·.shift (-12))

/-! ## Frequencies -/

/-- The semitone ratio is the double nearest to the twelfth root of two,
`4771397596969315 / 2^52`. -/
def ratioNumerator : Nat := 4771397596969315

/-- Powers of the ratio from this one on exceed every finite double. -/
def powerLimit : Int := 12288

/-- Powers of the ratio below this one are less than half the least positive double. -/
def powerFloor : Int := -13000

/-- The exponents, between the bounds above, at which a power of the ratio lies so close to the
middle between two doubles that the power function takes the farther one. -/
def fartherPowers : List Int :=
  [-9032, -6019, -5125, -884, -529, 4192, 5677, 7031, 7802, 8086, 10387]

/-- A power of the semitone ratio: the double nearest to the exact power, except at
`fartherPowers`. -/
def ratioPower (n : Int) : Except NumberError Double :=
  if powerLimit ≤ n then (doubleOfInt n).bind fun _ => .error .powerOutOfRange
  else if n < powerFloor then (doubleOfInt n).map fun _ => .zero
  else
    let top := ratioNumerator.pow n.toNat * Nat.pow 2 (52 * (-n).toNat) * Magnitude.unitsPerWhole
    let bottom := ratioNumerator.pow (-n).toNat * Nat.pow 2 (52 * n.toNat)
    let magnitude? :=
      if n ∈ fartherPowers then Magnitude.ofQuotientAway? top bottom
      else Magnitude.ofQuotient? top bottom
    match magnitude? with
    | some m => .ok (.finite false m)
    | none => .error .powerOutOfRange

/-- Frequency in hertz of index 0. -/
def referenceFrequency : Double := .ofFraction 55 2

/-- Frequency in hertz of an index. -/
def frequency (index : Int) : Except NumberError Double :=
  (ratioPower index).map (referenceFrequency * ·)

/-- How far the MIDI key of a pitch lies above its index. -/
def midiKeyOffset : Int := 21

/-- The MIDI key of an index: index 0 is key 21. -/
def midiKey (index : Int) : Int := index + midiKeyOffset

/-! ## Names -/

/-- Names of the twelve indices from an A on. -/
def sharpNames : List String :=
  ["A", "A#", "B", "C", "C#", "D", "D#", "E", "F", "F#", "G", "G#"]

/-- The name of an index: letter, sharp and the octave in which the tone would be written. -/
def spell (index : Int) : String :=
  (sharpNames[(index.fmod 12).toNat]?).getD "" ++ toString ((index - 3).fdiv 12 + 1)

/-! ## Indices from outside -/

/-- An index as a caller may give it: the rest mark, a number of either kind or a text. -/
inductive IndexInput where
  | rest
  | number (n : Number)
  | text (s : String)

namespace IndexInput

/-- The index, none for a rest: a fraction is dropped and a text is read. -/
def resolve : IndexInput → Except NumberError (Option Int)
  | rest => .ok none
  | number n => n.truncate.map some
  | text s => (readWhole s).map some

def frequency (input : IndexInput) : Except NumberError Double := do
  match ← input.resolve with
  | none => .ok .zero
  | some i => MusicMacro.frequency i

def spell (input : IndexInput) : Except NumberError String := do
  match ← input.resolve with
  | none => .ok "R"
  | some i => .ok (MusicMacro.spell i)

end IndexInput

end MusicMacro
