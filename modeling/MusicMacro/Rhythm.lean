import MusicMacro.Number.Basic

/-!
# Note lengths and tempo

A length is an exact positive fraction of a quarter note (`Duration`), written in notation by a
code that names a part of the whole note (`Duration.ofCode`).  Lengths are added exactly and
become seconds once, against the seconds that a quarter note takes (`secondsPerBeat`).
-/

namespace MusicMacro

/-! ## Durations -/

/-- What can go wrong with a length. -/
inductive DurationError where
  | unsupportedCode (code : Number)
  | notPositive (beats : Rat)
deriving DecidableEq

/-- A fraction as `p/q`, or as `p` when it is whole. -/
def fractionText (r : Rat) : String :=
  toString r.num ++ (if r.den = 1 then "" else "/" ++ toString r.den)

def DurationError.message : DurationError → String
  | unsupportedCode code => "Unsupported duration code: " ++ code.text
  | notPositive beats => "Duration must be positive, got " ++ fractionText beats

/-- A note length in quarter notes. -/
structure Duration where
  beats : Rat
  positive : 0 < beats
deriving DecidableEq

namespace Duration

/-- A length of so many quarter notes, which must be positive. -/
def ofBeats (beats : Rat) : Except DurationError Duration :=
  if h : 0 < beats then .ok ⟨beats, h⟩ else .error (.notPositive beats)

/-- The codes that notation may use; code `n` is the `n`-th part of a whole note. -/
def supportedCodes : List Nat :=
  [1, 2, 4, 6, 8, 12, 16, 18, 24, 32, 36, 48, 64, 72, 96, 128, 144, 192, 256]

/-- Whether a code is one of the supported ones; numbers compare by value. -/
def isSupported (code : Number) : Bool :=
  supportedCodes.any fun n : Nat => code.equal (.whole n)

/-- One and a half times the length. -/
def dotted (d : Duration) : Duration :=
  ⟨d.beats * (3 / 2), Rat.mul_pos d.positive (by grind)⟩

/-- The length of a supported code, which a dot makes half as long again. -/
def ofCode (code : Number) (isDotted : Bool) : Except DurationError Duration :=
  match supportedCodes.find? fun n : Nat => code.equal (.whole n) with
  | none => .error (.unsupportedCode code)
  | some n => (ofBeats (4 / n)).map fun d => if isDotted then d.dotted else d

/-- The sum of two lengths. -/
def add (d e : Duration) : Duration :=
  ⟨d.beats + e.beats, by have := d.positive; have := e.positive; grind⟩

/-- The length in seconds: the nearest double to the exact number of beats, times the seconds
of one beat. -/
def seconds (d : Duration) (perBeat : Double) : Except NumberError Double :=
  (doubleOfQuotient d.beats.num d.beats.den).map (· * perBeat)

/-- The lengths that have a name. -/
def names : List (Rat × String) :=
  [(4, "whole"), (2, "half"), (1, "quarter"), (1 / 2, "eighth"), (1 / 4, "sixteenth"),
    (3 / 2, "dotted quarter"), (2 / 3, "quarter triplet"), (1 / 3, "eighth triplet")]

/-- The name of the length, or its number of beats. -/
def text (d : Duration) : String :=
  match names.lookup d.beats with
  | some name => name
  | none => fractionText d.beats ++ " beats"

end Duration

/-! ## Tempo -/

/-- What can go wrong with a tempo. -/
inductive TempoError where
  | notPositive (bpm : Number)
deriving DecidableEq

def TempoError.message : TempoError → String
  | notPositive bpm => "Tempo must be positive, got " ++ bpm.text

/-- Seconds of one quarter note at a tempo in beats per minute, `60 / bpm`. -/
def secondsPerBeat (bpm : Number) : Except TempoError Double :=
  if bpm.atMost (.whole 0) then .error (.notPositive bpm)
  else
    match bpm with
    | .whole n => .ok (.ofFraction 60 n.natAbs)
    | .real x => .ok (.ofFraction 60 1 / x)

end MusicMacro
