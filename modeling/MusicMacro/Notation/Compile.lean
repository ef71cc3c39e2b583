import MusicMacro.Event
import MusicMacro.Notation.Directive
import MusicMacro.Notation.Segment
import MusicMacro.Pitch
import MusicMacro.Rhythm

/-!
# Compiling notation to events

Directives are compiled from left to right (`compileDirectives`): a tempo and an octave hold for
the notes after them, and every note takes the place on the timeline where the one before it
stopped.  A note has the pitches of its first segment and the exact sum of the lengths of all of
them; the sum becomes seconds in one rounding (`noteSeconds`).

The first directive that cannot be compiled refuses the whole text.  Within a note the tempo and
the octave are looked up first, then the segments are read, and then pitch below the range,
length and pitch above the range are checked in that order (`compileNote`).
-/

namespace MusicMacro

/-- Why directives do not compile: the notation is at fault, or a value met on the way has none
of the forms that notation can give it. -/
inductive CompileError where
  | refused (error : NotationError)
  | tempo (error : TempoError)
  | duration (error : DurationError)
  | event (error : EventError)
  | number (error : NumberError)

def CompileError.message : CompileError → String
  | refused e => e.message
  | tempo e => e.message
  | duration e => e.message
  | event e => e.message
  | number e => e.message

/-- What the directives so far have set: the seconds of a quarter note, the octave, and the time
in seconds at which the next note starts. -/
structure CompileState where
  perBeat : Option Double
  octave : Option Number
  cursor : Double
deriving DecidableEq

def CompileState.initial : CompileState := ⟨none, none, .zero⟩

/-! ## Lengths -/

/-- The length of a segment of the note `raw`. -/
def segmentDuration (raw : String) (s : Segment) : Except CompileError Duration :=
  if Duration.isSupported (.whole s.code) then
    (Duration.ofCode (.whole s.code) s.dotted).mapError .duration
  else .error (.refused ⟨.unsupportedCode s.code, raw⟩)

/-- The seconds that a note takes: its length must be supported in every segment, and the
seconds must not vanish. -/
def noteSeconds (raw : String) (perBeat : Double) (first : Segment) (tied : List Segment) :
    Except CompileError Double := do
  let start ← segmentDuration raw first
  let rest ← tied.mapM (segmentDuration raw)
  let seconds ← ((rest.foldl Duration.add start).seconds perBeat).mapError .number
  if Double.zero.less seconds then return seconds
  else throw (.refused ⟨.tempoTooFast, raw⟩)

/-! ## Pitches -/

/-- The position of an index that is none for a rest and not below zero; its frequency must be
finite. -/
def soundingPosition (raw : String) : Option Int → Except CompileError Position
  | none => .ok ⟨none, .zero⟩
  | some index =>
    match frequency index with
    | .ok f =>
      if f.isFinite then .ok ⟨some index.toNat, f⟩
      else .error (.refused ⟨.aboveHighestPitch, raw⟩)
    | .error _ => .error (.refused ⟨.aboveHighestPitch, raw⟩)

/-- Indices of the tones of a chord in an octave, folded below its first tone. -/
def chordIndices (tones : List Tone) (octave : Int) : List (Option Int) :=
  foldChord (tones.map (·.index? octave))

/-! ### Octaves that are no whole numbers

Only directives that do not come from a notation string can set such an octave.  Its tones have
no whole index, so a note compiles only if it is all rests; otherwise it is refused where a
whole index would be, or at last because an event cannot hold the index. -/

/-- The index of a tone, computed in doubles. -/
def realIndex? (octave : Double) (t : Tone) : Option Double :=
  t.letter.map fun l =>
    .ofFraction 12 1 * (octave + .ofFraction (-1) 1) + .ofFraction l.offset 1 +
      .ofFraction t.accidental 1

/-- Looks up the frequency that an index would have once its fraction is dropped. -/
def checkRealFrequency (raw : String) (index : Double) : Except CompileError Unit :=
  match index.truncate with
  | .error .nan => .error (.number (.notWhole .nan))
  | .error .infinite => .error (.refused ⟨.aboveHighestPitch, raw⟩)
  | .ok i => (soundingPosition raw (some i)).map fun _ => ()

/-- The positions of a chord whose indices are no whole numbers. -/
def realPositions (raw : String) (indices : List (Option Double)) :
    Except CompileError (List Position) := do
  indices.forM fun index? => index?.forM (checkRealFrequency raw)
  match indices.filterMap id with
  | [] => return indices.map fun _ => ⟨none, .zero⟩
  | x :: _ => throw (.event (.index (.real x)))

/-! ## Notes -/

/-- The positions and seconds of a note. -/
def resolveNote (raw : String) (perBeat : Double) (octave : Number) (first : Segment)
    (tied : List Segment) : Except CompileError (List Position × Double) :=
  let tones := parseTones first.letters
  match octave with
  | .whole o => do
    let indices := chordIndices tones o
    if indices.any fun i => i.any (· < 0) then throw (.refused ⟨.belowLowestPitch, raw⟩)
    let seconds ← noteSeconds raw perBeat first tied
    let positions ← indices.mapM (soundingPosition raw)
    return (positions, seconds)
  | .real x => do
    let indices := foldChordBy Double.atMost (· + .ofFraction (-12) 1) (tones.map (realIndex? x))
    if indices.any fun i => i.any (·.less .zero) then throw (.refused ⟨.belowLowestPitch, raw⟩)
    let seconds ← noteSeconds raw perBeat first tied
    let positions ← realPositions raw indices
    return (positions, seconds)

/-- The event of a note, which starts at the cursor, and the state after it. -/
def compileNote (raw : String) (state : CompileState) :
    Except CompileError (Event × CompileState) := do
  let some perBeat := state.perBeat | throw (.refused ⟨.missingTempo, raw⟩)
  let some octave := state.octave | throw (.refused ⟨.missingOctave, raw⟩)
  let segments ← (Segment.ofNote raw).mapError .refused
  match segments with
  | [] => throw (.refused ⟨.malformedSegment "", raw⟩)
  | first :: tied =>
    let (positions, seconds) ← resolveNote raw perBeat octave first tied
    let stop := state.cursor + seconds
    let event ←
      (Event.make positions (.real state.cursor) (.real seconds) (.real stop)).mapError .event
    return (event, { state with cursor := stop })

/-! ## Directives -/

/-- The seconds of a quarter note that a tempo directive sets, which must not vanish. -/
def compileTempo (bpm : Number) (raw : String) : Except CompileError Double :=
  if bpm.atMost (.whole 0) then .error (.refused ⟨.tempoNotPositive bpm, raw⟩)
  else
    match secondsPerBeat bpm with
    | .error e => .error (.tempo e)
    | .ok seconds =>
      if Double.zero.less seconds then .ok seconds else .error (.refused ⟨.tempoTooFast, raw⟩)

/-- The events of directives that follow a state. -/
def compileFrom (state : CompileState) : List Directive → Except CompileError (List Event)
  | [] => .ok []
  | .tempo bpm raw :: rest =>
    match compileTempo bpm raw with
    | .error e => .error e
    | .ok seconds => compileFrom { state with perBeat := some seconds } rest
  | .octave value raw :: rest =>
    if value.less (.whole 0) then .error (.refused ⟨.octaveNegative value, raw⟩)
    else compileFrom { state with octave := some value } rest
  | .note raw :: rest =>
    match compileNote raw state with
    | .error e => .error e
    | .ok (event, state) => (compileFrom state rest).map (event :: ·)

/-- The events of directives, in timeline order. -/
def compileDirectives (directives : List Directive) : Except CompileError (List Event) :=
  compileFrom .initial directives

/-- The events of a notation string, with the warnings given on the way. -/
def compileText (text : String) : List Warning × Except CompileError (List Event) :=
  match tokenize text with
  | (log, .error e) => (log, .error (.refused e))
  | (log, .ok directives) => (log, compileDirectives directives)

end MusicMacro
