import MusicMacro.Number.Basic

/-!
# Notation errors

Why a notation string does not compile.  An error is a cause together with the token at fault
(`NotationError`); the cause decides the kind that callers branch on and the message.
-/

namespace MusicMacro

/-- A name that is none of a fixed set. -/
structure UnknownName where
  name : String
  /-- What the names of the set stand for. -/
  set : String

def UnknownName.message (u : UnknownName) : String :=
  quoted u.name ++ " is not a valid " ++ u.set

/-- The kinds of errors that callers branch on. -/
inductive ErrorKind where
  /-- There is no token at all. -/
  | text
  | tempo
  | octave
  | note
deriving DecidableEq, Repr

namespace ErrorKind

def name : ErrorKind → String
  | text => "MML_STRING"
  | tempo => "TEMPO"
  | octave => "OCTAVE"
  | note => "NOTE"

def ofName (name : String) : Except UnknownName ErrorKind :=
  match [text, tempo, octave, note].find? (·.name = name) with
  | some kind => .ok kind
  | none => .error ⟨name, "ErrorKind"⟩

/-- What an error says: the given message, or its kind and token when none is given. -/
def describe (kind : ErrorKind) (token : String) (message : Option String) : String :=
  match message with
  | none => kind.name ++ ": " ++ quoted token
  | some m => if m = "" then kind.name ++ ": " ++ quoted token else m

end ErrorKind

/-- Why a notation string does not compile. -/
inductive NotationCause where
  | noTokens (text : String)
  | tempoTooLong
  | octaveTooLong
  | tempoNotPositive (bpm : Number)
  | octaveNegative (octave : Number)
  | tempoTooFast
  | missingTempo
  | missingOctave
  | malformedSegment (segment : String)
  | codeTooLong
  | belowLowestPitch
  | unsupportedCode (code : Nat)
  | aboveHighestPitch
deriving DecidableEq

/-- A cause and the token at fault, empty when there is no token. -/
structure NotationError where
  cause : NotationCause
  token : String
deriving DecidableEq

namespace NotationError

def kind (e : NotationError) : ErrorKind :=
  match e.cause with
  | .noTokens _ => .text
  | .tempoTooLong | .tempoNotPositive _ | .tempoTooFast | .missingTempo => .tempo
  | .octaveTooLong | .octaveNegative _ | .missingOctave => .octave
  | .malformedSegment _ | .codeTooLong | .belowLowestPitch | .unsupportedCode _
  | .aboveHighestPitch => .note

/-- The first sixteen characters of the token, for tokens that are too long to show. -/
def tokenStart (e : NotationError) : String := String.ofList (e.token.toList.take 16)

def message (e : NotationError) : String :=
  match e.cause with
  | .noTokens text => "No MML tokens found in '" ++ text ++ "'."
  | .tempoTooLong | .octaveTooLong => "Number too long in '" ++ e.tokenStart ++ "...'"
  | .tempoNotPositive bpm => "Invalid tempo: " ++ bpm.text ++ ". Must be greater than 0."
  | .octaveNegative octave => "Invalid octave: " ++ octave.text ++ ". Must be 0 or greater."
  | .tempoTooFast => "Tempo in '" ++ e.token ++ "' is too fast to time any note."
  | .missingTempo => "Note '" ++ e.token ++ "' appears before any tempo (T) directive."
  | .missingOctave => "Note '" ++ e.token ++ "' appears before any octave (O) directive."
  | .malformedSegment segment =>
    "Malformed note segment '" ++ segment ++ "' in '" ++ e.token ++ "'"
  | .codeTooLong => "Duration code too long in '" ++ e.tokenStart ++ "...'"
  | .belowLowestPitch => "Note '" ++ e.token ++ "' resolves below the lowest playable pitch."
  | .unsupportedCode code =>
    "Unsupported duration code " ++ toString code ++ " in '" ++ e.token ++ "'."
  | .aboveHighestPitch =>
    "Note '" ++ e.token ++ "' resolves above the highest representable pitch."

end NotationError

end MusicMacro
