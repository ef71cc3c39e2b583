import MusicMacro.Notation.Error
import MusicMacro.Notation.Token
import MusicMacro.Text.Blank
import MusicMacro.Warning

/-!
# Directives

What the tokens of a notation string ask for, in order (`Directive`).  `tokenize` reads them
from a text: it warns of every gap that is not blank, refuses a text without tokens, and stops
at a tempo or octave whose number has more digits than can be read.
-/

namespace MusicMacro

/-- One instruction of a notation string, with the token it comes from in upper case. -/
inductive Directive where
  /-- Sets the tempo, in beats per minute, of the notes that follow. -/
  | tempo (bpm : Number) (raw : String)
  /-- Sets the octave of the notes that follow. -/
  | octave (value : Number) (raw : String)
  /-- A note, chord or rest with its length. -/
  | note (raw : String)
deriving DecidableEq

/-- The number after the letter of a tempo or an octave, unless it has too many digits. -/
def Token.number? (t : Token) : Option Nat :=
  let digits := t.text.drop 1
  if digits.length ≤ digitLimit then some (digitsValue digits) else none

/-- What a token asks for. -/
def Directive.ofToken (t : Token) : Except NotationError Directive :=
  let raw := String.ofList (upperText t.text)
  match t.kind with
  | .note => .ok (.note raw)
  | .tempo =>
    match t.number? with
    | some n => .ok (.tempo (.whole n) raw)
    | none => .error ⟨.tempoTooLong, raw⟩
  | .octave =>
    match t.number? with
    | some n => .ok (.octave (.whole n) raw)
    | none => .error ⟨.octaveTooLong, raw⟩

/-- The warning for a gap, if anything in it is not blank. -/
def gapWarnings (gap : List Char) : List Warning :=
  let skipped := stripBlanks gap
  if skipped.isEmpty then [] else [.skippedText (String.ofList skipped)]

/-- The directives of lexemes, and the warnings up to the last one that was read. -/
def readLexemes (tail : List Char) :
    List Lexeme → List Warning × Except NotationError (List Directive)
  | [] => (gapWarnings tail, .ok [])
  | lexeme :: rest =>
    match Directive.ofToken lexeme.token with
    | .error e => (gapWarnings lexeme.gap, .error e)
    | .ok d =>
      let (log, directives) := readLexemes tail rest
      (gapWarnings lexeme.gap ++ log, directives.map (d :: ·))

/-- The directives of a notation string, with the warnings given on the way. -/
def tokenize (text : String) : List Warning × Except NotationError (List Directive) :=
  let (lexemes, tail) := Lexeme.scan [] text.toList
  if lexemes.isEmpty then ([], .error ⟨.noTokens text, ""⟩) else readLexemes tail lexemes

end MusicMacro
