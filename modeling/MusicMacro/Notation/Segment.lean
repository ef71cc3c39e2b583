import MusicMacro.Notation.Error
import MusicMacro.Text.Digit
import MusicMacro.Text.Pieces

/-!
# Segments of a note

The text of a note splits at `&` into segments, each of them letters and signs, a duration code
and an optional point (`Segment.read`).  Notes that were not cut from a notation string by the
scanner may hold any text: letters are taken in upper case, other letters than those of tones
are allowed, and a line feed may end a segment.
-/

namespace MusicMacro

/-- A segment of a note: its letters and signs, its duration code and whether a point follows. -/
structure Segment where
  letters : List Char
  code : Nat
  dotted : Bool
deriving DecidableEq

/-- Characters outside ASCII whose upper-case form consists of ASCII letters. -/
def specialUpper : List (Char × List Char) :=
  [('ß', ['S', 'S']), ('ı', ['I']), ('ſ', ['S']), ('ﬀ', ['F', 'F']), ('ﬁ', ['F', 'I']),
    ('ﬂ', ['F', 'L']), ('ﬃ', ['F', 'F', 'I']), ('ﬄ', ['F', 'F', 'L']), ('ﬅ', ['S', 'T']),
    ('ﬆ', ['S', 'T'])]

/-- The upper-case form of a text as far as it consists of ASCII letters. -/
def upperLetters (text : List Char) : List Char :=
  text.flatMap fun c => (specialUpper.lookup c).getD [c.toUpper]

/-- What may stand before the code of a segment. -/
def isSegmentLetter (c : Char) : Bool := c.isUpper || c == '#' || c == '+' || c == '-'

namespace Segment

/-- Reads one segment of the note `raw`. -/
def read (raw : String) (text : List Char) : Except NotationError Segment :=
  let upper := upperLetters text
  let letters := upper.takeWhile isSegmentLetter
  let digits := (upper.drop letters.length).takeWhile isDecimalDigit
  let ending := upper.drop (letters.length + digits.length)
  if letters.isEmpty || digits.isEmpty ||
      !(ending = [] || ending = ['.'] || ending = ['\n'] || ending = ['.', '\n']) then
    .error ⟨.malformedSegment (String.ofList text), raw⟩
  else if digitLimit < digits.length then .error ⟨.codeTooLong, raw⟩
  else .ok ⟨letters, digitsValue digits, ending.head? = some '.'⟩

/-- The segments of a note. -/
def ofNote (raw : String) : Except NotationError (List Segment) :=
  (pieces '&' raw.toList).mapM (read raw)

end Segment

end MusicMacro
