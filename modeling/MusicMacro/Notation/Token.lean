import MusicMacro.Text.Digit

/-!
# Tokens of the notation

A notation string holds three kinds of tokens, in either letter case:

* a tempo, `T` and digits;
* an octave, `O` and digits;
* a note: segments joined by `&`, each of them tones, digits and an optional point, where a tone
  is one of the letters `CDEFGABR` with an optional sign `#`, `+` or `-`.

`tokenAt?` measures the longest token that starts at the head of a text, and `Lexeme.scan` cuts
a text from left to right into such tokens and the gaps before, between and after them.
-/

namespace MusicMacro

/-! ## Character classes -/

/-- Pitch letters and the rest letter, in either case. -/
def isToneLetter (c : Char) : Bool := "CDEFGABRcdefgabr".toList.contains c

/-- Signs that may follow a tone letter. -/
def isToneSign (c : Char) : Bool := c == '#' || c == '+' || c == '-'

/-- The upper-case form of an ASCII letter; other characters stay. -/
def upperText (text : List Char) : List Char := text.map Char.toUpper

/-! ## Lengths of tokens

Each measure is zero when no such text stands at the head. -/

/-- Length of the digits at the head of a text. -/
def digitRun (text : List Char) : Nat := (text.takeWhile isDecimalDigit).length

/-- Length of the tones at the head of a text; a sign belongs to them right after a letter. -/
def toneRun (afterLetter : Bool) : List Char → Nat
  | [] => 0
  | c :: rest =>
    if isToneLetter c then toneRun true rest + 1
    else if afterLetter && isToneSign c then toneRun false rest + 1
    else 0

/-- Length of the segment at the head of a text: tones, digits and a point if there is one. -/
def segmentLength (text : List Char) : Nat :=
  let tones := toneRun false text
  let digits := digitRun (text.drop tones)
  if tones = 0 ∨ digits = 0 then 0
  else tones + digits + (if text[tones + digits]? = some '.' then 1 else 0)

/-- Length of the tied segments at the head of a text, each with its `&`. -/
def tieLength (text : List Char) : Nat :=
  match text with
  | [] => 0
  | c :: rest =>
    if c = '&' ∧ segmentLength rest ≠ 0 then
      1 + segmentLength rest + tieLength (rest.drop (segmentLength rest))
    else 0
termination_by text.length
decreasing_by simp only [List.length_drop, List.length_cons]; omega

/-- Length of the note at the head of a text. -/
def noteLength (text : List Char) : Nat :=
  let first := segmentLength text
  if first = 0 then 0 else first + tieLength (text.drop first)

/-- Length of a letter, in either case, and the digits after it. -/
def numberedLength (letter : Char) (text : List Char) : Nat :=
  match text with
  | [] => 0
  | c :: rest => if c.toUpper = letter ∧ digitRun rest ≠ 0 then digitRun rest + 1 else 0

/-! ## Tokens -/

inductive TokenKind where
  | tempo
  | octave
  | note
deriving DecidableEq, Repr

/-- Length of the token of a kind at the head of a text. -/
def TokenKind.lengthAt : TokenKind → List Char → Nat
  | tempo => numberedLength 'T'
  | octave => numberedLength 'O'
  | note => noteLength

/-- The kind and length of the token at the head of a text. -/
def tokenAt? (text : List Char) : Option (TokenKind × Nat) :=
  ([TokenKind.tempo, .octave, .note].map fun kind => (kind, kind.lengthAt text)).find?
    fun (_, length) => length ≠ 0

/-- A token as it is written. -/
structure Token where
  kind : TokenKind
  text : List Char
deriving DecidableEq

/-- A token with the gap before it. -/
structure Lexeme where
  gap : List Char
  token : Token
deriving DecidableEq

/-- Cuts a text into tokens with the gaps before them, and the gap at the end.  `gap` holds the
characters of the current gap, last one first. -/
def Lexeme.scan (gap text : List Char) : List Lexeme × List Char :=
  match text with
  | [] => ([], gap.reverse)
  | c :: rest =>
    match tokenAt? (c :: rest) with
    | none => scan (c :: gap) rest
    | some (kind, length) =>
      let (more, tail) := scan [] (rest.drop (length - 1))
      (⟨gap.reverse, ⟨kind, (c :: rest).take length⟩⟩ :: more, tail)
termination_by text.length
decreasing_by all_goals simp only [List.length_drop, List.length_cons]; omega

end MusicMacro
