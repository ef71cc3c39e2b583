import MusicMacro.Payload.Base64
import MusicMacro.Text.Digit
import MusicMacro.Text.Quoted
import MusicMacro.Text.Scalar

/-!
# Payloads

A notation string travels as a Base64 text of single bytes (`exportText`).  Characters beyond
the first 256 are first replaced by numeric references, `&#` and the decimal code and `;`
(`escapeText`); reading the payload (`importText`) turns references to such characters back
(`unescapeText`).  An ampersand is never escaped, so a text that already spells such a reference
comes back with the character itself.
-/

namespace MusicMacro

/-! ## Numeric references -/

/-- A character as payloads hold it. -/
def escapeChar (c : Char) : List Char :=
  if c.toNat ≤ 0xFF then [c] else '&' :: '#' :: (toString c.toNat).toList ++ [';']

/-- Replaces every character beyond the first 256 by a reference. -/
def escapeText (text : List Char) : List Char := text.flatMap escapeChar

/-- The character and length of the reference at the head of a text.  The code has at most seven
digits of any script and lies beyond the first 256 characters. -/
def reference? (text : List Char) : Option (Char × Nat) :=
  match text with
  | '&' :: '#' :: rest =>
    let digits := rest.takeWhile isDecimalDigit
    let code := digitsValue digits
    if 1 ≤ digits.length ∧ digits.length ≤ 7 ∧ rest[digits.length]? = some ';' ∧
        0xFF < code ∧ code ≤ 0x10FFFF then
      some (charOfCode code, digits.length + 3)
    else none
  | _ => none

/-- Replaces every reference by its character, in one pass. -/
def unescapeText (text : List Char) : List Char :=
  match text with
  | [] => []
  | c :: rest =>
    match reference? (c :: rest) with
    | some (ch, length) => ch :: unescapeText (rest.drop (length - 1))
    | none => c :: unescapeText rest
termination_by text.length
decreasing_by all_goals simp only [List.length_drop, List.length_cons]; omega

/-! ## Payloads -/

/-- The payload of a notation string. -/
def exportText (text : String) : String :=
  String.ofList (Base64.encode ((escapeText text.toList).map fun c => UInt8.ofNat c.toNat))

/-- Why a text is no payload. -/
inductive PayloadError where
  /-- A run of characters outside ASCII: its start and the characters. -/
  | notAscii (start : Nat) (run : List Char)
  | base64 (error : Base64.DecodeError)
deriving DecidableEq

def PayloadError.message : PayloadError → String
  | notAscii start run =>
    let what := match run with
      | [c] => "character '" ++ String.ofList (codeEscape c) ++ "' in position " ++ toString start
      | _ => "characters in position " ++ toString start ++ "-" ++
        toString (start + run.length - 1)
    "Invalid MML payload: 'ascii' codec can't encode " ++ what ++ ": ordinal not in range(128)"
  | base64 e => "Invalid MML payload: " ++ e.message

/-- The first run of characters outside ASCII. -/
def foreignRun? (text : List Char) : Option (Nat × List Char) :=
  let before := (text.takeWhile fun c => c.toNat < 128).length
  let run := (text.drop before).takeWhile fun c => 128 ≤ c.toNat
  if run.isEmpty then none else some (before, run)

/-- The notation string of a payload. -/
def importText (payload : String) : Except PayloadError String :=
  match foreignRun? payload.toList with
  | some (start, run) => .error (.notAscii start run)
  | none =>
    match Base64.decode payload.toList with
    | .error e => .error (.base64 e)
    | .ok bytes =>
      .ok (String.ofList (unescapeText (bytes.map fun b => Char.ofNat b.toNat)))

end MusicMacro
