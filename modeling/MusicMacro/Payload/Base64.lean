/-!
# Base64

Bytes as text: three bytes make four characters of an alphabet of 64, and `=` fills up the last
group (`Base64.encode`).  Reading is strict (`Base64.decode`): only the alphabet and the padding
are allowed, the padding ends the text once it completes a group, and an incomplete group is
refused.
-/

namespace MusicMacro.Base64

def alphabet : List Char :=
  "ABCDEFGHIJKLMNOPQRSTUVWXYZabcdefghijklmnopqrstuvwxyz0123456789+/".toList

/-- The character of a number below 64. -/
def symbol (n : Nat) : Char := (alphabet[n]?).getD '='

/-- The number that a character of the alphabet stands for. -/
def value? (c : Char) : Option Nat := alphabet.idxOf? c

/-- The text of bytes. -/
def encode : List UInt8 → List Char
  | [] => []
  | [a] =>
    let n := a.toNat * 16
    [symbol (n / 64), symbol (n % 64), '=', '=']
  | [a, b] =>
    let n := (a.toNat * 256 + b.toNat) * 4
    [symbol (n / 4096), symbol (n / 64 % 64), symbol (n % 64), '=']
  | a :: b :: c :: rest =>
    let n := (a.toNat * 256 + b.toNat) * 256 + c.toNat
    symbol (n / 262144) :: symbol (n / 4096 % 64) :: symbol (n / 64 % 64) :: symbol (n % 64) ::
      encode rest

/-- Why a text is no Base64. -/
inductive DecodeError where
  | leadingPadding
  | excessData
  | foreignCharacter
  | discontinuousPadding
  /-- A single character is left after whole groups. -/
  | loneCharacter (count : Nat)
  | incompletePadding
deriving DecidableEq, Repr

def DecodeError.message : DecodeError → String
  | leadingPadding => "Leading padding not allowed"
  | excessData => "Excess data after padding"
  | foreignCharacter => "Only base64 data is allowed"
  | discontinuousPadding => "Discontinuous padding not allowed"
  | loneCharacter count =>
    "Invalid base64-encoded string: number of data characters (" ++ toString count ++
      ") cannot be 1 more than a multiple of 4"
  | incompletePadding => "Incorrect padding"

/-- The bytes that a group of two to four numbers below 64 holds; bits beyond whole bytes are
dropped. -/
def groupBytes : List Nat → List UInt8
  | [a, b] => [UInt8.ofNat ((a * 64 + b) / 16)]
  | [a, b, c] =>
    let n := (a * 64 + b) * 64 + c
    [UInt8.ofNat (n / 1024), UInt8.ofNat (n / 4 % 256)]
  | [a, b, c, d] =>
    let n := ((a * 64 + b) * 64 + c) * 64 + d
    [UInt8.ofNat (n / 65536), UInt8.ofNat (n / 256 % 256), UInt8.ofNat (n % 256)]
  | _ => []

/-- Reads what is left of a text.  `count` is the number of data characters in whole groups so
far, `group` the numbers of the group begun, and `pads` the number of paddings seen. -/
def decodeFrom (count : Nat) (group : List Nat) (pads : Nat) :
    List Char → Except DecodeError (List UInt8)
  | [] =>
    match group with
    | [] => .ok []
    | [_] => .error (.loneCharacter (count + 1))
    | _ => .error .incompletePadding
  | c :: rest =>
    if c = '=' then
      if 2 ≤ group.length ∧ 4 ≤ group.length + pads + 1 then
        if rest.isEmpty then .ok (groupBytes group) else .error .excessData
      -- Padding before the third character of a group does not count towards it.
      else decodeFrom count group (if 2 ≤ group.length then pads + 1 else max pads 1) rest
    else
      match value? c with
      | none => .error .foreignCharacter
      | some n =>
        if 0 < pads then .error .discontinuousPadding
        else if group.length = 3 then
          (decodeFrom (count + 4) [] 0 rest).map (groupBytes (group ++ [n]) ++ ·)
        else decodeFrom count (group ++ [n]) 0 rest

/-- The bytes of a text. -/
def decode (text : List Char) : Except DecodeError (List UInt8) :=
  if text.head? = some '=' then .error .leadingPadding else decodeFrom 0 [] 0 text

end MusicMacro.Base64
