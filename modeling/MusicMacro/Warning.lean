import MusicMacro.Text.Quoted

/-!
# Warnings

What compiling and playing report without failing.
-/

namespace MusicMacro

inductive Warning where
  /-- Text between tokens that is no notation. -/
  | skippedText (text : String)
  /-- A part of a batch that did not compile. -/
  | partFailed (index : Nat) (message : String)
  /-- A tone whose place in the chord has no generator. -/
  | noGenerator (place available : Nat)
deriving DecidableEq

def Warning.message : Warning → String
  | skippedText text => "Skipping unrecognised MML text: " ++ quoted text
  | partFailed index message =>
    "Part " ++ toString index ++ " failed to compile: " ++ message
  | noGenerator place available =>
    "Chord position " ++ toString place ++ " has no generator (" ++ toString available ++
      " available)"

end MusicMacro
