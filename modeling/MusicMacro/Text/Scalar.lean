/-!
# Characters by code point
-/

namespace MusicMacro

/-- The character of a code point; surrogates, which stand for no character on their own, are
replaced by `U+FFFD`. -/
def charOfCode (code : Nat) : Char :=
  if 0xD800 ≤ code ∧ code < 0xE000 then Char.ofNat 0xFFFD else Char.ofNat code

end MusicMacro
