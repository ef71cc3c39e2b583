/-!
# Character classes by their boundaries

A class of characters is stored as the ascending list of code points at which membership
changes: the first entry starts the first run, the second ends it, and so on.
-/

namespace MusicMacro

/-- Membership in a class that starts outside and changes sides at each boundary. -/
def withinBoundaries (boundaries : List Nat) (code : Nat) : Bool :=
  match boundaries with
  | [] => false
  | start :: rest => if code < start then false else !withinBoundaries rest code

end MusicMacro
