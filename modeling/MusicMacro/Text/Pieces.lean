/-!
# Pieces of a text

A text splits at each occurrence of a mark (`pieces`); joined with the mark again, the pieces
give the text back.
-/

namespace MusicMacro

/-- The pieces of a text between the marks, of which some may be empty. -/
def pieces (mark : Char) : List Char → List (List Char)
  | [] => [[]]
  | c :: rest =>
    if c = mark then [] :: pieces mark rest
    else
      match pieces mark rest with
      | first :: more => (c :: first) :: more
      | [] => [[c]]

end MusicMacro
