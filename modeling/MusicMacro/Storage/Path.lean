import MusicMacro.Text.Pieces

/-!
# Paths

A `Path` names a file or directory by the names that lead to it, from the top of the tree or
from wherever the reader stands.  Read from a text (`Path.ofText`), empty names and single points
drop out; double points stay and are followed when the path is looked up.  A relative path
continues the path it is put under, an absolute one replaces it (`Path.under`).
-/

namespace MusicMacro

/-- Where a path starts.  Two slashes in front are kept apart from one; three or more are
one. -/
inductive PathStart where
  | relative
  | top
  | doubleTop
deriving DecidableEq, Repr

namespace PathStart

def text : PathStart → String
  | relative => ""
  | top => "/"
  | doubleTop => "//"

/-- The start that so many slashes in front of a text give. -/
def ofSlashes (count : Nat) : PathStart :=
  if count = 0 then relative else if count = 2 then doubleTop else top

end PathStart

/-- A path: its start and its names. -/
structure Path where
  start : PathStart
  names : List String
deriving DecidableEq, Repr

namespace Path

def ofText (text : String) : Path where
  start := .ofSlashes (text.toList.takeWhile (· = '/')).length
  names := ((pieces '/' text.toList).filter fun name => name ≠ [] && name ≠ ['.']).map
    String.ofList

/-- The path as a text; the place where the reader stands is a point. -/
def text (p : Path) : String :=
  let text := p.start.text ++ String.intercalate "/" p.names
  if text.isEmpty then "." else text

def isAbsolute (p : Path) : Bool := p.start ≠ .relative

/-- The path as seen from `base`. -/
def under (base p : Path) : Path :=
  if p.isAbsolute then p else ⟨base.start, base.names ++ p.names⟩

/-- What a text names as seen from a path. -/
def child (base : Path) (text : String) : Path := base.under (ofText text)

/-- The path without its last name. -/
def parent (p : Path) : Path := ⟨p.start, p.names.dropLast⟩

/-- The last name of the path. -/
def name (p : Path) : String := p.names.getLast?.getD ""

end Path

/-- A file name without its ending, which starts at the last point unless that is the first or
the last character. -/
def stem (name : String) : String :=
  let chars := name.toList
  let ending := (chars.reverse.takeWhile (· ≠ '.')).length
  let before := chars.length - ending - 1
  if '.' ∈ chars ∧ 0 < before ∧ 0 < ending then String.ofList (chars.take before) else name

end MusicMacro
