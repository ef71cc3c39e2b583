import MusicMacro.Document
import MusicMacro.Storage.Path

/-!
# Files and directories

A `FileTree` holds what stands at each place: directories, and files with their content and the
time of their last writing.  Time is the number of writings before it, so that two files never
share theirs.

A path is followed name by name through directories that exist (`FileTree.resolve`); looking up,
reading, writing, removing and making directories all start from there, and all that goes wrong
is a `FileError`.
-/

namespace MusicMacro

/-- What a file holds.  A text is told by what the YAML loader makes of it. -/
inductive Content where
  /-- Text that is loaded as a document. -/
  | document (value : Document)
  /-- Text that is no YAML.  The loader's complaint names the file. -/
  | malformed (complaint : Path → String)
  /-- Text with a value that cannot be made, such as a date in a thirteenth month. -/
  | impossible (complaint : String)
  /-- Bytes that are no text, unless there are none. -/
  | bytes (data : List UInt8)

/-- Where a file or directory stands: the names that lead to it from the top. -/
abbrev Place := List String

/-- What stands at a place. -/
inductive TreeEntry where
  | directory
  | file (content : Content) (written : Nat)

/-- Files and directories, the place that relative paths start from and the number of writings
so far. -/
structure FileTree where
  entries : List (Place × TreeEntry)
  home : Place
  writings : Nat

/-! ## Errors -/

/-- Why a path cannot be used. -/
inductive FileFault where
  | missing
  | exists
  | notDirectory
  | isDirectory
  | nameTooLong
  | nullByte
deriving DecidableEq, Repr

/-- A path that cannot be used. -/
structure FileError where
  fault : FileFault
  path : Path
deriving DecidableEq

namespace FileError

/-- The number and text of a fault. -/
def faultText : FileFault → String
  | .missing => "[Errno 2] No such file or directory"
  | .exists => "[Errno 17] File exists"
  | .notDirectory => "[Errno 20] Not a directory"
  | .isDirectory => "[Errno 21] Is a directory"
  | .nameTooLong => "[Errno 36] File name too long"
  | .nullByte => "embedded null byte"

def message (e : FileError) : String :=
  if e.fault = .nullByte then faultText e.fault
  else faultText e.fault ++ ": " ++ quoted e.path.text

end FileError

/-- Why the content of a file is no document. -/
inductive ContentError where
  /-- The text is no YAML. -/
  | malformed (complaint : String)
  /-- The text has a value that cannot be made. -/
  | impossible (complaint : String)
  /-- The content is no text. -/
  | notText (data : List UInt8)

namespace ContentError

/-- The first byte outside ASCII is where content without text is refused. -/
def message : ContentError → String
  | malformed complaint => complaint
  | impossible complaint => complaint
  | notText data =>
    let position := (data.takeWhile (·.toNat < 0x80)).length
    let byte := ((data[position]?).getD 0).toNat
    "'utf-8' codec can't decode byte 0x" ++ String.ofList (hexDigits 2 byte) ++
      " in position " ++ toString position ++ ": invalid " ++
      (if 0xC2 ≤ byte ∧ byte < 0xF5 then "continuation" else "start") ++ " byte"

end ContentError

/-- The document that content holds; empty content is the null document. -/
def Content.read (path : Path) : Content → Except ContentError Document
  | .document d => .ok d
  | .malformed complaint => .error (.malformed (complaint path))
  | .impossible complaint => .error (.impossible complaint)
  | .bytes [] => .ok .null
  | .bytes data => .error (.notText data)

/-! ## The tree -/

namespace FileTree

/-- A tree that holds nothing but directories. -/
def ofDirectories (directories : List Place) (home : Place) : FileTree :=
  ⟨directories.map (·, .directory), home, 0⟩

/-- What stands at a place; the top is always a directory. -/
def entry? (t : FileTree) (place : Place) : Option TreeEntry :=
  if place = [] then some .directory else t.entries.lookup place

/-- Entries with another one at a place, in the stead of what stood there. -/
def putEntry (place : Place) (entry : TreeEntry) :
    List (Place × TreeEntry) → List (Place × TreeEntry)
  | [] => [(place, entry)]
  | (p, e) :: rest =>
    if p = place then (place, entry) :: rest else (p, e) :: putEntry place entry rest

/-- The most bytes that a name may have. -/
def nameLimit : Nat := 255

/-- The place that names lead to from a place: all but the last lead to directories. -/
def walk (t : FileTree) (place : Place) : List String → Except FileFault Place
  | [] => .ok place
  | name :: rest =>
    match t.entry? place with
    | none => .error .missing
    | some (.file ..) => .error .notDirectory
    | some .directory =>
      if name = ".." then walk t place.dropLast rest
      else if nameLimit < name.utf8ByteSize then .error .nameTooLong
      else walk t (place ++ [name]) rest

/-- The place of a path.  Something need not stand there. -/
def resolve (t : FileTree) (p : Path) : Except FileError Place :=
  if p.names.any (·.toList.contains '\x00') then .error ⟨.nullByte, p⟩
  else (t.walk (if p.isAbsolute then [] else t.home) p.names).mapError (⟨·, p⟩)

/-- Whether something stands at a path.  A path that leads nowhere has nothing. -/
def holds (t : FileTree) (p : Path) : Except FileError Bool :=
  match t.resolve p with
  | .ok place => .ok (t.entry? place).isSome
  | .error e => if e.fault = .nameTooLong then .error e else .ok false

/-- The content of the file at a path. -/
def content (t : FileTree) (p : Path) : Except FileError Content := do
  match t.entry? (← t.resolve p) with
  | none => .error ⟨.missing, p⟩
  | some .directory => .error ⟨.isDirectory, p⟩
  | some (.file content _) => .ok content

/-- Writes a file, in the stead of one that stands there. -/
def write (t : FileTree) (p : Path) (content : Content) : Except FileError FileTree := do
  let place ← t.resolve p
  match t.entry? place with
  | some .directory => .error ⟨.isDirectory, p⟩
  | _ => .ok { t with
      entries := putEntry place (.file content t.writings) t.entries
      writings := t.writings + 1 }

/-- Removes the file at a path. -/
def remove (t : FileTree) (p : Path) : Except FileError FileTree := do
  let place ← t.resolve p
  match t.entry? place with
  | none => .error ⟨.missing, p⟩
  | some .directory => .error ⟨.isDirectory, p⟩
  | some (.file ..) => .ok { t with entries := t.entries.filter (·.1 ≠ place) }

/-- Makes a directory, or leaves one that stands there. -/
def makeDirectory (t : FileTree) (p : Path) : Except FileError FileTree := do
  let place ← t.resolve p
  match t.entry? place with
  | none => .ok { t with entries := putEntry place .directory t.entries }
  | some .directory => .ok t
  | some (.file ..) => .error ⟨.exists, p⟩

/-- Makes the directory at the first `depth` names of a path and, where they are missing, those
that lead to it.  Directories made before an error stay. -/
def makeToDepth (t : FileTree) (p : Path) : (depth : Nat) → FileTree × Option FileError
  | 0 => made t (t.makeDirectory ⟨p.start, []⟩)
  | depth + 1 =>
    let q : Path := ⟨p.start, p.names.take (depth + 1)⟩
    match made t (t.makeDirectory q) with
    | (t, some e) =>
      if e.fault = .missing then
        match makeToDepth t p depth with
        | (t, none) => made t (t.makeDirectory q)
        | failed => failed
      else (t, some e)
    | done => done
where
  /-- The tree after an attempt, and the error of one that failed. -/
  made (t : FileTree) : Except FileError FileTree → FileTree × Option FileError
    | .ok t => (t, none)
    | .error e => (t, some e)

/-- Makes a directory and all that lead to it. -/
def makeDirectories (t : FileTree) (p : Path) : FileTree × Option FileError :=
  t.makeToDepth p p.names.length

/-- A file with its place, content and time of writing. -/
structure StoredFile where
  place : Place
  content : Content
  written : Nat

/-- All files. -/
def files (t : FileTree) : List StoredFile :=
  t.entries.filterMap fun (place, entry) =>
    match entry with
    | .directory => none
    | .file content written => some ⟨place, content, written⟩

/-- The files that stand in the directory at a path; none if it is no directory. -/
def filesIn (t : FileTree) (p : Path) : List StoredFile :=
  match t.resolve p with
  | .error _ => []
  | .ok place => t.files.filter fun f => f.place.dropLast = place

end FileTree

end MusicMacro
