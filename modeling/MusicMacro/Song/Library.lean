import MusicMacro.Song
import MusicMacro.Storage.FileTree

/-!
# The song library

A `SongLibrary` keeps songs in a directory, one file each, and working copies of the songs in
use.  A song is made as a working copy (`SongLibrary.create`), found as one or else in its file
(`SongLibrary.find`), changed in its working copy (`SongLibrary.addPart`) and written to its file
only when it is saved (`SongLibrary.save`).

The file of a song is named for it with blanks and slashes turned into `_`, so different names
may share a file.  Listing the library (`SongLibrary.list`) reads every song file and leaves out
those that are no YAML or hold no map.
-/

namespace MusicMacro

/-- What can go wrong in the library. -/
inductive LibraryError where
  | file (error : FileError)
  | content (error : ContentError)
  | song (error : SongError)
  | notFound (name : String)

namespace LibraryError

/-- What is said of a song that is nowhere. -/
def notFoundText (name : String) : String := "Song '" ++ name ++ "' not found."

def message : LibraryError → String
  | file e => e.message
  | content e => e.message
  | song e => e.message
  | notFound name => notFoundText name

end LibraryError

/-- Songs in a directory of a tree, and the working copies of those in use by name. -/
structure SongLibrary where
  directory : Path
  copies : List (String × Song)
  tree : FileTree

/-- What a listing tells of a song file. -/
structure SongListing where
  name : Document
  path : Path
  partCount : Nat
  description : Document
  written : Nat

def SongListing.text (l : SongListing) : String :=
  "SongMetadata(" ++ l.name.shown ++ ", " ++ toString l.partCount ++ " parts)"

namespace SongLibrary

/-- The ending of song files. -/
def songEnding : String := ".song.yaml"

/-- The file name of a song. -/
def fileName (name : String) : String :=
  String.ofList (name.toList.map fun c => if c = ' ' ∨ c = '/' then '_' else c) ++ songEnding

/-- The path of a song. -/
def pathOf (l : SongLibrary) (name : String) : Path := l.directory.child (fileName name)

/-! ## Working copies -/

/-- The working copy of a name. -/
def copy? (l : SongLibrary) (name : String) : Option Song := l.copies.lookup name

/-- Makes a song the working copy of its name. -/
def keep (l : SongLibrary) (song : Song) : SongLibrary :=
  { l with copies := (song.name, song) :: l.copies.filter (·.1 ≠ song.name) }

/-- Drops the working copy of a name. -/
def forget (l : SongLibrary) (name : String) : SongLibrary :=
  { l with copies := l.copies.filter (·.1 ≠ name) }

/-- The library without working copies. -/
def reopened (l : SongLibrary) : SongLibrary := { l with copies := [] }

/-! ## Operations -/

/-- Makes a new song of a valid name, as a working copy. -/
def create (l : SongLibrary) (now : Timestamp) (name : String) (parts : List String)
    (description : String) : SongLibrary × Except LibraryError Song :=
  match Song.ofFields now [("name", .text name), ("parts", .list (parts.map .text)),
      ("description", .text description)] with
  | .error e => (l, .error (.song (.fields e)))
  | .ok song => (l.keep song, .ok song)

/-- The document in the file at a path. -/
def readDocument (l : SongLibrary) (path : Path) : Except LibraryError Document :=
  match l.tree.content path with
  | .error e => .error (.file e)
  | .ok content => (content.read path).mapError .content

/-- Reads the song in a file and keeps it as a working copy under its own name. -/
def load (l : SongLibrary) (now : Timestamp) (path : Path) :
    SongLibrary × Except LibraryError Song :=
  match (l.readDocument path).bind fun d => (Song.ofDocument now d).mapError .song with
  | .error e => (l, .error e)
  | .ok song => (l.keep song, .ok song)

/-- The working copy of a name, or else the song in its file. -/
def find (l : SongLibrary) (now : Timestamp) (name : String) :
    SongLibrary × Except LibraryError (Option Song) :=
  match l.copy? name with
  | some song => (l, .ok (some song))
  | none =>
    match l.tree.holds (l.pathOf name) with
    | .error e => (l, .error (.file e))
    | .ok false => (l, .ok none)
    | .ok true =>
      let (l, loaded) := l.load now (l.pathOf name)
      (l, loaded.map some)

/-- Writes a working copy to its file, as changed now, and gives the path. -/
def save (l : SongLibrary) (now : Timestamp) (song : Song) :
    SongLibrary × Except LibraryError Path :=
  match l.tree.makeDirectories l.directory with
  | (tree, some e) => ({ l with tree }, .error (.file e))
  | (tree, none) =>
    let song := { song with modified := now }
    let l := { l with tree }.keep song
    let path := l.pathOf song.name
    match l.tree.write path (.document song.toDocument) with
    | .error e => (l, .error (.file e))
    | .ok tree => ({ l with tree }, .ok path)

/-- Drops a working copy and removes the file; tells whether there was either. -/
def delete (l : SongLibrary) (name : String) : SongLibrary × Except LibraryError Bool :=
  let path := l.pathOf name
  let known := (l.copy? name).isSome
  let l := l.forget name
  match l.tree.holds path with
  | .error e => (l, .error (.file e))
  | .ok false => (l, .ok known)
  | .ok true =>
    match l.tree.remove path with
    | .error e => (l, .error (.file e))
    | .ok tree => ({ l with tree }, .ok true)

/-- Adds a part to the working copy of a song, changed now, and gives the index of the part. -/
def addPart (l : SongLibrary) (now : Timestamp) (name text : String) :
    SongLibrary × Except LibraryError (Song × Nat) :=
  match l.find now name with
  | (l, .error e) => (l, .error e)
  | (l, .ok none) => (l, .error (.notFound name))
  | (l, .ok (some song)) =>
    let (song, index) := song.addPart text
    let song := { song with modified := now }
    (l.keep song, .ok (song, index))

/-! ## Listing -/

/-- What the document of a song file tells. -/
def listing (path : Path) (written : Nat) (entries : Fields) : Except LibraryError SongListing :=
  match ((Document.lookup? "parts" entries).getD (.list [])).size with
  | .error e => .error (.song (.form e))
  | .ok partCount => .ok {
      name := (Document.lookup? "name" entries).getD (.text (stem path.name))
      path, partCount
      description := (Document.lookup? "description" entries).getD (.text "")
      written }

/-- What a song file tells, unless it is no YAML or holds no map.  Content that is no text is an
error, and so is a text with a value that cannot be made. -/
def listFile (l : SongLibrary) (file : FileTree.StoredFile) :
    Except LibraryError (Option SongListing) :=
  let path := l.directory.child (file.place.getLast?.getD "")
  match file.content.read path with
  | .error (.malformed _) => .ok none
  | .error e => .error (.content e)
  | .ok (.map entries) => (listing path file.written entries).map some
  | .ok _ => .ok none

/-- Whether a file name is that of a song file. -/
def isSongFile (name : String) : Bool := songEnding.toList.isSuffixOf name.toList

/-- The songs of the directory, the last written first. -/
def list (l : SongLibrary) : Except LibraryError (List SongListing) :=
  match l.tree.holds l.directory with
  | .error e => .error (.file e)
  | .ok false => .ok []
  | .ok true => do
    let files := (l.tree.filesIn l.directory).filter fun f => isSongFile (f.place.getLast?.getD "")
    let listings ← files.mapM (listFile l)
    return (listings.filterMap id).mergeSort fun a b => b.written ≤ a.written

end SongLibrary

end MusicMacro
