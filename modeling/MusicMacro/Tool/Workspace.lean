import MusicMacro.Document.JsonWriter
import MusicMacro.Midi.File
import MusicMacro.Payload
import MusicMacro.Score
import MusicMacro.Settings
import MusicMacro.Song.Library
import MusicMacro.Tool.Call

/-!
# The workspace of the tools

A `Workspace` is what tool calls work on: the settings and the song library with its files.  A
call is answered by a document with a status (`Workspace.answer`), and what fails is told in the
answer.

Writing a MIDI file makes the output directory first and opens the file before its bytes are
known to fit, so that a resolution beyond the format leaves an empty file behind
(`Workspace.writeMidi`).
-/

namespace MusicMacro

/-- What tool calls work on. -/
structure Workspace where
  settings : Settings
  library : SongLibrary

/-! ## Answers -/

/-- The answer of a call that succeeded. -/
def success (entries : Fields) : Document := .map (("status", .text "success") :: entries)

/-- The answer of a call that failed. -/
def failure (message : String) : Document :=
  .map [("status", .text "error"), ("message", .text message)]

/-- The answer that tells of a result, or why there is none. -/
def answered {ε α : Type} (message : ε → String) (result : Except ε α) (tell : α → Document) :
    Document :=
  match result with
  | .ok a => tell a
  | .error e => failure (message e)

/-- Refused strings as answers list them. -/
def refusals (errors : List NotationError) : Document :=
  .list (errors.map fun e => .map [("kind", .text e.kind.name), ("token", .text e.token)])

/-! ## Notation -/

/-- The policy of a name, or the one that stands when no name is given. -/
def policyOr (standing : ErrorPolicy) (name : Option String) : Except UnknownName ErrorPolicy :=
  match name with
  | none => .ok standing
  | some name => if name = "" then .ok standing else ErrorPolicy.ofName name

/-- Answers with the score of compiled strings and what was refused. -/
def compileAnswer (standing : ErrorPolicy) (texts : List String) (policy : Option String) :
    Document :=
  answered UnknownName.message (policyOr standing policy) fun policy =>
    answered CompileError.message (compileBatch policy texts) fun batch =>
      .map [("status", .text (if batch.errors.isEmpty then "success" else "error")),
        ("policy", .text policy.name),
        ("score", (Score.ofCompiled texts batch.parts "").toDocument),
        ("errors", refusals batch.errors)]

/-- Answers whether a string compiles: with the number and length of its events, or with what was
refused. -/
def validateAnswer (text : String) : Document :=
  match (compileText text).2 with
  | .ok events =>
    success [("valid", .bool true), ("events", .whole events.length),
      ("duration", .ofNumber ((events.getLast?.map (·.stop)).getD (.real .zero)))]
  | .error (.refused e) =>
    success [("valid", .bool false),
      ("error", .map [("kind", .text e.kind.name), ("token", .text e.token),
        ("message", .text e.message)])]
  | .error e => failure e.message

/-! ## Songs -/

/-- A listing, which has no answer when a song file has a timestamp in it. -/
def listAnswer (listings : List SongListing) : Document :=
  let rows := listings.map fun l =>
    Document.map [("name", l.name), ("parts", .whole l.partCount), ("description", l.description)]
  if rows.any (·.hasTimestamp) then failure "Object of type datetime is not JSON serializable"
  else success [("songs", .list rows)]

namespace Workspace

/-- The workspace of settings on a tree of files. -/
def ofSettings (settings : Settings) (tree : FileTree) : Workspace :=
  ⟨settings, ⟨settings.songsDirectory, [], tree⟩⟩

/-- Puts the library back and answers with its result. -/
def told {α : Type} (w : Workspace) (outcome : SongLibrary × Except LibraryError α)
    (tell : α → Document) : Workspace × Document :=
  ({ w with library := outcome.1 }, answered LibraryError.message outcome.2 tell)

/-- What is said of a song that is nowhere. -/
def notFound (name : String) : Document := failure (LibraryError.notFoundText name)

/-- Finds a song and goes on with it. -/
def withSong (w : Workspace) (now : Timestamp) (name : String)
    (next : Workspace → Song → Workspace × Document) : Workspace × Document :=
  match w.library.find now name with
  | (library, .error e) => ({ w with library }, failure e.message)
  | (library, .ok none) => ({ w with library }, notFound name)
  | (library, .ok (some song)) => next { w with library } song

/-! ## MIDI files -/

/-- Why a MIDI file was not written. -/
inductive MidiWriteError where
  | file (error : FileError)
  | resolution (error : ResolutionError)

def MidiWriteError.message : MidiWriteError → String
  | file e => e.message
  | resolution e => e.message

/-- The path of a MIDI file in the output directory. -/
def midiPath (w : Workspace) (name : String) : Path :=
  w.settings.outputDirectory.child (name ++ ".mid")

/-- The workspace with another tree of files. -/
def withTree (w : Workspace) (tree : FileTree) : Workspace :=
  { w with library := { w.library with tree } }

/-- Makes the output directory and writes a file, which is empty at first. -/
def writeMidi (w : Workspace) (path : Path) (file : MidiFile) :
    Workspace × Except MidiWriteError Unit :=
  match w.library.tree.makeDirectories w.settings.outputDirectory with
  | (tree, some e) => (w.withTree tree, .error (.file e))
  | (tree, none) =>
    let w := w.withTree tree
    match tree.write path (.bytes []) with
    | .error e => (w, .error (.file e))
    | .ok tree =>
      let w := w.withTree tree
      match file.bytes with
      | .error e => (w, .error (.resolution e))
      | .ok bytes =>
        match tree.write path (.bytes bytes) with
        | .error e => (w, .error (.file e))
        | .ok tree => (w.withTree tree, .ok ())

/-- Writes the parts of a song that compile as a MIDI file. -/
def compileSong (w : Workspace) (song : Song) (output : Option String) : Workspace × Document :=
  match compileBatch w.settings.policy song.parts with
  | .error e => (w, failure e.message)
  | .ok batch =>
    if batch.parts.isEmpty then
      (w, .map [("status", .text "error"), ("message", .text "Nothing compiled"),
        ("errors", refusals batch.errors)])
    else
      let score := Score.ofCompiled song.parts batch.parts song.name
      let parts := batch.parts.map fun (i, events) => ((i : Int), events)
      match MidiFile.ofParts w.settings.grid standardVelocity parts with
      | .error e => (w, failure e.message)
      | .ok file =>
        let given := output.getD ""
        let path := w.midiPath (if given = "" then song.name else given)
        let (w, written) := w.writeMidi path file
        (w, answered MidiWriteError.message written fun _ =>
          success [("path", .text path.text), ("compilation", score.summary),
            ("errors", refusals batch.errors),
            ("message", .text ("Compiled song '" ++ song.name ++ "' to " ++ path.text ++ "."))])

/-! ## Calls -/

/-- Answers a call made now. -/
def answer (w : Workspace) (now : Timestamp) : ToolCall → Workspace × Document
  | .compile texts policy => (w, compileAnswer w.settings.policy texts policy)
  | .validate text => (w, validateAnswer text)
  | .exportText text => (w, success [("payload", .text (MusicMacro.exportText text))])
  | .importText payload =>
    (w, answered PayloadError.message (MusicMacro.importText payload) fun text =>
      success [("notation", .text text)])
  | .createSong name parts description =>
    w.told (w.library.create now name parts description) fun song =>
      success [("message", .text ("Created song '" ++ song.name ++ "'.")),
        ("song", .map [("name", .text song.name), ("parts", .list (song.parts.map .text))])]
  | .getSong name =>
    w.withSong now name fun w song => (w, success [("song", song.toDocument)])
  | .listSongs => (w, answered LibraryError.message w.library.list listAnswer)
  | .saveSong name =>
    w.withSong now name fun w song =>
      w.told (w.library.save now song) fun path => success [("path", .text path.text)]
  | .deleteSong name =>
    w.told (w.library.delete name) fun found =>
      if found then success [("deleted", .text name)] else notFound name
  | .addPart name text =>
    w.told (w.library.addPart now name text) fun (song, index) =>
      success [("message",
          .text ("Added part " ++ toString index ++ " to song '" ++ song.name ++ "'.")),
        ("index", .whole index)]
  | .compileMidi name output => w.withSong now name fun w song => w.compileSong song output

end Workspace

end MusicMacro
