import MusicMacro.Document

/-!
# Tool calls

The tools by which a client works with notation and songs, each called with arguments
(`ToolCall`).  A call is read from the name of its tool and a map of its arguments
(`ToolCall.ofArguments?`); `toolNames` lists the tools in the order they are offered.
-/

namespace MusicMacro

/-- A call of a tool. -/
inductive ToolCall where
  /-- Compiles notation strings, under the given policy or that of the settings. -/
  | compile (texts : List String) (policy : Option String)
  /-- Tells whether a notation string compiles. -/
  | validate (text : String)
  | exportText (text : String)
  | importText (payload : String)
  | createSong (name : String) (parts : List String) (description : String)
  | getSong (name : String)
  | listSongs
  | saveSong (name : String)
  | deleteSong (name : String)
  | addPart (name text : String)
  /-- Writes a song as a MIDI file, under its own name or the given one. -/
  | compileMidi (name : String) (output : Option String)
deriving DecidableEq

/-- The names of the tools. -/
def toolNames : List String :=
  ["mml_compile", "mml_validate", "mml_export", "mml_import", "mml_create_song", "mml_get_song",
    "mml_list_songs", "mml_save_song", "mml_delete_song", "mml_add_part", "mml_compile_midi"]

namespace ToolCall

/-- The text argument of a name. -/
def textArgument? (arguments : List (String × Document)) (name : String) : Option String :=
  match Document.lookup? name arguments with
  | some (.text s) => some s
  | _ => none

/-- The texts of a list. -/
def texts? : Document → Option (List String)
  | .list items => items.mapM fun item =>
    match item with
    | .text s => some s
    | _ => none
  | .null => some []
  | _ => none

/-- The list argument of a name, empty if it is left out. -/
def textsArgument? (arguments : List (String × Document)) (name : String) :
    Option (List String) :=
  texts? ((Document.lookup? name arguments).getD .null)

/-- The call of the tool of a name with arguments, if there is such a tool and it takes them. -/
def ofArguments? (tool : String) (arguments : List (String × Document)) : Option ToolCall :=
  let text? := textArgument? arguments
  match tool with
  | "mml_compile" =>
    (textsArgument? arguments "notations").map (compile · (text? "error_policy"))
  | "mml_validate" => (text? "notation").map validate
  | "mml_export" => (text? "notation").map exportText
  | "mml_import" => (text? "payload").map importText
  | "mml_create_song" => do
    return createSong (← text? "name") (← textsArgument? arguments "parts")
      ((text? "description").getD "")
  | "mml_get_song" => (text? "name").map getSong
  | "mml_list_songs" => some listSongs
  | "mml_save_song" => (text? "name").map saveSong
  | "mml_delete_song" => (text? "name").map deleteSong
  | "mml_add_part" => do return addPart (← text? "name") (← text? "notation")
  | "mml_compile_midi" => (text? "song").map (compileMidi · (text? "output_name"))
  | _ => none

end ToolCall

end MusicMacro
