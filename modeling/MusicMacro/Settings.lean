import MusicMacro.Midi.Note
import MusicMacro.Storage.FileTree
import MusicMacro.Validation

/-!
# Settings

What compiling, MIDI files and song storage share: the error policy, the tick grid and the two
directories.  Settings come from the fields of a map (`Settings.ofFields`), most often of a
settings file (`Settings.load`), whose directory is where relative directories start.  What is
not given has a default, and a missing or empty file gives them all.
-/

namespace MusicMacro

/-- Settings with a tick grid that has ticks and a tempo. -/
structure Settings where
  policy : ErrorPolicy
  ticksPerBeat : Int
  bpm : Int
  songsDirectory : Path
  outputDirectory : Path
  ticksPerBeat_pos : 0 < ticksPerBeat
  bpm_pos : 0 < bpm
deriving DecidableEq

/-- Why there are no settings. -/
inductive SettingsError where
  | file (error : FileError)
  | content (error : ContentError)
  /-- The file holds no map. -/
  | noMap (path : Path)
  | fields (error : ValidationError)

def SettingsError.message : SettingsError → String
  | file e => e.message
  | content e => e.message
  | noMap path => "Config file " ++ path.text ++ " must contain a mapping"
  | fields e => e.message

namespace Settings

/-- The tick grid of MIDI files. -/
def grid (s : Settings) : TickGrid := ⟨s.ticksPerBeat, s.bpm⟩

/-- The settings of the given fields; other fields are left aside. -/
def ofFields (fields : Fields) : Except ValidationError Settings :=
  let build (policy : ErrorPolicy) (ticksPerBeat bpm : { n : Int // 0 < n })
      (songsDirectory outputDirectory : Path) : Settings :=
    ⟨policy, ticksPerBeat.1, bpm.1, songsDirectory, outputDirectory, ticksPerBeat.2, bpm.2⟩
  Checked.done "MMLConfig" <|
    Checked.start build
      |>.apply (fieldD fields "error_policy" .abort checkPolicy)
      |>.apply (fieldD fields "ticks_per_beat" ⟨TickGrid.standard.ticksPerBeat, by decide⟩
        checkPositive)
      |>.apply (fieldD fields "midi_reference_bpm" ⟨TickGrid.standard.bpm, by decide⟩
        checkPositive)
      |>.apply (fieldD fields "songs_dir" (.ofText "songs") checkPath)
      |>.apply (fieldD fields "output_dir" (.ofText "output") checkPath)

/-- The settings with relative directories put under a path. -/
def under (base : Path) (s : Settings) : Settings :=
  { s with
    songsDirectory := base.under s.songsDirectory
    outputDirectory := base.under s.outputDirectory }

/-- The fields that a settings file holds.  A document that counts as nothing has none. -/
def fieldsOf (path : Path) (d : Document) : Except SettingsError Fields :=
  if !d.isGiven then .ok []
  else
    match d with
    | .map entries => .ok entries
    | _ => .error (.noMap path)

/-- The name of the settings file when none is given. -/
def fileName : String := "mml.yaml"

/-- The settings in the file at a path, with relative directories put under its own. -/
def load (tree : FileTree) (path : Path) : Except SettingsError Settings := do
  let fields ←
    if ← (tree.holds path).mapError .file then
      let content ← (tree.content path).mapError SettingsError.file
      fieldsOf path (← (content.read path).mapError .content)
    else pure []
  return (← (ofFields fields).mapError .fields).under path.parent

/-- The settings of the file at a path that stands in the home of the tree when none is
given. -/
def loadDefault (tree : FileTree) : Option Path → Except SettingsError Settings
  | some path => load tree path
  | none => load tree ⟨.top, tree.home ++ [fileName]⟩

end Settings

end MusicMacro
