import MusicMacro.Proofs.Midi.Writing
import MusicMacro.Proofs.Tool.Containment

/-!
# How compiling a song to a file ends

A song is looked up, compiled and made into a file, the output directory is made, and the file is
opened and written; each step can be the last one.  `MidiEnding` lists the ways in which the part
after the look-up ends, and `compileSong_ending` says that there are no others.

Only the last step comes after the file was opened.  There one thing can still go wrong, a
resolution beyond the format: `failed_midi_empties_file_iff` says that a call which fails leaves
every file as it was unless the resolution is beyond `32767` and everything before the last step
went well, and that then the file is empty, whatever it held.
-/

namespace MusicMacro

/-- The trees have the same files but for one place, where the second one has a file with this
content. -/
structure FileTree.Puts (t t' : FileTree) (q : Place) (content : Content) : Prop where
  at_place : ∃ written, t'.fileAt? q = some (content, written)
  elsewhere : ∀ r, r ≠ q → t'.fileAt? r = t.fileAt? r

lemma FileTree.Sets.puts {t made t' : FileTree} {q : Place} {content : Content} {written : Nat}
    (hgrows : t.Grows made) (h : made.Sets q (some (.file content written)) t') :
    t.Puts t' q content := by
  refine ⟨⟨written, by rw [fileAt?, h.at_place]⟩, fun r hr => ?_⟩
  rw [← hgrows.fileAt?_eq, fileAt?, h.of_ne hr, fileAt?]

/-- Under the settings the song compiles to parts that can be made into a file. -/
structure Settings.MakesMidi (s : Settings) (song : Song) (batch : Batch) (file : MidiFile) :
    Prop where
  compiled : compileBatch s.policy song.parts = .ok batch
  parts_ne : batch.parts ≠ []
  made : MidiFile.ofParts s.grid standardVelocity batch.numberedParts = .ok file

/-- The bytes of a file of some settings do not fit exactly if the resolution is too large. -/
lemma Settings.MakesMidi.bytes_eq_error_iff {s : Settings} {song : Song} {batch : Batch}
    {file : MidiFile} (h : s.MakesMidi song batch file) :
    (∃ e, file.bytes = .error e) ↔ 32767 < s.ticksPerBeat := by
  have hpos := s.ticksPerBeat_pos
  have hresolution : file.ticksPerBeat = s.ticksPerBeat := ticksPerBeat_of_ofParts h.made
  have hfits := bytes_isOk_iff file
  rw [hresolution] at hfits
  cases hbytes : file.bytes with
  | error e =>
      rw [hbytes] at hfits
      have hnot := hfits.not.mp nofun
      exact iff_of_true ⟨e, rfl⟩ (by omega)
  | ok bytes =>
      have hle := hfits.mp ⟨bytes, hbytes⟩
      exact iff_of_false nofun (by omega)

namespace Workspace

variable {w : Workspace} {now : Timestamp} {name : String} {output : Option String} {path : Path}
  {q : Place}

/-! ## Opening and writing -/

/-- Once the output directory is made, the path leads to a place where a file can stand. -/
def Opens (w : Workspace) (path : Path) (q : Place) : Prop :=
  ∃ made, w.library.tree.makeDirectories w.settings.outputDirectory = (made, none) ∧
    made.resolve path = .ok q ∧ made.entry? q ≠ some .directory

lemma Opens.unique {q' : Place} (h : w.Opens path q) (h' : w.Opens path q') : q' = q := by
  obtain ⟨made, hmake, hq, -⟩ := h
  obtain ⟨made', hmake', hq', -⟩ := h'
  obtain ⟨rfl, -⟩ := Prod.mk.inj (hmake.symm.trans hmake')
  exact Except.ok.inj (hq'.symm.trans hq)

/-- A file that can be opened has the bytes in the end, and none if there are none to write. -/
lemma writeMidi_of_opens (h : w.Opens path q) (file : MidiFile) :
    w.library.tree.Puts (w.writeMidi path file).1.library.tree q
        (.bytes (file.bytes.toOption.getD [])) ∧
      (w.writeMidi path file).2 = (file.bytes.mapError .resolution).map fun _ => () := by
  obtain ⟨made, hmake, hq, hplace⟩ := h
  have hgrows := w.library.tree.makeDirectories_grows w.settings.outputDirectory
  rw [hmake] at hgrows
  have hopened : ∃ t, made.write path (.bytes []) = .ok t ∧
      made.Sets q (some (.file (.bytes []) made.writings)) t :=
    FileTree.exists_write_eq_ok hq hplace
  obtain ⟨t, hwrite, hsets⟩ := hopened
  unfold writeMidi
  rw [hmake]
  simp only [withTree, hwrite]
  cases hbytes : file.bytes with
  | error e => exact ⟨hsets.puts hgrows, rfl⟩
  | ok bytes =>
      -- the file that was opened can be written again
      have hfile : t.entry? q ≠ some .directory := by
        rw [hsets.at_place]
        nofun
      have hwritten : ∃ t', t.write path (.bytes bytes) = .ok t' ∧
          t.Sets q (some (.file (.bytes bytes) t.writings)) t' :=
        FileTree.exists_write_eq_ok ((hsets.keepsDirectories hplace).resolve hq) hfile
      obtain ⟨t', hwrite', hsets'⟩ := hwritten
      simp only [hwrite']
      exact ⟨(hsets.trans hsets').puts hgrows, rfl⟩

/-- Where no file can be opened, none is touched. -/
lemma writeMidi_of_not_opens (h : ∀ q, ¬ w.Opens path q) (file : MidiFile) :
    w.library.tree.Grows (w.writeMidi path file).1.library.tree ∧
      ∃ e, (w.writeMidi path file).2 = .error e := by
  have hgrows := w.library.tree.makeDirectories_grows w.settings.outputDirectory
  unfold writeMidi
  split
  · rename_i t e hmake
    rw [hmake] at hgrows
    exact ⟨hgrows, _, rfl⟩
  · rename_i t hmake
    rw [hmake] at hgrows
    dsimp only
    split
    · exact ⟨hgrows, _, rfl⟩
    · rename_i t' hwrite
      obtain ⟨q, hq, hplace, -⟩ := FileTree.write_eq_ok hwrite
      exact absurd ⟨t, hmake, hq, hplace⟩ (h q)

/-! ## Endings -/

/-- The name of the file: the given one, or that of the song. -/
def midiName (song : Song) (output : Option String) : String :=
  if output.getD "" = "" then song.name else output.getD ""

/-- The answer when no part is left. -/
def nothingCompiled (batch : Batch) : Document :=
  .map [("status", .text "error"), ("message", .text "Nothing compiled"),
    ("errors", refusals batch.errors)]

/-- The answer when the file is written. -/
def midiWritten (w : Workspace) (song : Song) (output : Option String) (batch : Batch) : Document :=
  let path := w.midiPath (midiName song output)
  success [("path", .text path.text),
    ("compilation", (Score.ofCompiled song.parts batch.parts song.name).summary),
    ("errors", refusals batch.errors),
    ("message", .text ("Compiled song '" ++ song.name ++ "' to " ++ path.text ++ "."))]

/-- How compiling a song ends, with the workspace after it and the answer. -/
inductive MidiEnding (w : Workspace) (song : Song) (output : Option String) :
    Workspace × Document → Prop
  /-- A string fails for another reason than that it is refused. -/
  | failed {e : CompileError} (compiled : compileBatch w.settings.policy song.parts = .error e) :
      MidiEnding w song output (w, failure e.message)
  /-- No part is left. -/
  | nothing {batch : Batch} (compiled : compileBatch w.settings.policy song.parts = .ok batch)
      (parts_eq : batch.parts = []) : MidiEnding w song output (w, nothingCompiled batch)
  /-- The parts cannot be made into a file. -/
  | unmade {batch : Batch} {e : MidiError}
      (compiled : compileBatch w.settings.policy song.parts = .ok batch)
      (parts_ne : batch.parts ≠ [])
      (made : MidiFile.ofParts w.settings.grid standardVelocity batch.numberedParts = .error e) :
      MidiEnding w song output (w, failure e.message)
  /-- The file cannot be opened. -/
  | unopened {batch : Batch} {file : MidiFile} {w' : Workspace} {e : MidiWriteError}
      (makes : w.settings.MakesMidi song batch file)
      (opens : ∀ q, ¬ w.Opens (w.midiPath (midiName song output)) q)
      (tree : w.library.tree.Grows w'.library.tree) :
      MidiEnding w song output (w', failure e.message)
  /-- The file is opened and its bytes do not fit the format. -/
  | unwritten {batch : Batch} {file : MidiFile} {w' : Workspace} {e : ResolutionError} {q : Place}
      (makes : w.settings.MakesMidi song batch file)
      (opens : w.Opens (w.midiPath (midiName song output)) q)
      (unfit : file.bytes = .error e) (tree : w.library.tree.Puts w'.library.tree q (.bytes [])) :
      MidiEnding w song output (w', failure e.message)
  /-- The file is written. -/
  | written {batch : Batch} {file : MidiFile} {w' : Workspace} {bytes : Bytes} {q : Place}
      (makes : w.settings.MakesMidi song batch file)
      (opens : w.Opens (w.midiPath (midiName song output)) q)
      (fit : file.bytes = .ok bytes) (tree : w.library.tree.Puts w'.library.tree q (.bytes bytes)) :
      MidiEnding w song output (w', w.midiWritten song output batch)

/-- How a file that is made ends. -/
lemma ending_of_makes {song : Song} {batch : Batch} {file : MidiFile}
    (h : w.settings.MakesMidi song batch file) (output : Option String) :
    MidiEnding w song output ((w.writeMidi (w.midiPath (midiName song output)) file).1,
      answered MidiWriteError.message (w.writeMidi (w.midiPath (midiName song output)) file).2
        fun _ => w.midiWritten song output batch) := by
  by_cases hopens : ∃ q, w.Opens (w.midiPath (midiName song output)) q
  · obtain ⟨q, hopens⟩ := hopens
    obtain ⟨htree, hresult⟩ := writeMidi_of_opens hopens file
    rw [hresult]
    cases hbytes : file.bytes with
    | error e =>
        rw [hbytes] at htree
        exact .unwritten h hopens hbytes htree
    | ok bytes =>
        rw [hbytes] at htree
        exact .written h hopens hbytes htree
  · obtain ⟨htree, e, hresult⟩ := writeMidi_of_not_opens (not_exists.mp hopens) file
    rw [hresult]
    exact .unopened (e := e) h (not_exists.mp hopens) htree

/-- **There are no other endings.** -/
lemma compileSong_ending (w : Workspace) (song : Song) (output : Option String) :
    MidiEnding w song output (w.compileSong song output) := by
  unfold compileSong
  split
  · rename_i e hbatch
    exact .failed hbatch
  · rename_i batch hbatch
    split
    · rename_i hempty
      exact .nothing hbatch (List.isEmpty_iff.mp hempty)
    · rename_i hparts
      have hne : batch.parts ≠ [] := fun h => hparts (List.isEmpty_iff.mpr h)
      dsimp only
      split
      · rename_i e hfile
        exact .unmade hbatch hne hfile
      · rename_i file hfile
        have hmakes : w.settings.MakesMidi song batch file := ⟨hbatch, hne, hfile⟩
        exact ending_of_makes hmakes output

/-- The call ends where no song is found, or as compiling the song that is found does. -/
lemma answer_compileMidi_cases (w : Workspace) (now : Timestamp) (name : String)
    (output : Option String) :
    (∃ library message, library.reopened = w.library.reopened ∧
      (∀ song, (w.library.find now name).2 ≠ .ok (some song)) ∧
      w.answer now (.compileMidi name output) = ({ w with library }, failure message)) ∨
    ∃ library song, library.reopened = w.library.reopened ∧
      (w.library.find now name).2 = .ok (some song) ∧
      w.answer now (.compileMidi name output) = compileSong { w with library } song output := by
  have hfind := w.library.reopened_find now name
  rw [answer, withSong]
  split
  · rename_i library e heq
    rw [heq] at hfind
    refine .inl ⟨library, _, hfind, fun song hsong => ?_, rfl⟩
    rw [heq] at hsong
    cases hsong
  · rename_i library heq
    rw [heq] at hfind
    refine .inl ⟨library, _, hfind, fun song hsong => ?_, rfl⟩
    rw [heq] at hsong
    cases hsong
  · rename_i library song heq
    rw [heq] at hfind
    exact .inr ⟨library, song, hfind, by rw [heq], rfl⟩

/-! ## Failed calls -/

/-- The call comes to the place with a file to write there: the song is found, it compiles to parts
that can be made into a file, and the file can be opened. -/
def ComesToWrite (w : Workspace) (now : Timestamp) (name : String) (output : Option String)
    (q : Place) : Prop :=
  ∃ song batch file, (w.library.find now name).2 = .ok (some song) ∧
    w.settings.MakesMidi song batch file ∧ w.Opens (w.midiPath (midiName song output)) q

/-- Changes to working copies alone do not matter for what can be opened. -/
lemma opens_of_reopened {library : SongLibrary} (h : library.reopened = w.library.reopened) :
    Opens { w with library } path q ↔ w.Opens path q := by
  rw [Opens, Opens]
  dsimp only
  rw [SongLibrary.tree_of_reopened h]

/-- The status of an answer, if it has one. -/
def status? (answer : Document) : Option String :=
  match answer.require "status" with
  | .ok (.text status) => some status
  | _ => none

/-- The status of an answer says that the call failed. -/
def Fails (answer : Document) : Prop := status? answer = some "error"

lemma not_fails_midiWritten (w : Workspace) (song : Song) (output : Option String) (batch : Batch) :
    ¬ Fails (w.midiWritten song output batch) := by
  have hstatus : status? (w.midiWritten song output batch) = some "success" := rfl
  rw [Fails, hstatus]
  decide

/-- An ending that fails leaves all files and does not come to write over the format, or it does and
empties one file. -/
lemma MidiEnding.files_of_fails {song : Song} {ending : Workspace × Document}
    (h : MidiEnding w song output ending) (hfails : Fails ending.2) :
    ((∀ q, ending.1.library.tree.fileAt? q = w.library.tree.fileAt? q) ∧
      ∀ batch file q, w.settings.MakesMidi song batch file →
        w.Opens (w.midiPath (midiName song output)) q → w.settings.ticksPerBeat ≤ 32767) ∨
    ∃ batch file q, w.settings.MakesMidi song batch file ∧
      w.Opens (w.midiPath (midiName song output)) q ∧ 32767 < w.settings.ticksPerBeat ∧
      w.library.tree.Puts ending.1.library.tree q (.bytes []) := by
  cases h with
  | failed compiled =>
      refine .inl ⟨fun _ => rfl, fun batch file q hmakes => ?_⟩
      cases compiled.symm.trans hmakes.compiled
  | nothing compiled parts_eq =>
      refine .inl ⟨fun _ => rfl, fun batch file q hmakes => ?_⟩
      obtain rfl := Except.ok.inj (compiled.symm.trans hmakes.compiled)
      exact absurd parts_eq hmakes.parts_ne
  | unmade compiled parts_ne made =>
      refine .inl ⟨fun _ => rfl, fun batch file q hmakes => ?_⟩
      obtain rfl := Except.ok.inj (compiled.symm.trans hmakes.compiled)
      cases made.symm.trans hmakes.made
  | unopened makes opens tree =>
      exact .inl ⟨tree.fileAt?_eq, fun batch file q _ hopens => absurd hopens (opens q)⟩
  | unwritten makes opens unfit tree =>
      exact .inr ⟨_, _, _, makes, opens, makes.bytes_eq_error_iff.mp ⟨_, unfit⟩, tree⟩
  | written makes opens fit tree => exact absurd hfails (not_fails_midiWritten w song output _)

/-- **A call that fails empties a file exactly over the resolution.**  When a call to write a song
as a MIDI file is answered with an error, every file is as it was before, in its content and its
time of writing, with one exception: if the resolution of the settings is beyond `32767`, and the
song was found and compiled, its file was made and the path could be opened, then the file at the
place of that path is empty, whether there was one before or not. -/
theorem failed_midi_empties_file_iff
    (hfails : Fails (w.answer now (.compileMidi name output)).2) :
    (∀ q, ¬ (32767 < w.settings.ticksPerBeat ∧ w.ComesToWrite now name output q) →
      (w.answer now (.compileMidi name output)).1.library.tree.fileAt? q =
        w.library.tree.fileAt? q) ∧
    ∀ q, 32767 < w.settings.ticksPerBeat → w.ComesToWrite now name output q → ∃ written,
      (w.answer now (.compileMidi name output)).1.library.tree.fileAt? q =
        some (.bytes [], written) := by
  obtain ⟨library, message, hlibrary, hnone, hanswer⟩ |
    ⟨library, song, hlibrary, hfound, hanswer⟩ := w.answer_compileMidi_cases now name output
  · rw [hanswer]
    refine ⟨fun q _ => ?_, fun q _ ⟨song, _, _, hfound, _⟩ => absurd hfound (hnone song)⟩
    rw [SongLibrary.tree_of_reopened hlibrary]
  · have hending := compileSong_ending { w with library } song output
    rw [hanswer] at hfails ⊢
    have htree := SongLibrary.tree_of_reopened hlibrary
    have hfiles := hending.files_of_fails hfails
    generalize compileSong { w with library } song output = ending at hfiles ⊢
    simp only [htree, opens_of_reopened hlibrary, midiPath] at hfiles
    obtain ⟨hsame, hfits⟩ | ⟨batch, file, q, hmakes, hopens, hlarge, hputs⟩ := hfiles
    · refine ⟨fun q _ => hsame q, fun q hlarge ⟨song', batch, file, hfound', hmakes, hopens⟩ => ?_⟩
      obtain rfl := Option.some.inj (Except.ok.inj (hfound'.symm.trans hfound))
      exact absurd hlarge (Int.not_lt.mpr (hfits batch file q hmakes hopens))
    · have hcomes : w.ComesToWrite now name output q :=
        ⟨song, batch, file, hfound, hmakes, hopens⟩
      refine ⟨fun r hr => hputs.elsewhere r ?_, fun r _ ⟨song', _, _, hfound', _, hopens'⟩ => ?_⟩
      · rintro rfl
        exact hr ⟨hlarge, hcomes⟩
      · obtain rfl := Option.some.inj (Except.ok.inj (hfound'.symm.trans hfound))
        rw [hopens.unique hopens']
        exact hputs.at_place

/-- With a resolution of `40000` a call fails and leaves an empty file where none was. -/
theorem large_resolution_leaves_empty_file :
    let noon : Timestamp := ⟨2024, 2, 29, 12, 0, 0, 0, some 0⟩
    let settings : Settings :=
      ⟨.abort, 40000, 120, .ofText "songs", .ofText "output", by decide, by decide⟩
    let w := (ofSettings settings (.ofDirectories [["root"]] ["root"])).after
      [(noon, .createSong "a" ["T60 O4 C4"] "")]
    let call : ToolCall := .compileMidi "a" none
    Fails (w.answer noon call).2 ∧
      w.library.tree.fileAt? ["root", "output", "a.mid"] = none ∧
      ∃ written, (w.answer noon call).1.library.tree.fileAt? ["root", "output", "a.mid"] =
        some (.bytes [], written) := by
  intro noon settings w call
  have hfails : Fails (w.answer noon call).2 :=
    show status? (w.answer noon call).2 = some "error" by decide +kernel
  have hcomes : w.ComesToWrite noon "a" none ["root", "output", "a.mid"] := by
    let song : Song := ⟨Song.schemaVersion, "a", "", noon, noon, ["T60 O4 C4"], by decide +kernel⟩
    have hfind := eq_ok_of_isOk (x := (w.library.find noon "a").2) (by decide +kernel) none
    have hsong : (w.library.find noon "a").2.toOption.getD none = some song := by decide +kernel
    have hbatch := eq_ok_of_isOk (x := compileBatch .abort ["T60 O4 C4"]) (by decide +kernel)
      ⟨[], [], []⟩
    generalize hmade : (compileBatch .abort ["T60 O4 C4"]).toOption.getD ⟨[], [], []⟩ = batch
      at hbatch
    have hparts : batch.parts.isEmpty = false := by
      rw [← hmade]
      decide +kernel
    have hfile := eq_ok_of_isOk
      (x := MidiFile.ofParts settings.grid standardVelocity batch.numberedParts)
      (by rw [← hmade]; decide +kernel) ⟨0, ⟨0, by decide⟩, []⟩
    have hdirectory : (w.library.tree.makeDirectories w.settings.outputDirectory).2 = none := by
      decide +kernel
    let made := (w.library.tree.makeDirectories w.settings.outputDirectory).1
    have hplace : made.entry? ["root", "output", "a.mid"] = none := by
      rw [← Option.isNone_iff_eq_none]
      decide +kernel
    refine ⟨song, batch, _, hfind.trans (congrArg _ hsong),
      ⟨hbatch, List.isEmpty_eq_false_iff.mp hparts, hfile⟩, made, Prod.ext rfl hdirectory,
      by decide +kernel, ?_⟩
    rw [hplace]
    nofun
  refine ⟨hfails, by decide +kernel, ?_⟩
  exact (failed_midi_empties_file_iff hfails).2 _ (by decide) hcomes

end Workspace

end MusicMacro
