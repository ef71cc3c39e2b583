import MusicMacro.Proofs.Song.Requests
import MusicMacro.Tool.Workspace

/-!
# Which files tools touch

A call makes directories and then writes or removes at most one file (`ToolCall.Edits`): that of a
song, at a file name without a slash in the directory of songs, or a MIDI file under the output
directory.  The name of a MIDI file is either that of a song or a text that the call gives.  A text
is read as a path, and with slashes it may lead anywhere: from the top, or back out of the output
directory over double points (`Workspace.Escapes`).

No call takes a directory away, so both directories are looked up in the tree after the call.
-/

namespace MusicMacro

/-- What a call does to the files under some settings: it makes directories, and at most one file is
written or removed. -/
inductive ToolCall.Edits (s : Settings) (t t' : FileTree) : ToolCall → Prop
  /-- No file is touched. -/
  | nothing {call : ToolCall} (grows : t.Grows t') : Edits s t t' call
  /-- The file of a song. -/
  | song {call : ToolCall} {name : String} {q : Place}
      (other : ∀ song output, call ≠ .compileMidi song output)
      (edits : t.EditsAt t' (s.songsDirectory.child (SongLibrary.fileName name)) q) :
      Edits s t t' call
  /-- A MIDI file with the name of a song, or with the name that was given. -/
  | midi {song name : String} {output : Option String} {place q : Place}
      (given : isSongName name = true ∧ output.getD "" = "" ∨ output = some name ∧ name ≠ "")
      (resolve : t'.resolve s.outputDirectory = .ok place)
      (edits : t.EditsAt t' (s.outputDirectory.child (name ++ ".mid")) q) :
      Edits s t t' (.compileMidi song output)

namespace Workspace

variable {w : Workspace} {now : Timestamp} {call : ToolCall} {q : Place}

/-! ## Parts of calls -/

lemma told_fst {α : Type} (w : Workspace) (outcome : SongLibrary × Except LibraryError α)
    (tell : α → Document) : (w.told outcome tell).1 = { w with library := outcome.1 } := rfl

/-- Finding a song changes working copies only. -/
lemma withSong_cases (w : Workspace) (now : Timestamp) (name : String)
    (next : Workspace → Song → Workspace × Document) :
    ∃ library : SongLibrary, library.reopened = w.library.reopened ∧
      ((∃ d, w.withSong now name next = ({ w with library }, d)) ∨
        ∃ song, w.withSong now name next = next { w with library } song) := by
  have hfind := w.library.reopened_find now name
  unfold withSong
  split
  · rename_i library e heq
    rw [heq] at hfind
    exact ⟨library, hfind, .inl ⟨_, rfl⟩⟩
  · rename_i library heq
    rw [heq] at hfind
    exact ⟨library, hfind, .inl ⟨_, rfl⟩⟩
  · rename_i library song heq
    rw [heq] at hfind
    exact ⟨library, hfind, .inr ⟨song, rfl⟩⟩

/-- Writing a MIDI file makes the output directory and then touches the file where the path leads,
which stays empty if its bytes do not fit. -/
lemma writeMidi_edits (w : Workspace) (path : Path) (file : MidiFile) :
    w.library.tree.Grows (w.writeMidi path file).1.library.tree ∨
      ∃ place q, (w.writeMidi path file).1.library.tree.resolve w.settings.outputDirectory =
          .ok place ∧ w.library.tree.EditsAt (w.writeMidi path file).1.library.tree path q := by
  have hgrows := w.library.tree.makeDirectories_grows w.settings.outputDirectory
  unfold writeMidi
  split
  · rename_i t e hmake
    rw [hmake] at hgrows
    exact .inl hgrows
  · rename_i t hmake
    rw [hmake] at hgrows
    obtain ⟨place, hplace, -⟩ := FileTree.makeDirectories_eq_none hmake
    dsimp only
    split
    · exact .inl hgrows
    · rename_i t' hwrite
      obtain ⟨q, hresolve, hq, hsets⟩ := FileTree.write_eq_ok hwrite
      have hplace' := (hsets.keepsDirectories hq).resolve hplace
      have hempty : w.library.tree.EditsAt t' path q := ⟨t, _, hgrows, hresolve, hq, hsets⟩
      split
      · exact .inr ⟨place, q, hplace', hempty⟩
      · rename_i bytes hbytes
        split
        · exact .inr ⟨place, q, hplace', hempty⟩
        · rename_i t'' hwrite'
          obtain ⟨q', hresolve', -, hsets'⟩ := FileTree.write_eq_ok hwrite'
          have hsame : q' = q :=
            Except.ok.inj (hresolve'.symm.trans ((hsets.keepsDirectories hq).resolve hresolve))
          rw [hsame] at hsets'
          have hboth := hsets.trans hsets'
          exact .inr ⟨place, q, (hboth.keepsDirectories hq).resolve hplace,
            t, _, hgrows, hresolve, hq, hboth⟩

/-- Writing a MIDI file changes the tree and nothing else. -/
lemma exists_writeMidi_eq (w : Workspace) (path : Path) (file : MidiFile) :
    ∃ tree, (w.writeMidi path file).1 = w.withTree tree := by
  unfold writeMidi
  split
  · exact ⟨_, rfl⟩
  · dsimp only
    split
    · exact ⟨_, rfl⟩
    · split
      · exact ⟨_, rfl⟩
      · split <;> exact ⟨_, rfl⟩

/-- A song is compiled without a file, or written as one under its own name or the given one. -/
lemma compileSong_cases (w : Workspace) (song : Song) (output : Option String) :
    (w.compileSong song output).1 = w ∨ ∃ name file,
      (isSongName name = true ∧ output.getD "" = "" ∨ output = some name ∧ name ≠ "") ∧
        (w.compileSong song output).1 = (w.writeMidi (w.midiPath name) file).1 := by
  unfold compileSong
  split
  · exact .inl rfl
  · split
    · exact .inl rfl
    · dsimp only
      split
      · exact .inl rfl
      · rename_i file hfile
        refine .inr ⟨if output.getD "" = "" then song.name else output.getD "", file, ?_, rfl⟩
        by_cases hgiven : output.getD "" = ""
        · rw [if_pos hgiven]
          exact .inl ⟨song.name_valid, hgiven⟩
        · rw [if_neg hgiven]
          cases output with
          | none => exact absurd rfl hgiven
          | some name => exact .inr ⟨rfl, hgiven⟩

/-! ## Calls -/

/-- A call keeps the settings and the directory of songs, and does to the files what its kind of
call does. -/
structure Keeps (w w' : Workspace) (call : ToolCall) : Prop where
  settings : w'.settings = w.settings
  directory : w'.library.directory = w.library.directory
  edits : w.library.directory = w.settings.songsDirectory →
    call.Edits w.settings w.library.tree w'.library.tree

/-- Where only working copies change, no file is touched. -/
lemma Keeps.of_reopened {library : SongLibrary} (h : library.reopened = w.library.reopened)
    (call : ToolCall) : Keeps w { w with library } call := by
  refine ⟨rfl, SongLibrary.directory_of_reopened h, fun _ => .nothing ?_⟩
  rw [SongLibrary.tree_of_reopened h]
  exact .refl _

/-- Saving a song by its name is telling what the library did. -/
lemma answer_saveSong (w : Workspace) (now : Timestamp) (name : String) :
    w.answer now (.saveSong name) = w.told (w.library.saveNamed now name) fun path =>
      success [("path", .text path.text)] := by
  rw [answer, withSong, SongLibrary.saveNamed]
  cases w.library.find now name with
  | mk library found =>
      match found with
      | .error e => rfl
      | .ok none => rfl
      | .ok (some song) => rfl

/-- A library that touches at most the file of one song keeps what a call keeps, unless that writes
MIDI files. -/
lemma Keeps.of_edits {library : SongLibrary}
    (other : ∀ song output, call ≠ .compileMidi song output)
    (hdirectory : library.directory = w.library.directory)
    (hedits : w.library.tree.Grows library.tree ∨
      ∃ name q, w.library.tree.EditsAt library.tree (w.library.pathOf name) q) :
    Keeps w { w with library } call := by
  refine ⟨rfl, hdirectory, fun hsongs => ?_⟩
  obtain hgrows | ⟨name, q, hedits⟩ := hedits
  · exact .nothing hgrows
  · rw [SongLibrary.pathOf, hsongs] at hedits
    exact .song other hedits

lemma saveSong_keeps (w : Workspace) (now : Timestamp) (name : String) :
    Keeps w (w.answer now (.saveSong name)).1 (.saveSong name) := by
  rw [answer_saveSong, told_fst]
  exact .of_edits nofun (w.library.directory_saveNamed now name)
    (w.library.saveNamed_edits now name)

lemma deleteSong_keeps (w : Workspace) (now : Timestamp) (name : String) :
    Keeps w (w.answer now (.deleteSong name)).1 (.deleteSong name) := by
  rw [answer, told_fst]
  exact .of_edits nofun (w.library.directory_delete name)
    ((w.library.delete_edits name).imp_right fun hedits => ⟨name, hedits⟩)

lemma compileMidi_keeps (w : Workspace) (now : Timestamp) (name : String)
    (output : Option String) :
    Keeps w (w.answer now (.compileMidi name output)).1 (.compileMidi name output) := by
  rw [answer]
  obtain ⟨library, hlibrary, ⟨d, hnone⟩ | ⟨song, hsome⟩⟩ := w.withSong_cases now name
    fun w song => w.compileSong song output
  · rw [hnone]
    exact .of_reopened hlibrary _
  · rw [hsome]
    obtain hnothing | ⟨given, file, hgiven, hfile⟩ :=
      compileSong_cases { w with library } song output
    · rw [hnothing]
      exact .of_reopened hlibrary _
    · rw [hfile]
      have hedits := writeMidi_edits { w with library } (w.midiPath given) file
      obtain ⟨tree, htree⟩ := exists_writeMidi_eq { w with library } (w.midiPath given) file
      change Keeps w (writeMidi { w with library } (w.midiPath given) file).1 _
      rw [htree] at hedits ⊢
      have hdirectory := SongLibrary.directory_of_reopened hlibrary
      refine ⟨rfl, hdirectory, fun _ => ?_⟩
      dsimp only at hedits
      rw [SongLibrary.tree_of_reopened hlibrary] at hedits
      obtain hgrows | ⟨place, q, hplace, hedits⟩ := hedits
      · exact .nothing hgrows
      · exact .midi hgiven hplace hedits

/-- One call, whatever its arguments. -/
lemma answer_keeps (w : Workspace) (now : Timestamp) (call : ToolCall) :
    Keeps w (w.answer now call).1 call := by
  cases call with
  | createSong name parts description =>
      exact .of_reopened (w.library.reopened_create now name parts description) _
  | addPart name text => exact .of_reopened (w.library.reopened_addPart now name text) _
  | getSong name =>
      rw [answer]
      obtain ⟨library, hlibrary, ⟨d, hnone⟩ | ⟨song, hsome⟩⟩ := w.withSong_cases now name
        fun w song => (w, success [("song", song.toDocument)])
      · rw [hnone]
        exact .of_reopened hlibrary _
      · rw [hsome]
        exact .of_reopened hlibrary _
  | saveSong name => exact w.saveSong_keeps now name
  | deleteSong name => exact w.deleteSong_keeps now name
  | compileMidi name output => exact w.compileMidi_keeps now name output
  | compile texts policy => exact .of_reopened rfl _
  | validate text => exact .of_reopened rfl _
  | exportText text => exact .of_reopened rfl _
  | importText payload => exact .of_reopened rfl _
  | listSongs => exact .of_reopened rfl _

/-- The workspace after calls made one after the other, each at its time. -/
def after (w : Workspace) : List (Timestamp × ToolCall) → Workspace
  | [] => w
  | (now, call) :: rest => (w.answer now call).1.after rest

lemma directory_after (h : w.library.directory = w.settings.songsDirectory)
    (calls : List (Timestamp × ToolCall)) :
    (w.after calls).library.directory = (w.after calls).settings.songsDirectory := by
  induction calls generalizing w with
  | nil => exact h
  | cons first rest ih =>
      apply ih
      have hkeeps := w.answer_keeps first.1 first.2
      rw [hkeeps.directory, hkeeps.settings]
      exact h

/-! ## Inside and outside -/

/-- The ending of MIDI files. -/
def midiEnding : String := ".mid"

/-- The place is that of a song file directly in the directory of songs. -/
def InSongs (w : Workspace) (q : Place) : Prop :=
  ∃ place name, w.library.tree.resolve w.settings.songsDirectory = .ok place ∧
    q = place ++ [name] ∧ SongLibrary.songEnding.toList <:+ name.toList

/-- The place is that of a MIDI file in the output directory or in a directory below it. -/
def InOutput (w : Workspace) (q : Place) : Prop :=
  ∃ place below name, w.library.tree.resolve w.settings.outputDirectory = .ok place ∧
    q = place ++ below ++ [name] ∧ midiEnding.toList <:+ name.toList

/-- Where the name of a MIDI file leads from a place. -/
def midiPlace (place : Place) (text : String) : Place :=
  let p := Path.ofText (text ++ midiEnding)
  FileTree.follow (if p.isAbsolute then [] else place) p.names

/-- The call names a MIDI file by a text that leads out of the output directory. -/
def Escapes (w : Workspace) (call : ToolCall) : Prop :=
  ∃ song text place, call = .compileMidi song (some text) ∧ text ≠ "" ∧
    w.library.tree.resolve w.settings.outputDirectory = .ok place ∧
    ¬ place <+: (midiPlace place text).dropLast

lemma toList_fileName_suffix (name : String) :
    SongLibrary.songEnding.toList <:+ (SongLibrary.fileName name).toList := by
  rw [SongLibrary.toList_fileName]
  exact List.suffix_append _ _

/-- The path of a MIDI file leads to the place of its name, which has the ending. -/
lemma resolve_midiPath {t : FileTree} {base : Path} {place : Place} {text : String}
    (hbase : t.resolve base = .ok place) (h : t.resolve (base.child (text ++ midiEnding)) = .ok q) :
    ∃ name, q = (midiPlace place text).dropLast ++ [name] ∧ midiEnding.toList <:+ name.toList := by
  obtain ⟨init, last, hnames, hending⟩ : ∃ init last,
      (Path.ofText (text ++ midiEnding)).names = init ++ [last] ∧
        midiEnding.toList <:+ last.toList :=
    Path.exists_names_ofText text (by decide) (by decide)
  have hlast : last ≠ ".." := by
    rintro rfl
    revert hending
    decide
  rw [midiPlace]
  rw [Path.child] at h
  generalize Path.ofText (text ++ midiEnding) = p at hnames h
  obtain ⟨start, names⟩ := p
  obtain rfl : names = init ++ [last] := hnames
  dsimp only
  rw [FileTree.follow_append, FileTree.follow_name hlast, List.dropLast_concat]
  refine ⟨last, ?_, hending⟩
  rw [Path.under] at h
  split at h
  · rename_i habsolute
    rw [if_pos habsolute]
    obtain ⟨place', hplace', -, -, rfl⟩ :=
      FileTree.resolve_child_eq_ok (p := ⟨start, init⟩) hlast h
    obtain ⟨-, hwalk⟩ := FileTree.resolve_eq_ok hplace'
    have hinit : Path.isAbsolute ⟨start, init⟩ = true := habsolute
    rw [if_pos hinit] at hwalk
    rw [FileTree.walk_eq_ok hwalk]
  · rename_i hrelative
    rw [if_neg hrelative]
    dsimp only at h
    rw [← List.append_assoc] at h
    obtain ⟨place', hplace', -, -, rfl⟩ :=
      FileTree.resolve_child_eq_ok (p := ⟨base.start, base.names ++ init⟩) hlast h
    obtain ⟨-, hwalk⟩ := FileTree.resolve_eq_ok hplace'
    dsimp only at hwalk
    rw [FileTree.walk_append] at hwalk
    obtain ⟨middle, hmiddle, hinit⟩ := bind_eq_ok hwalk
    obtain rfl : middle = place :=
      Except.ok.inj (hmiddle.symm.trans (FileTree.resolve_eq_ok hbase).2)
    rw [FileTree.walk_eq_ok hinit]

lemma endings_differ {name : String} (hsong : SongLibrary.songEnding.toList <:+ name.toList)
    (hmidi : midiEnding.toList <:+ name.toList) : False := by
  have hsuffix := List.suffix_of_suffix_length_le hmidi hsong (by decide)
  revert hsuffix
  decide

/-- A MIDI file is inside exactly if the directory of its place is at or below the output
directory. -/
lemma inside_iff_below {place : Place} {text : String}
    (hplace : w.library.tree.resolve w.settings.outputDirectory = .ok place)
    (hq : w.library.tree.resolve (w.settings.outputDirectory.child (text ++ midiEnding)) = .ok q) :
    w.InSongs q ∨ w.InOutput q ↔ place <+: (midiPlace place text).dropLast := by
  obtain ⟨name, rfl, hending⟩ := resolve_midiPath hplace hq
  constructor
  · rintro (⟨songs, other, -, hsame, hsong⟩ | ⟨output, below, other, houtput, hsame, -⟩)
    · obtain ⟨-, rfl⟩ := List.append_singleton_inj.mp hsame
      exact absurd hending fun hmidi => endings_differ hsong hmidi
    · rw [hplace] at houtput
      obtain rfl := Except.ok.inj houtput
      rw [(List.append_singleton_inj.mp hsame).1]
      exact List.prefix_append _ _
  · rintro ⟨below, hbelow⟩
    exact .inr ⟨place, below, name, hplace, by rw [hbelow], hending⟩

/-- A name without a slash is one in the output directory. -/
lemma midiPlace_of_noSlash {text : String} (h : '/' ∉ text.toList) (place : Place) :
    midiPlace place text = place ++ [text ++ midiEnding] := by
  have hslash : '/' ∉ (text ++ midiEnding).toList := by
    rw [String.toList_append, List.mem_append, not_or]
    exact ⟨h, by decide⟩
  rw [midiPlace, Path.ofText_of_noSlash hslash (append_ne_of_length_lt (by decide))
    (append_ne_of_length_lt (by decide))]
  exact FileTree.follow_name (append_ne_of_length_lt (by decide)) place

/-! ## All calls -/

/-- The workspace came from calls made one after the other over some settings and files. -/
def IsReached (w : Workspace) : Prop :=
  ∃ settings tree calls, w = (ofSettings settings tree).after calls

lemma IsReached.directory (h : w.IsReached) :
    w.library.directory = w.settings.songsDirectory := by
  obtain ⟨settings, tree, calls, rfl⟩ := h
  exact directory_after rfl calls

/-- A text leads out of the output directory only by a slash. -/
lemma Escapes.exists_slash (h : w.Escapes call) :
    ∃ song text, call = .compileMidi song (some text) ∧ '/' ∈ text.toList := by
  obtain ⟨song, text, place, hcall, -, -, hout⟩ := h
  refine ⟨song, text, hcall, ?_⟩
  by_cases hslash : '/' ∈ text.toList
  · exact hslash
  · rw [midiPlace_of_noSlash hslash, List.dropLast_concat] at hout
    exact absurd (List.prefix_refl place) hout

/-- A song file stands in the directory of songs. -/
lemma inSongs_of_resolve {name : String}
    (h : w.library.tree.resolve (w.settings.songsDirectory.child (SongLibrary.fileName name)) =
      .ok q) : w.InSongs q := by
  rw [SongLibrary.child_fileName] at h
  obtain ⟨place, hplace, -, -, rfl⟩ :=
    FileTree.resolve_child_eq_ok (SongLibrary.fileName_ne (by decide)) h
  exact ⟨place, _, hplace, rfl, toList_fileName_suffix name⟩

/-- A MIDI file named after a song stands in the output directory; of one with a given name, its
text decides. -/
lemma escapes_iff {song name : String} {output : Option String} {place : Place}
    (hgiven : isSongName name = true ∧ output.getD "" = "" ∨ output = some name ∧ name ≠ "")
    (hplace : w.library.tree.resolve w.settings.outputDirectory = .ok place) :
    w.Escapes (.compileMidi song output) ↔ ¬ place <+: (midiPlace place name).dropLast := by
  constructor
  · rintro ⟨_, text, place', hcall, hne, hplace', hout⟩
    obtain ⟨rfl, rfl⟩ := ToolCall.compileMidi.inj hcall
    obtain ⟨-, hempty⟩ | ⟨hsame, -⟩ := hgiven
    · exact absurd hempty hne
    · obtain rfl := Option.some.inj hsame
      rw [hplace] at hplace'
      obtain rfl := Except.ok.inj hplace'
      exact hout
  · intro hout
    obtain ⟨hvalid, -⟩ | ⟨rfl, hne⟩ := hgiven
    · have hslash : '/' ∉ name.toList := fun h =>
        SongLibrary.ne_of_mem_name hvalid h (by decide) rfl
      rw [midiPlace_of_noSlash hslash, List.dropLast_concat] at hout
      exact absurd (List.prefix_refl place) hout
    · exact ⟨song, name, place, rfl, hne, hplace, hout⟩

/-- A file that a call touches is a song file directly in the directory of songs, or a MIDI file
in the output directory or below it, unless the call names it by a text that leads out of the
output directory; only a text with a slash does. -/
theorem touched_files_inside_iff (hreached : w.IsReached) (now : Timestamp) (call : ToolCall)
    (htouches : w.library.tree.Touches (w.answer now call).1.library.tree q) :
    ((w.answer now call).1.InSongs q ∨ (w.answer now call).1.InOutput q ↔
        ¬ (w.answer now call).1.Escapes call) ∧
      ((w.answer now call).1.Escapes call →
        ∃ song text, call = .compileMidi song (some text) ∧ '/' ∈ text.toList) := by
  refine ⟨?_, Escapes.exists_slash⟩
  have hkeeps := w.answer_keeps now call
  have hedits := hkeeps.edits hreached.directory
  rw [← hkeeps.settings] at hedits
  generalize (w.answer now call).1 = w' at htouches hedits ⊢
  cases hedits with
  | nothing grows => exact absurd htouches (grows.not_touches q)
  | song other edits =>
      obtain rfl := edits.eq_of_touches htouches
      refine iff_of_true (.inl (inSongs_of_resolve edits.resolve)) ?_
      rintro ⟨song, text, -, rfl, -⟩
      exact other _ _ rfl
  | midi given resolve edits =>
      obtain rfl := edits.eq_of_touches htouches
      rw [inside_iff_below resolve edits.resolve, escapes_iff given resolve, not_not]

/-- Double points in front of the name of a MIDI file lead out of the output directory. -/
theorem double_points_escape :
    let noon : Timestamp := ⟨2024, 2, 29, 12, 0, 0, 0, some 0⟩
    let settings : Settings :=
      ⟨.abort, 480, 120, .ofText "songs", .ofText "output", by decide, by decide⟩
    let w := (ofSettings settings (.ofDirectories [["home"]] ["home"])).after
      [(noon, .createSong "a" ["T60 O4 C4"] "")]
    let call : ToolCall := .compileMidi "a" (some "../escape")
    w.IsReached ∧
      w.library.tree.Touches (w.answer noon call).1.library.tree ["home", "escape.mid"] ∧
      ¬ ((w.answer noon call).1.InSongs ["home", "escape.mid"] ∨
        (w.answer noon call).1.InOutput ["home", "escape.mid"]) := by
  intro noon settings w call
  have hreached : w.IsReached := ⟨settings, _, _, rfl⟩
  have hbefore : (w.library.tree.fileAt? ["home", "escape.mid"]).isSome = false := by
    decide +kernel
  have hafter : ((w.answer noon call).1.library.tree.fileAt? ["home", "escape.mid"]).isSome =
      true := by
    decide +kernel
  have htouches : w.library.tree.Touches (w.answer noon call).1.library.tree
      ["home", "escape.mid"] := by
    intro hsame
    rw [hsame, hbefore] at hafter
    cases hafter
  have hescapes : (w.answer noon call).1.Escapes call := by
    refine ⟨"a", "../escape", ["home", "output"], rfl, by decide, ?_, by decide +kernel⟩
    decide +kernel
  refine ⟨hreached, htouches, fun hinside => ?_⟩
  exact (touched_files_inside_iff hreached noon call htouches).1.mp hinside hescapes

end Workspace

end MusicMacro
