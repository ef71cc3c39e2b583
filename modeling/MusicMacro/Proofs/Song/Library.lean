import Mathlib.Logic.Function.Basic
import MusicMacro.Proofs.Song.Document
import MusicMacro.Proofs.Storage.FileTree
import MusicMacro.Song.Library

/-!
# The library and its files

What a library has are working copies by name and files by file name (`SongLibrary.Keeps`): a file
holds the document of one song, whose name has that file name, and every copy and every song in a
file came from the clock.  Finding, adding, saving and deleting keep this, and each is stated by
what it does to the copies and to the file of one name.

Names of songs have no blanks and no slashes, so that songs of different names have different files
(`SongLibrary.fileName_injective`).  Other names may share a file with a song, and a name may be one
that no file can have; then there is no file to find, and none can be written.

The last part does not need the files to be those of songs: saving and deleting touch no file but
the one at the path of a name (`SongLibrary.save_edits`, `SongLibrary.delete_edits`).
-/

namespace MusicMacro

/-- The song as changed at a moment. -/
def Song.changed (song : Song) (now : Timestamp) : Song := { song with modified := now }

/-- The song with a part at its end, as changed at a moment. -/
def Song.withPart (song : Song) (now : Timestamp) (text : String) : Song :=
  { song with parts := song.parts ++ [text], modified := now }

namespace SongLibrary

variable {l l' : SongLibrary} {name other : String} {song : Song} {now : Timestamp} {place : Place}
  {files : String → Option Song}

/-! ## File names -/

lemma toList_fileName (name : String) : (fileName name).toList =
    (name.toList.map fun c => if c = ' ' ∨ c = '/' then '_' else c) ++ songEnding.toList := by
  rw [fileName, String.toList_append, String.toList_ofList]

lemma slash_not_mem_fileName (name : String) : '/' ∉ (fileName name).toList := by
  rw [toList_fileName, List.mem_append, List.mem_map]
  rintro (⟨c, -, hc⟩ | h)
  · split at hc
    · cases hc
    · rename_i hkept
      exact hkept (Or.inr hc)
  · revert h
    decide

/-- No file name is as short as a point or two. -/
lemma fileName_ne {text : String} (h : text.toList.length < songEnding.toList.length) :
    fileName name ≠ text :=
  append_ne_of_length_lt h

lemma child_fileName (base : Path) (name : String) :
    base.child (fileName name) = ⟨base.start, base.names ++ [fileName name]⟩ :=
  base.child_of_noSlash (slash_not_mem_fileName name) (fileName_ne (by decide))
    (fileName_ne (by decide))

lemma pathOf_eq (l : SongLibrary) (name : String) :
    l.pathOf name = ⟨l.directory.start, l.directory.names ++ [fileName name]⟩ :=
  child_fileName l.directory name

/-- No character of a song name is one that stands outside of letters, numerals, `-` and `_`. -/
lemma ne_of_mem_name (h : isSongName name = true) {c mark : Char} (hc : c ∈ name.toList)
    (hmark : (mark ≠ '_' && mark ≠ '-' && !isAlphanumeric mark) = true) : c ≠ mark := by
  rintro rfl
  rw [Bool.and_eq_true] at hmark
  rw [isSongName, Bool.and_eq_true, List.all_eq_true] at h
  have halphanumeric := h.2 c (List.mem_filter.mpr ⟨hc, hmark.1⟩)
  rw [halphanumeric] at hmark
  cases hmark.2

/-- The name of a song stands unchanged in its file name. -/
lemma fileName_of_isSongName (h : isSongName name = true) : fileName name = name ++ songEnding := by
  have hkept : ∀ c ∈ name.toList, (if c = ' ' ∨ c = '/' then '_' else c) = c := by
    intro c hc
    rw [if_neg]
    rintro (hblank | hslash)
    · exact ne_of_mem_name h hc (by decide) hblank
    · exact ne_of_mem_name h hc (by decide) hslash
  rw [fileName, List.map_congr_left hkept, List.map_id', String.ofList_toList]

/-- Two songs share no file. -/
lemma fileName_injective (h : isSongName name = true) (hother : isSongName other = true)
    (heq : fileName name = fileName other) : name = other := by
  rw [fileName_of_isSongName h, fileName_of_isSongName hother] at heq
  have hlists := congrArg String.toList heq
  rw [String.toList_append, String.toList_append] at hlists
  exact String.toList_inj.mp (List.append_cancel_right hlists)

/-- A song may have the name, and a file the name that it gives. -/
structure IsStorable (name : String) : Prop where
  valid : isSongName name = true
  short : (fileName name).utf8ByteSize ≤ FileTree.nameLimit

lemma IsStorable.fits (h : IsStorable name) : FileTree.FitsName (fileName name) := by
  refine ⟨?_, h.short⟩
  rw [fileName_of_isSongName h.valid, String.toList_append, List.mem_append]
  rintro (hname | hending)
  · exact ne_of_mem_name h.valid hname (by decide) rfl
  · revert hending
    decide

/-! ## Working copies -/

lemma copy?_keep (l : SongLibrary) (song : Song) (name : String) :
    (l.keep song).copy? name = if name = song.name then some song else l.copy? name := by
  rw [copy?, keep]
  by_cases h : name = song.name
  · rw [h, if_pos rfl, List.lookup_cons_self]
  · rw [if_neg h, lookup_cons_ne h, lookup_filter_ne, if_neg h, copy?]

lemma copy?_forget (l : SongLibrary) (name other : String) :
    (l.forget name).copy? other = if other = name then none else l.copy? other :=
  lookup_filter_ne l.copies

/-! ## Files -/

/-- What stands at a place is the file of the given song, or nothing. -/
def IsFileOf (stands? : Option TreeEntry) : Option Song → Prop
  | none => stands? = none
  | some song => ∃ written, stands? = some (.file (.document song.toDocument) written)

/-- The directory stands at a place, with a file for each of the given songs by file name, and no
other song files. -/
structure Shelved (t : FileTree) (directory : Path) (place : Place)
    (files : String → Option Song) : Prop where
  resolve : t.resolve directory = .ok place
  isDirectory : t.entry? place = some .directory
  file : ∀ name, FileTree.FitsName (fileName name) →
    IsFileOf (t.entry? (place ++ [fileName name])) (files (fileName name))

/-- The directory can be made and then has no song files. -/
def Unshelved (t : FileTree) (directory : Path) : Prop :=
  ∃ t' place, t.makeDirectories directory = (t', none) ∧ Shelved t' directory place fun _ => none

/-- The files of a library are those of the given songs by file name, and its copies and songs are
such as it makes them. -/
structure Keeps (l : SongLibrary) (files : String → Option Song) : Prop where
  copy : ∀ name song, l.copy? name = some song → song.name = name ∧ song.IsClocked
  file : ∀ f song, files f = some song →
    fileName song.name = f ∧ song.IsClocked ∧ FileTree.FitsName f
  shelf : (∃ place, Shelved l.tree l.directory place files) ∨
    (∀ f, files f = none) ∧ Unshelved l.tree l.directory

section

variable {t t' : FileTree} {directory : Path}

lemma Shelved.resolve_file (h : Shelved t directory place files)
    (hfits : FileTree.FitsName (fileName name)) :
    t.resolve (directory.child (fileName name)) = .ok (place ++ [fileName name]) := by
  rw [child_fileName]
  exact FileTree.resolve_child_of_fits (fileName_ne (by decide)) h.resolve h.isDirectory hfits

lemma Shelved.file_ne_directory (h : Shelved t directory place files)
    (hfits : FileTree.FitsName (fileName name)) :
    t.entry? (place ++ [fileName name]) ≠ some .directory := by
  have hfile := h.file name hfits
  cases hsong : files (fileName name) with
  | none =>
      rw [hsong] at hfile
      rw [show t.entry? (place ++ [fileName name]) = none from hfile]
      nofun
  | some song =>
      rw [hsong] at hfile
      obtain ⟨written, hentry⟩ := hfile
      rw [hentry]
      nofun

/-- Setting one song file changes the songs on the shelf at that file name. -/
lemma Shelved.set (h : Shelved t directory place files)
    (hfits : FileTree.FitsName (fileName name)) {stands? : Option TreeEntry} {song? : Option Song}
    (hsets : t.Sets (place ++ [fileName name]) stands? t') (hentry : IsFileOf stands? song?) :
    Shelved t' directory place (Function.update files (fileName name) song?) := by
  have hkeeps := hsets.keepsDirectories (h.file_ne_directory hfits)
  refine ⟨hkeeps.resolve h.resolve, hkeeps.directory _ h.isDirectory, fun other hother => ?_⟩
  by_cases heq : fileName other = fileName name
  · rw [heq, hsets.at_place, Function.update_self]
    exact hentry
  · rw [hsets.of_ne, Function.update_of_ne heq]
    · exact h.file other hother
    · intro hplace
      exact heq (List.singleton_inj.mp (List.append_cancel_left hplace))

end

/-- A file name that no file may have leads nowhere. -/
lemma holds_ne_true (l : SongLibrary) (h : ¬ FileTree.FitsName (fileName name)) :
    l.tree.holds (l.pathOf name) ≠ .ok true := by
  rw [pathOf_eq, FileTree.holds]
  split
  · rename_i q hresolve
    obtain ⟨-, -, -, hfits, -⟩ :=
      FileTree.resolve_child_eq_ok (fileName_ne (by decide)) hresolve
    exact absurd hfits h
  · intro hholds
    split at hholds <;> cases hholds

lemma Keeps.holds_of_none (h : Keeps l files) (hfits : FileTree.FitsName (fileName name))
    (hnone : files (fileName name) = none) : l.tree.holds (l.pathOf name) = .ok false := by
  obtain ⟨place, hshelf⟩ | ⟨-, t', place, hmade, hshelf⟩ := h.shelf
  · have hfile := hshelf.file name hfits
    rw [hnone] at hfile
    exact FileTree.holds_of_none (hshelf.resolve_file hfits) hfile
  · have hgrows := FileTree.makeDirectories_grows l.tree l.directory
    rw [hmade] at hgrows
    exact hgrows.holds_of_none (hshelf.resolve_file hfits) (hshelf.file name hfits)

/-- The file of a song on the shelf is there and holds its document. -/
lemma Keeps.exists_shelved (h : Keeps l files) (hsome : files (fileName name) = some song) :
    ∃ place written, Shelved l.tree l.directory place files ∧
      l.tree.entry? (place ++ [fileName name]) =
        some (.file (.document song.toDocument) written) := by
  obtain ⟨place, hshelf⟩ | ⟨hnone, -⟩ := h.shelf
  · have hfile := hshelf.file name (h.file _ song hsome).2.2
    rw [hsome] at hfile
    obtain ⟨written, hentry⟩ := hfile
    exact ⟨place, written, hshelf, hentry⟩
  · rw [hnone] at hsome
    cases hsome

/-! ## Finding -/

lemma find_of_copy (h : l.copy? name = some song) : l.find now name = (l, .ok (some song)) := by
  rw [find, h]

lemma load_of_content {path : Path} (h : l.tree.content path = .ok (.document song.toDocument))
    (hclocked : song.IsClocked) : l.load now path = (l.keep song, .ok song) := by
  have hread : (l.readDocument path).bind
      (fun d => (Song.ofDocument now d).mapError LibraryError.song) = .ok song := by
    rw [readDocument, h]
    change (Song.ofDocument now song.toDocument).mapError LibraryError.song = .ok song
    rw [Song.ofDocument_toDocument hclocked, mapError_ok]
  rw [load, hread]

/-- Without a working copy the song in the file is found and becomes the working copy of its own
name. -/
lemma Keeps.find_of_file (h : Keeps l files) (hcopy : l.copy? name = none)
    (hfile : files (fileName name) = some song) :
    l.find now name = (l.keep song, .ok (some song)) := by
  obtain ⟨place, written, hshelf, hentry⟩ := h.exists_shelved hfile
  obtain ⟨-, hclocked, hfits⟩ := h.file _ _ hfile
  have hresolve : l.tree.resolve (l.pathOf name) = .ok (place ++ [fileName name]) :=
    hshelf.resolve_file hfits
  have hload : l.load now (l.pathOf name) = (l.keep song, .ok song) :=
    load_of_content (FileTree.content_of_resolve hresolve hentry) hclocked
  rw [find, hcopy, FileTree.holds_of_some hresolve hentry]
  simp only [hload]
  rfl

lemma Keeps.find_of_none (h : Keeps l files) (hcopy : l.copy? name = none)
    (hfits : FileTree.FitsName (fileName name)) (hfile : files (fileName name) = none) :
    l.find now name = (l, .ok none) := by
  rw [find, hcopy, h.holds_of_none hfits hfile]

/-- A name that is too long for a file is not looked up. -/
lemma find_of_long (hcopy : l.copy? name = none) (hresolve : l.tree.resolve l.directory = .ok place)
    (hdirectory : l.tree.entry? place = some .directory) (hnull : '\x00' ∉ (fileName name).toList)
    (hlong : FileTree.nameLimit < (fileName name).utf8ByteSize) :
    l.find now name = (l, .error (.file ⟨.nameTooLong, l.pathOf name⟩)) := by
  have hholds : l.tree.holds (l.pathOf name) = .error ⟨.nameTooLong, l.pathOf name⟩ := by
    rw [pathOf_eq, FileTree.holds,
      FileTree.resolve_child (fileName_ne (by decide)) hresolve hdirectory, if_neg hnull,
      if_pos hlong]
    exact if_pos rfl
  rw [find, hcopy, hholds]

/-- Nothing is found under a name with a null character that has no working copy. -/
lemma find_of_null (hcopy : l.copy? name = none) (hresolve : l.tree.resolve l.directory = .ok place)
    (hdirectory : l.tree.entry? place = some .directory)
    (hnull : '\x00' ∈ (fileName name).toList) : l.find now name = (l, .ok none) := by
  have hholds : l.tree.holds (l.pathOf name) = .ok false := by
    rw [pathOf_eq, FileTree.holds,
      FileTree.resolve_child (fileName_ne (by decide)) hresolve hdirectory, if_pos hnull]
    rfl
  rw [find, hcopy, hholds]

/-- A name without working copy and file finds no song and changes nothing. -/
lemma Keeps.find_nothing (h : Keeps l files) (hcopy : l.copy? name = none)
    (hfile : files (fileName name) = none) :
    (l.find now name).1 = l ∧ ∀ song, (l.find now name).2 ≠ .ok (some song) := by
  by_cases hfits : FileTree.FitsName (fileName name)
  · rw [h.find_of_none hcopy hfits hfile]
    refine ⟨rfl, fun song hsong => ?_⟩
    cases hsong
  · have hholds := l.holds_ne_true hfits
    rw [find, hcopy]
    cases hcase : l.tree.holds (l.pathOf name) with
    | error e =>
        refine ⟨rfl, fun song hsong => ?_⟩
        cases hsong
    | ok stands =>
        cases stands with
        | false =>
            refine ⟨rfl, fun song hsong => ?_⟩
            cases hsong
        | true => contradiction

/-- Either a song is found under a name or none is. -/
lemma find_dichotomy (l : SongLibrary) (now : Timestamp) (name : String) :
    (∃ l' song, l.find now name = (l', .ok (some song))) ∨
      ∀ song, (l.find now name).2 ≠ .ok (some song) := by
  by_cases hsome : ∃ song, (l.find now name).2 = .ok (some song)
  · obtain ⟨song, hsong⟩ := hsome
    exact .inl ⟨(l.find now name).1, song, Prod.ext rfl hsong⟩
  · exact .inr (not_exists.mp hsome)

/-- A name is found as its working copy, or else as what is in its file, or not at all. -/
lemma Keeps.find_cases (h : Keeps l files) (now : Timestamp) (name : String) :
    (∃ song, l.copy? name = some song ∧ l.find now name = (l, .ok (some song))) ∨
    (∃ song, l.copy? name = none ∧ files (fileName name) = some song ∧
      l.find now name = (l.keep song, .ok (some song))) ∨
    (l.copy? name = none ∧ files (fileName name) = none ∧ (l.find now name).1 = l ∧
      ∀ song, (l.find now name).2 ≠ .ok (some song)) := by
  cases hcopy : l.copy? name with
  | some song => exact .inl ⟨song, rfl, find_of_copy hcopy⟩
  | none =>
      cases hfile : files (fileName name) with
      | some song => exact .inr (.inl ⟨song, rfl, rfl, h.find_of_file hcopy hfile⟩)
      | none => exact .inr (.inr ⟨rfl, rfl, h.find_nothing hcopy hfile⟩)

/-! ## Changing working copies -/

lemma copy?_of_copies (h : l'.copies = l.copies) (name : String) :
    l'.copy? name = l.copy? name := by
  rw [copy?, h, copy?]

lemma Keeps.keep (h : Keeps l files) (hclocked : song.IsClocked) : Keeps (l.keep song) files := by
  refine ⟨fun name copy hcopy => ?_, h.file, h.shelf⟩
  rw [copy?_keep] at hcopy
  split at hcopy
  · obtain rfl := Option.some.inj hcopy
    exact ⟨Eq.symm ‹_›, hclocked⟩
  · exact h.copy name copy hcopy

lemma Keeps.forget (h : Keeps l files) (name : String) : Keeps (l.forget name) files := by
  refine ⟨fun other copy hcopy => ?_, h.file, h.shelf⟩
  rw [copy?_forget] at hcopy
  split at hcopy
  · cases hcopy
  · exact h.copy other copy hcopy

lemma create_of_valid (l : SongLibrary) (now : Timestamp) (parts : List String)
    (description : String) (valid : isSongName name = true) :
    l.create now name parts description = (l.keep (.new now name description parts valid),
      .ok (.new now name description parts valid)) := by
  unfold create
  rw [Song.ofFields_new, dif_pos valid]

lemma create_of_invalid (l : SongLibrary) (now : Timestamp) (parts : List String)
    (description : String) (invalid : ¬ isSongName name = true) :
    l.create now name parts description =
      (l, .error (.song (.fields (Song.invalidName name)))) := by
  unfold create
  rw [Song.ofFields_new, dif_neg invalid]

/-- Where no song is found, none is changed. -/
lemma addPart_of_not_found {text : String} (h : ∀ song, (l.find now name).2 ≠ .ok (some song)) :
    (l.addPart now name text).1 = (l.find now name).1 := by
  unfold addPart
  cases hfind : l.find now name with
  | mk l' found =>
      rw [hfind] at h
      match found, h with
      | .error e, _ => rfl
      | .ok none, _ => rfl
      | .ok (some song), h => exact absurd rfl (h song)

lemma addPart_of_none {text : String} (h : l.find now name = (l', .ok none)) :
    l.addPart now name text = (l', .error (.notFound name)) := by
  unfold addPart
  rw [h]

lemma addPart_of_some {text : String} (h : l.find now name = (l', .ok (some song))) :
    l.addPart now name text =
      (l'.keep (song.withPart now text), .ok (song.withPart now text, song.parts.length)) := by
  unfold addPart
  rw [h]
  rfl

/-! ## Saving -/

/-- Saving finds the directory, or makes it. -/
lemma Keeps.makeDirectories (h : Keeps l files) : ∃ t' place,
    l.tree.makeDirectories l.directory = (t', none) ∧ Shelved t' l.directory place files := by
  obtain ⟨place, hshelf⟩ | ⟨hnone, t', place, hmade, hshelf⟩ := h.shelf
  · refine ⟨l.tree, place, ?_, hshelf⟩
    exact FileTree.makeDirectories_of_directory hshelf.resolve hshelf.isDirectory
  · refine ⟨t', place, hmade, ?_⟩
    rw [funext hnone]
    exact hshelf

/-- Once the directory is made, the song is kept as changed now and written. -/
lemma save_of_made {t' : FileTree} (h : l.tree.makeDirectories l.directory = (t', none)) :
    l.save now song =
      match t'.write (l.pathOf song.name) (.document (song.changed now).toDocument) with
      | .error e => ({ l.keep (song.changed now) with tree := t' }, .error (.file e))
      | .ok t'' => ({ l.keep (song.changed now) with tree := t'' }, .ok (l.pathOf song.name)) := by
  unfold SongLibrary.save
  simp only [h, Song.changed, pathOf, SongLibrary.keep]
  generalize t'.write _ _ = written
  cases written with
  | error e => rfl
  | ok t'' => rfl

/-- A saved song is in its file and is the working copy of its name, as changed now. -/
lemma Keeps.save (h : Keeps l files) (hclocked : song.IsClocked) (hnow : now.IsReading)
    (hfits : FileTree.FitsName (fileName song.name)) :
    ∃ l', l.save now song = (l', .ok (l.pathOf song.name)) ∧ l'.directory = l.directory ∧
      l'.copies = (l.keep (song.changed now)).copies ∧
      Keeps l' (Function.update files (fileName song.name) (some (song.changed now))) := by
  have hchanged : (song.changed now).IsClocked := ⟨hclocked.created, hnow⟩
  obtain ⟨t', place, hmade, hshelf⟩ := h.makeDirectories
  have hresolve : t'.resolve (l.pathOf song.name) = .ok (place ++ [fileName song.name]) :=
    hshelf.resolve_file hfits
  obtain ⟨t'', hwritten, hsets⟩ : ∃ t'',
      t'.write (l.pathOf song.name) (.document (song.changed now).toDocument) = .ok t'' ∧
        t'.Sets (place ++ [fileName song.name])
          (some (.file (.document (song.changed now).toDocument) t'.writings)) t'' :=
    FileTree.exists_write_eq_ok hresolve (hshelf.file_ne_directory hfits)
  refine ⟨{ (l.keep (song.changed now)) with tree := t'' }, ?_, rfl, rfl, ?_⟩
  · rw [save_of_made hmade, hwritten]
  · refine ⟨(h.keep hchanged).copy, fun f kept hkept => ?_, .inl ⟨place, ?_⟩⟩
    · by_cases hf : f = fileName song.name
      · rw [hf, Function.update_self] at hkept
        obtain rfl := Option.some.inj hkept
        exact ⟨hf.symm, hchanged, hf ▸ hfits⟩
      · rw [Function.update_of_ne hf] at hkept
        exact h.file f kept hkept
    · exact hshelf.set hfits hsets ⟨_, rfl⟩

/-- A song whose name is too long for a file is kept as changed and not saved. -/
lemma Keeps.save_refused (h : Keeps l files) (hclocked : song.IsClocked) (hnow : now.IsReading)
    (hfits : ¬ FileTree.FitsName (fileName song.name)) :
    ∃ l' e, l.save now song = (l', .error e) ∧ l'.directory = l.directory ∧
      l'.copies = (l.keep (song.changed now)).copies ∧ Keeps l' files := by
  have hchanged : (song.changed now).IsClocked := ⟨hclocked.created, hnow⟩
  obtain ⟨t', place, hmade, hshelf⟩ := h.makeDirectories
  cases hwritten : t'.write (l.pathOf song.name) (.document (song.changed now).toDocument) with
  | error e =>
      refine ⟨{ (l.keep (song.changed now)) with tree := t' }, .file e, ?_, rfl, rfl, ?_⟩
      · rw [save_of_made hmade, hwritten]
      · exact ⟨(h.keep hchanged).copy, h.file, .inl ⟨place, hshelf⟩⟩
  | ok t'' =>
      obtain ⟨q, hresolve, -⟩ := FileTree.write_eq_ok hwritten
      rw [pathOf_eq] at hresolve
      obtain ⟨-, -, -, hfits', -⟩ :=
        FileTree.resolve_child_eq_ok (fileName_ne (by decide)) hresolve
      exact absurd hfits' hfits

/-! ## Deleting -/

/-- Deleting a song that has a file removes the file and the working copy. -/
lemma Keeps.delete_of_file (h : Keeps l files) (hfile : files (fileName name) = some song) :
    ∃ l', l.delete name = (l', .ok true) ∧ l'.directory = l.directory ∧
      l'.copies = (l.forget name).copies ∧
      Keeps l' (Function.update files (fileName name) none) := by
  obtain ⟨place, written, hshelf, hentry⟩ := h.exists_shelved hfile
  obtain ⟨-, -, hfits⟩ := h.file _ _ hfile
  have hresolve : l.tree.resolve (l.pathOf name) = .ok (place ++ [fileName name]) :=
    hshelf.resolve_file hfits
  have hholds := FileTree.holds_of_some hresolve hentry
  obtain ⟨t', hremoved, hsets⟩ := FileTree.exists_remove_eq_ok hresolve hentry
  refine ⟨{ l.forget name with tree := t' }, ?_, rfl, rfl, ?_⟩
  · unfold delete
    simp only [SongLibrary.forget, hholds, hremoved]
  · refine ⟨(h.forget name).copy, fun f kept hkept => ?_, .inl ⟨place, ?_⟩⟩
    · by_cases hf : f = fileName name
      · rw [hf, Function.update_self] at hkept
        cases hkept
      · rw [Function.update_of_ne hf] at hkept
        exact h.file f kept hkept
    · exact hshelf.set hfits hsets rfl

lemma Keeps.delete_of_none (h : Keeps l files) (hfits : FileTree.FitsName (fileName name))
    (hfile : files (fileName name) = none) :
    l.delete name = (l.forget name, .ok (l.copy? name).isSome) := by
  unfold delete
  simp only [SongLibrary.forget, h.holds_of_none hfits hfile]

/-- Deleting a song that has no file drops the working copy and does nothing else. -/
lemma Keeps.delete_nothing (h : Keeps l files) (hfile : files (fileName name) = none) :
    (l.delete name).1 = l.forget name := by
  by_cases hfits : FileTree.FitsName (fileName name)
  · rw [h.delete_of_none hfits hfile]
  · have hholds := l.holds_ne_true hfits
    unfold delete
    cases hcase : l.tree.holds (l.pathOf name) with
    | error e => simp only [SongLibrary.forget, hcase]
    | ok stands =>
        cases stands with
        | false => simp only [SongLibrary.forget, hcase]
        | true => contradiction

/-! ## What operations do to the tree -/

lemma tree_of_reopened (h : l'.reopened = l.reopened) : l'.tree = l.tree := by
  injection h

lemma directory_of_reopened (h : l'.reopened = l.reopened) : l'.directory = l.directory := by
  injection h

lemma pathOf_of_reopened (h : l'.reopened = l.reopened) (name : String) :
    l'.pathOf name = l.pathOf name := by
  rw [pathOf_eq, pathOf_eq, directory_of_reopened h]

lemma reopened_keep (l : SongLibrary) (song : Song) : (l.keep song).reopened = l.reopened := rfl

lemma reopened_create (l : SongLibrary) (now : Timestamp) (name : String) (parts : List String)
    (description : String) :
    (l.create now name parts description).1.reopened = l.reopened := by
  unfold create
  split <;> rfl

lemma reopened_load (l : SongLibrary) (now : Timestamp) (path : Path) :
    (l.load now path).1.reopened = l.reopened := by
  unfold load
  split <;> rfl

lemma reopened_find (l : SongLibrary) (now : Timestamp) (name : String) :
    (l.find now name).1.reopened = l.reopened := by
  have hload := l.reopened_load now (l.pathOf name)
  unfold find
  generalize l.load now (l.pathOf name) = loaded at hload ⊢
  split
  · rfl
  · split
    · rfl
    · rfl
    · exact hload

lemma reopened_addPart (l : SongLibrary) (now : Timestamp) (name text : String) :
    (l.addPart now name text).1.reopened = l.reopened := by
  have hfind := l.reopened_find now name
  unfold addPart
  split
  all_goals
    rename_i heq
    rw [heq] at hfind
    exact hfind

lemma directory_save (l : SongLibrary) (now : Timestamp) (song : Song) :
    (l.save now song).1.directory = l.directory := by
  cases hmake : l.tree.makeDirectories l.directory with
  | mk t' failure =>
      cases failure with
      | some e =>
          unfold SongLibrary.save
          rw [hmake]
      | none =>
          rw [save_of_made hmake]
          split <;> rfl

/-- Saving makes directories and then writes the file of the song. -/
lemma save_edits (l : SongLibrary) (now : Timestamp) (song : Song) :
    l.tree.Grows (l.save now song).1.tree ∨
      ∃ q, l.tree.EditsAt (l.save now song).1.tree (l.pathOf song.name) q := by
  have hgrows := l.tree.makeDirectories_grows l.directory
  cases hmake : l.tree.makeDirectories l.directory with
  | mk t' failure =>
      rw [hmake] at hgrows
      cases failure with
      | some e =>
          unfold SongLibrary.save
          rw [hmake]
          exact .inl hgrows
      | none =>
          rw [save_of_made hmake]
          cases hwrite : t'.write (l.pathOf song.name)
            (.document (song.changed now).toDocument) with
          | error e => exact .inl hgrows
          | ok t'' =>
              obtain ⟨q, hresolve, hplace, hsets⟩ := FileTree.write_eq_ok hwrite
              exact .inr ⟨q, t', _, hgrows, hresolve, hplace, hsets⟩

lemma directory_delete (l : SongLibrary) (name : String) :
    (l.delete name).1.directory = l.directory := by
  unfold delete
  simp only [SongLibrary.forget]
  split
  · rfl
  · rfl
  · split <;> rfl

/-- Deleting removes the file at the path of the name, or no file. -/
lemma delete_edits (l : SongLibrary) (name : String) :
    l.tree.Grows (l.delete name).1.tree ∨
      ∃ q, l.tree.EditsAt (l.delete name).1.tree (l.pathOf name) q := by
  unfold delete
  simp only [SongLibrary.forget]
  split
  · exact .inl (.refl l.tree)
  · exact .inl (.refl l.tree)
  · split
    · exact .inl (.refl l.tree)
    · rename_i t' hremove
      obtain ⟨q, hresolve, hplace, hsets⟩ := FileTree.remove_eq_ok hremove
      exact .inr ⟨q, l.tree, none, .refl l.tree, hresolve, hplace, hsets⟩

lemma delete_keepsDirectories (l : SongLibrary) (name : String) :
    l.tree.KeepsDirectories (l.delete name).1.tree := by
  obtain hgrows | ⟨q, hedits⟩ := l.delete_edits name
  · exact hgrows.keepsDirectories
  · exact hedits.keepsDirectories

end SongLibrary

end MusicMacro
