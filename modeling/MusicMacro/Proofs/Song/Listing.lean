import MusicMacro.Proofs.Song.Requests

/-!
# What a listing tells

A listing reads every song file of the directory and passes over text that is no YAML and documents
that are no map.  It does not pass over bytes that are no text, over text with a value that cannot
be made, and over maps with `parts` that have no length (`Content.SpoilsListing`).  One such file is
enough for there to be no listing at all.  Without one every song that was saved is told, the last
written first (`SongLibrary.list_tells_saved_iff`).
-/

namespace MusicMacro

/-- The document is a list, a text or a map. -/
def Document.HasLength : Document → Prop
  | .list _ | .text _ | .map _ => True
  | _ => False

lemma Document.exists_size_iff {d : Document} : (∃ n, d.size = .ok n) ↔ d.HasLength := by
  cases d with
  | list items => exact iff_of_true ⟨_, rfl⟩ trivial
  | text s => exact iff_of_true ⟨_, rfl⟩ trivial
  | map entries => exact iff_of_true ⟨_, rfl⟩ trivial
  | _ => exact iff_of_false (fun ⟨_, h⟩ => nomatch h) id

/-- Bytes that are no text, text with a value that cannot be made, or a map with `parts` that have
no length. -/
def Content.SpoilsListing : Content → Prop
  | .bytes data => data ≠ []
  | .impossible _ => True
  | .document (.map entries) =>
    ∃ parts, Document.lookup? "parts" entries = some parts ∧ ¬ parts.HasLength
  | _ => False

/-- What stands at a path, if it leads anywhere. -/
def FileTree.at? (t : FileTree) (p : Path) : Except FileError (Option TreeEntry) :=
  (t.resolve p).map t.entry?

lemma FileTree.at?_eq_ok {t : FileTree} {p : Path} {stands? : Option TreeEntry}
    (h : t.at? p = .ok stands?) : ∃ place, t.resolve p = .ok place ∧ t.entry? place = stands? := by
  unfold at? at h
  cases hresolve : t.resolve p with
  | error e =>
      rw [hresolve] at h
      cases h
  | ok place =>
      rw [hresolve] at h
      exact ⟨place, rfl, Except.ok.inj h⟩

/-- A file that is found at a place is among all files. -/
lemma FileTree.mem_files_of_entry? {t : FileTree} {place : Place} {content : Content}
    {written : Nat} (h : t.entry? place = some (.file content written)) :
    ⟨place, content, written⟩ ∈ t.files := by
  unfold entry? at h
  split at h
  · cases h
  · obtain ⟨before, after, hentries, -⟩ := List.lookup_eq_some_iff.mp h
    refine List.mem_filterMap.mpr ⟨(place, .file content written), ?_, rfl⟩
    rw [hentries]
    exact List.mem_append_right _ List.mem_cons_self

/-- What a listing tells of the song in a file. -/
def Song.listed (song : Song) (path : Path) (written : Nat) : SongListing where
  name := .text song.name
  path := path
  partCount := song.parts.length
  description := .text song.description
  written := written

namespace SongLibrary

variable {l l' : SongLibrary} {song : Song} {written : Nat} {file : FileTree.StoredFile}

/-- A song was saved to its path, and its file, which has this time of writing, is as it was left
then. -/
inductive HasSaved (l : SongLibrary) : Song → Nat → Prop
  | saved {earlier later : SongLibrary} {now : Timestamp} {draft : Song} {content : Content}
      {written : Nat} (saves : earlier.save now draft = (later, .ok (l.pathOf draft.name)))
      (stands : later.tree.at? (l.pathOf draft.name) = .ok (some (.file content written)))
      (stays : l.tree.at? (l.pathOf draft.name) = later.tree.at? (l.pathOf draft.name)) :
      l.HasSaved (draft.changed now) written

/-- The song files of the directory. -/
def songFiles (l : SongLibrary) : List FileTree.StoredFile :=
  (l.tree.filesIn l.directory).filter fun f => isSongFile (f.place.getLast?.getD "")

/-! ## One file -/

/-- The listing of a map fails exactly if it has `parts` without length. -/
lemma listing_eq_ok_iff {path : Path} {entries : Fields} :
    (∃ told, listing path written entries = .ok told) ↔
      ∀ parts, Document.lookup? "parts" entries = some parts → parts.HasLength := by
  have hsize : (∃ told, listing path written entries = .ok told) ↔
      ∃ n, ((Document.lookup? "parts" entries).getD (.list [])).size = .ok n := by
    unfold listing
    split
    · rename_i e he
      rw [he]
      exact iff_of_false (fun ⟨_, h⟩ => nomatch h) fun ⟨_, h⟩ => nomatch h
    · rename_i n hn
      rw [hn]
      exact iff_of_true ⟨_, rfl⟩ ⟨_, rfl⟩
  rw [hsize, Document.exists_size_iff]
  cases Document.lookup? "parts" entries with
  | none => exact iff_of_true trivial nofun
  | some parts => simp

/-- A file that does not spoil the listing is told of or passed over. -/
lemma listFile_eq_ok_iff : (∃ told, l.listFile file = .ok told) ↔ ¬ file.content.SpoilsListing := by
  obtain ⟨place, content, written⟩ := file
  match content with
  | .malformed _ => exact iff_of_true ⟨_, rfl⟩ id
  | .impossible _ => exact iff_of_false (fun ⟨_, h⟩ => nomatch h) fun h => h trivial
  | .bytes [] => exact iff_of_true ⟨_, rfl⟩ (absurd rfl)
  | .bytes (byte :: rest) =>
    exact iff_of_false (fun ⟨_, h⟩ => nomatch h) fun h => h (List.cons_ne_nil byte rest)
  | .document d =>
    cases d with
    | map entries =>
        have hmap : (∃ told, l.listFile ⟨place, .document (.map entries), written⟩ = .ok told) ↔
            ∃ told, listing (l.directory.child (place.getLast?.getD "")) written entries =
              .ok told := by
          change (∃ told, (listing (l.directory.child (place.getLast?.getD "")) written
            entries).map some = .ok told) ↔ _
          cases listing (l.directory.child (place.getLast?.getD "")) written entries with
          | error e => exact iff_of_false (fun ⟨_, h⟩ => nomatch h) fun ⟨_, h⟩ => nomatch h
          | ok told => exact iff_of_true ⟨_, rfl⟩ ⟨_, rfl⟩
        rw [hmap, listing_eq_ok_iff]
        simp [Content.SpoilsListing]
    | _ => exact iff_of_true ⟨_, rfl⟩ id

/-- The file of a song is told of. -/
lemma listFile_song (hplace : file.place.getLast? = some (fileName song.name))
    (hcontent : file.content = .document song.toDocument) :
    l.listFile file = .ok (some (song.listed (l.pathOf song.name) file.written)) := by
  unfold listFile
  rw [hplace, hcontent, Song.listed, ← List.length_map Document.text]
  rfl

/-! ## The files of saved songs -/

/-- A song that was saved stands in its file as changed then. -/
lemma save_eq_ok {draft : Song} {now : Timestamp} {path : Path}
    (h : l.save now draft = (l', .ok path)) : path = l'.pathOf draft.name ∧
      ∃ written, l'.tree.at? path =
        .ok (some (.file (.document (draft.changed now).toDocument) written)) := by
  cases hmake : l.tree.makeDirectories l.directory with
  | mk made failure =>
      cases failure with
      | some e =>
          unfold SongLibrary.save at h
          rw [hmake] at h
          cases h
      | none =>
          rw [save_of_made hmake] at h
          split at h
          · cases h
          · rename_i tree hwrite
            obtain ⟨rfl, rfl⟩ : _ ∧ l.pathOf draft.name = path := by simpa using h
            obtain ⟨place, hresolve, hplace, hsets⟩ := FileTree.write_eq_ok hwrite
            have hstill : tree.resolve (l.pathOf draft.name) = .ok place :=
              (hsets.keepsDirectories hplace).resolve hresolve
            refine ⟨rfl, made.writings, ?_⟩
            rw [FileTree.at?, hstill, Except.map, hsets.at_place]

/-- A song is saved once saving has given a path. -/
lemma hasSaved_of_save {draft : Song} {now : Timestamp} (h : (l.save now draft).2.isOk = true) :
    ∃ written, (l.save now draft).1.HasSaved (draft.changed now) written := by
  cases hsave : l.save now draft with
  | mk l' saved =>
      rw [hsave] at h
      cases saved with
      | error e => cases h
      | ok path =>
          obtain ⟨hpath, written, hstands⟩ := save_eq_ok hsave
          rw [hpath] at hsave hstands
          exact ⟨written, .saved hsave hstands rfl⟩

/-- The directory stands where a song was saved, and the song has its file in it. -/
lemma HasSaved.exists_place (h : l.HasSaved song written) : ∃ place,
    l.tree.resolve l.directory = .ok place ∧
      l.tree.resolve (l.pathOf song.name) = .ok (place ++ [fileName song.name]) ∧
      l.tree.entry? (place ++ [fileName song.name]) =
        some (.file (.document song.toDocument) written) := by
  obtain ⟨hsaves, hstands, hstays⟩ := h
  rename_i earlier later now draft content
  obtain ⟨-, written', hsaved⟩ := save_eq_ok hsaves
  rw [hsaved] at hstands hstays
  obtain ⟨rfl, rfl⟩ : _ = content ∧ written' = written := by simpa using hstands
  obtain ⟨q, hresolve, hentry⟩ := FileTree.at?_eq_ok hstays
  obtain ⟨place, hplace, -, -, rfl⟩ :=
    FileTree.resolve_child_eq_ok (fileName_ne (by decide)) (pathOf_eq l _ ▸ hresolve)
  exact ⟨place, hplace, hresolve, hentry⟩

/-- What is written to another file beside it leaves a song saved. -/
lemma HasSaved.write_beside (h : l.HasSaved song written) {name : String} {content : Content}
    {tree : FileTree} (hname : fileName name ≠ fileName song.name)
    (hwrite : l.tree.write (l.pathOf name) content = .ok tree) :
    ({ l with tree } : SongLibrary).HasSaved song written := by
  obtain ⟨place, hplace, hresolve, hentry⟩ := h.exists_place
  obtain ⟨q, hq, hfree, hsets⟩ := FileTree.write_eq_ok hwrite
  obtain ⟨place', hplace', -, -, rfl⟩ :=
    FileTree.resolve_child_eq_ok (fileName_ne (by decide)) (pathOf_eq l _ ▸ hq)
  obtain rfl : place = place' := Except.ok.inj (hplace.symm.trans hplace')
  have hother : place ++ [fileName song.name] ≠ place ++ [fileName name] := by
    simpa using hname.symm
  have hsame : tree.at? (l.pathOf song.name) = l.tree.at? (l.pathOf song.name) := by
    rw [FileTree.at?, FileTree.at?, (hsets.keepsDirectories hfree).resolve hresolve, hresolve,
      Except.map, Except.map, hsets.of_ne hother]
  obtain ⟨hsaves, hstands, hstays⟩ := h
  exact .saved hsaves hstands (hsame.trans hstays)

lemma isSongFile_fileName (name : String) : isSongFile (fileName name) = true := by
  rw [isSongFile, List.isSuffixOf_iff_suffix, toList_fileName]
  exact List.suffix_append _ _

/-- The file of a song that was saved is one of the song files of the directory. -/
lemma HasSaved.mem_songFiles (h : l.HasSaved song written) : ∃ place,
    ⟨place ++ [fileName song.name], .document song.toDocument, written⟩ ∈ l.songFiles := by
  obtain ⟨place, hplace, -, hentry⟩ := h.exists_place
  refine ⟨place, List.mem_filter.mpr ⟨?_, ?_⟩⟩
  · rw [FileTree.filesIn, hplace]
    refine List.mem_filter.mpr ⟨FileTree.mem_files_of_entry? hentry, ?_⟩
    simp
  · rw [List.getLast?_concat, Option.getD_some]
    exact isSongFile_fileName _

/-! ## All files -/

/-- In a directory that exists all song files are read, and what they tell is ordered. -/
lemma list_of_holds (h : l.tree.holds l.directory = .ok true) :
    l.list = (l.songFiles.mapM l.listFile).map fun told =>
      (told.filterMap id).mergeSort fun a b => b.written ≤ a.written := by
  unfold list
  rw [h]
  rfl

/-- **One file can hide all songs.**  In a directory that exists the listing tells every song that
was saved, with its name, its number of parts and its description, and the last written first,
exactly if no song file holds bytes that are no text, text with a value that cannot be made or a map
whose `parts` have no length.  If one does there is no listing. -/
theorem list_tells_saved_iff (h : l.tree.holds l.directory = .ok true) :
    (∃ listings, l.list = .ok listings ∧
      listings.Pairwise (fun a b => b.written ≤ a.written) ∧
      ∀ song written, l.HasSaved song written →
        song.listed (l.pathOf song.name) written ∈ listings) ↔
    ∀ file ∈ l.songFiles, ¬ file.content.SpoilsListing := by
  rw [list_of_holds h]
  constructor
  · rintro ⟨listings, hlist, -⟩ file hfile
    cases hmap : l.songFiles.mapM l.listFile with
    | error e =>
        rw [hmap] at hlist
        cases hlist
    | ok told => exact listFile_eq_ok_iff.mp (exists_ok_of_mapM hmap hfile)
  · intro hunspoilt
    obtain ⟨told, hmap⟩ :=
      exists_mapM_eq_ok fun file hfile => listFile_eq_ok_iff.mpr (hunspoilt file hfile)
    refine ⟨_, by rw [hmap]; rfl, ?_, fun song written hsaved => ?_⟩
    · have hsorted := @List.pairwise_mergeSort _
        (fun a b : SongListing => decide (b.written ≤ a.written))
        (by simpa using fun a b c hab hbc => Nat.le_trans hbc hab)
        (by simpa using fun a b => Nat.le_total _ _) (told.filterMap id)
      exact hsorted.imp of_decide_eq_true
    · obtain ⟨place, hmem⟩ := hsaved.mem_songFiles
      have htold : some (song.listed (l.pathOf song.name) written) ∈ told :=
        mem_of_mapM hmap hmem (listFile_song List.getLast?_concat rfl)
      exact List.mem_mergeSort.mpr (List.mem_filterMap.mpr ⟨_, htold, rfl⟩)

/-- A song of one part is saved, and then a file is put beside it that gives a number in the place
of the parts: there is no listing any more. -/
theorem no_listing_beside_numbered_parts :
    let noon : Timestamp := ⟨2024, 2, 29, 12, 0, 0, 0, some 0⟩
    let song : Song := ⟨"song/v1", "minuet", "", noon, noon, ["T60 O4 C4"], by decide +kernel⟩
    let saved := (blank.save noon song).1
    let numbered : Content := .document (.map [("name", .text "rondo"), ("parts", .whole 5)])
    let l := { saved with
      tree := (saved.tree.write (saved.pathOf "rondo") numbered).toOption.getD saved.tree }
    ((saved.list.toOption.map fun told => told.map (·.partCount)) = some [1] ∧
      l.list.isOk = false) ∧
    (∃ written, l.HasSaved song written) ∧ l.tree.holds l.directory = .ok true ∧
      ((∃ listings, l.list = .ok listings ∧
          listings.Pairwise (fun a b => b.written ≤ a.written) ∧
          ∀ song written, l.HasSaved song written →
            song.listed (l.pathOf song.name) written ∈ listings) ↔
        ∀ file ∈ l.songFiles, ¬ file.content.SpoilsListing) := by
  intro noon song saved numbered l
  have hholds : l.tree.holds l.directory = .ok true := by decide +kernel
  have hwrites := eq_ok_of_isOk
    (x := saved.tree.write (saved.pathOf "rondo") numbered) (by decide +kernel) saved.tree
  obtain ⟨written, hsaved⟩ := @hasSaved_of_save blank song noon (by decide +kernel)
  refine ⟨⟨?_, by decide +kernel⟩, ⟨written, ?_⟩, hholds, list_tells_saved_iff hholds⟩
  · decide +kernel
  · exact hsaved.write_beside (by decide +kernel) hwrites

end SongLibrary

end MusicMacro
