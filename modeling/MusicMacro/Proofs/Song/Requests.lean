import MusicMacro.Proofs.Song.Library

/-!
# Requests of a library

Requests name songs by any text, and a library serves them one after the other
(`SongLibrary.serveAll`).  Each of them leaves the files those of songs
(`SongLibrary.Keeps.serve_keeps`), and so they are in every library that comes from one just opened
over a directory without song files, also where it was opened anew in between
(`SongLibrary.IsReached.keeps`).
-/

namespace MusicMacro

/-- What is asked of a library, by the names of songs. -/
inductive SongRequest where
  | create (name : String) (parts : List String) (description : String)
  | find (name : String)
  | save (name : String)
  | addPart (name text : String)
  | delete (name : String)

/-- What a library answers. -/
inductive SongAnswer where
  | made (song : Song)
  | found (song? : Option Song)
  | saved (path : Path)
  | added (song : Song) (index : Nat)
  | deleted (known : Bool)

namespace SongLibrary

variable {l l' : SongLibrary} {files : String → Option Song} {now : Timestamp} {name text : String}
  {song : Song}

/-! ## A new library -/

/-- The library has just been opened, over a directory that can be made and then has no song
files. -/
structure IsNew (l : SongLibrary) : Prop where
  copies : l.copies = []
  empty : ∃ t', l.tree.makeDirectories l.directory = (t', none) ∧
    ∀ name, t'.holds (l.pathOf name) ≠ .ok true

lemma IsNew.keeps (h : l.IsNew) : Keeps l fun _ => none := by
  obtain ⟨t', hmade, hempty⟩ := h.empty
  obtain ⟨place, hresolve, hdirectory⟩ := FileTree.makeDirectories_eq_none hmade
  refine ⟨fun name song hcopy => ?_, nofun, .inr ⟨fun _ => rfl, t', place, hmade, ?_⟩⟩
  · rw [copy?, h.copies] at hcopy
    cases hcopy
  · refine ⟨hresolve, hdirectory, fun name hfits => ?_⟩
    have hname := hempty name
    rw [pathOf_eq, FileTree.holds_of_resolve
      (FileTree.resolve_child_of_fits (fileName_ne (by decide)) hresolve hdirectory hfits)] at hname
    change t'.entry? _ = none
    rw [← Option.not_isSome_iff_eq_none]
    exact fun hsome => hname (congrArg Except.ok hsome)

/-- A library just opened over an empty directory. -/
def blank : SongLibrary :=
  ⟨⟨.relative, ["songs"]⟩, [], .ofDirectories [["home"], ["home", "songs"]] ["home"]⟩

lemma resolve_blank : blank.tree.resolve blank.directory = .ok ["home", "songs"] := by
  rfl

lemma isNew_blank : blank.IsNew := by
  refine ⟨rfl, blank.tree, by rfl, fun name hholds => ?_⟩
  rw [pathOf_eq, FileTree.holds] at hholds
  split at hholds
  · rename_i q hq
    obtain ⟨place, hplace, -, -, rfl⟩ :=
      FileTree.resolve_child_eq_ok (fileName_ne (by decide)) hq
    rw [resolve_blank] at hplace
    obtain rfl := Except.ok.inj hplace
    have hnone : blank.tree.entry? (["home", "songs"] ++ [fileName name]) = none := rfl
    rw [hnone] at hholds
    cases hholds
  · split at hholds <;> cases hholds

/-- The files stay when the library is opened anew. -/
lemma Keeps.reopened (h : Keeps l files) : Keeps l.reopened files :=
  ⟨nofun, h.file, h.shelf⟩

/-! ## Saving by name -/

/-- Saves the song that is found under a name. -/
def saveNamed (l : SongLibrary) (now : Timestamp) (name : String) :
    SongLibrary × Except LibraryError Path :=
  match l.find now name with
  | (l, .error e) => (l, .error e)
  | (l, .ok none) => (l, .error (.notFound name))
  | (l, .ok (some song)) => l.save now song

/-- Where no song is found, none is saved. -/
lemma saveNamed_of_not_found (h : ∀ song, (l.find now name).2 ≠ .ok (some song)) :
    (l.saveNamed now name).1 = (l.find now name).1 := by
  unfold saveNamed
  cases hfind : l.find now name with
  | mk l' found =>
      rw [hfind] at h
      match found, h with
      | .error e, _ => rfl
      | .ok none, _ => rfl
      | .ok (some song), h => exact absurd rfl (h song)

lemma saveNamed_of_none (h : l.find now name = (l', .ok none)) :
    l.saveNamed now name = (l', .error (.notFound name)) := by
  unfold saveNamed
  rw [h]

lemma saveNamed_of_some (h : l.find now name = (l', .ok (some song))) :
    l.saveNamed now name = l'.save now song := by
  unfold saveNamed
  rw [h]

lemma directory_saveNamed (l : SongLibrary) (now : Timestamp) (name : String) :
    (l.saveNamed now name).1.directory = l.directory := by
  have hfind := directory_of_reopened (l.reopened_find now name)
  unfold saveNamed
  split
  · rename_i heq
    rw [heq] at hfind
    exact hfind
  · rename_i heq
    rw [heq] at hfind
    exact hfind
  · rename_i l' song heq
    rw [heq] at hfind
    exact (l'.directory_save now song).trans hfind

/-- Saving by name writes the file of the song that is found, or no file. -/
lemma saveNamed_edits (l : SongLibrary) (now : Timestamp) (name : String) :
    l.tree.Grows (l.saveNamed now name).1.tree ∨
      ∃ song q, l.tree.EditsAt (l.saveNamed now name).1.tree (l.pathOf song) q := by
  have hfind := l.reopened_find now name
  unfold saveNamed
  split
  · rename_i heq
    rw [heq] at hfind
    exact .inl (tree_of_reopened hfind ▸ .refl l.tree)
  · rename_i heq
    rw [heq] at hfind
    exact .inl (tree_of_reopened hfind ▸ .refl l.tree)
  · rename_i l' song heq
    rw [heq] at hfind
    obtain hgrows | ⟨q, hedits⟩ := l'.save_edits now song
    · rw [tree_of_reopened hfind] at hgrows
      exact .inl hgrows
    · rw [tree_of_reopened hfind, pathOf_of_reopened hfind] at hedits
      exact .inr ⟨song.name, q, hedits⟩

/-! ## Serving -/

/-- Answers a request made now. -/
def serve (l : SongLibrary) (now : Timestamp) :
    SongRequest → SongLibrary × Except LibraryError SongAnswer
  | .create name parts description => (l.create now name parts description).map id (·.map .made)
  | .find name => (l.find now name).map id (·.map .found)
  | .save name => (l.saveNamed now name).map id (·.map .saved)
  | .addPart name text => (l.addPart now name text).map id (·.map fun (song, i) => .added song i)
  | .delete name => (l.delete name).map id (·.map .deleted)

/-- Answers requests made one after the other, each at its time. -/
def serveAll (l : SongLibrary) :
    List (Timestamp × SongRequest) → SongLibrary × List (Except LibraryError SongAnswer)
  | [] => (l, [])
  | (now, request) :: rest =>
    let (l, answer) := l.serve now request
    let (l, answers) := l.serveAll rest
    (l, answer :: answers)

/-! ## What requests keep -/

lemma Keeps.find_keeps (h : Keeps l files) (now : Timestamp) (name : String) :
    Keeps (l.find now name).1 files := by
  obtain ⟨song, -, hfind⟩ | ⟨song, -, hfile, hfind⟩ | ⟨-, -, hfind, -⟩ := h.find_cases now name
  · rw [hfind]
    exact h
  · rw [hfind]
    exact h.keep (h.file _ song hfile).2.1
  · rw [hfind]
    exact h

/-- A song that is found came from the clock. -/
lemma Keeps.isClocked_of_find (h : Keeps l files)
    (hfind : l.find now name = (l', .ok (some song))) : song.IsClocked := by
  obtain ⟨found, hcopy, heq⟩ | ⟨found, -, hfile, heq⟩ | ⟨-, -, -, hnone⟩ := h.find_cases now name
  · rw [heq] at hfind
    obtain ⟨-, ⟨⟩⟩ := hfind
    exact (h.copy _ _ hcopy).2
  · rw [heq] at hfind
    obtain ⟨-, ⟨⟩⟩ := hfind
    exact (h.file _ _ hfile).2.1
  · rw [hfind] at hnone
    exact absurd rfl (hnone song)

lemma Keeps.addPart_keeps (h : Keeps l files) (hnow : now.IsReading) (name text : String) :
    Keeps (l.addPart now name text).1 files := by
  have hfound := h.find_keeps now name
  obtain ⟨l', song, hfind⟩ | hnone := l.find_dichotomy now name
  · rw [hfind] at hfound
    rw [addPart_of_some hfind]
    exact hfound.keep ⟨(h.isClocked_of_find hfind).created, hnow⟩
  · rw [addPart_of_not_found hnone]
    exact hfound

lemma Keeps.saveNamed_keeps (h : Keeps l files) (hnow : now.IsReading) (name : String) :
    ∃ files', Keeps (l.saveNamed now name).1 files' := by
  have hfound := h.find_keeps now name
  obtain ⟨l', song, hfind⟩ | hnone := l.find_dichotomy now name
  · rw [hfind] at hfound
    have hclocked := h.isClocked_of_find hfind
    rw [saveNamed_of_some hfind]
    by_cases hfits : FileTree.FitsName (fileName song.name)
    · obtain ⟨l', hsave, -, -, hkeeps⟩ := hfound.save hclocked hnow hfits
      rw [hsave]
      exact ⟨_, hkeeps⟩
    · obtain ⟨l', e, hsave, -, -, hkeeps⟩ := hfound.save_refused hclocked hnow hfits
      rw [hsave]
      exact ⟨_, hkeeps⟩
  · rw [saveNamed_of_not_found hnone]
    exact ⟨files, hfound⟩

lemma Keeps.delete_keeps (h : Keeps l files) (name : String) :
    ∃ files', Keeps (l.delete name).1 files' := by
  cases hfile : files (fileName name) with
  | none =>
      rw [h.delete_nothing hfile]
      exact ⟨files, h.forget name⟩
  | some song =>
      obtain ⟨l', hdelete, -, -, hkeeps⟩ := h.delete_of_file hfile
      rw [hdelete]
      exact ⟨_, hkeeps⟩

lemma Keeps.create_keeps (h : Keeps l files) (hnow : now.IsReading) (name : String)
    (parts : List String) (description : String) :
    Keeps (l.create now name parts description).1 files := by
  by_cases valid : isSongName name = true
  · rw [create_of_valid l now parts description valid]
    exact h.keep ⟨hnow, hnow⟩
  · rw [create_of_invalid l now parts description valid]
    exact h

/-- Every request, whatever its names, leaves the files those of songs. -/
lemma Keeps.serve_keeps (h : Keeps l files) (hnow : now.IsReading) (request : SongRequest) :
    ∃ files', Keeps (l.serve now request).1 files' := by
  cases request
  all_goals rw [SongLibrary.serve, Prod.map_fst, id]
  case create name parts description => exact ⟨files, h.create_keeps hnow name parts description⟩
  case find name => exact ⟨files, h.find_keeps now name⟩
  case save name => exact h.saveNamed_keeps hnow name
  case addPart name text => exact ⟨files, h.addPart_keeps hnow name text⟩
  case delete name => exact h.delete_keeps name

/-- The library came from a new one by requests, whatever their names, and by being opened anew. -/
inductive IsReached : SongLibrary → Prop
  | new {l : SongLibrary} (isNew : l.IsNew) : IsReached l
  | served {l : SongLibrary} {now : Timestamp} (before : IsReached l) (hnow : now.IsReading)
      (request : SongRequest) : IsReached (l.serve now request).1
  | reopened {l : SongLibrary} (before : IsReached l) : IsReached l.reopened

lemma IsReached.serveAll (h : l.IsReached) {requests : List (Timestamp × SongRequest)}
    (hnow : ∀ r ∈ requests, r.1.IsReading) : (l.serveAll requests).1.IsReached := by
  induction requests generalizing l with
  | nil => exact h
  | cons first rest ih =>
      obtain ⟨hfirst, hrest⟩ := List.forall_mem_cons.mp hnow
      exact ih (h.served hfirst first.2) hrest

lemma IsReached.keeps (h : l.IsReached) : ∃ files, Keeps l files := by
  induction h with
  | new isNew => exact ⟨_, isNew.keeps⟩
  | served before hnow request ih =>
      obtain ⟨files, hkeeps⟩ := ih
      exact hkeeps.serve_keeps hnow request
  | reopened before ih =>
      obtain ⟨files, hkeeps⟩ := ih
      exact ⟨files, hkeeps.reopened⟩

end SongLibrary

end MusicMacro
