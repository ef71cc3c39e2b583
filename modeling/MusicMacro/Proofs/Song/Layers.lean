import Mathlib.Data.String.Basic
import MusicMacro.Proofs.Song.Requests

/-!
# The library as two layers

A library that alone writes its directory is a map of two layers, working copies over saved songs
(`SongLayers`): a song is what its working copy is, or else what was saved.  Every request is
answered as the layers answer it, and a library opened anew finds what was saved
(`SongLibrary.serves_as_layers`).

Between the two stands `SongLibrary.Follows`.  The library may hold a working copy where the layers
have none, of a song that it found in its file; such a copy is what was saved.

Names are those of songs whose file name is not too long.  A longer one cannot be looked up in the
directory (`SongLibrary.find_of_long`).
-/

namespace MusicMacro

/-- Songs are made under any name, and otherwise named by names that can be stored. -/
def SongRequest.IsProper : SongRequest → Prop
  | .create .. => True
  | .find name | .save name | .addPart name _ | .delete name => SongLibrary.IsStorable name

/-- Working copies over saved songs, by name. -/
structure SongLayers where
  working : String → Option Song
  saved : String → Option Song

namespace SongLayers

/-- No songs. -/
def empty : SongLayers := ⟨fun _ => none, fun _ => none⟩

/-- The working copy of a name, or else the saved song. -/
def current? (layers : SongLayers) (name : String) : Option Song :=
  (layers.working name).or (layers.saved name)

/-- Makes a song the working copy of a name. -/
def work (layers : SongLayers) (name : String) (song : Song) : SongLayers :=
  { layers with working := Function.update layers.working name (some song) }

/-- Makes a song, or none, the working copy and the saved song of a name. -/
def settle (layers : SongLayers) (name : String) (song? : Option Song) : SongLayers :=
  ⟨Function.update layers.working name song?, Function.update layers.saved name song?⟩

lemma working_settle (layers : SongLayers) (name other : String) (song? : Option Song) :
    (layers.settle name song?).working other =
      if other = name then song? else layers.working other :=
  Function.update_apply ..

lemma saved_settle (layers : SongLayers) (name other : String) (song? : Option Song) :
    (layers.settle name song?).saved other = if other = name then song? else layers.saved other :=
  Function.update_apply ..

lemma working_work (layers : SongLayers) (name other : String) (song : Song) :
    (layers.work name song).working other =
      if other = name then some song else layers.working other :=
  Function.update_apply ..

/-- Answers a request made now of songs whose files are in a directory. -/
def serve (directory : Path) (layers : SongLayers) (now : Timestamp) :
    SongRequest → SongLayers × Except LibraryError SongAnswer
  | .create name parts description =>
    if valid : isSongName name then
      let song := Song.new now name description parts valid
      (layers.work name song, .ok (.made song))
    else (layers, .error (.song (.fields (Song.invalidName name))))
  | .find name => (layers, .ok (.found (layers.current? name)))
  | .save name =>
    match layers.current? name with
    | none => (layers, .error (.notFound name))
    | some song =>
      (layers.settle name (some (song.changed now)),
        .ok (.saved (directory.child (SongLibrary.fileName name))))
  | .addPart name text =>
    match layers.current? name with
    | none => (layers, .error (.notFound name))
    | some song =>
      (layers.work name (song.withPart now text),
        .ok (.added (song.withPart now text) song.parts.length))
  | .delete name => (layers.settle name none, .ok (.deleted (layers.current? name).isSome))

/-- Answers requests made one after the other, each at its time. -/
def serveAll (directory : Path) (layers : SongLayers) :
    List (Timestamp × SongRequest) → SongLayers × List (Except LibraryError SongAnswer)
  | [] => (layers, [])
  | (now, request) :: rest =>
    let (layers, answer) := layers.serve directory now request
    let (layers, answers) := layers.serveAll directory rest
    (layers, answer :: answers)

end SongLayers

namespace SongLibrary

variable {l l' : SongLibrary} {layers : SongLayers} {files : String → Option Song}
  {name other text : String} {song : Song} {now : Timestamp}

/-- The library keeps the saved songs in its files, and the working copies beside some copies of
saved songs. -/
structure Follows (l : SongLibrary) (layers : SongLayers) (files : String → Option Song) :
    Prop where
  keeps : Keeps l files
  saved : ∀ name, IsStorable name → layers.saved name = files (fileName name)
  copy : ∀ name, IsStorable name → l.copy? name = layers.working name ∨
    layers.working name = none ∧ l.copy? name = layers.saved name

lemma IsNew.follows (h : l.IsNew) : Follows l .empty fun _ => none := by
  refine ⟨h.keeps, fun _ _ => rfl, fun name _ => .inl ?_⟩
  rw [copy?, h.copies]
  rfl

lemma Follows.current_of_copy (h : Follows l layers files) (hname : IsStorable name)
    (hcopy : l.copy? name = some song) : layers.current? name = some song := by
  rw [SongLayers.current?]
  obtain hworking | ⟨hworking, hsaved⟩ := h.copy name hname
  · rw [← hworking, hcopy, Option.some_or]
  · rw [hworking, Option.none_or, ← hsaved, hcopy]

lemma Follows.current_of_none (h : Follows l layers files) (hname : IsStorable name)
    (hcopy : l.copy? name = none) : layers.current? name = files (fileName name) := by
  have hworking : layers.working name = none := by
    obtain hworking | ⟨hworking, -⟩ := h.copy name hname
    · rw [← hworking, hcopy]
    · exact hworking
  rw [SongLayers.current?, hworking, Option.none_or, h.saved name hname]

/-- What is kept as a working copy is the working copy of its name. -/
lemma Follows.keep (h : Follows l layers files) (hclocked : song.IsClocked) :
    Follows (l.keep song) (layers.work song.name song) files := by
  refine ⟨h.keeps.keep hclocked, h.saved, fun name hname => ?_⟩
  rw [copy?_keep, SongLayers.working_work]
  by_cases heq : name = song.name
  · rw [if_pos heq, if_pos heq]
    exact .inl rfl
  · rw [if_neg heq, if_neg heq]
    exact h.copy name hname

/-! ## Single requests -/

/-- What is found is what the layers have, and it has a working copy from then on. -/
lemma Follows.find (h : Follows l layers files) (hname : IsStorable name) (now : Timestamp) :
    ∃ l', l.find now name = (l', .ok (layers.current? name)) ∧ l'.directory = l.directory ∧
      Follows l' layers files := by
  cases hcopy : l.copy? name with
  | some song =>
      refine ⟨l, ?_, rfl, h⟩
      rw [find_of_copy hcopy, h.current_of_copy hname hcopy]
  | none =>
      have hcurrent := h.current_of_none hname hcopy
      cases hfile : files (fileName name) with
      | none =>
          refine ⟨l, ?_, rfl, h⟩
          rw [h.keeps.find_of_none hcopy hname.fits hfile, hcurrent, hfile]
      | some song =>
          obtain ⟨hfileName, hclocked, -⟩ := h.keeps.file _ song hfile
          have hsame : song.name = name :=
            fileName_injective song.name_valid hname.valid hfileName
          refine ⟨l.keep song, ?_, rfl, h.keeps.keep hclocked, h.saved, fun other hother => ?_⟩
          · rw [h.keeps.find_of_file hcopy hfile, hcurrent, hfile]
          · rw [copy?_keep, hsame]
            by_cases heq : other = name
            · rw [if_pos heq, heq, h.saved name hname, hfile]
              obtain hworking | ⟨hworking, -⟩ := h.copy name hname
              · exact .inr ⟨hworking.symm.trans hcopy, rfl⟩
              · exact .inr ⟨hworking, rfl⟩
            · rw [if_neg heq]
              exact h.copy other hother

/-- The song that the layers have under a name has that name. -/
lemma Follows.of_current (h : Follows l layers files) (hname : IsStorable name)
    (hcurrent : layers.current? name = some song) : song.name = name ∧ song.IsClocked := by
  cases hcopy : l.copy? name with
  | some copy =>
      rw [h.current_of_copy hname hcopy] at hcurrent
      obtain rfl := Option.some.inj hcurrent
      exact h.keeps.copy name copy hcopy
  | none =>
      rw [h.current_of_none hname hcopy] at hcurrent
      obtain ⟨hfileName, hclocked, -⟩ := h.keeps.file _ song hcurrent
      exact ⟨fileName_injective song.name_valid hname.valid hfileName, hclocked⟩

/-- What becomes of one name in the copies and in the files at once becomes of it in both layers. -/
lemma Follows.settle (h : Follows l layers files) (hname : IsStorable name) {song? : Option Song}
    (hcopy : ∀ other, l'.copy? other = if other = name then song? else l.copy? other)
    (hkeeps : Keeps l' (Function.update files (fileName name) song?)) :
    Follows l' (layers.settle name song?) (Function.update files (fileName name) song?) := by
  refine ⟨hkeeps, fun other hother => ?_, fun other hother => ?_⟩
  · rw [SongLayers.saved_settle]
    by_cases heq : other = name
    · rw [if_pos heq, heq, Function.update_self]
    · have hfile : fileName other ≠ fileName name :=
        fun hfile => heq (fileName_injective hother.valid hname.valid hfile)
      rw [if_neg heq, Function.update_of_ne hfile]
      exact h.saved other hother
  · rw [hcopy, SongLayers.working_settle, SongLayers.saved_settle]
    by_cases heq : other = name
    · rw [if_pos heq, if_pos heq]
      exact .inl rfl
    · rw [if_neg heq, if_neg heq, if_neg heq]
      exact h.copy other hother

/-- The library answers as the layers do and follows them from then on. -/
structure Agrees (l : SongLibrary) (layers : SongLayers) (now : Timestamp)
    (request : SongRequest) : Prop where
  answer : (l.serve now request).2 = (layers.serve l.directory now request).2
  directory : (l.serve now request).1.directory = l.directory
  follows : ∃ files, Follows (l.serve now request).1 (layers.serve l.directory now request).1 files

lemma Agrees.of_eq {request : SongRequest} (l' : SongLibrary) (layers' : SongLayers)
    (answer : Except LibraryError SongAnswer) (hserve : l.serve now request = (l', answer))
    (hlayers : layers.serve l.directory now request = (layers', answer))
    (hdirectory : l'.directory = l.directory) (hfollows : Follows l' layers' files) :
    Agrees l layers now request := by
  constructor
  all_goals rw [hserve]
  · rw [hlayers]
  · exact hdirectory
  · rw [hlayers]
    exact ⟨files, hfollows⟩

lemma Follows.create (h : Follows l layers files) (hnow : now.IsReading) (name : String)
    (parts : List String) (description : String) :
    Agrees l layers now (.create name parts description) := by
  by_cases valid : isSongName name = true
  · have hclocked : (Song.new now name description parts valid).IsClocked := ⟨hnow, hnow⟩
    apply Agrees.of_eq (l.keep (.new now name description parts valid))
      (layers.work name (.new now name description parts valid))
      (.ok (.made (.new now name description parts valid)))
    · rw [serve, create_of_valid l now parts description valid]
      rfl
    · exact dif_pos valid
    · rfl
    · exact h.keep hclocked
  · apply Agrees.of_eq l layers (.error (.song (.fields (Song.invalidName name))))
    · rw [serve, create_of_invalid l now parts description valid]
      rfl
    · exact dif_neg valid
    · rfl
    · exact h

lemma Follows.findNamed (h : Follows l layers files) (hname : IsStorable name) (now : Timestamp) :
    Agrees l layers now (.find name) := by
  obtain ⟨l', hfind, hdirectory, hfollows⟩ := h.find hname now
  refine .of_eq _ _ _ ?_ rfl hdirectory hfollows
  rw [serve, hfind]
  rfl

lemma Follows.saveNamed (h : Follows l layers files) (hnow : now.IsReading)
    (hname : IsStorable name) : Agrees l layers now (.save name) := by
  obtain ⟨l', hfind, hdirectory, hfollows⟩ := h.find hname now
  cases hcurrent : layers.current? name with
  | none =>
      rw [hcurrent] at hfind
      apply Agrees.of_eq _ _ (.error (.notFound name)) _ _ hdirectory hfollows
      · rw [serve, saveNamed_of_none hfind]
        rfl
      · rw [SongLayers.serve, hcurrent]
  | some song =>
      rw [hcurrent] at hfind
      obtain ⟨hsame, hclocked⟩ := hfollows.of_current hname hcurrent
      obtain ⟨l'', hsave, hdirectory', hcopies, hkeeps⟩ :=
        hfollows.keeps.save hclocked hnow (hsame ▸ hname.fits)
      rw [hsame] at hsave hkeeps
      have hchanged : (song.changed now).name = name := hsame
      have hpath : l'.pathOf name = l.pathOf name := by
        rw [pathOf, hdirectory, pathOf]
      refine .of_eq _ _ (.ok (.saved (l.pathOf name))) ?_ ?_ (hdirectory'.trans hdirectory)
        (hfollows.settle hname (fun other => ?_) hkeeps)
      · rw [serve, saveNamed_of_some hfind, hsave, hpath]
        rfl
      · rw [SongLayers.serve, hcurrent]
        rfl
      · rw [copy?_of_copies hcopies, copy?_keep, hchanged]

lemma Follows.addPart (h : Follows l layers files) (hnow : now.IsReading)
    (hname : IsStorable name) (text : String) : Agrees l layers now (.addPart name text) := by
  obtain ⟨l', hfind, hdirectory, hfollows⟩ := h.find hname now
  cases hcurrent : layers.current? name with
  | none =>
      rw [hcurrent] at hfind
      apply Agrees.of_eq _ _ (.error (.notFound name)) _ _ hdirectory hfollows
      · rw [serve, addPart_of_none hfind]
        rfl
      · rw [SongLayers.serve, hcurrent]
  | some song =>
      rw [hcurrent] at hfind
      obtain ⟨hsame, hclocked⟩ := hfollows.of_current hname hcurrent
      have hlonger : (song.withPart now text).IsClocked := ⟨hclocked.created, hnow⟩
      have hname' : (song.withPart now text).name = name := hsame
      refine .of_eq (l'.keep (song.withPart now text)) _
        (.ok (.added (song.withPart now text) song.parts.length)) ?_ ?_
        hdirectory (hfollows.keep hlonger)
      · rw [serve, addPart_of_some hfind]
        rfl
      · rw [SongLayers.serve, hcurrent, hname']

lemma Follows.delete (h : Follows l layers files) (hname : IsStorable name) (now : Timestamp) :
    Agrees l layers now (.delete name) := by
  cases hfile : files (fileName name) with
  | none =>
      have hknown : (l.copy? name).isSome = (layers.current? name).isSome := by
        cases hcopy : l.copy? name with
        | none => rw [h.current_of_none hname hcopy, hfile]
        | some song => rw [h.current_of_copy hname hcopy]
      have hkeeps : Keeps (l.forget name) (Function.update files (fileName name) none) := by
        rw [← hfile, Function.update_eq_self]
        exact h.keeps.forget name
      refine .of_eq (l.forget name) _ _ ?_ rfl rfl
        (h.settle hname (copy?_forget l name) hkeeps)
      rw [serve, h.keeps.delete_of_none hname.fits hfile, hknown]
      rfl
  | some song =>
      have hknown : (layers.current? name).isSome = true := by
        cases hcopy : l.copy? name with
        | none => rw [h.current_of_none hname hcopy, hfile, Option.isSome_some]
        | some song => rw [h.current_of_copy hname hcopy, Option.isSome_some]
      obtain ⟨l', hdelete, hdirectory, hcopies, hkeeps⟩ := h.keeps.delete_of_file hfile
      refine .of_eq _ _ _ ?_ rfl hdirectory (h.settle hname (fun other => ?_) hkeeps)
      · rw [serve, hdelete, hknown]
        rfl
      · rw [copy?_of_copies hcopies, copy?_forget]

/-! ## All requests -/

/-- One request is answered as the layers answer it. -/
lemma Follows.serve (h : Follows l layers files) (hnow : now.IsReading) {request : SongRequest}
    (hproper : request.IsProper) : Agrees l layers now request := by
  cases request with
  | create name parts description => exact h.create hnow name parts description
  | find name => exact h.findNamed hproper now
  | save name => exact h.saveNamed hnow hproper
  | addPart name text => exact h.addPart hnow hproper text
  | delete name => exact h.delete hproper now

/-- Requests are answered one after the other as the layers answer them. -/
lemma Follows.serveAll (h : Follows l layers files) {requests : List (Timestamp × SongRequest)}
    (hproper : ∀ r ∈ requests, r.1.IsReading ∧ r.2.IsProper) :
    (l.serveAll requests).2 = (layers.serveAll l.directory requests).2 ∧
      ∃ files, Follows (l.serveAll requests).1 (layers.serveAll l.directory requests).1 files := by
  induction requests generalizing l layers files with
  | nil => exact ⟨rfl, files, h⟩
  | cons first rest ih =>
      obtain ⟨⟨hnow, hfirst⟩, hrest⟩ := List.forall_mem_cons.mp hproper
      obtain ⟨hanswer, hdirectory, files', hfollows⟩ := h.serve hnow hfirst
      obtain ⟨hanswers, hfollows'⟩ := ih hfollows hrest
      rw [hdirectory] at hanswers hfollows'
      exact ⟨congrArg₂ List.cons hanswer hanswers, hfollows'⟩

/-- What a library opened anew finds is what was saved. -/
lemma Follows.find_reopened (h : Follows l layers files) (hname : IsStorable name)
    (now : Timestamp) : (l.reopened.find now name).2 = .ok (layers.saved name) := by
  rw [h.saved name hname]
  cases hfile : files (fileName name) with
  | none => rw [h.keeps.reopened.find_of_none rfl hname.fits hfile]
  | some song => rw [h.keeps.reopened.find_of_file rfl hfile]

/-- A library that alone writes its directory answers every request as two layers of songs do, and
at any moment finds under a name what the layers have; opened anew, it finds what was saved. -/
theorem serves_as_layers (hnew : l.IsNew) {requests : List (Timestamp × SongRequest)}
    (hproper : ∀ r ∈ requests, r.1.IsReading ∧ r.2.IsProper) :
    (l.serveAll requests).2 = (SongLayers.empty.serveAll l.directory requests).2 ∧
      ∀ now name, IsStorable name →
        ((l.serveAll requests).1.find now name).2 =
          .ok ((SongLayers.empty.serveAll l.directory requests).1.current? name) ∧
        ((l.serveAll requests).1.reopened.find now name).2 =
          .ok ((SongLayers.empty.serveAll l.directory requests).1.saved name) := by
  obtain ⟨hanswers, files, hfollows⟩ := hnew.follows.serveAll hproper
  refine ⟨hanswers, fun now name hname => ⟨?_, hfollows.find_reopened hname now⟩⟩
  obtain ⟨l', hfind, -⟩ := hfollows.find hname now
  rw [hfind]

/-- A saved song is found as saved in a library opened anew, and with the part that was added since
in the one that is open. -/
theorem saved_song_found_beside_longer_copy :
    let noon : Timestamp := ⟨2024, 2, 29, 12, 0, 0, 0, some 0⟩
    let later : Timestamp := ⟨2024, 2, 29, 12, 30, 0, 250000, some 0⟩
    let requests : List (Timestamp × SongRequest) :=
      [(noon, .create "not a name" [] ""), (noon, .create "waltz" ["T60 O4 C4"] "slow"),
        (noon, .save "waltz"), (later, .addPart "waltz" "T60 O4 E4"), (later, .delete "march")]
    blank.IsNew ∧ (∀ r ∈ requests, r.1.IsReading ∧ r.2.IsProper) ∧ IsStorable "waltz" ∧
      ((blank.serveAll requests).1.find later "waltz").2 =
        .ok (some ⟨"song/v1", "waltz", "slow", noon, later, ["T60 O4 C4", "T60 O4 E4"],
          by decide +kernel⟩) ∧
      ((blank.serveAll requests).1.reopened.find later "waltz").2 =
        .ok (some ⟨"song/v1", "waltz", "slow", noon, noon, ["T60 O4 C4"], by decide +kernel⟩) := by
  intro noon later requests
  have hnoon : noon.IsReading := by constructor <;> decide
  have hlater : later.IsReading := by constructor <;> decide
  have hwaltz : IsStorable "waltz" := by constructor <;> decide +kernel
  have hmarch : IsStorable "march" := by constructor <;> decide +kernel
  have hproper : ∀ r ∈ requests, r.1.IsReading ∧ r.2.IsProper := by
    simp only [requests, List.forall_mem_cons, SongRequest.IsProper]
    exact ⟨⟨hnoon, trivial⟩, ⟨hnoon, trivial⟩, ⟨hnoon, hwaltz⟩, ⟨hlater, hwaltz⟩, ⟨hlater, hmarch⟩,
      List.forall_mem_nil _⟩
  obtain ⟨-, hfound⟩ := serves_as_layers isNew_blank hproper
  obtain ⟨hcurrent, hsaved⟩ := hfound later "waltz" hwaltz
  refine ⟨isNew_blank, hproper, hwaltz, ?_, ?_⟩
  · rw [hcurrent]
    exact congrArg Except.ok (by decide +kernel)
  · rw [hsaved]
    exact congrArg Except.ok (by decide +kernel)

/-- A song may have a name whose file name is too long.  The layers have nothing under it; the
library cannot look for its file and refuses the request. -/
theorem long_name_not_found :
    let noon : Timestamp := ⟨2024, 2, 29, 12, 0, 0, 0, some 0⟩
    let name := String.ofList (List.replicate 250 'a')
    blank.IsNew ∧ isSongName name = true ∧
      (SongLayers.empty.serve blank.directory noon (.find name)).2 = .ok (.found none) ∧
      (blank.serve noon (.find name)).2 =
        .error (.file ⟨.nameTooLong, blank.pathOf name⟩) := by
  intro noon name
  have hname : isSongName name = true := by
    rw [isSongName, String.toList_ofList]
    decide +kernel
  have hlong : FileTree.nameLimit < (fileName name).utf8ByteSize := by
    rw [fileName_of_isSongName hname, String.utf8ByteSize_append, String.utf8ByteSize_ofList]
    decide +kernel
  have hnull : '\x00' ∉ (fileName name).toList := by
    rw [fileName_of_isSongName hname, String.toList_append, String.toList_ofList]
    decide +kernel
  refine ⟨isNew_blank, hname, rfl, ?_⟩
  rw [serve, find_of_long rfl resolve_blank rfl hnull hlong]
  rfl

end SongLibrary

end MusicMacro
