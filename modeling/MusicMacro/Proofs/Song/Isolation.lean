import MusicMacro.Proofs.Song.Layers

/-!
# Where names meet

Working copies are kept by name and songs by file name, and names that differ in blanks and slashes
have one file.  A name without a working copy then borrows the song of another name
(`SongLibrary.Borrows`): what is found under it is that song, read anew and kept under its own name.
Names of songs borrow nothing and stay apart (`SongLibrary.song_names_apart`); other names reach the
library unchecked.
-/

namespace MusicMacro

namespace SongLibrary

variable {l l' : SongLibrary} {files : String → Option Song} {a b name text : String} {song : Song}
  {now : Timestamp}

/-- The song is saved: it is what a library opened anew finds under its name. -/
def IsSaved (l : SongLibrary) (song : Song) : Prop :=
  ∀ now, (l.reopened.find now song.name).2 = .ok (some song)

/-- The name has no working copy, and its file is that of a saved song of another name. -/
structure Borrows (l : SongLibrary) (name : String) (song : Song) : Prop where
  noCopy : l.copy? name = none
  shared : fileName song.name = fileName name
  other : song.name ≠ name
  saved : l.IsSaved song

/-- What is found under the name is the same in both libraries, and is the same in both when they
are opened anew. -/
def LeavesAlone (name : String) (l l' : SongLibrary) : Prop :=
  ∀ now, (l'.find now name).2 = (l.find now name).2 ∧
    (l'.reopened.find now name).2 = (l.reopened.find now name).2

/-! ## Saved songs -/

lemma Keeps.isSaved_iff (h : Keeps l files) :
    l.IsSaved song ↔ files (fileName song.name) = some song := by
  constructor
  · intro hsaved
    obtain ⟨found, hcopy, -⟩ | ⟨found, -, hfile, hfind⟩ | ⟨-, -, -, hnone⟩ :=
      h.reopened.find_cases ⟨0, 0, 0, 0, 0, 0, 0, none⟩ song.name
    · cases hcopy
    · have hfound := hsaved ⟨0, 0, 0, 0, 0, 0, 0, none⟩
      rw [hfind] at hfound
      obtain rfl := Option.some.inj (Except.ok.inj hfound)
      exact hfile
    · exact absurd (hsaved _) (hnone song)
  · intro hfile now
    rw [h.reopened.find_of_file rfl hfile]

/-- The song in a file is saved, under its own name. -/
lemma Keeps.file_iff (h : Keeps l files) :
    files (fileName name) = some song ↔ fileName song.name = fileName name ∧ l.IsSaved song := by
  rw [h.isSaved_iff]
  constructor
  · intro hfile
    have hname := (h.file _ song hfile).1
    exact ⟨hname, hname ▸ hfile⟩
  · rintro ⟨hname, hfile⟩
    rw [← hname, hfile]

lemma Keeps.borrows_iff (h : Keeps l files) : l.Borrows name song ↔
    l.copy? name = none ∧ files (fileName name) = some song ∧ song.name ≠ name := by
  rw [h.file_iff]
  constructor
  · rintro ⟨hcopy, hshared, hother, hsaved⟩
    exact ⟨hcopy, ⟨hshared, hsaved⟩, hother⟩
  · rintro ⟨hcopy, ⟨hshared, hsaved⟩, hother⟩
    exact ⟨hcopy, hshared, hother, hsaved⟩

/-- The name of a song borrows nothing. -/
lemma Borrows.not_isSongName (h : l.Borrows name song) : isSongName name = false := by
  rw [← Bool.not_eq_true]
  exact fun hvalid => h.other (fileName_injective song.name_valid hvalid h.shared)

/-- Under a name a song of another name is found if and only if the name borrows it. -/
lemma Keeps.found_iff_borrows (h : Keeps l files) :
    (l.find now name).2 = .ok (some song) ∧ song.name ≠ name ↔ l.Borrows name song := by
  rw [h.borrows_iff]
  obtain ⟨found, hcopy, hfind⟩ | ⟨found, hcopy, hfile, hfind⟩ | ⟨hcopy, hfile, -, hnone⟩ :=
    h.find_cases now name
  · rw [hfind, hcopy]
    constructor
    · rintro ⟨hfound, hother⟩
      obtain rfl := Option.some.inj (Except.ok.inj hfound)
      exact absurd (h.copy name _ hcopy).1 hother
    · rintro ⟨⟨⟩, -⟩
  · rw [hfind, hcopy, hfile, Except.ok.injEq]
    exact (and_iff_right rfl).symm
  · rw [hfile]
    constructor
    · rintro ⟨hfound, -⟩
      exact absurd hfound (hnone song)
    · rintro ⟨-, ⟨⟩, -⟩

/-! ## What changes the copies only -/

lemma load_snd (l : SongLibrary) (now : Timestamp) (path : Path) : (l.load now path).2 =
    (l.readDocument path).bind fun d => (Song.ofDocument now d).mapError .song := by
  unfold load
  split
  · rename_i hread
    rw [hread]
  · rename_i hread
    rw [hread]

lemma load_snd_congr (h : l'.reopened = l.reopened) (now : Timestamp) (path : Path) :
    (l'.load now path).2 = (l.load now path).2 := by
  have hread : l'.readDocument path = l.readDocument path := by
    unfold readDocument
    rw [tree_of_reopened h]
  rw [load_snd, load_snd, hread]

/-- Without a change of the files, what is found under a name changes with its working copy. -/
lemma find_snd_congr (h : l'.reopened = l.reopened) (hcopy : l'.copy? name = l.copy? name)
    (now : Timestamp) : (l'.find now name).2 = (l.find now name).2 := by
  have hload := load_snd_congr h now (l.pathOf name)
  unfold find
  rw [hcopy, tree_of_reopened h, pathOf_of_reopened h]
  generalize l'.load now (l.pathOf name) = loaded' at hload ⊢
  generalize l.load now (l.pathOf name) = loaded at hload ⊢
  cases l.copy? name with
  | some song => rfl
  | none =>
      cases l.tree.holds (l.pathOf name) with
      | error e => rfl
      | ok stands =>
          cases stands with
          | false => rfl
          | true => exact congrArg (Except.map some) hload

/-- Without a change of the files, a name with the same working copy is left alone. -/
lemma leavesAlone_of_copy_eq (h : l'.reopened = l.reopened)
    (hcopy : l'.copy? name = l.copy? name) : LeavesAlone name l l' := by
  intro now
  rw [h]
  exact ⟨find_snd_congr h hcopy now, rfl⟩

/-- Without a change of the files, a name with a working copy is left alone if that was found under
it before. -/
lemma leavesAlone_iff_of_copy (h : l'.reopened = l.reopened) (hcopy : l'.copy? name = some song) :
    LeavesAlone name l l' ↔ ∀ now, (l.find now name).2 = .ok (some song) := by
  apply forall_congr'
  intro now
  rw [h, find_of_copy hcopy, and_iff_left rfl, eq_comm]

/-- Keeping a song changes what is found under its own name only. -/
lemma leavesAlone_keep_iff (l : SongLibrary) (song : Song) (name : String) :
    LeavesAlone name l (l.keep song) ↔
      (song.name = name → ∀ now, (l.find now name).2 = .ok (some song)) := by
  by_cases hname : song.name = name
  · have hcopy : (l.keep song).copy? name = some song := by
      rw [copy?_keep, if_pos hname.symm]
    exact (leavesAlone_iff_of_copy (reopened_keep l song) hcopy).trans (imp_iff_right hname).symm
  · refine iff_of_true (leavesAlone_of_copy_eq rfl ?_) fun heq => absurd heq hname
    rw [copy?_keep, if_neg (Ne.symm hname)]

/-- Under the name of the song in a file is found its working copy, or else that song. -/
lemma Keeps.find_saved_iff (h : Keeps l files) (hfile : files (fileName name) = some song)
    {other : Song} : (∀ now, (l.find now song.name).2 = .ok (some other)) ↔
      (l.copy? song.name).getD song = other := by
  have hname := (h.file _ song hfile).1
  have hfind : ∀ now, (l.find now song.name).2 = .ok (some ((l.copy? song.name).getD song)) := by
    intro now
    cases hcopy : l.copy? song.name with
    | some copy => rw [find_of_copy hcopy, Option.getD_some]
    | none => rw [h.find_of_file hcopy (hname ▸ hfile), Option.getD_none]
  constructor
  · intro hall
    have hother := hall ⟨0, 0, 0, 0, 0, 0, 0, none⟩
    rw [hfind] at hother
    exact Option.some.inj (Except.ok.inj hother)
  · rintro rfl now
    exact hfind now

/-- Finding a name changes another one only by taking back what was done to the song that it
borrows. -/
lemma Keeps.leavesAlone_find_iff (h : Keeps l files) (now : Timestamp) (hne : a ≠ b) :
    LeavesAlone b l (l.find now a).1 ↔
      ∀ song, l.Borrows a song → song.name = b → ∀ copy, l.copy? b = some copy → copy = song := by
  simp only [h.borrows_iff]
  obtain ⟨found, hcopy, hfind⟩ | ⟨found, hcopy, hfile, hfind⟩ | ⟨hcopy, hfile, hfind, -⟩ :=
    h.find_cases now a
  · rw [hfind, hcopy]
    refine iff_of_true (leavesAlone_of_copy_eq rfl rfl) ?_
    rintro song ⟨⟨⟩, -⟩
  · rw [hfind, leavesAlone_keep_iff, hcopy, hfile]
    constructor
    · rintro hleft song ⟨-, ⟨⟩, -⟩ rfl copy hb
      have hsame := (h.find_saved_iff hfile).mp (hleft rfl)
      rw [hb, Option.getD_some] at hsame
      exact hsame
    · rintro hcopies rfl
      apply (h.find_saved_iff hfile).mpr
      cases hb : l.copy? found.name with
      | none => rfl
      | some copy => exact hcopies found ⟨rfl, rfl, hne.symm⟩ rfl copy hb
  · rw [hfind, hfile]
    refine iff_of_true (leavesAlone_of_copy_eq rfl rfl) ?_
    rintro song ⟨-, ⟨⟩, -⟩

lemma parts_withPart_ne (song : Song) (now : Timestamp) (text : String) :
    song.withPart now text ≠ song := by
  intro heq
  have hparts : song.parts ++ [text] = song.parts := congrArg Song.parts heq
  simp at hparts

/-- Adding a part under a name changes another one if the part goes to the song that the first name
borrows. -/
lemma Keeps.leavesAlone_addPart_iff (h : Keeps l files) (now : Timestamp) (hne : a ≠ b) :
    LeavesAlone b l (l.addPart now a text).1 ↔
      ∀ song, l.Borrows a song → song.name = b → l.copy? b = some (song.withPart now text) := by
  simp only [h.borrows_iff]
  obtain ⟨found, hcopy, hfind⟩ | ⟨found, hcopy, hfile, hfind⟩ | ⟨hcopy, hfile, hfind, hnone⟩ :=
    h.find_cases now a
  · have hname : (found.withPart now text).name ≠ b := (h.copy a found hcopy).1.trans_ne hne
    rw [addPart_of_some hfind, leavesAlone_keep_iff, hcopy]
    refine iff_of_true (fun heq => absurd heq hname) ?_
    rintro song ⟨⟨⟩, -⟩
  · have hkept : ∀ other, ((l.keep found).keep (found.withPart now text)).copy? other =
        if other = found.name then some (found.withPart now text) else l.copy? other := by
      intro other
      rw [copy?_keep, copy?_keep]
      change (if other = found.name then _ else if other = found.name then _ else _) = _
      split <;> rfl
    rw [addPart_of_some hfind, hcopy, hfile]
    by_cases hname : found.name = b
    · subst hname
      have hlonger := (hkept found.name).trans (if_pos rfl)
      rw [leavesAlone_iff_of_copy (l := l) (reopened_keep (l.keep found) _) hlonger,
        h.find_saved_iff hfile]
      constructor
      · rintro hsame song ⟨-, ⟨⟩, -⟩ -
        cases hb : l.copy? found.name with
        | none =>
            rw [hb, Option.getD_none] at hsame
            exact absurd hsame.symm (parts_withPart_ne found now text)
        | some copy =>
            rw [hb, Option.getD_some] at hsame
            rw [hsame]
      · intro hcopies
        rw [hcopies found ⟨rfl, rfl, hne.symm⟩ rfl, Option.getD_some]
    · refine iff_of_true (leavesAlone_of_copy_eq rfl ?_) ?_
      · rw [hkept, if_neg (Ne.symm hname)]
      · rintro song ⟨-, ⟨⟩, -⟩ heq
        exact absurd heq hname
  · rw [addPart_of_not_found hnone, hfind, hfile]
    refine iff_of_true (leavesAlone_of_copy_eq rfl rfl) ?_
    rintro song ⟨-, ⟨⟩, -⟩

/-! ## What changes the files -/

/-- Where the directory stands, what is found under a name depends on its working copy and on its
file alone. -/
lemma Keeps.find_snd_of_file {files' : String → Option Song} {place : Place} (h : Keeps l files)
    (h' : Keeps l' files') (hdirectory : l'.directory = l.directory)
    (hresolve : l.tree.resolve l.directory = .ok place)
    (hplace : l.tree.entry? place = some .directory)
    (htree : l.tree.KeepsDirectories l'.tree) (hcopy : l'.copy? name = l.copy? name)
    (hfile : files' (fileName name) = files (fileName name)) (now : Timestamp) :
    (l'.find now name).2 = (l.find now name).2 := by
  have hresolve' : l'.tree.resolve l'.directory = .ok place := by
    rw [hdirectory]
    exact htree.resolve hresolve
  have hplace' := htree.directory place hplace
  cases hname : l.copy? name with
  | some song => rw [find_of_copy hname, find_of_copy (hcopy.trans hname)]
  | none =>
      have hname' := hcopy.trans hname
      cases hsong : files (fileName name) with
      | some song => rw [h.find_of_file hname hsong, h'.find_of_file hname' (hfile.trans hsong)]
      | none =>
          by_cases hnull : '\x00' ∈ (fileName name).toList
          · rw [find_of_null hname hresolve hplace hnull,
              find_of_null hname' hresolve' hplace' hnull]
          · by_cases hshort : (fileName name).utf8ByteSize ≤ FileTree.nameLimit
            · rw [h.find_of_none hname ⟨hnull, hshort⟩ hsong,
                h'.find_of_none hname' ⟨hnull, hshort⟩ (hfile.trans hsong)]
            · have hlong := Nat.lt_of_not_le hshort
              rw [find_of_long hname hresolve hplace hnull hlong,
                find_of_long hname' hresolve' hplace' hnull hlong, pathOf, hdirectory, pathOf]

/-- Deleting a name changes another one if a saved song has the file that both lead to. -/
lemma Keeps.leavesAlone_delete_iff (h : Keeps l files) (hne : a ≠ b) :
    LeavesAlone b l (l.delete a).1 ↔
      ∀ song, l.IsSaved song → fileName song.name = fileName a → fileName b ≠ fileName a := by
  cases hfile : files (fileName a) with
  | none =>
      rw [h.delete_nothing hfile]
      refine iff_of_true (leavesAlone_of_copy_eq rfl ?_) fun song hsaved hname => ?_
      · rw [copy?_forget, if_neg hne.symm]
      · rw [h.file_iff.mpr ⟨hname, hsaved⟩] at hfile
        cases hfile
  | some song =>
      obtain ⟨hname, hsaved⟩ := h.file_iff.mp hfile
      obtain ⟨place, -, hshelf, -⟩ := h.exists_shelved hfile
      have htree := l.delete_keepsDirectories a
      obtain ⟨l', hdelete, hdirectory, hcopies, hkeeps⟩ := h.delete_of_file hfile
      rw [hdelete] at htree ⊢
      by_cases hsame : fileName b = fileName a
      · refine iff_of_false (fun hleft => ?_) fun hall => hall song hsaved hname hsame
        have hgone : Function.update files (fileName a) none (fileName b) = none := by
          rw [hsame, Function.update_self]
        have hbefore : l.reopened.find song.modified b =
            (l.reopened.keep song, .ok (some song)) :=
          h.reopened.find_of_file rfl (by rw [hsame, hfile])
        have hafter := (hleft song.modified).2
        rw [hbefore] at hafter
        exact (hkeeps.reopened.find_nothing rfl hgone).2 song hafter
      · have hkept : Function.update files (fileName a) none (fileName b) = files (fileName b) :=
          Function.update_of_ne hsame ..
        have hcopy : l'.copy? b = l.copy? b := by
          rw [copy?_of_copies hcopies, copy?_forget, if_neg hne.symm]
        refine iff_of_true (fun now => ⟨?_, ?_⟩) fun _ _ _ => hsame
        · exact h.find_snd_of_file hkeeps hdirectory hshelf.resolve hshelf.isDirectory htree hcopy
            hkept now
        · exact h.reopened.find_snd_of_file hkeeps.reopened hdirectory hshelf.resolve
            hshelf.isDirectory htree rfl hkept now

/-! ## Names apart -/

/-- Names of songs stay apart: what is found under one has that name, and finding, adding to or
deleting one leaves the others alone. -/
theorem song_names_apart (hreached : l.IsReached) (ha : isSongName a = true)
    (hb : isSongName b = true) (hne : a ≠ b) (now : Timestamp) (text : String) :
    (∀ song, (l.find now a).2 = .ok (some song) → song.name = a) ∧
      LeavesAlone b l (l.find now a).1 ∧ LeavesAlone b l (l.addPart now a text).1 ∧
        LeavesAlone b l (l.delete a).1 := by
  obtain ⟨files, h⟩ := hreached.keeps
  have hborrows : ∀ song, ¬ l.Borrows a song := by
    intro song hsong
    rw [hsong.not_isSongName] at ha
    cases ha
  refine ⟨fun song hfound => ?_, ?_, ?_, ?_⟩
  · by_cases hname : song.name = a
    · exact hname
    · exact absurd (h.found_iff_borrows.mp ⟨hfound, hname⟩) (hborrows song)
  · exact (h.leavesAlone_find_iff now hne).mpr fun song hsong => absurd hsong (hborrows song)
  · exact (h.leavesAlone_addPart_iff now hne).mpr fun song hsong => absurd hsong (hborrows song)
  · exact (h.leavesAlone_delete_iff hne).mpr fun _ _ _ hfile =>
      hne (fileName_injective hb ha hfile).symm

/-- In every library that is reached, whatever the names: what is found under a name is a song
of another one exactly when the name borrows it, and of two names, finding, adding to or deleting
the one changes what is found under the other exactly where the two meet in a file. -/
theorem names_meet_in_files (hreached : l.IsReached) (hne : a ≠ b) (now : Timestamp)
    (text : String) :
    (∀ song, (l.find now a).2 = .ok (some song) ∧ song.name ≠ a ↔ l.Borrows a song) ∧
    (LeavesAlone b l (l.find now a).1 ↔
      ∀ song, l.Borrows a song → song.name = b →
        ∀ copy, l.copy? b = some copy → copy = song) ∧
    (LeavesAlone b l (l.addPart now a text).1 ↔
      ∀ song, l.Borrows a song → song.name = b → l.copy? b = some (song.withPart now text)) ∧
    (LeavesAlone b l (l.delete a).1 ↔
      ∀ song, l.IsSaved song → fileName song.name = fileName a → fileName b ≠ fileName a) := by
  obtain ⟨files, h⟩ := hreached.keeps
  exact ⟨fun song => h.found_iff_borrows, h.leavesAlone_find_iff now hne,
    h.leavesAlone_addPart_iff now hne, h.leavesAlone_delete_iff hne⟩

/-- With a blank for the `_` in its name a saved song is found as saved.  That takes back a part
added to its working copy, and deleting it by that name removes its file. -/
theorem blank_meets_underscore :
    let noon : Timestamp := ⟨2024, 2, 29, 12, 0, 0, 0, some 0⟩
    let later : Timestamp := ⟨2024, 2, 29, 12, 30, 0, 250000, some 0⟩
    let saved : Song := ⟨"song/v1", "x_y", "", noon, noon, ["T60 O4 C4"], by decide +kernel⟩
    let requests : List (Timestamp × SongRequest) :=
      [(noon, .create "x_y" ["T60 O4 C4"] ""), (noon, .save "x_y"),
        (later, .addPart "x_y" "T60 O4 E4")]
    let l := (blank.serveAll requests).1
    l.IsReached ∧ "x y" ≠ "x_y" ∧ (l.find later "x y").2 = .ok (some saved) ∧
      ¬ LeavesAlone "x_y" l (l.find later "x y").1 ∧
      ¬ LeavesAlone "x_y" l (l.addPart later "x y" "T60 O4 G4").1 ∧
      ¬ LeavesAlone "x_y" l (l.delete "x y").1 := by
  intro noon later saved requests l
  have hnoon : noon.IsReading := by constructor <;> decide
  have hlater : later.IsReading := by constructor <;> decide
  have hstorable : IsStorable "x_y" := by constructor <;> decide +kernel
  have hproper : ∀ r ∈ requests, r.1.IsReading ∧ r.2.IsProper := by
    simp only [requests, List.forall_mem_cons, SongRequest.IsProper]
    exact ⟨⟨hnoon, trivial⟩, ⟨hnoon, hstorable⟩, ⟨hlater, hstorable⟩, List.forall_mem_nil _⟩
  have hreached : l.IsReached := (IsReached.new isNew_blank).serveAll fun r hr => (hproper r hr).1
  have hborrows : l.Borrows "x y" saved := by
    refine ⟨by decide +kernel, by decide +kernel, by decide, fun now => ?_⟩
    obtain ⟨-, files, hfollows⟩ := isNew_blank.follows.serveAll hproper
    rw [hfollows.find_reopened hstorable now]
    exact congrArg Except.ok (by decide +kernel)
  have hcopy : l.copy? "x_y" = some (saved.withPart later "T60 O4 E4") := by decide +kernel
  obtain ⟨hfound, hfind, haddPart, hdelete⟩ :=
    names_meet_in_files hreached (by decide : "x y" ≠ "x_y") later "T60 O4 G4"
  refine ⟨hreached, by decide, ((hfound saved).mpr hborrows).1, ?_, ?_, ?_⟩
  · rw [hfind]
    exact fun h => parts_withPart_ne _ _ _ (h saved hborrows rfl _ hcopy)
  · rw [haddPart]
    intro h
    have hsame := h saved hborrows rfl
    rw [hcopy] at hsame
    revert hsame
    decide +kernel
  · rw [hdelete]
    exact fun h => h saved hborrows.saved hborrows.shared (by decide +kernel)

end SongLibrary

end MusicMacro
