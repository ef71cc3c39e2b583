import Mathlib.Tactic.Lemma
import MusicMacro.Proofs.Computation
import MusicMacro.Proofs.Text.Pieces
import MusicMacro.Storage.FileTree

/-!
# What operations on a tree change

Writing and removing a file change what stands at one place (`FileTree.Sets`), and making
directories puts directories where nothing stood (`FileTree.Grows`).  No operation takes a directory
away (`FileTree.KeepsDirectories`), so a path that leads somewhere leads there ever after
(`FileTree.KeepsDirectories.resolve`).

Where a path is continued by a name, it leads from the directory of the path to the place of that
name (`FileTree.resolve_extend`), unless the name is too long or has a null character in it.  Where
several names lead depends on the names alone, if they lead anywhere (`FileTree.follow`).
-/

namespace MusicMacro

/-! ## Looking up -/

section

variable {α β : Type} [BEq α] [LawfulBEq α] {key k : α} {value : β}

lemma lookup_cons_ne {rest : List (α × β)} (h : key ≠ k) :
    ((k, value) :: rest).lookup key = rest.lookup key := by
  have hk : (key == k) = false := beq_eq_false_iff_ne.mpr h
  rw [List.lookup_cons, hk]

lemma lookup_filter_ne [DecidableEq α] (entries : List (α × β)) :
    (entries.filter (·.1 ≠ k)).lookup key = if key = k then none else entries.lookup key := by
  induction entries with
  | nil => simp
  | cons first rest ih =>
      obtain ⟨r, e⟩ := first
      rw [List.filter_cons]
      by_cases hr : r = k
      · rw [if_neg (by simpa using hr), ih, hr]
        by_cases h : key = k
        · rw [if_pos h, if_pos h]
        · rw [if_neg h, if_neg h, lookup_cons_ne h]
      · rw [if_pos (by simpa using hr)]
        by_cases h : key = r
        · rw [h, if_neg hr, List.lookup_cons_self, List.lookup_cons_self]
        · rw [lookup_cons_ne h, lookup_cons_ne h]
          exact ih

end

/-! ## Names in a directory -/

/-- No text with an ending is shorter than the ending. -/
lemma append_ne_of_length_lt {text ending short : String}
    (h : short.toList.length < ending.toList.length) : text ++ ending ≠ short := by
  rintro rfl
  rw [String.toList_append, List.length_append] at h
  omega

/-- A text without a slash is a single name. -/
lemma Path.ofText_of_noSlash {text : String} (hslash : '/' ∉ text.toList) (hempty : text ≠ "")
    (hpoint : text ≠ ".") : Path.ofText text = ⟨.relative, [text]⟩ := by
  have hstart : text.toList.takeWhile (· = '/') = [] := by
    cases hchars : text.toList with
    | nil => rfl
    | cons c rest =>
        rw [hchars, List.mem_cons, not_or] at hslash
        exact List.takeWhile_cons_of_neg (by simpa using Ne.symm hslash.1)
  have hnames : (pieces '/' text.toList).filter (fun name => name ≠ [] && name ≠ ['.']) =
      [text.toList] := by
    rw [pieces_of_not_mem hslash, List.filter_cons, if_pos, List.filter_nil]
    simp only [Bool.and_eq_true, decide_eq_true_eq]
    exact ⟨fun h => hempty (String.toList_inj.mp h), fun h => hpoint (String.toList_inj.mp h)⟩
  simp only [Path.ofText, hstart, hnames, List.map_cons, List.map_nil, String.ofList_toList]
  rfl

/-- Under a path, a text without a slash continues it by a name. -/
lemma Path.child_of_noSlash (base : Path) {text : String} (hslash : '/' ∉ text.toList)
    (hempty : text ≠ "") (hpoint : text ≠ ".") :
    base.child text = ⟨base.start, base.names ++ [text]⟩ := by
  rw [Path.child, Path.ofText_of_noSlash hslash hempty hpoint]
  rfl

/-- A text with an ending of more than one character ends in a name with that ending. -/
lemma Path.exists_names_ofText (text : String) {ending : String} (hslash : '/' ∉ ending.toList)
    (hlong : 1 < ending.toList.length) : ∃ init last,
      (Path.ofText (text ++ ending)).names = init ++ [last] ∧ ending.toList <:+ last.toList := by
  obtain ⟨init, last, -, hpieces⟩ := exists_pieces_append hslash text.toList
  have hlast : (last ++ ending.toList ≠ [] && last ++ ending.toList ≠ ['.']) = true := by
    simp only [Bool.and_eq_true, decide_eq_true_eq]
    constructor <;>
    · intro h
      have hlength := congrArg List.length h
      simp only [List.length_append, List.length_cons, List.length_nil] at hlength
      omega
  refine ⟨(init.filter fun name => name ≠ [] && name ≠ ['.']).map String.ofList,
    String.ofList (last ++ ending.toList), ?_, ?_⟩
  · rw [Path.ofText, String.toList_append, hpieces, List.filter_append, List.filter_cons,
      if_pos hlast, List.filter_nil, List.map_append, List.map_cons, List.map_nil]
  · rw [String.toList_ofList]
    exact List.suffix_append _ _

namespace FileTree

variable {t t' t'' : FileTree} {p : Path} {place q : Place} {entry : TreeEntry}
  {stands? : Option TreeEntry} {content : Content}

/-! ## One place -/

lemma lookup_putEntry (entries : List (Place × TreeEntry)) :
    (putEntry place entry entries).lookup q =
      if q = place then some entry else entries.lookup q := by
  induction entries with
  | nil =>
      rw [putEntry]
      by_cases h : q = place
      · rw [if_pos h, h, List.lookup_cons_self]
      · rw [if_neg h, lookup_cons_ne h]
  | cons first rest ih =>
      obtain ⟨r, e⟩ := first
      rw [putEntry]
      by_cases hr : r = place
      · rw [if_pos hr, hr]
        by_cases h : q = place
        · rw [if_pos h, h, List.lookup_cons_self]
        · rw [if_neg h, lookup_cons_ne h, lookup_cons_ne h]
      · rw [if_neg hr]
        by_cases h : q = r
        · rw [h, if_neg hr, List.lookup_cons_self, List.lookup_cons_self]
        · rw [lookup_cons_ne h, lookup_cons_ne h]
          exact ih

/-- The trees agree but for one place, and `stands?` is what the second one has there. -/
structure Sets (t : FileTree) (place : Place) (stands? : Option TreeEntry) (t' : FileTree) :
    Prop where
  home : t'.home = t.home
  entry : ∀ q, t'.entry? q = if q = place then stands? else t.entry? q

/-- What is a directory in the first tree is one in the second. -/
structure KeepsDirectories (t t' : FileTree) : Prop where
  home : t'.home = t.home
  directory : ∀ q, t.entry? q = some .directory → t'.entry? q = some .directory

lemma Sets.at_place (h : t.Sets place stands? t') : t'.entry? place = stands? := by
  rw [h.entry, if_pos rfl]

lemma Sets.of_ne (h : t.Sets place stands? t') (hq : q ≠ place) : t'.entry? q = t.entry? q := by
  rw [h.entry, if_neg hq]

lemma Sets.keepsDirectories (h : t.Sets place stands? t')
    (hplace : t.entry? place ≠ some .directory) : t.KeepsDirectories t' := by
  refine ⟨h.home, fun q hq => ?_⟩
  rw [h.of_ne, hq]
  rintro rfl
  exact hplace hq

lemma ne_nil_of_entry?_ne (h : t.entry? place ≠ some .directory) : place ≠ [] := by
  rintro rfl
  exact h rfl

lemma sets_putEntry (t : FileTree) (writings : Nat) (h : place ≠ []) :
    t.Sets place (some entry) ⟨putEntry place entry t.entries, t.home, writings⟩ := by
  refine ⟨rfl, fun q => ?_⟩
  rw [FileTree.entry?, FileTree.entry?]
  by_cases hq : q = []
  · subst hq
    rw [if_pos rfl, if_neg h.symm, if_pos rfl]
  · rw [if_neg hq, if_neg hq, lookup_putEntry]

lemma sets_filter (t : FileTree) (h : place ≠ []) :
    t.Sets place none ⟨t.entries.filter (·.1 ≠ place), t.home, t.writings⟩ := by
  refine ⟨rfl, fun q => ?_⟩
  rw [FileTree.entry?, FileTree.entry?]
  by_cases hq : q = []
  · subst hq
    rw [if_pos rfl, if_neg h.symm, if_pos rfl]
  · rw [if_neg hq, if_neg hq, lookup_filter_ne]

/-! ## Files -/

lemma holds_of_resolve (h : t.resolve p = .ok place) : t.holds p = .ok (t.entry? place).isSome := by
  rw [holds, h]

lemma holds_of_some (h : t.resolve p = .ok place) (hplace : t.entry? place = some entry) :
    t.holds p = .ok true := by
  rw [holds_of_resolve h, hplace, Option.isSome_some]

lemma holds_of_none (h : t.resolve p = .ok place) (hplace : t.entry? place = none) :
    t.holds p = .ok false := by
  rw [holds_of_resolve h, hplace, Option.isSome_none]

lemma content_of_resolve (h : t.resolve p = .ok place) {written : Nat}
    (hfile : t.entry? place = some (.file content written)) : t.content p = .ok content := by
  rw [FileTree.content, h, ok_bind, hfile]

/-- Writing where no directory stands puts a file there. -/
lemma exists_write_eq_ok (h : t.resolve p = .ok place) (hplace : t.entry? place ≠ some .directory) :
    ∃ t', t.write p content = .ok t' ∧ t.Sets place (some (.file content t.writings)) t' := by
  rw [write, h, ok_bind]
  split
  · contradiction
  · exact ⟨_, rfl, sets_putEntry t _ (ne_nil_of_entry?_ne hplace)⟩

lemma write_eq_ok (h : t.write p content = .ok t') :
    ∃ place, t.resolve p = .ok place ∧ t.entry? place ≠ some .directory ∧
      t.Sets place (some (.file content t.writings)) t' := by
  unfold write at h
  obtain ⟨place, hresolve, h⟩ := bind_eq_ok h
  refine ⟨place, hresolve, ?_⟩
  split at h
  · cases h
  · rename_i hplace
    obtain rfl := Except.ok.inj h
    exact ⟨hplace, sets_putEntry t _ (ne_nil_of_entry?_ne hplace)⟩

lemma exists_remove_eq_ok (h : t.resolve p = .ok place) {written : Nat}
    (hfile : t.entry? place = some (.file content written)) :
    ∃ t', t.remove p = .ok t' ∧ t.Sets place none t' := by
  rw [remove, h, ok_bind, hfile]
  refine ⟨_, rfl, sets_filter t (ne_nil_of_entry?_ne (t := t) ?_)⟩
  rw [hfile]
  nofun

lemma remove_eq_ok (h : t.remove p = .ok t') :
    ∃ place, t.resolve p = .ok place ∧ t.entry? place ≠ some .directory ∧ t.Sets place none t' := by
  unfold remove at h
  obtain ⟨place, hresolve, h⟩ := bind_eq_ok h
  refine ⟨place, hresolve, ?_⟩
  split at h
  · cases h
  · cases h
  · rename_i hfile
    obtain rfl := Except.ok.inj h
    have hplace : t.entry? place ≠ some .directory := by
      rw [hfile]
      nofun
    exact ⟨hplace, sets_filter t (ne_nil_of_entry?_ne hplace)⟩

/-! ## Directories -/

/-- The second tree has directories where nothing stood in the first one, and is otherwise the
same. -/
structure Grows (t t' : FileTree) : Prop where
  home : t'.home = t.home
  entry : ∀ q, t'.entry? q = t.entry? q ∨ t.entry? q = none ∧ t'.entry? q = some .directory

lemma Grows.refl (t : FileTree) : t.Grows t := ⟨rfl, fun _ => .inl rfl⟩

lemma Grows.of_some (h : t.Grows t') (hq : t.entry? q = some entry) : t'.entry? q = some entry := by
  obtain heq | ⟨hnone, -⟩ := h.entry q
  · rw [heq, hq]
  · rw [hnone] at hq
    cases hq

lemma Grows.trans (h : t.Grows t') (h' : t'.Grows t'') : t.Grows t'' := by
  refine ⟨h'.home.trans h.home, fun q => ?_⟩
  obtain heq | ⟨hnone, hdirectory⟩ := h.entry q
  · rw [← heq]
    exact h'.entry q
  · exact .inr ⟨hnone, h'.of_some hdirectory⟩

lemma Grows.keepsDirectories (h : t.Grows t') : t.KeepsDirectories t' :=
  ⟨h.home, fun _ => h.of_some⟩

lemma KeepsDirectories.trans (h : t.KeepsDirectories t') (h' : t'.KeepsDirectories t'') :
    t.KeepsDirectories t'' :=
  ⟨h'.home.trans h.home, fun q hq => h'.directory q (h.directory q hq)⟩

lemma makeDirectory_eq_ok (h : t.makeDirectory p = .ok t') :
    t.Grows t' ∧ ∃ place, t.resolve p = .ok place ∧ t'.entry? place = some .directory := by
  unfold makeDirectory at h
  obtain ⟨place, hresolve, h⟩ := bind_eq_ok h
  split at h
  · rename_i hnone
    obtain rfl := Except.ok.inj h
    have hplace : place ≠ [] := by
      apply ne_nil_of_entry?_ne (t := t)
      rw [hnone]
      nofun
    have hsets : t.Sets place (some .directory)
        ⟨putEntry place .directory t.entries, t.home, t.writings⟩ :=
      sets_putEntry t t.writings hplace
    refine ⟨⟨rfl, fun q => ?_⟩, place, hresolve, hsets.at_place⟩
    by_cases hq : q = place
    · rw [hq]
      exact .inr ⟨hnone, hsets.at_place⟩
    · exact .inl (hsets.of_ne hq)
  · rename_i hdirectory
    obtain rfl := Except.ok.inj h
    exact ⟨.refl t, place, hresolve, hdirectory⟩
  · cases h

lemma makeDirectory_of_directory (h : t.resolve p = .ok place)
    (hplace : t.entry? place = some .directory) : t.makeDirectory p = .ok t := by
  rw [makeDirectory, h, ok_bind, hplace]

/-! ## Following a path -/

lemma walk_append (names more : List String) :
    t.walk place (names ++ more) = t.walk place names >>= (t.walk · more) := by
  induction names generalizing place with
  | nil => rfl
  | cons name rest ih =>
      rw [List.cons_append, walk, walk]
      split
      · rfl
      · rfl
      · split
        · exact ih
        · split
          · rfl
          · exact ih

/-- A name leads out of a directory to the place of that name, unless it is too long. -/
lemma walk_name {name : String} (hname : name ≠ "..") (h : t.entry? place = some .directory) :
    t.walk place [name] =
      if nameLimit < name.utf8ByteSize then .error .nameTooLong else .ok (place ++ [name]) := by
  rw [walk, h]
  simp only [if_neg hname, walk]

lemma KeepsDirectories.walk (h : t.KeepsDirectories t') {names : List String}
    (hwalk : t.walk place names = .ok q) : t'.walk place names = .ok q := by
  induction names generalizing place with
  | nil => exact hwalk
  | cons name rest ih =>
      rw [FileTree.walk] at hwalk ⊢
      split at hwalk
      · cases hwalk
      · cases hwalk
      · rename_i hdirectory
        simp only [h.directory place hdirectory]
        by_cases hup : name = ".."
        · rw [if_pos hup] at hwalk ⊢
          exact ih hwalk
        · rw [if_neg hup] at hwalk ⊢
          by_cases hlong : nameLimit < name.utf8ByteSize
          · rw [if_pos hlong] at hwalk
            cases hwalk
          · rw [if_neg hlong] at hwalk ⊢
            exact ih hwalk

/-- Growing changes where names lead only where they led nowhere for want of a directory. -/
lemma Grows.walk (h : t.Grows t') (place : Place) (names : List String) :
    t.walk place names = t'.walk place names ∨ t.walk place names = .error .missing := by
  induction names generalizing place with
  | nil => exact .inl rfl
  | cons name rest ih =>
      rw [FileTree.walk, FileTree.walk]
      obtain heq | ⟨hnone, -⟩ := h.entry place
      · rw [heq]
        split
        · exact .inl rfl
        · exact .inl rfl
        · split
          · exact ih _
          · split
            · exact .inl rfl
            · exact ih _
      · rw [hnone]
        exact .inr rfl

lemma KeepsDirectories.resolve (h : t.KeepsDirectories t') (hresolve : t.resolve p = .ok place) :
    t'.resolve p = .ok place := by
  unfold FileTree.resolve at hresolve ⊢
  split
  · rw [if_pos ‹_›] at hresolve
    cases hresolve
  · rw [if_neg ‹_›] at hresolve
    rw [h.home, h.walk (mapError_eq_ok hresolve), mapError_ok]

lemma Grows.resolve (h : t.Grows t') (p : Path) :
    t.resolve p = t'.resolve p ∨ t.resolve p = .error ⟨.missing, p⟩ := by
  rw [FileTree.resolve, FileTree.resolve, h.home]
  split
  · exact .inl rfl
  · obtain heq | hmissing := h.walk (if p.isAbsolute then [] else t.home) p.names
    · rw [heq]
      exact .inl rfl
    · rw [hmissing]
      exact .inr rfl

/-- What is missing after growing was missing before. -/
lemma Grows.holds_of_none (h : t.Grows t') (hresolve : t'.resolve p = .ok place)
    (hplace : t'.entry? place = none) : t.holds p = .ok false := by
  obtain heq | hmissing := h.resolve p
  · have hnone : t.entry? place = none := by
      obtain hsame | ⟨hnone, -⟩ := h.entry place
      · rw [← hsame, hplace]
      · exact hnone
    exact FileTree.holds_of_none (heq.trans hresolve) hnone
  · rw [holds, hmissing]
    rfl

/-- A name that a file may have. -/
structure FitsName (name : String) : Prop where
  noNull : '\x00' ∉ name.toList
  short : name.utf8ByteSize ≤ nameLimit

lemma isAbsolute_extend (p : Path) (name : String) :
    Path.isAbsolute ⟨p.start, p.names ++ [name]⟩ = p.isAbsolute := rfl

/-- A path continued by a name leads where the name leads from the place of the path. -/
lemma resolve_extend (name : String) :
    t.resolve ⟨p.start, p.names ++ [name]⟩ =
      if p.names.any (·.toList.contains '\x00') || name.toList.contains '\x00' then
        .error ⟨.nullByte, ⟨p.start, p.names ++ [name]⟩⟩
      else (t.walk (if p.isAbsolute then [] else t.home) p.names >>= (t.walk · [name])).mapError
        (⟨·, ⟨p.start, p.names ++ [name]⟩⟩) := by
  rw [FileTree.resolve, isAbsolute_extend, walk_append, List.any_append, List.any_cons,
    List.any_nil, Bool.or_false]

lemma resolve_eq_ok (h : t.resolve p = .ok place) :
    p.names.any (·.toList.contains '\x00') = false ∧
      t.walk (if p.isAbsolute then [] else t.home) p.names = .ok place := by
  unfold FileTree.resolve at h
  split at h
  · cases h
  · exact ⟨Bool.eq_false_iff.mpr ‹_›, mapError_eq_ok h⟩

/-- From a directory a name leads to its place there, and only a name that no file may have leads
nowhere. -/
lemma resolve_child {name : String} (hname : name ≠ "..") (h : t.resolve p = .ok place)
    (hplace : t.entry? place = some .directory) :
    t.resolve ⟨p.start, p.names ++ [name]⟩ =
      if '\x00' ∈ name.toList then .error ⟨.nullByte, ⟨p.start, p.names ++ [name]⟩⟩
      else if nameLimit < name.utf8ByteSize then
        .error ⟨.nameTooLong, ⟨p.start, p.names ++ [name]⟩⟩
      else .ok (place ++ [name]) := by
  obtain ⟨hnull, hwalk⟩ := resolve_eq_ok h
  rw [resolve_extend, hnull, Bool.false_or, hwalk, ok_bind, walk_name hname hplace]
  simp only [List.contains_iff_mem]
  split
  · rfl
  · split <;> rfl

lemma resolve_child_of_fits {name : String} (hname : name ≠ "..") (h : t.resolve p = .ok place)
    (hplace : t.entry? place = some .directory) (hfits : FitsName name) :
    t.resolve ⟨p.start, p.names ++ [name]⟩ = .ok (place ++ [name]) := by
  rw [resolve_child hname h hplace, if_neg hfits.noNull, if_neg (Nat.not_lt.mpr hfits.short)]

/-- A path that ends in a name leads somewhere only through the directory before it. -/
lemma resolve_child_eq_ok {name : String} (hname : name ≠ "..")
    (h : t.resolve ⟨p.start, p.names ++ [name]⟩ = .ok q) :
    ∃ place, t.resolve p = .ok place ∧ t.entry? place = some .directory ∧ FitsName name ∧
      q = place ++ [name] := by
  obtain ⟨hnull, hwalk⟩ := resolve_eq_ok h
  rw [List.any_append, Bool.or_eq_false_iff] at hnull
  rw [walk_append] at hwalk
  obtain ⟨place, hplace, hlast⟩ := bind_eq_ok hwalk
  have hresolve : t.resolve p = .ok place := by
    rw [FileTree.resolve, hnull.1, if_neg Bool.false_ne_true]
    rw [isAbsolute_extend] at hplace
    rw [hplace, mapError_ok]
  have hdirectory : t.entry? place = some .directory := by
    rw [FileTree.walk] at hlast
    split at hlast
    · cases hlast
    · cases hlast
    · assumption
  rw [walk_name hname hdirectory] at hlast
  split at hlast
  · cases hlast
  · refine ⟨place, hresolve, hdirectory, ⟨?_, Nat.not_lt.mp ‹_›⟩, (Except.ok.inj hlast).symm⟩
    simpa using hnull.2

/-! ## Making directories -/

lemma made_grows (t : FileTree) (p : Path) :
    t.Grows (makeToDepth.made t (t.makeDirectory p)).1 := by
  cases h : t.makeDirectory p with
  | error e => exact .refl t
  | ok made => exact (makeDirectory_eq_ok h).1

lemma made_eq_none (h : makeToDepth.made t (t.makeDirectory p) = (t', none)) :
    ∃ place, t'.resolve p = .ok place ∧ t'.entry? place = some .directory := by
  cases hmake : t.makeDirectory p with
  | error e =>
      rw [hmake] at h
      cases h
  | ok made =>
      rw [hmake] at h
      obtain rfl := congrArg Prod.fst h
      obtain ⟨hgrows, place, hresolve, hplace⟩ := makeDirectory_eq_ok hmake
      exact ⟨place, hgrows.keepsDirectories.resolve hresolve, hplace⟩

lemma makeToDepth_grows (t : FileTree) (p : Path) (depth : Nat) :
    t.Grows (t.makeToDepth p depth).1 := by
  induction depth generalizing t with
  | zero => exact made_grows t _
  | succ depth ih =>
      have hfirst := made_grows t ⟨p.start, p.names.take (depth + 1)⟩
      rw [makeToDepth]
      split
      · rename_i made e hmade
        rw [hmade] at hfirst
        split
        · have hbefore := ih made
          split
          · rename_i deeper hdeeper
            rw [hdeeper] at hbefore
            exact (hfirst.trans hbefore).trans (made_grows deeper _)
          · exact hfirst.trans hbefore
        · exact hfirst
      · exact hfirst

/-- The last attempt is always at the whole path. -/
lemma makeToDepth_eq_none {depth : Nat} (h : t.makeToDepth p depth = (t', none)) :
    ∃ place, t'.resolve ⟨p.start, p.names.take depth⟩ = .ok place ∧
      t'.entry? place = some .directory := by
  cases depth with
  | zero => exact made_eq_none h
  | succ depth =>
      rw [makeToDepth] at h
      split at h
      · split at h
        · split at h
          · exact made_eq_none h
          · rename_i failed
            exact absurd h (failed _)
        · cases h
      · exact made_eq_none h

lemma makeDirectories_grows (t : FileTree) (p : Path) : t.Grows (t.makeDirectories p).1 :=
  makeToDepth_grows t p p.names.length

lemma makeDirectories_eq_none (h : t.makeDirectories p = (t', none)) :
    ∃ place, t'.resolve p = .ok place ∧ t'.entry? place = some .directory := by
  obtain ⟨place, hplace⟩ := makeToDepth_eq_none h
  rw [List.take_length] at hplace
  exact ⟨place, hplace⟩

lemma makeDirectories_of_directory (h : t.resolve p = .ok place)
    (hplace : t.entry? place = some .directory) : t.makeDirectories p = (t, none) := by
  have hmade : makeToDepth.made t (t.makeDirectory ⟨p.start, p.names.take p.names.length⟩) =
      (t, none) := by
    rw [List.take_length, makeDirectory_of_directory h hplace, makeToDepth.made]
  rw [makeDirectories]
  generalize p.names.length = depth at hmade ⊢
  cases depth with
  | zero => exact hmade
  | succ depth => rw [makeToDepth, hmade]

/-! ## Where names lead -/

/-- Where names lead from a place, if they lead anywhere: double points go back one name. -/
def follow (place : Place) (names : List String) : Place :=
  names.foldl (fun p name => if name = ".." then p.dropLast else p ++ [name]) place

lemma follow_append (place : Place) (names more : List String) :
    follow place (names ++ more) = follow (follow place names) more :=
  List.foldl_append

lemma follow_name {name : String} (h : name ≠ "..") (place : Place) :
    follow place [name] = place ++ [name] :=
  if_neg h

lemma walk_eq_ok {names : List String} (h : t.walk place names = .ok q) :
    q = follow place names := by
  induction names generalizing place with
  | nil => exact (Except.ok.inj h).symm
  | cons name rest ih =>
      rw [FileTree.walk] at h
      split at h
      · cases h
      · cases h
      · rw [follow, List.foldl_cons]
        by_cases hup : name = ".."
        · rw [if_pos hup] at h ⊢
          exact ih h
        · rw [if_neg hup] at h ⊢
          split at h
          · cases h
          · exact ih h

/-! ## Changes to files -/

/-- The file at a place, if one stands there. -/
def fileAt? (t : FileTree) (place : Place) : Option (Content × Nat) :=
  match t.entry? place with
  | some (.file content written) => some (content, written)
  | _ => none

/-- A file is made, written or removed at a place.  Writing what the file held before is told by the
time of the writing. -/
def Touches (t t' : FileTree) (place : Place) : Prop := t'.fileAt? place ≠ t.fileAt? place

/-- Directories are made, and then a file is written or removed where the path leads. -/
def EditsAt (t t' : FileTree) (p : Path) (place : Place) : Prop :=
  ∃ made stands?, t.Grows made ∧ made.resolve p = .ok place ∧
    made.entry? place ≠ some .directory ∧ made.Sets place stands? t'

lemma Grows.fileAt?_eq (h : t.Grows t') (q : Place) : t'.fileAt? q = t.fileAt? q := by
  unfold fileAt?
  obtain heq | ⟨hnone, hdirectory⟩ := h.entry q
  · rw [heq]
  · rw [hnone, hdirectory]

lemma Grows.not_touches (h : t.Grows t') (q : Place) : ¬ t.Touches t' q :=
  not_not_intro (h.fileAt?_eq q)

lemma Sets.trans {stands?' : Option TreeEntry} (h : t.Sets place stands? t')
    (h' : t'.Sets place stands?' t'') : t.Sets place stands?' t'' := by
  refine ⟨h'.home.trans h.home, fun q => ?_⟩
  by_cases hq : q = place
  · rw [hq, h'.at_place, if_pos rfl]
  · rw [h'.of_ne hq, h.of_ne hq, if_neg hq]

/-- An edit touches no file but the one where the path leads. -/
lemma EditsAt.eq_of_touches (h : t.EditsAt t' p place) (htouches : t.Touches t' q) :
    q = place := by
  obtain ⟨made, stands?, hgrows, -, -, hsets⟩ := h
  by_cases hq : q = place
  · exact hq
  · refine absurd ?_ htouches
    rw [← hgrows.fileAt?_eq, fileAt?, hsets.of_ne hq, fileAt?]

lemma EditsAt.keepsDirectories (h : t.EditsAt t' p place) : t.KeepsDirectories t' := by
  obtain ⟨made, stands?, hgrows, -, hplace, hsets⟩ := h
  exact hgrows.keepsDirectories.trans (hsets.keepsDirectories hplace)

lemma EditsAt.resolve (h : t.EditsAt t' p place) : t'.resolve p = .ok place := by
  obtain ⟨made, stands?, -, hresolve, hplace, hsets⟩ := h
  exact (hsets.keepsDirectories hplace).resolve hresolve

end FileTree

end MusicMacro
