import Mathlib.Data.List.Forall2
import MusicMacro.Proofs.Computation
import MusicMacro.Score

/-!
# Which scores are read

A document describes an event if its entries do, one by one, and no check refuses them
(`Event.Given.IsDescribedBy`); then this is the event that is read, and no other document gives it
(`Event.ofDocument_eq_ok_iff`).  A part and a score are described by their own entries and the
documents in them (`Score.ofDocument_eq_ok_iff`), so that all is known of the texts that are read as
scores.

The checks refuse a duration that is at most zero and a start below zero.  What is not a number is
neither, so it passes, as duration and as start, and it is all that passes wrongly
(`score_events_valid_iff`).  The index of a part, the stop of an event and the failed indices are
not checked; they may be anything at all.
-/

namespace MusicMacro

/-- A traversal succeeds with what its elements succeed with, one by one. -/
lemma mapM_eq_ok_iff_forall₂ {α β ε : Type} {f : α → Except ε β} {xs : List α} {ys : List β} :
    xs.mapM f = .ok ys ↔ List.Forall₂ (fun x y => f x = .ok y) xs ys := by
  rw [mapM_eq_ok_iff, ← List.forall₂_eq_eq_eq, List.forall₂_map_left_iff,
    List.forall₂_map_right_iff]

/-- Of two lists related one by one, what the second has is related to something in the first. -/
lemma exists_of_forall₂ {α β : Type} {R : α → β → Prop} {xs : List α} {ys : List β} {y : β}
    (h : List.Forall₂ R xs ys) (hy : y ∈ ys) : ∃ x ∈ xs, R x y := by
  induction h with
  | nil => cases hy
  | cons hxy _ ih => grind

/-! ## Numbers against a whole one -/

namespace Number

lemma compare?_whole (n : Number) (k : Int) :
    n.compare? (.whole k) = ((whole k).compare? n).map Ordering.swap := by
  cases n with
  | whole m => exact congrArg some (Std.OrientedCmp.eq_swap)
  | real x => rfl

lemma compare?_eq_none_iff {n : Number} {k : Int} :
    (whole k).compare? n = none ↔ n = .real .nan := by
  cases n with
  | whole m => exact iff_of_false (by nofun) (by nofun)
  | real x =>
      cases x with
      | nan => exact iff_of_true rfl rfl
      | _ => exact iff_of_false (by nofun) (by nofun)

/-- A number that is not at most another one is greater, if it is one. -/
lemma less_iff_of_not_atMost {n : Number} {k : Int} (h : n.atMost (.whole k) = false) :
    (whole k).less n = true ↔ n ≠ .real .nan := by
  rw [atMost, compare?_whole] at h
  rw [less, ne_eq, ← @compare?_eq_none_iff n k]
  generalize (whole k).compare? n = order at h ⊢
  rcases order with _ | _ | _ | _
  · decide
  · decide
  · cases h
  · cases h

/-- A number that is not less than another one is at least that, if it is one. -/
lemma atMost_iff_of_not_less {n : Number} {k : Int} (h : n.less (.whole k) = false) :
    (whole k).atMost n = true ↔ n ≠ .real .nan := by
  rw [less, compare?_whole] at h
  rw [atMost, ne_eq, ← @compare?_eq_none_iff n k]
  generalize (whole k).compare? n = order at h ⊢
  rcases order with _ | _ | _ | _
  · decide
  · decide
  · decide
  · cases h

end Number

/-! ## What entries describe -/

namespace Document

/-- The entry of a key. -/
def Has (d : Document) (key : String) (given : Document) : Prop :=
  ∃ entries, d = .map entries ∧ lookup? key entries = some given

/-- The entry of a key has these items. -/
def HasItems (d : Document) (key : String) (given : List Document) : Prop :=
  ∃ list, d.Has key list ∧ list.items = .ok given

/-- The entry of a key, or else the default. -/
def HasD (d : Document) (key : String) (default given : Document) : Prop :=
  ∃ entries, d = .map entries ∧ (lookup? key entries).getD default = given

/-- The entry of a key has these items; there are none if the map has no such entry. -/
def HasItemsD (d : Document) (key : String) (given : List Document) : Prop :=
  ∃ list, d.HasD key (.list []) list ∧ list.items = .ok given

/-- The document is the mark of a rest, or else a whole number from zero on or a truth value. -/
def MeansIndex : Document → Option Nat → Prop
  | .text s, index => s = restMark ∧ index = none
  | .whole n, index => 0 ≤ n ∧ index = some n.toNat
  | .bool b, index => index = some b.toNat
  | _, _ => False

variable {d default given : Document} {key : String}

lemma require_eq_ok_iff : d.require key = .ok given ↔ d.Has key given := by
  cases d with
  | map entries =>
      rw [require, Has]
      cases hkey : lookup? key entries with
      | none => simp [hkey]
      | some found => simp [hkey]
  | _ => exact iff_of_false (by nofun) (by rintro ⟨_, ⟨⟩, -⟩)

lemma entryD_eq_ok_iff : d.entryD key default = .ok given ↔ d.HasD key default given := by
  cases d with
  | map entries => simp [entryD, HasD]
  | _ => exact iff_of_false (by nofun) (by rintro ⟨_, ⟨⟩, -⟩)

lemma toIndex_eq_ok_iff {index : Option Nat} :
    d.toIndex = .ok index ↔ d.MeansIndex index := by
  cases d with
  | text s =>
      rw [toIndex, MeansIndex]
      split <;> simp_all [eq_comm]
  | whole n =>
      rw [toIndex, MeansIndex]
      split
      · exact iff_of_false (by nofun) (by omega)
      · simp_all [eq_comm]
  | bool b => simp [toIndex, MeansIndex, eq_comm]
  | _ => exact iff_of_false (by nofun) id

lemma ordered_eq_ok_iff {relation : String} {number : Number} :
    d.ordered relation = .ok number ↔ d.number? = some number := by
  rw [ordered]
  cases d.number? with
  | none => exact iff_of_false (by nofun) (by nofun)
  | some n => simp

lemma number?_eq_real_iff {x : Double} : d.number? = some (.real x) ↔ d = .real x := by
  cases d with
  | real y => simp [number?]
  | _ => exact iff_of_false (by nofun) (by nofun)

end Document

/-! ## Events -/

namespace Event

/-- The document describes the event by its entries.  There are as many indices as frequencies, all
of them indices, and the times are not refused; the stop is any document. -/
structure Given.IsDescribedBy (e : Given) (d : Document) : Prop where
  indices : d.HasItems "indices" e.indices
  frequencies : ∃ given, d.HasItems "frequencies" given ∧
    List.Forall₂ (fun g x => g.toReal = .ok x) given e.frequencies
  start : d.Has "start" e.start
  duration : d.Has "duration" e.duration
  stop : d.Has "stop" e.stop
  parallel : e.indices.length = e.frequencies.length
  means_index : ∀ given ∈ e.indices, ∃ index, given.MeansIndex index
  not_below : ∃ n, e.start.number? = some n ∧ n.less (.whole 0) = false
  not_atMost : ∃ n, e.duration.number? = some n ∧ n.atMost (.whole 0) = false

/-- Indices and frequencies are parallel, each index means a rest or a whole number from zero on,
the duration is positive and the start is not below zero. -/
structure Given.IsValid (e : Given) : Prop where
  parallel : e.indices.length = e.frequencies.length
  means_index : ∀ given ∈ e.indices, ∃ index, given.MeansIndex index
  duration : ∃ n, e.duration.number? = some n ∧ (Number.whole 0).less n = true
  start : ∃ n, e.start.number? = some n ∧ (Number.whole 0).atMost n = true

lemma checkDuration_eq_ok_iff {given : Document} {duration : Number} :
    checkDuration given duration = .ok () ↔ duration.atMost (.whole 0) = false := by
  rw [checkDuration]
  split <;> simp_all

lemma checkStart_eq_ok_iff {given : Document} {start : Number} :
    checkStart given start = .ok () ↔ start.less (.whole 0) = false := by
  rw [checkStart]
  split <;> simp_all

lemma exists_mapM_toIndex_iff {given : List Document} :
    (∃ indices, given.mapM Document.toIndex = .ok indices) ↔
      ∀ g ∈ given, ∃ index, g.MeansIndex index := by
  simp only [← Document.toIndex_eq_ok_iff]
  constructor
  · rintro ⟨indices, hindices⟩ g hg
    exact exists_ok_of_mapM hindices hg
  · exact exists_mapM_eq_ok

lemma Given.IsDescribedBy.of_ofDocument {d : Document} {e : Given} (h : ofDocument d = .ok e) :
    e.IsDescribedBy d := by
  unfold ofDocument at h
  obtain ⟨indexList, hindexList, h⟩ := bind_eq_ok h
  obtain ⟨indices, hindices, h⟩ := bind_eq_ok h
  obtain ⟨realList, hrealList, h⟩ := bind_eq_ok h
  obtain ⟨givenReals, hgivenReals, h⟩ := bind_eq_ok h
  obtain ⟨reals, hreals, h⟩ := bind_eq_ok h
  obtain ⟨start, hstart, h⟩ := bind_eq_ok h
  obtain ⟨duration, hduration, h⟩ := bind_eq_ok h
  obtain ⟨stop, hstop, h⟩ := bind_eq_ok h
  split at h
  · cases h
  rename_i hparallel
  obtain ⟨-, -, h⟩ := bind_eq_ok h
  obtain ⟨lasts, hlasts, h⟩ := bind_eq_ok h
  obtain ⟨⟨⟩, hpositive, h⟩ := bind_eq_ok h
  obtain ⟨starts, hstarts, h⟩ := bind_eq_ok h
  obtain ⟨⟨⟩, hnotBelow, h⟩ := bind_eq_ok h
  obtain ⟨means, hmeans, h⟩ := bind_eq_ok h
  obtain rfl := Except.ok.inj h
  exact {
    indices := ⟨indexList, Document.require_eq_ok_iff.mp hindexList, hindices⟩
    frequencies := ⟨givenReals, ⟨realList, Document.require_eq_ok_iff.mp hrealList, hgivenReals⟩,
      mapM_eq_ok_iff_forall₂.mp hreals⟩
    start := Document.require_eq_ok_iff.mp hstart
    duration := Document.require_eq_ok_iff.mp hduration
    stop := Document.require_eq_ok_iff.mp hstop
    parallel := not_not.mp hparallel
    means_index := exists_mapM_toIndex_iff.mp ⟨means, hmeans⟩
    not_below := ⟨starts, Document.ordered_eq_ok_iff.mp hstarts,
      checkStart_eq_ok_iff.mp (mapError_eq_ok hnotBelow)⟩
    not_atMost := ⟨lasts, Document.ordered_eq_ok_iff.mp hlasts,
      checkDuration_eq_ok_iff.mp (mapError_eq_ok hpositive)⟩ }

lemma Given.IsDescribedBy.ofDocument_eq {d : Document} {e : Given} (h : e.IsDescribedBy d) :
    ofDocument d = .ok e := by
  obtain ⟨indexList, hindexList, hindices⟩ := h.indices
  obtain ⟨givenReals, ⟨realList, hrealList, hgivenReals⟩, hreals⟩ := h.frequencies
  obtain ⟨starts, hstarts, hnotBelow⟩ := h.not_below
  obtain ⟨lasts, hlasts, hpositive⟩ := h.not_atMost
  obtain ⟨means, hmeans⟩ := exists_mapM_toIndex_iff.mpr h.means_index
  unfold ofDocument
  rw [Document.require_eq_ok_iff.mpr hindexList, Document.require_eq_ok_iff.mpr hrealList,
    Document.require_eq_ok_iff.mpr h.start, Document.require_eq_ok_iff.mpr h.duration,
    Document.require_eq_ok_iff.mpr h.stop]
  simp only [ok_bind, hindices, hgivenReals, mapM_eq_ok_iff_forall₂.mpr hreals,
    if_neg (not_not_intro h.parallel), Document.ordered_eq_ok_iff.mpr hlasts,
    checkDuration_eq_ok_iff.mpr hpositive, Document.ordered_eq_ok_iff.mpr hstarts,
    checkStart_eq_ok_iff.mpr hnotBelow, mapError_ok, hmeans]
  rfl

/-- **What a document is read as.**  An event is read from a document exactly if the document
describes it. -/
theorem ofDocument_eq_ok_iff {d : Document} {e : Given} :
    ofDocument d = .ok e ↔ e.IsDescribedBy d :=
  ⟨Given.IsDescribedBy.of_ofDocument, Given.IsDescribedBy.ofDocument_eq⟩

/-- A described event is valid if its times are numbers. -/
lemma Given.IsDescribedBy.isValid_iff {d : Document} {e : Given} (h : e.IsDescribedBy d) :
    e.IsValid ↔ e.duration ≠ .real .nan ∧ e.start ≠ .real .nan := by
  obtain ⟨starts, hstarts, hnotBelow⟩ := h.not_below
  obtain ⟨lasts, hlasts, hpositive⟩ := h.not_atMost
  have hduration := Number.less_iff_of_not_atMost hpositive
  have hstart := Number.atMost_iff_of_not_less hnotBelow
  rw [ne_eq, ne_eq, ← Document.number?_eq_real_iff, ← Document.number?_eq_real_iff, hlasts, hstarts,
    Option.some.injEq, Option.some.injEq, ← ne_eq, ← ne_eq, ← hduration, ← hstart]
  constructor
  · intro hvalid
    obtain ⟨n, hn, hless⟩ := hvalid.duration
    obtain rfl := Option.some.inj (hn.symm.trans hlasts)
    obtain ⟨m, hm, hatMost⟩ := hvalid.start
    obtain rfl := Option.some.inj (hm.symm.trans hstarts)
    exact ⟨hless, hatMost⟩
  · rintro ⟨hless, hatMost⟩
    exact ⟨h.parallel, h.means_index, ⟨lasts, hlasts, hless⟩, starts, hstarts, hatMost⟩

end Event

/-! ## Scores -/

/-- The document describes the part by its entries and each event by a document of its own. -/
structure ScorePart.Given.IsDescribedBy (p : ScorePart.Given) (d : Document) : Prop where
  index : d.Has "index" p.index
  source : d.HasD "source" (.text "") p.source
  events : ∃ given, d.HasItemsD "events" given ∧
    List.Forall₂ (fun g e => e.IsDescribedBy g) given p.events

/-- The document describes the score by its entries and each part by a document of its own. -/
structure Score.Given.IsDescribedBy (s : Score.Given) (d : Document) : Prop where
  schema : d.HasD "schema" (.text schemaVersion) s.schema
  name : d.HasD "name" (.text "") s.name
  parts : ∃ given, d.HasItemsD "parts" given ∧
    List.Forall₂ (fun g p => p.IsDescribedBy g) given s.parts
  failed : d.HasItemsD "failed" s.failed

lemma ScorePart.ofDocument_eq_ok_iff {d : Document} {p : ScorePart.Given} :
    ofDocument d = .ok p ↔ p.IsDescribedBy d := by
  unfold ofDocument
  constructor
  · intro h
    obtain ⟨index, hindex, h⟩ := bind_eq_ok h
    obtain ⟨source, hsource, h⟩ := bind_eq_ok h
    obtain ⟨list, hlist, h⟩ := bind_eq_ok h
    obtain ⟨given, hgiven, h⟩ := bind_eq_ok h
    obtain ⟨events, hevents, h⟩ := bind_eq_ok h
    obtain rfl := Except.ok.inj h
    exact ⟨Document.require_eq_ok_iff.mp hindex, Document.entryD_eq_ok_iff.mp hsource, given,
      ⟨list, Document.entryD_eq_ok_iff.mp hlist, hgiven⟩,
      (mapM_eq_ok_iff_forall₂.mp hevents).imp fun _ _ => Event.ofDocument_eq_ok_iff.mp⟩
  · rintro ⟨hindex, hsource, given, ⟨list, hlist, hgiven⟩, hevents⟩
    have hread : given.mapM Event.ofDocument = .ok p.events :=
      mapM_eq_ok_iff_forall₂.mpr (hevents.imp fun _ _ => Event.ofDocument_eq_ok_iff.mpr)
    rw [Document.require_eq_ok_iff.mpr hindex, Document.entryD_eq_ok_iff.mpr hsource,
      Document.entryD_eq_ok_iff.mpr hlist]
    simp only [ok_bind, hgiven, hread]
    rfl

namespace Score

/-- **What is read as a score.**  A score is read from a document exactly if the document describes
it. -/
theorem ofDocument_eq_ok_iff {d : Document} {s : Given} :
    ofDocument d = .ok s ↔ s.IsDescribedBy d := by
  unfold ofDocument
  constructor
  · intro h
    obtain ⟨schema, hschema, h⟩ := bind_eq_ok h
    obtain ⟨name, hname, h⟩ := bind_eq_ok h
    obtain ⟨list, hlist, h⟩ := bind_eq_ok h
    obtain ⟨given, hgiven, h⟩ := bind_eq_ok h
    obtain ⟨parts, hparts, h⟩ := bind_eq_ok h
    obtain ⟨failedList, hfailedList, h⟩ := bind_eq_ok h
    obtain ⟨failed, hfailed, h⟩ := bind_eq_ok h
    obtain rfl := Except.ok.inj h
    exact ⟨Document.entryD_eq_ok_iff.mp hschema, Document.entryD_eq_ok_iff.mp hname,
      ⟨given, ⟨list, Document.entryD_eq_ok_iff.mp hlist, hgiven⟩,
        (mapM_eq_ok_iff_forall₂.mp hparts).imp fun _ _ => ScorePart.ofDocument_eq_ok_iff.mp⟩,
      failedList, Document.entryD_eq_ok_iff.mp hfailedList, hfailed⟩
  · rintro ⟨hschema, hname, ⟨given, ⟨list, hlist, hgiven⟩, hparts⟩, failedList, hfailedList,
      hfailed⟩
    have hread : given.mapM ScorePart.ofDocument = .ok s.parts :=
      mapM_eq_ok_iff_forall₂.mpr (hparts.imp fun _ _ => ScorePart.ofDocument_eq_ok_iff.mpr)
    rw [Document.entryD_eq_ok_iff.mpr hschema, Document.entryD_eq_ok_iff.mpr hname,
      Document.entryD_eq_ok_iff.mpr hlist, Document.entryD_eq_ok_iff.mpr hfailedList]
    simp only [ok_bind, hgiven, hread, hfailed]
    rfl

lemma ofJson_eq_ok_iff {text : String} {s : Given} :
    ofJson text = .ok s ↔ ∃ d, Document.ofJson text = .ok d ∧ s.IsDescribedBy d := by
  rw [ofJson]
  cases hd : Document.ofJson text with
  | error e => exact iff_of_false (by nofun) (by rintro ⟨_, ⟨⟩, -⟩)
  | ok d =>
      constructor
      · exact fun h => ⟨d, rfl, ofDocument_eq_ok_iff.mp (mapError_eq_ok h)⟩
      · rintro ⟨_, ⟨⟩, hdescribed⟩
        exact congrArg (·.mapError ReadError.form) (ofDocument_eq_ok_iff.mpr hdescribed)

/-- **Read events are valid but for what is not a number.**  Take any text that is read as a score.
Its document describes the score, and every event of every part by its own entries: as many indices
as frequencies, each index the mark of a rest or else a whole number from zero on or a truth value,
no duration of zero or less and no start below zero.  An event has all that is promised of events,
so also a positive duration and a start from zero on, exactly if neither of the two is the value
that is not a number. -/
theorem score_events_valid_iff {text : String} {s : Given} (h : ofJson text = .ok s) :
    ∃ d, Document.ofJson text = .ok d ∧ s.IsDescribedBy d ∧
      ∀ p ∈ s.parts, ∀ e ∈ p.events,
        (e.IsValid ↔ e.duration ≠ .real .nan ∧ e.start ≠ .real .nan) := by
  obtain ⟨d, hd, hdescribed⟩ := ofJson_eq_ok_iff.mp h
  refine ⟨d, hd, hdescribed, fun p hp e he => ?_⟩
  obtain ⟨_, -, hparts⟩ := hdescribed.parts
  obtain ⟨_, -, hpart⟩ := exists_of_forall₂ hparts hp
  obtain ⟨_, -, hevents⟩ := hpart.events
  obtain ⟨_, -, hevent⟩ := exists_of_forall₂ hevents he
  exact hevent.isValid_iff

/-- One event of three has a duration that is not a number and one such a start; only the other one
is valid.  Its stop is nothing, and a text stands in the place of the index of the part and among
the failed indices. -/
theorem events_read_with_times_that_are_no_numbers :
    let event (start duration stop : String) : String :=
      "\x7b\"indices\":[39],\"frequencies\":[440],\"start\":" ++ start ++ ",\"duration\":" ++
        duration ++ ",\"stop\":" ++ stop ++ "\x7d"
    let events := [event "0" "1" "null", event "1" "NaN" "1", event "NaN" "1" "1"]
    let text := "\x7b\"parts\":[\x7b\"index\":\"lead\",\"events\":[" ++
      String.intercalate "," events ++ "]\x7d],\"failed\":[\"bass\"]\x7d"
    ∃ s, ofJson text = .ok s ∧
      (s.parts.flatMap (·.events)).map (fun e => (e.start.number?, e.duration.number?)) =
        [(some (.whole 0), some (.whole 1)), (some (.whole 1), some (.real .nan)),
          (some (.real .nan), some (.whole 1))] ∧
      ∀ p ∈ s.parts, ∀ e ∈ p.events, (e.IsValid ↔ e.start.number? = some (.whole 0)) := by
  intro event events text
  have hread : (ofJson text).toOption.map (fun s =>
      (s.parts.flatMap (·.events)).map fun e => (e.start.number?, e.duration.number?)) =
        some [(some (.whole 0), some (.whole 1)), (some (.whole 1), some (.real .nan)),
          (some (.real .nan), some (.whole 1))] := by
    decide +kernel
  obtain ⟨s, hs, htimes⟩ := Option.map_eq_some_iff.mp hread
  have hs : ofJson text = .ok s := eq_ok_of_toOption hs
  obtain ⟨_, -, -, hvalid⟩ := score_events_valid_iff hs
  refine ⟨s, hs, htimes, fun p hp e he => ?_⟩
  have htime : (e.start.number?, e.duration.number?) ∈
      (s.parts.flatMap (·.events)).map (fun e => (e.start.number?, e.duration.number?)) :=
    List.mem_map_of_mem (List.mem_flatMap_of_mem hp he)
  rw [hvalid p hp e he, ne_eq, ne_eq, ← Document.number?_eq_real_iff,
    ← Document.number?_eq_real_iff]
  rw [htimes] at htime
  simp only [List.mem_cons, List.not_mem_nil, Prod.mk.injEq, or_false] at htime
  obtain ⟨hstart, hduration⟩ | ⟨hstart, hduration⟩ | ⟨hstart, hduration⟩ := htime <;>
    simp [hstart, hduration]

end Score

end MusicMacro
