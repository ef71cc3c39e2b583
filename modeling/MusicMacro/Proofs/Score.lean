import Mathlib.Data.List.Nodup
import MusicMacro.Proofs.Document.Json
import MusicMacro.Proofs.Notation.Events
import MusicMacro.Proofs.Score.Acceptance

/-!
# Scores read back

A score of compiled parts is read back from its JSON text with its parts and its failed indices in
order (`scores_read_back`), and the text depends on nothing else: scores that differ only in the
order of the two lists are written alike.

Three things carry the proof.  The document of such a score is plain, so that its text is read back
(`Score.IsCompiled.isPlain_toDocument`).  The document describes the score, for a compiled event
passes the checks that a described one has to pass (`Event.IsRegular.isDescribedBy_entries`), and
the values that are read are those of no other score (`Score.score?_given`).  And what a score
derives from its lists does not depend on their order (`Score.SameUpToOrder`).  Its length needs the
compiled times for that: `largest?` keeps the first of equal numbers, and only among doubles from
zero on are equal numbers the same (`Number.largest?_congr`).
-/

namespace MusicMacro

/-! ## Lists -/

section

variable {α β : Type} {xs ys : List α}

/-- What is made of each element, and read back as it, is read back as the list. -/
lemma mapM_map_eq_some {f : β → Option α} {g : α → β} (h : ∀ x, f (g x) = some x) (xs : List α) :
    (xs.map g).mapM f = some xs := by
  have hread : f ∘ g = pure := funext h
  rw [List.mapM_map, hread]
  exact List.mapM_pure.trans (congrArg some (List.map_id' xs))

lemma pairwise_mergeSort (key : α → Int) (xs : List α) :
    (xs.mergeSort fun a b => key a ≤ key b).Pairwise fun a b => key a ≤ key b := by
  refine (List.pairwise_mergeSort ?_ ?_ xs).imp of_decide_eq_true
  · simp only [decide_eq_true_eq]
    omega
  · simp only [Bool.or_eq_true, decide_eq_true_eq]
    omega

/-- A list is sorted the same way from every order if equal keys are those of one element. -/
lemma mergeSort_congr {key : α → Int} (h : xs.Perm ys)
    (hkey : ∀ a ∈ xs, ∀ b ∈ xs, key a = key b → a = b) :
    xs.mergeSort (fun a b => key a ≤ key b) = ys.mergeSort (fun a b => key a ≤ key b) := by
  have hperm := (List.mergeSort_perm xs fun a b => key a ≤ key b).trans
    (h.trans (List.mergeSort_perm ys fun a b => key a ≤ key b).symm)
  refine hperm.eq_of_pairwise (fun a b ha hb hab hba => ?_) (pairwise_mergeSort key xs)
    (pairwise_mergeSort key ys)
  exact hkey a (List.mem_mergeSort.mp ha) b (h.mem_iff.mpr (List.mem_mergeSort.mp hb))
    (Int.le_antisymm hab hba)

lemma min?_congr {xs ys : List Nat} (h : xs.Perm ys) : xs.min? = ys.min? := by
  refine Option.ext fun a => ?_
  rw [List.min?_eq_some_iff, List.min?_eq_some_iff, h.mem_iff]
  exact and_congr_right fun _ => forall_congr' fun b => imp_congr_left h.mem_iff

lemma max?_congr {xs ys : List Nat} (h : xs.Perm ys) : xs.max? = ys.max? := by
  refine Option.ext fun a => ?_
  rw [List.max?_eq_some_iff, List.max?_eq_some_iff, h.mem_iff]
  exact and_congr_right fun _ => forall_congr' fun b => imp_congr_left h.mem_iff

end

/-! ## Times -/

namespace Number

/-- The number is a double from zero on, as the times of compiled events are. -/
def IsTime (n : Number) : Prop := ∃ x : Double, x.IsUnsigned ∧ n = .real x

variable {a b : Number} {times others : List Number}

lemma IsTime.isPlain (ha : a.IsTime) : (Document.ofNumber a).IsPlain := by
  obtain ⟨x, -, rfl⟩ := ha
  exact .real x

lemma IsTime.less_iff (ha : a.IsTime) (hb : b.IsTime) : a.less b = true ↔ a.size < b.size := by
  obtain ⟨x, hx, rfl⟩ := ha
  obtain ⟨y, hy, rfl⟩ := hb
  exact hx.less_iff hy

lemma IsTime.atMost_iff (ha : a.IsTime) (hb : b.IsTime) : a.atMost b = true ↔ a.size ≤ b.size := by
  obtain ⟨x, hx, rfl⟩ := ha
  obtain ⟨y, hy, rfl⟩ := hb
  exact hx.atMost_iff hy

lemma IsTime.eq_of_size (ha : a.IsTime) (hb : b.IsTime) (h : a.size = b.size) : a = b := by
  obtain ⟨x, hx, rfl⟩ := ha
  obtain ⟨y, hy, rfl⟩ := hb
  exact congrArg _ (hx.eq_of_size hy h)

/-- The running largest is one of the times seen, and none of them is larger. -/
lemma foldl_larger (ha : a.IsTime) (htimes : ∀ t ∈ times, t.IsTime) :
    times.foldl (fun best b => if best.less b then b else best) a ∈ a :: times ∧
      ∀ t ∈ a :: times,
        t.size ≤ (times.foldl (fun best b => if best.less b then b else best) a).size := by
  induction times generalizing a with
  | nil => exact ⟨List.mem_cons_self, by simp⟩
  | cons b more ih =>
      obtain ⟨hb, hmore⟩ := List.forall_mem_cons.mp htimes
      have hless := ha.less_iff hb
      rw [List.foldl_cons]
      cases hcase : a.less b with
      | true =>
          rw [if_pos rfl]
          obtain ⟨hmem, hle⟩ := ih hb hmore
          have hbest := hle b List.mem_cons_self
          refine ⟨List.mem_cons_of_mem _ hmem, List.forall_mem_cons.mpr ⟨?_, hle⟩⟩
          have := hless.mp hcase
          omega
      | false =>
          rw [if_neg Bool.false_ne_true]
          obtain ⟨hmem, hle⟩ := ih ha hmore
          obtain ⟨hbest, hrest⟩ := List.forall_mem_cons.mp hle
          refine ⟨?_, List.forall_mem_cons.mpr ⟨hbest, List.forall_mem_cons.mpr ⟨?_, hrest⟩⟩⟩
          · rw [List.mem_cons] at hmem ⊢
            exact hmem.imp_right (List.mem_cons_of_mem _)
          · have : ¬a.size < b.size := fun hlt => by
              rw [hless.mpr hlt] at hcase
              cases hcase
            omega

lemma largest?_eq_some_iff (htimes : ∀ t ∈ times, t.IsTime) :
    largest? times = some a ↔ a ∈ times ∧ ∀ t ∈ times, t.size ≤ a.size := by
  cases times with
  | nil => simp [largest?]
  | cons b more =>
      obtain ⟨hb, hmore⟩ := List.forall_mem_cons.mp htimes
      obtain ⟨hmem, hle⟩ := foldl_larger hb hmore
      rw [largest?, Option.some.injEq]
      constructor
      · rintro rfl
        exact ⟨hmem, hle⟩
      · rintro ⟨hmem', hle'⟩
        exact (htimes _ hmem).eq_of_size (htimes _ hmem')
          (Nat.le_antisymm (hle' _ hmem) (hle _ hmem'))

/-- The largest of some times does not depend on their order. -/
lemma largest?_congr (htimes : ∀ t ∈ times, t.IsTime) (h : times.Perm others) :
    largest? times = largest? others := by
  refine Option.ext fun a => ?_
  rw [largest?_eq_some_iff htimes,
    largest?_eq_some_iff fun t ht => htimes t (h.mem_iff.mpr ht), h.mem_iff]
  exact and_congr_right fun _ => forall_congr' fun t => imp_congr_left h.mem_iff

end Number

/-! ## Events -/

namespace Event

variable {e : Event}

/-- The event is one of those that some directives are compiled to. -/
def IsCompiled (e : Event) : Prop :=
  ∃ directives events, compileDirectives directives = .ok events ∧ e ∈ events

lemma isCompiled_of_compileText {text : String} {events : List Event}
    (h : (compileText text).2 = .ok events) : ∀ e ∈ events, e.IsCompiled := by
  obtain ⟨directives, hcompiled⟩ := exists_directives_of_compileText h
  exact fun e he => ⟨directives, events, hcompiled, he⟩

lemma IsCompiled.isRegular (h : e.IsCompiled) : e.IsRegular := by
  obtain ⟨_, _, hcompiled, he⟩ := h
  exact compileDirectives_isRegular hcompiled e he

lemma decimalLength_le_digitLimit {i : Nat} (h : (i : Int) < powerLimit) :
    decimalLength i ≤ digitLimit := by
  have hlimit : powerLimit = 12288 := rfl
  have hdigits : digitLimit = 4300 := rfl
  rcases Nat.eq_zero_or_pos i with rfl | hpos
  · decide +kernel
  · have hpower := pow_decimalLength_le hpos
    have hsmall : 10 ^ (decimalLength i - 1) < 10 ^ 5 := by omega
    have := (Nat.pow_lt_pow_iff_right (by decide)).mp hsmall
    omega

lemma toIndex_indexDocument (index? : Option Nat) :
    (indexDocument index?).toIndex = .ok index? := by
  cases index? with
  | none => rfl
  | some i =>
      show (if (i : Int) < 0 then Except.error (.event (.index (.whole i))) else
        .ok (some (i : Int).toNat) : Except FormError (Option Nat)) = _
      rw [if_neg (Int.not_lt.mpr (Int.natCast_nonneg i))]
      rfl

lemma zipWith_positions (e : Event) :
    List.zipWith Position.mk e.indices e.frequencies = e.positions := by
  rw [indices, frequencies, List.zipWith_map, List.zipWith_self, List.map_id']

lemma number?_ofNumber (n : Number) : (Document.ofNumber n).number? = some n := by
  cases n <;> rfl

/-- The values of an event are those of no other one. -/
lemma event?_given (e : Event) : e.given.event? = some e := by
  have hindices : (e.indices.map indexDocument).mapM (fun i => i.toIndex.toOption) =
      some e.indices :=
    mapM_map_eq_some (fun index? => by rw [toIndex_indexDocument]; rfl) e.indices
  simp only [Given.event?, given, hindices, number?_ofNumber, zipWith_positions, bind,
    Option.bind_some, pure]

/-- A regular event is described by its entries, whatever other entries follow. -/
lemma IsRegular.isDescribedBy_entries (h : e.IsRegular) (more : List (String × Document)) :
    e.given.IsDescribedBy (.map (e.entries ++ more)) := by
  obtain ⟨start, hstart, heq⟩ := h.start
  obtain ⟨duration, hduration, heq'⟩ := h.duration
  constructor
  case indices => exact ⟨_, ⟨_, rfl, rfl⟩, rfl⟩
  case frequencies =>
    refine ⟨e.frequencies.map .real, ⟨_, ⟨_, rfl, rfl⟩, rfl⟩, ?_⟩
    rw [List.forall₂_map_left_iff]
    exact List.forall₂_same.mpr fun _ _ => rfl
  case start => exact ⟨_, rfl, rfl⟩
  case duration => exact ⟨_, rfl, rfl⟩
  case stop => exact ⟨_, rfl, rfl⟩
  case parallel =>
    rw [given, List.length_map, indices, frequencies, List.length_map, List.length_map]
  case means_index =>
    intro d hd
    obtain ⟨index?, -, rfl⟩ := List.mem_map.mp hd
    exact ⟨index?, Document.toIndex_eq_ok_iff.mp (toIndex_indexDocument index?)⟩
  case not_below =>
    refine ⟨e.start, number?_ofNumber _, ?_⟩
    rw [heq, Number.real_less_zero, hstart.not_less_zero]
  case not_atMost =>
    refine ⟨e.duration, number?_ofNumber _, ?_⟩
    rw [heq', Number.real_atMost_zero, Double.not_atMost_of_less hduration]

/-- What a score says of an event, its entries and the names of its indices, is plain. -/
lemma IsRegular.isPlain_entries (h : e.IsRegular) (names : List String) :
    (Document.map (e.entries ++ [("names", .list (names.map .text))])).IsPlain := by
  have hindex : ∀ d ∈ e.indices.map indexDocument, d.IsPlain := by
    intro d hd
    obtain ⟨index?, hmem, rfl⟩ := List.mem_map.mp hd
    cases index? with
    | none => exact .text _
    | some i =>
        obtain ⟨p, hp, hi⟩ := List.mem_map.mp hmem
        exact .whole (decimalLength_le_digitLimit (h.index_lt p hp i hi))
  have hfrequency : ∀ d ∈ e.frequencies.map Document.real, d.IsPlain := by
    intro d hd
    obtain ⟨x, -, rfl⟩ := List.mem_map.mp hd
    exact .real x
  have hname : ∀ d ∈ names.map Document.text, d.IsPlain := by
    intro d hd
    obtain ⟨name, -, rfl⟩ := List.mem_map.mp hd
    exact .text name
  have hduration : e.duration.IsTime := by
    obtain ⟨x, hx, heq⟩ := h.duration
    exact ⟨x, Double.isUnsigned_of_zero_less hx, heq⟩
  refine .map (by simp [entries]) ?_
  simp only [entries, List.cons_append, List.nil_append, List.forall_mem_cons, List.not_mem_nil,
    false_implies, implies_true, and_true]
  exact ⟨.list hindex, .list hfrequency, Number.IsTime.isPlain h.start, hduration.isPlain,
    Number.IsTime.isPlain h.stop, .list hname⟩

end Event

/-! ## Parts -/

namespace ScorePart

variable {p : ScorePart}

lemma isTime_duration (h : ∀ e ∈ p.events, e.IsRegular) : p.duration.IsTime := by
  unfold duration
  cases hlast : p.events.getLast? with
  | none => exact ⟨.zero, Double.zero_isUnsigned, rfl⟩
  | some e => exact (h e (List.mem_of_getLast? hlast)).stop

lemma isPlain_toDocument (hindex : decimalLength p.index.natAbs ≤ digitLimit)
    (hsource : p.source.IsPlain) (h : ∀ e ∈ p.events, e.IsRegular) : p.toDocument.IsPlain := by
  refine .map (by simp) ?_
  simp only [List.forall_mem_cons, List.not_mem_nil, false_implies, implies_true, and_true]
  refine ⟨.whole hindex, hsource, (isTime_duration h).isPlain, .list fun d hd => ?_⟩
  obtain ⟨e, he, rfl⟩ := List.mem_map.mp hd
  have hplain := (h e he).isPlain_entries (e.indices.map indexName)
  rw [List.map_map] at hplain
  exact hplain

lemma part?_given (p : ScorePart) : p.given.part? = some p := by
  have hevents : (p.events.map (·.given)).mapM (·.event?) = some p.events :=
    mapM_map_eq_some Event.event?_given p.events
  simp only [Given.part?, given, hevents, Document.whole?, bind, Option.bind_some, pure]

lemma isDescribedBy_toDocument (h : ∀ e ∈ p.events, e.IsRegular) :
    p.given.IsDescribedBy p.toDocument := by
  refine ⟨⟨_, rfl, rfl⟩, ⟨_, rfl, rfl⟩, _, ⟨_, ⟨_, rfl, rfl⟩, rfl⟩, ?_⟩
  rw [given, List.forall₂_map_left_iff, List.forall₂_map_right_iff, List.forall₂_same]
  exact fun e he => (h e he).isDescribedBy_entries _

end ScorePart

/-! ## Scores -/

namespace Score

variable {s t : Score}

/-- The score with its parts and its failed indices in order. -/
def sorted (s : Score) : Score := { s with parts := s.sortedParts, failed := s.sortedFailed }

/-- The score holds compiled events in parts of different indices, and its whole numbers do not have
too many digits.  Its schema, its name and its sources are texts, or any other plain documents. -/
structure IsCompiled (s : Score) : Prop where
  schema : s.schema.IsPlain
  name : s.name.IsPlain
  source : ∀ p ∈ s.parts, p.source.IsPlain
  nodup : (s.parts.map (·.index)).Nodup
  index_digits : ∀ p ∈ s.parts, decimalLength p.index.natAbs ≤ digitLimit
  failed_digits : ∀ n ∈ s.failed, decimalLength n.natAbs ≤ digitLimit
  events : ∀ p ∈ s.parts, ∀ e ∈ p.events, e.IsCompiled

/-- The scores differ at most in the order of their lists. -/
structure SameUpToOrder (s t : Score) : Prop where
  schema : s.schema = t.schema
  name : s.name = t.name
  parts : s.parts.Perm t.parts
  failed : s.failed.Perm t.failed

lemma sameUpToOrder_sorted (s : Score) : SameUpToOrder s s.sorted :=
  ⟨rfl, rfl, (List.mergeSort_perm _ _).symm, (List.mergeSort_perm _ _).symm⟩

lemma pairwise_sorted_parts (h : (s.parts.map (·.index)).Nodup) :
    s.sorted.parts.Pairwise fun p q => p.index < q.index := by
  have hnodup : (s.sorted.parts.map (·.index)).Nodup :=
    ((List.mergeSort_perm s.parts _).map _).nodup_iff.mpr h
  have hle := pairwise_mergeSort (·.index) s.parts
  exact hle.imp₂ (fun p q hle hne => Int.lt_iff_le_and_ne.mpr ⟨hle, hne⟩)
    (List.pairwise_map.mp hnodup)

/-! ### What does not depend on the order -/

lemma IsCompiled.isTime_durations (h : s.IsCompiled) :
    ∀ d ∈ s.parts.map (·.duration), d.IsTime := by
  intro d hd
  obtain ⟨p, hp, rfl⟩ := List.mem_map.mp hd
  exact ScorePart.isTime_duration fun e he => (h.events p hp e he).isRegular

lemma IsCompiled.duration_congr (h : s.IsCompiled) (hst : SameUpToOrder s t) :
    s.duration = t.duration := by
  rw [duration, duration, Number.largest?_congr h.isTime_durations (hst.parts.map _)]

lemma SameUpToOrder.sortedFailed_eq (hst : SameUpToOrder s t) : s.sortedFailed = t.sortedFailed :=
  mergeSort_congr hst.failed fun _ _ _ _ => id

lemma IsCompiled.sortedParts_congr (h : s.IsCompiled) (hst : SameUpToOrder s t) :
    s.sortedParts = t.sortedParts :=
  mergeSort_congr hst.parts fun _ hp _ hq heq => List.inj_on_of_nodup_map h.nodup hp hq heq

lemma IsCompiled.toDocument_congr (h : s.IsCompiled) (hst : SameUpToOrder s t) :
    s.toDocument = t.toDocument := by
  rw [toDocument, toDocument, hst.schema, hst.name, h.duration_congr hst, h.sortedParts_congr hst,
    hst.sortedFailed_eq]

lemma SameUpToOrder.indexRange_eq (hst : SameUpToOrder s t) : s.indexRange = t.indexRange := by
  have hperm := hst.parts.flatMap_right fun p => p.events.flatMap fun e => e.tones.map (·.index)
  rw [indexRange, indexRange, min?_congr hperm, max?_congr hperm]

lemma IsCompiled.summary_congr (h : s.IsCompiled) (hst : SameUpToOrder s t) :
    s.summary = t.summary := by
  have hevents : s.eventCount = t.eventCount :=
    List.Perm.length_eq (hst.parts.flatMap_right fun p => p.events)
  rw [summary, summary, hst.name, hst.parts.length_eq, hst.sortedFailed_eq, hevents,
    h.duration_congr hst, hst.indexRange_eq]

/-- A list of keys with their values is looked up as the values are. -/
lemma lookup_filterMap {α : Type} (value? : Int → Option α) (keys : List Int) (key : Int) :
    (keys.filterMap fun k => (value? k).map fun v => (k, v)).lookup key =
      if key ∈ keys then value? key else none := by
  induction keys with
  | nil => rfl
  | cons k more ih =>
      rw [List.filterMap_cons]
      by_cases hkey : key = k
      · subst hkey
        cases hvalue : value? key with
        | none =>
            rw [Option.map_none, ih, hvalue, if_pos List.mem_cons_self, ite_self]
        | some v => rw [Option.map_some, List.lookup_cons_self, if_pos List.mem_cons_self]
      · have hmem : key ∈ k :: more ↔ key ∈ more := by simp [hkey]
        cases hvalue : value? k with
        | none => simp only [Option.map_none, ih, hmem]
        | some v => simp only [Option.map_some, List.lookup_cons, beq_false_of_ne hkey, ih, hmem]

/-- The events of an index are those of the last part that has it. -/
lemma lookup_eventsByPart (s : Score) (index : Int) :
    s.eventsByPart.lookup index = (s.parts.reverse.find? (·.index = index)).map (·.events) := by
  have hpairs : s.eventsByPart = ((s.parts.map (·.index)).eraseDups).filterMap fun i =>
      ((s.parts.reverse.find? (·.index = i)).map (·.events)).map fun events => (i, events) := by
    simp only [eventsByPart, Option.map_map, Function.comp_def]
  rw [hpairs, lookup_filterMap]
  split
  · rfl
  · rename_i hmem
    have hnone : s.parts.reverse.find? (·.index = index) = none := by
      refine List.find?_eq_none.mpr fun p hp hindex => hmem ?_
      rw [List.mem_eraseDups, ← of_decide_eq_true hindex]
      exact List.mem_map_of_mem (List.mem_reverse.mp hp)
    rw [hnone, Option.map_none]

lemma find?_index_eq_some_iff (h : (s.parts.map (·.index)).Nodup) {index : Int} {p : ScorePart} :
    s.parts.reverse.find? (·.index = index) = some p ↔ p ∈ s.parts ∧ p.index = index := by
  constructor
  · intro hp
    have hindex := List.find?_some hp
    exact ⟨List.mem_reverse.mp (List.mem_of_find?_eq_some hp), of_decide_eq_true hindex⟩
  · rintro ⟨hp, rfl⟩
    cases hfound : s.parts.reverse.find? (·.index = p.index) with
    | none =>
        have hnone := List.find?_eq_none.mp hfound p (List.mem_reverse.mpr hp)
        simp at hnone
    | some q =>
        have hq := List.mem_reverse.mp (List.mem_of_find?_eq_some hfound)
        have hindex := List.find?_some hfound
        rw [List.inj_on_of_nodup_map h hq hp (of_decide_eq_true hindex)]

lemma IsCompiled.lookup_eventsByPart_congr (h : s.IsCompiled) (hst : SameUpToOrder s t)
    (index : Int) : s.eventsByPart.lookup index = t.eventsByPart.lookup index := by
  have ht : (t.parts.map (·.index)).Nodup := (hst.parts.map _).nodup_iff.mp h.nodup
  rw [lookup_eventsByPart, lookup_eventsByPart]
  refine congrArg _ (Option.ext fun p => ?_)
  rw [find?_index_eq_some_iff h.nodup, find?_index_eq_some_iff ht, hst.parts.mem_iff]

/-! ### Reading -/

lemma IsCompiled.isTime_duration (h : s.IsCompiled) : s.duration.IsTime := by
  unfold duration
  cases hlargest : Number.largest? (s.parts.map (·.duration)) with
  | none => exact ⟨.zero, Double.zero_isUnsigned, rfl⟩
  | some d =>
      exact h.isTime_durations d ((Number.largest?_eq_some_iff h.isTime_durations).mp hlargest).1

lemma IsCompiled.isPlain_toDocument (h : s.IsCompiled) : s.toDocument.IsPlain := by
  refine .map (by simp) ?_
  simp only [List.forall_mem_cons, List.not_mem_nil, false_implies, implies_true, and_true]
  refine ⟨h.schema, h.name, h.isTime_duration.isPlain, .list fun d hd => ?_, .list fun d hd => ?_⟩
  · obtain ⟨p, hp, rfl⟩ := List.mem_map.mp hd
    have hp := List.mem_mergeSort.mp hp
    exact ScorePart.isPlain_toDocument (h.index_digits p hp) (h.source p hp)
      fun e he => (h.events p hp e he).isRegular
  · obtain ⟨n, hn, rfl⟩ := List.mem_map.mp hd
    exact .whole (h.failed_digits n (List.mem_mergeSort.mp hn))

/-- The values of a score are those of no other one. -/
lemma score?_given (s : Score) : s.given.score? = some s := by
  have hparts : (s.parts.map (·.given)).mapM (·.part?) = some s.parts :=
    mapM_map_eq_some ScorePart.part?_given s.parts
  have hfailed : (s.failed.map Document.whole).mapM (·.whole?) = some s.failed :=
    mapM_map_eq_some (f := Document.whole?) (fun _ => rfl) s.failed
  simp only [Given.score?, given, hparts, hfailed, bind, Option.bind_some, pure]

/-- The document describes the score in order. -/
lemma IsCompiled.isDescribedBy_toDocument (h : s.IsCompiled) :
    s.sorted.given.IsDescribedBy s.toDocument := by
  refine ⟨⟨_, rfl, rfl⟩, ⟨_, rfl, rfl⟩, ⟨_, ⟨_, ⟨_, rfl, rfl⟩, rfl⟩, ?_⟩, _, ⟨_, rfl, rfl⟩, rfl⟩
  rw [given, List.forall₂_map_left_iff, List.forall₂_map_right_iff]
  refine List.forall₂_same.mpr fun p hp => ScorePart.isDescribedBy_toDocument fun e he => ?_
  exact (h.events p (List.mem_mergeSort.mp hp) e he).isRegular

end Score

/-- **Scores are read back**: the text of a score of compiled events holds the same score with its
parts and its failed indices in order.  What is read has the values of that score and so is it, and
it has the same events for each index, the same summary and the same text.  Scores that differ only
in the order of their lists have one text. -/
theorem scores_read_back {s : Score} (h : s.IsCompiled) (indent : Nat) :
    Score.ofJson (s.toJson indent) = .ok s.sorted.given ∧
      s.sorted.given.score? = some s.sorted ∧
      Score.SameUpToOrder s s.sorted ∧
      (s.sorted.parts.Pairwise fun p q => p.index < q.index) ∧
      s.sorted.failed.Pairwise (· ≤ ·) ∧
      (∀ index, s.sorted.eventsByPart.lookup index = s.eventsByPart.lookup index) ∧
      s.sorted.summary = s.summary ∧
      s.sorted.toJson indent = s.toJson indent ∧
      ∀ t, Score.SameUpToOrder s t → t.toJson indent = s.toJson indent := by
  have hsorted := s.sameUpToOrder_sorted
  have htext (t : Score) (hst : Score.SameUpToOrder s t) : t.toJson indent = s.toJson indent := by
    rw [Score.toJson, Score.toJson, h.toDocument_congr hst]
  refine ⟨?_, s.sorted.score?_given, hsorted, Score.pairwise_sorted_parts h.nodup,
    pairwise_mergeSort id s.failed, fun index => (h.lookup_eventsByPart_congr hsorted index).symm,
    (h.summary_congr hsorted).symm, htext _ hsorted, htext⟩
  exact Score.ofJson_eq_ok_iff.mpr
    ⟨s.toDocument, Document.ofJson_jsonText h.isPlain_toDocument _, h.isDescribedBy_toDocument⟩

/-- Two parts out of order, one of them with an index below zero. -/
def unsortedScore (first second : List Event) : Score where
  schema := .text Score.schemaVersion
  name := .text "two parts"
  parts := [⟨3, .text "T120 O4 CE4 R8", first⟩, ⟨-1, .text "T60 O5 G4", second⟩]
  failed := [2, 0]

theorem unsorted_score_reads_back : ∃ first second,
    (compileText "T120 O4 CE4 R8").2 = .ok first ∧ (compileText "T60 O5 G4").2 = .ok second ∧
      (unsortedScore first second).IsCompiled ∧
      Score.ofJson ((unsortedScore first second).toJson 2) =
        .ok (unsortedScore first second).sorted.given ∧
      (unsortedScore first second).sorted.parts =
        [⟨-1, .text "T60 O5 G4", second⟩, ⟨3, .text "T120 O4 CE4 R8", first⟩] ∧
      (unsortedScore first second).sorted.failed = [0, 2] := by
  have hfirst := eq_ok_of_isOk (x := (compileText "T120 O4 CE4 R8").2) (by decide +kernel) []
  have hsecond := eq_ok_of_isOk (x := (compileText "T60 O5 G4").2) (by decide +kernel) []
  generalize (compileText "T120 O4 CE4 R8").2.toOption.getD [] = first at hfirst
  generalize (compileText "T60 O5 G4").2.toOption.getD [] = second at hsecond
  have hscore : (unsortedScore first second).IsCompiled := {
    schema := .text _
    name := .text _
    source := List.forall_mem_cons.mpr ⟨.text _, List.forall_mem_singleton.mpr (.text _)⟩
    nodup := by simp [unsortedScore]
    index_digits := List.forall_mem_cons.mpr ⟨Event.decimalLength_le_digitLimit (i := 3) (by decide),
      List.forall_mem_singleton.mpr (Event.decimalLength_le_digitLimit (i := 1) (by decide))⟩
    failed_digits := List.forall_mem_cons.mpr ⟨Event.decimalLength_le_digitLimit (by decide),
      List.forall_mem_singleton.mpr (Event.decimalLength_le_digitLimit (by decide))⟩
    events := List.forall_mem_cons.mpr ⟨Event.isCompiled_of_compileText hfirst,
      List.forall_mem_singleton.mpr (Event.isCompiled_of_compileText hsecond)⟩ }
  obtain ⟨hread, -⟩ := scores_read_back hscore 2
  refine ⟨first, second, hfirst, hsecond, hscore, hread, ?_, ?_⟩
  · simp [unsortedScore, Score.sorted, Score.sortedParts, List.mergeSort]
  · simp [unsortedScore, Score.sorted, Score.sortedFailed, List.mergeSort]

end MusicMacro
