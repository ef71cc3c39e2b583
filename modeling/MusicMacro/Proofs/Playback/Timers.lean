import Mathlib.Data.List.Nodup
import MusicMacro.Proofs.Playback.Invariant

/-!
# Timers and the entries they were set for

Numbers tell entries and timers apart, every running timer was set for an entry at the event it is
at, and every installed part that plays has its timer running (`Session.Timed`).  This is an
invariant of playback whatever the outside does during calls (`timed_invariant`): a part is armed
before its event is started, its timer is taken before the event is stopped, and all timers are
taken back before a halt stops anything, so no call stands between a timer and its entry.

Commands that are given during calls can leave a timer behind whose entry was discarded while it
played (`Session.orphans`); such a timer is stale, and no other is (`isStale_iff`).
-/

namespace MusicMacro

/-- The entry names this timer, and the timer was set for this entry and the event it is at. -/
structure PartEntry.Owns (e : PartEntry) (t : Timer) : Prop where
  timer : e.timer = some t.serial
  serial : t.entry = e.serial
  index : t.index = e.index
  event : e.lastEvent = some t.event

lemma PartEntry.isPlaying_iff (e : PartEntry) : e.isPlaying = true ↔ ∃ n, e.timer = some n := by
  rw [PartEntry.isPlaying, Option.isSome_iff_exists]

lemma PartEntry.not_isPlaying_iff (e : PartEntry) : e.isPlaying = false ↔ e.timer = none := by
  rw [PartEntry.isPlaying, Option.isSome_eq_false_iff, Option.isNone_iff_eq_none]

lemma PartEntry.Owns.isPlaying {e : PartEntry} {t : Timer} (h : e.Owns t) : e.isPlaying = true :=
  e.isPlaying_iff.mpr ⟨_, h.timer⟩

/-! ## Lists whose members have keys of their own -/

section

variable {α β : Type} {key : α → β} {l : List α} {a : α}

/-- All others have other keys. -/
lemma exists_split_of_nodup (h : (l.map key).Nodup) (ha : a ∈ l) :
    ∃ before later, l = before ++ a :: later ∧ ∀ b ∈ before ++ later, key b ≠ key a := by
  obtain ⟨before, later, hsplit⟩ := List.append_of_mem ha
  rw [hsplit, List.map_append, List.map_cons] at h
  have hnot := (List.nodup_middle.mp h).notMem
  rw [← List.map_append] at hnot
  exact ⟨before, later, hsplit, fun b hb heq => hnot (heq ▸ List.mem_map_of_mem hb)⟩

/-- Only the member with the key is replaced. -/
lemma map_replace_of_split [DecidableEq β] {before later : List α}
    (h : ∀ b ∈ before ++ later, key b ≠ key a) (x : α) :
    ((before ++ a :: later).map fun b => if key b = key a then x else b) =
      before ++ x :: later := by
  have hkept : ∀ l : List α, (∀ b ∈ l, b ∈ before ++ later) →
      (l.map fun b => if key b = key a then x else b) = l := by
    intro l hl
    rw [← List.map_id l, List.map_map]
    exact List.map_congr_left fun b hb => if_neg (h b (hl b hb))
  rw [List.map_append, List.map_cons, if_pos rfl, hkept before fun b => List.mem_append_left _,
    hkept later fun b => List.mem_append_right _]

end

namespace Session

/-- All entries there ever were. -/
def entries (s : Session) : List PartEntry := s.registry ++ s.discarded

/-- Numbers and indices tell entries apart, timers were set for entries, and playing parts have
timers. -/
structure Timed (s : Session) : Prop where
  /-- Timers are set only once there is a source. -/
  sourced : s.timers ≠ [] → s.adapter ≠ none
  indices : (s.registry.map (·.index)).Nodup
  serials : (s.entries.map (·.serial)).Nodup
  serials_old : ∀ e ∈ s.entries, e.serial < s.created
  timers_nodup : (s.timers.map (·.serial)).Nodup
  timers_old : ∀ t ∈ s.timers, t.serial < s.created
  owned : ∀ t ∈ s.timers, ∃ e ∈ s.entries, e.Owns t
  armed : ∀ e ∈ s.registry, ∀ n, e.timer = some n → ∃ t ∈ s.timers, e.Owns t

/-- The timers that were set for entries that are installed no more. -/
def orphans (s : Session) : List Timer :=
  s.timers.filter fun t => !(s.registry.map (·.serial)).contains t.entry

lemma mem_orphans {s : Session} {t : Timer} :
    t ∈ s.orphans ↔ t ∈ s.timers ∧ ∀ e ∈ s.registry, e.serial ≠ t.entry := by
  simp [orphans]

/-! ## Finding entries -/

namespace Timed

variable {s : Session}

/-- An entry is known by its number. -/
lemma eq_of_serial (h : s.Timed) {e e' : PartEntry} (he : e ∈ s.entries) (he' : e' ∈ s.entries)
    (heq : e.serial = e'.serial) : e = e' :=
  List.inj_on_of_nodup_map h.serials he he' heq

lemma serials_registry (h : s.Timed) : (s.registry.map (·.serial)).Nodup := by
  have hserials := h.serials
  rw [entries, List.map_append] at hserials
  exact hserials.of_append_left

/-- A discarded entry has another number than an installed one. -/
lemma serial_ne (h : s.Timed) {e x : PartEntry} (he : e ∈ s.registry) (hx : x ∈ s.discarded) :
    x.serial ≠ e.serial := by
  have hserials := h.serials
  rw [entries, List.map_append] at hserials
  have hapart := (List.nodup_append.mp hserials).2.2
  exact (hapart _ (List.mem_map_of_mem he) _ (List.mem_map_of_mem hx)).symm

/-- An installed entry that plays has its timer running. -/
lemma owner_of_isPlaying (h : s.Timed) {e : PartEntry} (he : e ∈ s.registry)
    (hplaying : e.isPlaying = true) : ∃ t ∈ s.timers, e.Owns t := by
  obtain ⟨n, hn⟩ := e.isPlaying_iff.mp hplaying
  exact h.armed e he n hn

/-- Where no timer runs no installed entry has one. -/
lemma timer_eq_none (h : s.Timed) (hnil : s.timers = []) {e : PartEntry} (he : e ∈ s.registry) :
    e.timer = none := by
  refine Option.eq_none_iff_forall_ne_some.mpr fun n hn => ?_
  obtain ⟨t, ht, -⟩ := h.armed e he n hn
  rw [hnil] at ht
  cases ht

/-- A timer is known by its number. -/
lemma timer_eq_of_serial (h : s.Timed) {t t' : Timer} (ht : t ∈ s.timers) (ht' : t' ∈ s.timers)
    (heq : t.serial = t'.serial) : t = t' :=
  List.inj_on_of_nodup_map h.timers_nodup ht ht' heq

/-- An installed entry is the one found at its index. -/
lemma entryAt?_of_mem (h : s.Timed) {e : PartEntry} (he : e ∈ s.registry) :
    s.entryAt? e.index = some e := by
  rcases hfound : s.entryAt? e.index with _ | e'
  · rw [entryAt?, List.find?_eq_none] at hfound
    simpa using hfound e he
  · have hmem : e' ∈ s.registry := List.mem_of_find?_eq_some hfound
    have hindex : e'.index = e.index := by simpa using List.find?_some hfound
    rw [List.inj_on_of_nodup_map h.indices hmem he hindex]

/-- The entry of a number is found. -/
lemma entryOf?_of_mem (h : s.Timed) {e : PartEntry} (he : e ∈ s.entries) :
    s.entryOf? e.serial = some e := by
  rcases hfound : s.entryOf? e.serial with _ | e'
  · rw [entryOf?, List.find?_eq_none] at hfound
    simpa using hfound e he
  · have hmem : e' ∈ s.entries := List.mem_of_find?_eq_some hfound
    have hserial : e'.serial = e.serial := by simpa using List.find?_some hfound
    rw [h.eq_of_serial hmem he hserial]

/-- A timer belongs to the entry it was set for. -/
lemma owns_of_serial (h : s.Timed) {t : Timer} {e : PartEntry} (ht : t ∈ s.timers)
    (he : e ∈ s.entries) (hserial : e.serial = t.entry) : e.Owns t := by
  obtain ⟨e', he', howns⟩ := h.owned t ht
  rwa [h.eq_of_serial he he' (hserial.trans howns.serial)]

/-- A timer of an installed entry finds it, and it plays. -/
lemma entryAt?_of_owns (h : s.Timed) {t : Timer} {e : PartEntry} (he : e ∈ s.registry)
    (howns : e.Owns t) : s.entryAt? t.index = some e := by
  rw [howns.index]
  exact h.entryAt?_of_mem he

/-- A timer is an orphan or belongs to an installed entry. -/
lemma orphan_or_owned (h : s.Timed) {t : Timer} (ht : t ∈ s.timers) :
    t ∈ s.orphans ∨ ∃ e ∈ s.registry, e.Owns t := by
  by_cases hinstalled : ∃ e ∈ s.registry, e.serial = t.entry
  · obtain ⟨e, he, hserial⟩ := hinstalled
    exact Or.inr ⟨e, he, h.owns_of_serial ht (List.mem_append_left _ he) hserial⟩
  · exact Or.inl (mem_orphans.mpr ⟨ht, fun e he heq => hinstalled ⟨e, he, heq⟩⟩)

/-- The orphans are the timers that are stale. -/
lemma isStale_iff (h : s.Timed) {t : Timer} (ht : t ∈ s.timers) : s.IsStale t ↔ t ∈ s.orphans := by
  constructor
  · intro hstale
    rcases h.orphan_or_owned ht with horphan | ⟨e, he, howns⟩
    · exact horphan
    · rcases hstale e (h.entryAt?_of_owns he howns) with hserial | hidle
      · exact absurd howns.serial.symm hserial
      · rw [howns.isPlaying] at hidle
        cases hidle
  · intro horphan e hentry
    exact Or.inl ((mem_orphans.mp horphan).2 e (List.mem_of_find?_eq_some hentry))

end Timed

lemma mem_of_entryAt? {s : Session} {index : Nat} {e : PartEntry}
    (h : s.entryAt? index = some e) : e ∈ s.registry ∧ e.index = index :=
  ⟨List.mem_of_find?_eq_some h, by simpa using List.find?_some h⟩

/-! ## Replacing entries -/

lemma mem_replaceEntry {s : Session} {x e : PartEntry} :
    e ∈ (s.replaceEntry x).registry ↔
      (e = x ∧ ∃ y ∈ s.registry, y.serial = x.serial) ∨ (e ∈ s.registry ∧ e.serial ≠ x.serial) := by
  simp only [replaceEntry, List.mem_map]
  constructor
  · rintro ⟨y, hy, rfl⟩
    by_cases hserial : y.serial = x.serial
    · exact Or.inl ⟨if_pos hserial, y, hy, hserial⟩
    · rw [if_neg hserial]
      exact Or.inr ⟨hy, hserial⟩
  · rintro (⟨rfl, y, hy, hserial⟩ | ⟨he, hserial⟩)
    · exact ⟨y, hy, if_pos hserial⟩
    · exact ⟨e, he, if_neg hserial⟩

lemma mem_ring {s : Session} {e : PartEntry} (he : e ∈ s.registry) (t : Timer) :
    { e with timer := none } ∈ (s.ring t e).registry :=
  mem_replaceEntry.mpr (Or.inl ⟨rfl, e, he, rfl⟩)

lemma map_serial_replaceEntry (s : Session) (x : PartEntry) :
    (s.replaceEntry x).registry.map (·.serial) = s.registry.map (·.serial) := by
  rw [replaceEntry, List.map_map]
  refine List.map_congr_left fun e _ => ?_
  by_cases hserial : e.serial = x.serial
  · simp [hserial]
  · simp [hserial]

lemma map_index_replaceEntry {s : Session} {x : PartEntry}
    (h : ∀ e ∈ s.registry, e.serial = x.serial → e.index = x.index) :
    (s.replaceEntry x).registry.map (·.index) = s.registry.map (·.index) := by
  rw [replaceEntry, List.map_map]
  refine List.map_congr_left fun e he => ?_
  by_cases hserial : e.serial = x.serial
  · simp [hserial, h e he hserial]
  · simp [hserial]

end Session

/-! ## What keeps the invariant -/

namespace Session.Timed

variable {s s' : Session}

lemma sameParts (h : s.Timed) (hsame : s.SameParts s') : s'.Timed := by
  obtain ⟨h1, h2, h3, h4, h5, h6, h7, h8⟩ := h
  constructor <;> simp only [entries, hsame.adapter, hsame.registry, hsame.discarded,
    hsame.timers, hsame.created] <;> assumption

/-- An entry that replaces one of its number and index leaves numbers and indices as they are. -/
lemma serials_replace (h : s.Timed) {e x : PartEntry} (he : e ∈ s.registry)
    (hserial : x.serial = e.serial) (hindex : x.index = e.index) :
    ((s.replaceEntry x).registry.map (·.index)).Nodup ∧
      ((s.replaceEntry x).entries.map (·.serial)).Nodup ∧
      ∀ y ∈ (s.replaceEntry x).entries, y.serial < s.created := by
  refine ⟨?_, ?_, ?_⟩
  · rw [map_index_replaceEntry]
    · exact h.indices
    · intro y hy hys
      rw [h.eq_of_serial (List.mem_append_left _ hy) (List.mem_append_left _ he)
        (hys.trans hserial), hindex]
  · rw [entries, List.map_append, map_serial_replaceEntry, ← List.map_append]
    exact h.serials
  · intro y hy
    rcases List.mem_append.mp hy with hy | hy
    · rcases mem_replaceEntry.mp hy with ⟨rfl, -⟩ | ⟨hy, -⟩
      · rw [hserial]
        exact h.serials_old e (List.mem_append_left _ he)
      · exact h.serials_old y (List.mem_append_left _ hy)
    · exact h.serials_old y (List.mem_append_right _ hy)

/-- The other entries are still there when an entry is replaced. -/
lemma mem_entries_replace {x y : PartEntry} (hy : y ∈ s.entries) (hserial : y.serial ≠ x.serial) :
    y ∈ (s.replaceEntry x).entries := by
  rcases List.mem_append.mp hy with hy | hy
  · exact List.mem_append_left _ (mem_replaceEntry.mpr (Or.inr ⟨hy, hserial⟩))
  · exact List.mem_append_right _ hy

/-- Arming an entry that does not play adds its timer, which is a new one. -/
lemma arm (h : s.Timed) {e : PartEntry} (he : e ∈ s.registry) (hadapter : s.adapter ≠ none)
    (hidle : e.isPlaying = false) (part : Part) (event : Event)
    (routing onProcess : Option String) : (s.arm e part event routing onProcess).Timed := by
  set playing : PartEntry :=
    { e with part := part, timer := some s.created, lastEvent := some event } with hplaying
  obtain ⟨hindices, hserials, hold⟩ := h.serials_replace (x := playing) he rfl rfl
  have hnone : e.timer = none := e.not_isPlaying_iff.mp hidle
  -- The entry of a timer is another one than the entry that is armed.
  have hother : ∀ {y : PartEntry} {n : Nat}, y ∈ s.entries → y.timer = some n →
      y.serial ≠ playing.serial := by
    intro y n hy hyn hserial
    rw [h.eq_of_serial hy (List.mem_append_left _ he) hserial, hnone] at hyn
    cases hyn
  constructor
  case sourced => exact fun _ => hadapter
  case indices => exact hindices
  case serials => exact hserials
  case serials_old => exact fun y hy => Nat.lt_succ_of_lt (hold y hy)
  case timers_nodup =>
    simp only [Session.arm, List.map_append, List.map_cons, List.map_nil]
    refine List.nodup_append.mpr ⟨h.timers_nodup, List.nodup_singleton _, ?_⟩
    intro a ha b hb
    obtain ⟨t, ht, rfl⟩ := List.mem_map.mp ha
    rw [List.mem_singleton.mp hb]
    exact Nat.ne_of_lt (h.timers_old t ht)
  case timers_old =>
    intro t ht
    rcases List.mem_append.mp ht with ht | ht
    · exact Nat.lt_succ_of_lt (h.timers_old t ht)
    · rw [List.mem_singleton.mp ht]
      exact Nat.lt_succ_self _
  case owned =>
    intro t ht
    rcases List.mem_append.mp ht with ht | ht
    · obtain ⟨y, hy, howns⟩ := h.owned t ht
      exact ⟨y, mem_entries_replace hy (hother hy howns.timer), howns⟩
    · rw [List.mem_singleton.mp ht]
      have hmem : playing ∈ (s.replaceEntry playing).registry :=
        mem_replaceEntry.mpr (Or.inl ⟨rfl, e, he, rfl⟩)
      exact ⟨playing, List.mem_append_left _ hmem, ⟨rfl, rfl, rfl, rfl⟩⟩
  case armed =>
    intro y hy n hn
    rcases mem_replaceEntry.mp hy with ⟨rfl, -⟩ | ⟨hy, -⟩
    · exact ⟨_, List.mem_append_right _ List.mem_cons_self, ⟨rfl, rfl, rfl, rfl⟩⟩
    · obtain ⟨t, ht, howns⟩ := h.armed y hy n hn
      exact ⟨t, List.mem_append_left _ ht, howns⟩

lemma sourced_filter (h : s.Timed) (p : Timer → Bool) : s.timers.filter p ≠ [] →
    s.adapter ≠ none :=
  fun hne => h.sourced fun hnil => hne (by rw [hnil, List.filter_nil])

/-- A timer that goes off is taken from its entry and from the running ones at once. -/
lemma ring (h : s.Timed) {t : Timer} {e : PartEntry} (ht : t ∈ s.timers) (he : e ∈ s.registry)
    (howns : e.Owns t) : (s.ring t e).Timed := by
  obtain ⟨hindices, hserials, hold⟩ :=
    h.serials_replace (x := { e with timer := none }) he rfl rfl
  constructor
  case sourced => exact h.sourced_filter _
  case indices => exact hindices
  case serials => exact hserials
  case serials_old => exact hold
  case timers_nodup => exact h.timers_nodup.sublist (List.filter_sublist.map _)
  case timers_old => exact fun t' ht' => h.timers_old t' (List.mem_filter.mp ht').1
  case owned =>
    intro t' ht'
    obtain ⟨hmem, hne⟩ := List.mem_filter.mp ht'
    obtain ⟨y, hy, howns'⟩ := h.owned t' hmem
    refine ⟨y, mem_entries_replace hy fun hserial => ?_, howns'⟩
    have hsame : some t'.serial = some t.serial := by
      rw [← howns'.timer, h.eq_of_serial hy (List.mem_append_left _ he) hserial, howns.timer]
    exact (of_decide_eq_true hne) (Option.some.inj hsame)
  case armed =>
    intro y hy n hn
    rcases mem_replaceEntry.mp hy with ⟨rfl, -⟩ | ⟨hy, hserial⟩
    · cases hn
    · obtain ⟨t', ht', howns'⟩ := h.armed y hy n hn
      refine ⟨t', List.mem_filter.mpr ⟨ht', decide_eq_true fun hsame => hserial ?_⟩, howns'⟩
      rw [← howns'.serial, h.timer_eq_of_serial ht' ht hsame, howns.serial]

/-- A stale timer was set for an entry that is installed no more, and can be dropped. -/
lemma drop (h : s.Timed) {t : Timer} (ht : t ∈ s.timers) (hstale : s.IsStale t) :
    (s.drop t).Timed := by
  obtain ⟨-, horphan⟩ := mem_orphans.mp ((h.isStale_iff ht).mp hstale)
  constructor
  case sourced => exact h.sourced_filter _
  case indices => exact h.indices
  case serials => exact h.serials
  case serials_old => exact h.serials_old
  case timers_nodup => exact h.timers_nodup.sublist (List.filter_sublist.map _)
  case timers_old => exact fun t' ht' => h.timers_old t' (List.mem_filter.mp ht').1
  case owned => exact fun t' ht' => h.owned t' (List.mem_filter.mp ht').1
  case armed =>
    intro e he n hn
    obtain ⟨t', ht', howns⟩ := h.armed e he n hn
    refine ⟨t', List.mem_filter.mpr ⟨ht', decide_eq_true fun hsame => ?_⟩, howns⟩
    rw [h.timer_eq_of_serial ht' ht hsame] at howns
    exact horphan e he howns.serial.symm

/-- Only orphans are left when all parts are disarmed. -/
lemma disarm_eq (h : s.Timed) : ∃ idle waiters, s.disarm =
    { s with
      timers := s.orphans
      registry := s.registry.map fun e => { e with timer := none }
      idle := idle
      waiters := waiters } := by
  have htimers : (s.timers.filter fun t =>
      !(s.registry.filterMap (·.timer)).contains t.serial) = s.orphans := by
    refine List.filter_congr fun t ht => congrArg (! ·) (Bool.eq_iff_iff.mpr ?_)
    simp only [List.contains_iff_mem, List.mem_filterMap, List.mem_map]
    constructor
    · rintro ⟨e, he, htimer⟩
      obtain ⟨t', ht', howns⟩ := h.armed e he t.serial htimer
      have hserial : t'.serial = t.serial := Option.some.inj (howns.timer.symm.trans htimer)
      rw [← h.timer_eq_of_serial ht' ht hserial]
      exact ⟨e, he, howns.serial.symm⟩
    · rintro ⟨e, he, hserial⟩
      exact ⟨e, he, (h.owns_of_serial ht (List.mem_append_left _ he) hserial).timer⟩
  obtain ⟨idle, waiters, hs⟩ := s.disarm_eq
  exact ⟨idle, waiters, by rw [hs, htimers]⟩

lemma disarm (h : s.Timed) : s.disarm.Timed := by
  obtain ⟨idle, waiters, hs⟩ := h.disarm_eq
  have hserials : (s.registry.map fun e => { e with timer := none }).map (·.serial) =
      s.registry.map (·.serial) := by rw [List.map_map]; rfl
  rw [hs]
  constructor
  case sourced => exact h.sourced_filter _
  case indices =>
    rw [List.map_map]
    exact h.indices
  case serials =>
    rw [entries, List.map_append, hserials, ← List.map_append]
    exact h.serials
  case serials_old =>
    intro y hy
    rcases List.mem_append.mp hy with hy | hy
    · obtain ⟨e, he, rfl⟩ := List.mem_map.mp hy
      exact h.serials_old e (List.mem_append_left _ he)
    · exact h.serials_old y (List.mem_append_right _ hy)
  case timers_nodup => exact h.timers_nodup.sublist (List.filter_sublist.map _)
  case timers_old => exact fun t ht => h.timers_old t (mem_orphans.mp ht).1
  case owned =>
    intro t ht
    obtain ⟨hmem, horphan⟩ := mem_orphans.mp ht
    obtain ⟨e, he, howns⟩ := h.owned t hmem
    rcases List.mem_append.mp he with he | he
    · exact absurd howns.serial.symm (horphan e he)
    · exact ⟨e, List.mem_append_right _ he, howns⟩
  case armed =>
    intro y hy n hn
    obtain ⟨e, -, rfl⟩ := List.mem_map.mp hy
    cases hn

/-- To discard an entry is to move it; if it plays, its timer becomes an orphan. -/
lemma clear (h : s.Timed) : s.clear.Timed where
  sourced := h.sourced
  indices := List.nodup_nil
  serials := h.serials
  serials_old := h.serials_old
  timers_nodup := h.timers_nodup
  timers_old := h.timers_old
  owned := h.owned
  armed := fun _ he => absurd he List.not_mem_nil

lemma adopt (h : s.Timed) (adapter : Adapter) : (s.adopt adapter).Timed :=
  { h with sourced := fun _ => Option.some_ne_none adapter }

/-- An entry with the next number that does not play can be added, and others discarded. -/
lemma add (h : s.Timed) {x : PartEntry} (hserial : x.serial = s.created) (htimer : x.timer = none)
    (hentries : s'.entries.Perm (x :: s.entries)) (hindices : (s'.registry.map (·.index)).Nodup)
    (hregistry : ∀ e ∈ s'.registry, e = x ∨ e ∈ s.registry) (hadapter : s'.adapter = s.adapter)
    (htimers : s'.timers = s.timers) (hcreated : s'.created = s.created + 1) : s'.Timed := by
  constructor
  case sourced =>
    rw [htimers, hadapter]
    exact h.sourced
  case indices => exact hindices
  case serials =>
    rw [(hentries.map (·.serial)).nodup_iff, List.map_cons, List.nodup_cons, hserial]
    refine ⟨fun hmem => ?_, h.serials⟩
    obtain ⟨e, he, heq⟩ := List.mem_map.mp hmem
    exact Nat.ne_of_lt (h.serials_old e he) heq
  case serials_old =>
    intro e he
    rw [hcreated]
    rcases List.mem_cons.mp (hentries.mem_iff.mp he) with rfl | he
    · rw [hserial]
      exact Nat.lt_succ_self _
    · exact Nat.lt_succ_of_lt (h.serials_old e he)
  case timers_nodup =>
    rw [htimers]
    exact h.timers_nodup
  case timers_old =>
    rw [htimers, hcreated]
    exact fun t ht => Nat.lt_succ_of_lt (h.timers_old t ht)
  case owned =>
    rw [htimers]
    intro t ht
    obtain ⟨e, he, howns⟩ := h.owned t ht
    exact ⟨e, hentries.mem_iff.mpr (List.mem_cons_of_mem x he), howns⟩
  case armed =>
    rw [htimers]
    intro e he n hn
    rcases hregistry e he with rfl | he
    · rw [htimer] at hn
      cases hn
    · exact h.armed e he n hn

lemma installPart (h : s.Timed) (index : Nat) (events : List Event) :
    (s.installPart index events).Timed := by
  set x : PartEntry := ⟨index, s.created, .ofEvents events, none, none⟩
  have hregistry : ∀ e ∈ (s.installPart index events).registry, e = x ∨ e ∈ s.registry :=
    fun _ he => eq_or_mem_of_installPart he
  rcases hold : s.entryAt? index with _ | old
  · rw [installPart_of_none hold] at hregistry ⊢
    refine h.add (x := x) rfl rfl ?_ ?_ hregistry rfl rfl rfl
    · rw [entries, entries, List.append_assoc]
      exact List.perm_middle
    · rw [List.map_append]
      refine List.nodup_append.mpr ⟨h.indices, List.nodup_singleton _, ?_⟩
      intro a ha b hb
      obtain ⟨e, he, rfl⟩ := List.mem_map.mp ha
      rw [List.mem_singleton.mp hb]
      exact entryAt?_eq_none_iff.mp hold e he
  · obtain ⟨hmem, hindex⟩ := mem_of_entryAt? hold
    obtain ⟨before, later, hsplit, hothers⟩ := exists_split_of_nodup h.indices hmem
    have hreplaced : (s.registry.map fun e => if e.index = index then x else e) =
        before ++ x :: later := by
      rw [hsplit, ← hindex]
      exact map_replace_of_split hothers x
    rw [installPart_of_some hold, hreplaced] at hregistry ⊢
    refine h.add (x := x) rfl rfl ?_ ?_ hregistry rfl rfl rfl
    · rw [entries, entries, hsplit, List.append_assoc, List.append_assoc, List.cons_append,
        List.cons_append]
      refine List.perm_middle.trans (List.Perm.cons x ?_)
      exact List.Perm.append_left _ List.perm_middle
    · have hindices := h.indices
      rw [hsplit, List.map_append, List.map_cons, hindex] at hindices
      rw [List.map_append, List.map_cons]
      exact hindices

end Session.Timed

/-- Timers go with entries whatever is called back. -/
theorem timed_invariant : Session.Invariant Session.Timed where
  sameParts := fun h hsame => h.sameParts hsame
  arm := fun routing onProcess h he hadapter hidle _ =>
    h.arm he hadapter hidle _ _ routing onProcess
  ring := fun h ht he hserial _ =>
    h.ring ht he (h.owns_of_serial ht (List.mem_append_left _ he) hserial)
  drop := fun h ht hstale => h.drop ht hstale
  disarm := fun h => h.disarm
  clear := fun h => h.clear
  adopt := fun adapter h => h.adopt adapter
  install := fun index events h => h.installPart index events

/-- Timers go with entries after every run, whatever is called back. -/
theorem after_timed (env : Environment) (depth : Nat) (hooks : Hooks) (policy : ErrorPolicy)
    (moves : List Move) : ((Session.initial hooks policy).after env depth moves).Timed := by
  refine after_of_invariant timed_invariant env depth ?_ moves
  constructor <;> simp [Session.initial, Session.entries]

end MusicMacro
