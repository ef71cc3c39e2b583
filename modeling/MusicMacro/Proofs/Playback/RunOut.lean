import Mathlib.Algebra.GroupWithZero.Nat
import MusicMacro.Proofs.Playback.Matching

/-!
# Parts play to their end

When nothing but timers happens, every part that plays takes all its events and ends, whatever
calls fail on the way (`playing_parts_run_out`).  What is still to come is counted exactly: a part
that plays has one firing before it for each event it has not taken and one for the event it is at
(`PartEntry.pending`), an orphan has one, and each firing uses up one of these (`fire_toCome`).
`Session.Advances` says what firings do to the parts one by one; it holds of one firing and passes
through many.
-/

namespace MusicMacro

/-! ## What is still to come -/

/-- How many firings a part has before it: one for each event to come and one for the event it is
at, if it plays. -/
def PartEntry.pending (e : PartEntry) : Nat := if e.isPlaying then e.part.remaining + 1 else 0

/-- How many firings all parts that play have before them. -/
def Session.pending (s : Session) : Nat := (s.registry.map (·.pending)).sum

/-- How many firings are still to come, those of orphans included. -/
def Session.toCome (s : Session) : Nat := s.pending + s.orphans.length

/-- An entry after its timer has fired: it has taken its next event, with a new timer, or it has
ended. -/
def PartEntry.rung (e : PartEntry) (serial : Nat) : PartEntry :=
  match e.part.queue with
  | [] => { e with timer := none }
  | event :: rest =>
    { e with part := { e.part with queue := rest }, timer := some serial, lastEvent := some event }

namespace PartEntry

lemma rung_serial (e : PartEntry) (n : Nat) : (e.rung n).serial = e.serial := by
  unfold rung
  split <;> rfl

lemma rung_index (e : PartEntry) (n : Nat) : (e.rung n).index = e.index := by
  unfold rung
  split <;> rfl

/-- A firing uses up one of those that a part has before it. -/
lemma pending_rung {e : PartEntry} (h : e.isPlaying = true) (n : Nat) :
    e.pending = (e.rung n).pending + 1 := by
  rw [pending, if_pos h]
  rcases hqueue : e.part.queue with _ | ⟨event, rest⟩
  · simp [pending, rung, hqueue, isPlaying, Part.remaining]
  · simp [pending, rung, hqueue, isPlaying, Part.remaining]

end PartEntry

namespace Session

variable {s : Session}

lemma replaceEntry_replaceEntry {x y : PartEntry} (h : x.serial = y.serial) :
    ((s.replaceEntry x).replaceEntry y).registry = (s.replaceEntry y).registry := by
  simp only [replaceEntry, List.map_map]
  refine List.map_congr_left fun e _ => ?_
  by_cases hserial : e.serial = y.serial
  · simp [hserial, h]
  · simp [hserial, h]

/-- Only the entry itself is replaced. -/
lemma Timed.replaceEntry_eq (h : s.Timed) {e x : PartEntry} (he : e ∈ s.registry)
    (hserial : x.serial = e.serial) :
    ∃ before later, s.registry = before ++ e :: later ∧
      (s.replaceEntry x).registry = before ++ x :: later := by
  obtain ⟨before, later, hsplit, hothers⟩ := exists_split_of_nodup h.serials_registry he
  refine ⟨before, later, hsplit, ?_⟩
  rw [replaceEntry, hsplit, hserial]
  exact map_replace_of_split hothers x

/-- What is logged when an entry takes its next event or, if there is none, has ended. -/
def nextItems (s : Session) (e : PartEntry) : List LogItem :=
  match e.part.queue with
  | [] => s.endItems e
  | event :: _ => [.dispatched s.clock e.index e.serial s.adapters true event]

/-- A firing moves one entry on.  It logs that the event of the timer is to be stopped, and then
what the entry goes on with, between items beside these. -/
lemma fire_effect (env : Environment) (h : s.Timed) {t : Timer} {e : PartEntry}
    (ht : t ∈ s.timers) (he : e ∈ s.registry) (howns : e.Owns t) :
    (fire (handler env 0) t s).hooks = s.hooks ∧
    (fire (handler env 0) t s).registry = (s.replaceEntry (e.rung s.created)).registry ∧
    ∃ stopping next, (∀ item ∈ stopping ++ next, item.IsAside e.index) ∧
      (fire (handler env 0) t s).log = next ++ (s.ring t e).nextItems e ++ stopping ++
        .dispatched t.due e.index e.serial s.adapters false t.event :: .fired t.due :: s.log := by
  obtain ⟨stopped, hstopped, hrest⟩ := fire_cases env h ht he howns
  obtain ⟨stopping, hslog, hstopping⟩ := hstopped.log
  have hhooks : stopped.hooks = (s.ring t e).hooks := hstopped.hooks_eq
  have hclock : stopped.clock = (s.ring t e).clock := hstopped.clock_eq
  have hcreated : stopped.created = s.created := by rw [hstopped.eq_log]; rfl
  have hregistry : stopped.registry = (s.replaceEntry { e with timer := none }).registry :=
    hstopped.registry_eq
  have hasides : ∀ next : List LogItem, (∀ item ∈ next, item.IsAside e.index) →
      ∀ item ∈ stopping ++ next, item.IsAside e.index := by
    intro next hnext item hitem
    rcases List.mem_append.mp hitem with hi | hi
    · exact hstopping item hi
    · exact hnext item hi
  rcases hrest with ⟨hqueue, hfire⟩ | ⟨event, rest, hqueue, hfire⟩
  · obtain ⟨counts, idle, waiters, hfinish⟩ := stopped.finish_eq env { e with timer := none }
    rw [hfinish] at hfire
    obtain ⟨next, hlog, hnext⟩ := hfire.log
    refine ⟨hfire.hooks_eq.trans hhooks, ?_, stopping, next, hasides next hnext, ?_⟩
    · rw [hfire.registry_eq, hregistry, PartEntry.rung, hqueue]
    · rw [hlog, hslog, nextItems, hqueue, endItems, endItems, hhooks, hclock]
      simp only [List.append_assoc]
      rfl
  · obtain ⟨next, hlog, hnext⟩ := hfire.log
    refine ⟨hfire.hooks_eq.trans hhooks, ?_, stopping, next, hasides next hnext, ?_⟩
    · rw [hfire.registry_eq, PartEntry.rung, hqueue, ← hcreated]
      have htwice := replaceEntry_replaceEntry (s := s) (x := { e with timer := none })
        (y := { e with
          part := { e.part with queue := rest }
          timer := some stopped.created
          lastEvent := some event }) rfl
      rw [← htwice]
      simp only [replaceEntry, record, arm, hregistry]
    · rw [hlog, nextItems, hqueue]
      simp only [record, arm, replaceEntry, hslog, List.append_assoc]
      rfl

/-- A firing drops the timer from the running ones and may set one for the same entry. -/
lemma fire_timers (env : Environment) (h : s.Timed) {t : Timer} {e : PartEntry}
    (ht : t ∈ s.timers) (he : e ∈ s.registry) (howns : e.Owns t) :
    ∃ set, (∀ t' ∈ set, t'.entry = e.serial) ∧
      (fire (handler env 0) t s).timers = s.timers.filter (·.serial ≠ t.serial) ++ set := by
  obtain ⟨stopped, hstopped, hrest⟩ := fire_cases env h ht he howns
  have htimers : stopped.timers = s.timers.filter (·.serial ≠ t.serial) := by
    rw [hstopped.eq_log]
    rfl
  rcases hrest with ⟨-, hfire⟩ | ⟨event, rest, -, hfire⟩
  · obtain ⟨counts, idle, waiters, hfinish⟩ := stopped.finish_eq env { e with timer := none }
    refine ⟨[], fun t' ht' => absurd ht' List.not_mem_nil, ?_⟩
    rw [hfire.eq_log, hfinish, List.append_nil]
    exact htimers
  · refine ⟨[_], fun t' ht' => ?_, by rw [hfire.eq_log, ← htimers]; rfl⟩
    rw [List.mem_singleton.mp ht']

end Session

/-! ## What one firing does -/

section

variable (env : Environment) {s : Session} {t : Timer} {e : PartEntry}

open Session

/-- The firing of a timer that belongs to a part uses up one of those that the part has. -/
lemma fire_pending (h : s.Timed) (ht : t ∈ s.timers) (he : e ∈ s.registry) (howns : e.Owns t) :
    s.pending = (fire (handler env 0) t s).pending + 1 := by
  obtain ⟨-, hregistry, -⟩ := fire_effect env h ht he howns
  obtain ⟨before, later, hsplit, hreplaced⟩ := h.replaceEntry_eq he (e.rung_serial s.created)
  have hentry := PartEntry.pending_rung howns.isPlaying s.created
  simp only [pending, hregistry, hreplaced, hsplit, List.map_append, List.map_cons,
    List.sum_append, List.sum_cons]
  omega

/-- The firing of a timer that belongs to a part leaves the orphans alone. -/
lemma fire_orphans (h : s.Timed) (ht : t ∈ s.timers) (he : e ∈ s.registry) (howns : e.Owns t) :
    (fire (handler env 0) t s).orphans = s.orphans := by
  obtain ⟨-, hregistry, -⟩ := fire_effect env h ht he howns
  obtain ⟨set, hset, htimers⟩ := fire_timers env h ht he howns
  have hinstalled : e.serial ∈ s.registry.map (·.serial) := List.mem_map_of_mem he
  have hnone : (set.filter fun t' => !(s.registry.map (·.serial)).contains t'.entry) = [] := by
    refine List.filter_eq_nil_iff.mpr fun t' ht' => ?_
    rw [hset t' ht', List.contains_iff_mem.mpr hinstalled]
    exact Bool.false_ne_true
  rw [orphans, orphans, hregistry, map_serial_replaceEntry, htimers, List.filter_append, hnone,
    List.append_nil, List.filter_filter]
  refine List.filter_congr fun t' ht' => ?_
  by_cases hsame : t'.serial = t.serial
  · rw [h.timer_eq_of_serial ht' ht hsame, howns.serial, List.contains_iff_mem.mpr hinstalled]
    rfl
  · simp [hsame]

/-- An orphan that fires is one less. -/
lemma drop_orphans (h : s.Timed) (ht : t ∈ s.orphans) :
    s.orphans.length = (s.drop t).orphans.length + 1 := by
  have hdrop : (s.drop t).orphans = s.orphans.filter (·.serial ≠ t.serial) := List.filter_comm _ _ _
  have hserials : (s.orphans.map (·.serial)).Nodup :=
    h.timers_nodup.sublist (List.filter_sublist.map _)
  obtain ⟨before, later, hsplit, hothers⟩ := exists_split_of_nodup hserials ht
  have hkept : ∀ l : List Timer, (∀ t' ∈ l, t' ∈ before ++ later) →
      l.filter (·.serial ≠ t.serial) = l := fun l hl =>
    List.filter_eq_self.mpr fun t' ht' => decide_eq_true (hothers t' (hl t' ht'))
  rw [hdrop, hsplit, List.filter_append, hkept before fun t' ht' => List.mem_append_left _ ht',
    List.filter_cons_of_neg (by simp), hkept later fun t' ht' => List.mem_append_right _ ht',
    List.length_append, List.length_append, List.length_cons, Nat.add_assoc]

/-- Each firing uses up one of those that are still to come. -/
lemma fire_toCome (h : s.Timed) (ht : t ∈ s.timers) :
    s.toCome = (fire (handler env 0) t s).toCome + 1 := by
  rcases h.orphan_or_owned ht with horphan | ⟨e, he, howns⟩
  · rw [fire_of_isStale ((h.isStale_iff ht).mpr horphan), toCome, drop_orphans h horphan]
    rfl
  · rw [toCome, toCome, fire_pending env h ht he howns, fire_orphans env h ht he howns,
      Nat.add_right_comm]

lemma handovers_nextItems (s : Session) (e : PartEntry) :
    handovers e.serial (s.nextItems e) =
      (e.part.queue.take 1).map fun event => ⟨s.adapters, true, event⟩ := by
  rcases hqueue : e.part.queue with _ | ⟨event, rest⟩
  · by_cases hhook : s.hooks.ended = true
    · simp [nextItems, hqueue, endItems, hhook, handovers, LogItem.handover?]
    · simp [nextItems, hqueue, endItems, hhook, handovers, LogItem.handover?]
  · simp [nextItems, hqueue, handovers, LogItem.handover?]

lemma endings_nextItems (s : Session) (e : PartEntry) :
    endings e.index (s.nextItems e) =
      if e.part.queue = [] ∧ s.hooks.ended = true then 1 else 0 := by
  rcases hqueue : e.part.queue with _ | ⟨event, rest⟩
  · by_cases hhook : s.hooks.ended = true
    · simp [nextItems, hqueue, endItems, hhook, endings, LogItem.isEnding]
    · simp [nextItems, hqueue, endItems, hhook, endings, LogItem.isEnding]
  · simp [nextItems, hqueue, endings, LogItem.isEnding]

lemma doings_nextItems (s : Session) {e y : PartEntry} (hserial : y.serial ≠ e.serial)
    (hindex : y.index ≠ e.index) : doings y.index y.serial (s.nextItems e) = [] := by
  rcases hqueue : e.part.queue with _ | ⟨event, rest⟩
  · by_cases hhook : s.hooks.ended = true
    · simp [nextItems, hqueue, endItems, hhook, doings, LogItem.isFor, hserial.symm, hindex.symm]
    · simp [nextItems, hqueue, endItems, hhook, doings, LogItem.isFor, hserial.symm]
  · simp [nextItems, hqueue, doings, LogItem.isFor, hserial.symm]

/-- The event of the timer is stopped and the next one, if there is one, is started. -/
lemma fire_handovers (h : s.Timed) (ht : t ∈ s.timers) (he : e ∈ s.registry)
    (howns : e.Owns t) :
    handovers e.serial (fire (handler env 0) t s).log =
      handovers e.serial s.log ++ ⟨s.adapters, false, t.event⟩ ::
        (e.part.queue.take 1).map fun event => ⟨s.adapters, true, event⟩ := by
  obtain ⟨-, -, stopping, next, hasides, hlog⟩ := fire_effect env h ht he howns
  have hstopping := handovers_asides (fun i hi => hasides i (List.mem_append_left _ hi)) e.serial
  have hnext := handovers_asides (fun i hi => hasides i (List.mem_append_right _ hi)) e.serial
  rw [hlog, handovers_append, handovers_append, handovers_append, hstopping, hnext,
    handovers_nextItems, handovers_cons, handovers_cons]
  simp [LogItem.handover?]
  rfl

/-- If no event is left, the hook is told once that the part has ended. -/
lemma fire_endings (h : s.Timed) (ht : t ∈ s.timers) (he : e ∈ s.registry)
    (howns : e.Owns t) :
    endings e.index (fire (handler env 0) t s).log =
      endings e.index s.log + if e.part.queue = [] ∧ s.hooks.ended = true then 1 else 0 := by
  obtain ⟨-, -, stopping, next, hasides, hlog⟩ := fire_effect env h ht he howns
  have hstopping := endings_asides (fun i hi => hasides i (List.mem_append_left _ hi)) e.index
  have hnext := endings_asides (fun i hi => hasides i (List.mem_append_right _ hi)) e.index
  have hlast : endings e.index (.dispatched t.due e.index e.serial s.adapters false t.event ::
      .fired t.due :: s.log) = endings e.index s.log := by
    simp [endings, LogItem.isEnding]
  rw [hlog, endings_append, endings_append, endings_append, hstopping, hnext, endings_nextItems,
    hlast, Nat.add_zero, Nat.zero_add]
  rfl

/-- Nothing is done for another entry. -/
lemma fire_doings (h : s.Timed) (ht : t ∈ s.timers) (he : e ∈ s.registry) (howns : e.Owns t)
    {y : PartEntry} (hserial : y.serial ≠ e.serial) (hindex : y.index ≠ e.index) :
    doings y.index y.serial (fire (handler env 0) t s).log = doings y.index y.serial s.log := by
  obtain ⟨-, -, stopping, next, hasides, hlog⟩ := fire_effect env h ht he howns
  have hstopping :=
    doings_asides (fun i hi => hasides i (List.mem_append_left _ hi)) hindex y.serial
  have hnext := doings_asides (fun i hi => hasides i (List.mem_append_right _ hi)) hindex y.serial
  have hlast : doings y.index y.serial (.dispatched t.due e.index e.serial s.adapters false
      t.event :: .fired t.due :: s.log) = doings y.index y.serial s.log := by
    simp [doings, LogItem.isFor, hserial.symm]
  rw [hlog, doings_append, doings_append, doings_append, hstopping, hnext,
    doings_nextItems _ hserial hindex, hlast]
  rfl

end

/-! ## What many firings do -/

/-- How firings take an entry on, from one session to a later one.  An entry that does not play is
left alone.  One that plays takes events in order, each of which is started; when none is left it
stops playing, and then the hook is told once. -/
structure PartEntry.Advances (s s' : Session) (e e' : PartEntry) : Prop where
  index : e'.index = e.index
  serial : e'.serial = e.serial
  events : e'.part.events = e.part.events
  idle : e.isPlaying = false →
    e' = e ∧ doings e.index e.serial s'.log = doings e.index e.serial s.log
  playing : e.isPlaying = true → ∃ taken, e.part.queue = taken ++ e'.part.queue ∧
    e'.lastEvent = taken.getLast?.or e.lastEvent ∧
    starts e.serial s'.log = starts e.serial s.log ++ taken
  ended : e.isPlaying = true → e'.isPlaying = false → e'.part.queue = []
  endings : e.isPlaying = true → endings e.index s'.log = endings e.index s.log +
    if e'.isPlaying = false ∧ s.hooks.ended = true then 1 else 0

/-- Firings take all entries on, each in its place. -/
structure Session.Advances (s s' : Session) : Prop where
  hooks : s'.hooks = s.hooks
  entries : List.Forall₂ (PartEntry.Advances s s') s.registry s'.registry

namespace PartEntry

/-- What was not touched has started nothing and ended nothing. -/
lemma starts_of_doings {log log' : List LogItem} {index entry : Nat}
    (h : doings index entry log' = doings index entry log) :
    starts entry log' = starts entry log := by
  rw [starts, starts, ← handovers_doings index, h, handovers_doings]

lemma endings_of_doings {log log' : List LogItem} {index entry : Nat}
    (h : doings index entry log' = doings index entry log) :
    MusicMacro.endings index log' = MusicMacro.endings index log := by
  rw [← endings_doings index entry, h, endings_doings]

/-- An entry for which nothing was done is as it was. -/
lemma Advances.of_doings {s s' : Session} {e : PartEntry}
    (h : doings e.index e.serial s'.log = doings e.index e.serial s.log) : e.Advances s s' e where
  index := rfl
  serial := rfl
  events := rfl
  idle := fun _ => ⟨rfl, h⟩
  playing := fun _ => ⟨[], rfl, rfl, by rw [starts_of_doings h, List.append_nil]⟩
  ended := fun hplaying hend => by rw [hplaying] at hend; cases hend
  endings := fun hplaying => by simp [endings_of_doings h, hplaying]

lemma Advances.trans {s s' s'' : Session} {e e' e'' : PartEntry} (hooks : s'.hooks = s.hooks)
    (h : e.Advances s s' e') (h' : e'.Advances s' s'' e'') : e.Advances s s'' e'' where
  index := h'.index.trans h.index
  serial := h'.serial.trans h.serial
  events := h'.events.trans h.events
  idle := by
    intro hidle
    obtain ⟨rfl, hdoings⟩ := h.idle hidle
    obtain ⟨rfl, hdoings'⟩ := h'.idle hidle
    exact ⟨rfl, hdoings'.trans hdoings⟩
  playing := by
    intro hplaying
    obtain ⟨taken, hqueue, hlast, hstarts⟩ := h.playing hplaying
    rcases hnow : e'.isPlaying with _ | _
    · obtain ⟨rfl, hdoings⟩ := h'.idle hnow
      refine ⟨taken, hqueue, hlast, ?_⟩
      rw [← h.serial, starts_of_doings hdoings, h.serial, hstarts]
    · obtain ⟨taken', hqueue', hlast', hstarts'⟩ := h'.playing hnow
      refine ⟨taken ++ taken', ?_, ?_, ?_⟩
      · rw [hqueue, hqueue', List.append_assoc]
      · rw [hlast', hlast, List.getLast?_append, Option.or_assoc]
      · rw [← h.serial, hstarts', h.serial, hstarts, List.append_assoc]
  ended := by
    intro hplaying hend
    rcases hnow : e'.isPlaying with _ | _
    · obtain ⟨rfl, -⟩ := h'.idle hnow
      exact h.ended hplaying hnow
    · exact h'.ended hnow hend
  endings := by
    intro hplaying
    have hfirst := h.endings hplaying
    rcases hnow : e'.isPlaying with _ | _
    · obtain ⟨rfl, hdoings⟩ := h'.idle hnow
      rw [← h.index, endings_of_doings hdoings, h.index, hfirst]
    · have hsecond := h'.endings hnow
      rw [h.index, hooks] at hsecond
      rw [hsecond, hfirst]
      simp [hnow]

end PartEntry

section

variable (env : Environment) {s s' s'' : Session} {t : Timer}

open Session

lemma Session.Advances.refl (s : Session) : s.Advances s :=
  ⟨rfl, List.forall₂_same.mpr fun _ _ => PartEntry.Advances.of_doings rfl⟩

lemma Session.Advances.trans (h : s.Advances s') (h' : s'.Advances s'') : s.Advances s'' := by
  refine ⟨h'.hooks.trans h.hooks, ?_⟩
  obtain ⟨hhooks, hfirst⟩ := h
  obtain ⟨-, hsecond⟩ := h'
  generalize s.registry = l at hfirst
  generalize s'.registry = l' at hfirst hsecond
  generalize s''.registry = l'' at hsecond
  induction hfirst generalizing l'' with
  | nil =>
      cases hsecond
      exact List.Forall₂.nil
  | cons he _ ih =>
      cases hsecond with
      | cons he' hrest => exact List.Forall₂.cons (he.trans hhooks he') (ih _ hrest)

/-- The entry of a timer that fires takes its next event or ends. -/
lemma fire_rung {e : PartEntry} (h : s.Timed) (ht : t ∈ s.timers) (he : e ∈ s.registry)
    (howns : e.Owns t) : e.Advances s (fire (handler env 0) t s) (e.rung s.created) := by
  have hplays := howns.isPlaying
  have hhandovers := fire_handovers env h ht he howns
  have hendings := fire_endings env h ht he howns
  have hstarts : starts e.serial (fire (handler env 0) t s).log =
      starts e.serial s.log ++ e.part.queue.take 1 := by
    rw [starts, hhandovers, starts]
    cases e.part.queue with
    | nil => simp
    | cons event rest => simp
  rcases hqueue : e.part.queue with _ | ⟨event, rest⟩
  · have hrung : e.rung s.created = { e with timer := none } := by rw [PartEntry.rung, hqueue]
    rw [hrung]
    refine ⟨rfl, rfl, rfl, fun hidle => ?_, fun _ => ⟨[], ?_, rfl, ?_⟩, fun _ _ => hqueue,
      fun _ => ?_⟩
    · rw [hplays] at hidle
      cases hidle
    · exact List.nil_append _
    · rw [hstarts, hqueue, List.take_nil]
    · simpa [hqueue, PartEntry.isPlaying] using hendings
  · have hrung : e.rung s.created =
        { e with
          part := { e.part with queue := rest }
          timer := some s.created
          lastEvent := some event } := by rw [PartEntry.rung, hqueue]
    rw [hrung]
    refine ⟨rfl, rfl, rfl, fun hidle => ?_, fun _ => ⟨[event], ?_, rfl, ?_⟩, fun _ hend => ?_,
      fun _ => ?_⟩
    · rw [hplays] at hidle
      cases hidle
    · exact hqueue
    · rw [hstarts, hqueue]
      rfl
    · cases hend
    · simpa [hqueue, PartEntry.isPlaying] using hendings

/-- One firing takes all entries on. -/
lemma fire_advances (h : s.Timed) (ht : t ∈ s.timers) : s.Advances (fire (handler env 0) t s) := by
  rcases h.orphan_or_owned ht with horphan | ⟨e, he, howns⟩
  · rw [fire_of_isStale ((h.isStale_iff ht).mpr horphan)]
    exact ⟨rfl, List.forall₂_same.mpr fun _ _ => PartEntry.Advances.of_doings rfl⟩
  · obtain ⟨hhooks, hregistry, -⟩ := fire_effect env h ht he howns
    refine ⟨hhooks, ?_⟩
    rw [hregistry, replaceEntry, List.forall₂_map_right_iff, List.forall₂_same]
    intro y hy
    rw [e.rung_serial]
    by_cases hserial : y.serial = e.serial
    · rw [if_pos hserial, h.eq_of_serial (List.mem_append_left _ hy) (List.mem_append_left _ he)
        hserial]
      exact fire_rung env h ht he howns
    · have hindex : y.index ≠ e.index := fun heq =>
        hserial (by rw [List.inj_on_of_nodup_map h.indices hy he heq])
      rw [if_neg hserial]
      exact PartEntry.Advances.of_doings (fire_doings env h ht he howns hserial hindex)

/-! ## Firing until nothing is left -/

/-- As long as a firing is still to come there is a timer. -/
lemma Session.Timed.timers_eq_nil_iff (h : s.Timed) : s.timers = [] ↔ s.toCome = 0 := by
  rw [toCome, Nat.add_eq_zero_iff, pending, List.sum_eq_zero_iff_forall_eq_nat,
    List.length_eq_zero_iff]
  constructor
  · intro hnil
    refine ⟨fun n hn => ?_, by rw [orphans, hnil, List.filter_nil]⟩
    obtain ⟨e, he, rfl⟩ := List.mem_map.mp hn
    rw [PartEntry.pending, e.not_isPlaying_iff.mpr (h.timer_eq_none hnil he)]
    rfl
  · rintro ⟨hzero, horphans⟩
    refine List.eq_nil_iff_forall_not_mem.mpr fun t ht => ?_
    rcases h.orphan_or_owned ht with horphan | ⟨e, he, howns⟩
    · rw [horphans] at horphan
      cases horphan
    · have hpending := hzero e.pending (List.mem_map_of_mem he)
      rw [PartEntry.pending, if_pos howns.isPlaying] at hpending
      cases hpending

/-- Firings take all entries on, use up as many of those to come as there are of them, and stop
short of the limit only when no timer is left. -/
lemma fireWhile_advances (limit : Nat) (h : s.Timed) :
    s.Advances (fireWhile (handler env 0) (fun _ => true) limit s).1 ∧
      (fireWhile (handler env 0) (fun _ => true) limit s).1.Timed ∧
      (fireWhile (handler env 0) (fun _ => true) limit s).2 +
        (fireWhile (handler env 0) (fun _ => true) limit s).1.toCome = s.toCome ∧
      ((fireWhile (handler env 0) (fun _ => true) limit s).2 = limit ∨
        (fireWhile (handler env 0) (fun _ => true) limit s).2 < limit ∧
          (fireWhile (handler env 0) (fun _ => true) limit s).1.timers = []) := by
  induction limit generalizing s with
  | zero => exact ⟨Advances.refl s, h, Nat.zero_add _, Or.inl rfl⟩
  | succ limit ih =>
      rcases firstTimer?_cases (fun _ => true) s.timers with ⟨hnil, hnone⟩ | ⟨t, ht, hsome⟩
      · have hstop : fireWhile (handler env 0) (fun _ => true) (limit + 1) s = (s, 0) := by
          simp [fireWhile, hnone]
        rw [List.filter_true] at hnil
        rw [hstop]
        exact ⟨Advances.refl s, h, Nat.zero_add _, Or.inr ⟨Nat.succ_pos _, hnil⟩⟩
      · have hgo : fireWhile (handler env 0) (fun _ => true) (limit + 1) s =
            let later := fireWhile (handler env 0) (fun _ => true) limit (fire (handler env 0) t s)
            (later.1, later.2 + 1) := by
          simp [fireWhile, hsome]
        rw [List.filter_true] at ht
        have htimed := fire_keeps timed_invariant env 0 h ht
        obtain ⟨hadvances, htimed', htoCome, hlimit⟩ := ih htimed
        have hfirst := fire_toCome env h ht
        rw [hgo]
        refine ⟨(fire_advances env h ht).trans hadvances, htimed', ?_, ?_⟩
        · simp only
          omega
        · rcases hlimit with hall | ⟨hless, hnil⟩
          · exact Or.inl (congrArg (· + 1) hall)
          · exact Or.inr ⟨Nat.succ_lt_succ hless, hnil⟩

end

/-- How an entry that plays is left when it has run out, from one session to a later one: it has
taken all its events, each of which was started once, in order, and the hook was told once. -/
structure PartEntry.RunsOut (s s' : Session) (e e' : PartEntry) : Prop where
  entry : e' = { e with
    part := { e.part with queue := [] }
    timer := none
    lastEvent := e.part.queue.getLast?.or e.lastEvent }
  starts : starts e.serial s'.log = starts e.serial s.log ++ e.part.queue
  endings : endings e.index s'.log =
    endings e.index s.log + if s.hooks.ended then 1 else 0

/-- An entry on behalf of which nothing was done. -/
structure PartEntry.Rests (s s' : Session) (e e' : PartEntry) : Prop where
  entry : e' = e
  doings : doings e.index e.serial s'.log = doings e.index e.serial s.log

/-- Entries that advance until no timer is left have run out, or rested all the time. -/
lemma PartEntry.Advances.runsOut {s s' : Session} {e e' : PartEntry} (h : e.Advances s s' e')
    (hidle : e'.isPlaying = false) :
    if e.isPlaying then e.RunsOut s s' e' else e.Rests s s' e' := by
  split
  case isTrue hplaying =>
    obtain ⟨taken, hqueue, hlast, hstarts⟩ := h.playing hplaying
    have hempty := h.ended hplaying hidle
    rw [hempty, List.append_nil] at hqueue
    refine ⟨?_, by rw [hstarts, hqueue], ?_⟩
    · obtain ⟨index, serial, ⟨events, queue⟩, timer, lastEvent⟩ := e'
      have hindex : index = e.index := h.index
      have hserial : serial = e.serial := h.serial
      have hevents : events = e.part.events := h.events
      have htimer : timer = none := (not_isPlaying_iff _).mp hidle
      simp only at hempty hlast
      rw [hindex, hserial, hevents, hempty, htimer, hlast, hqueue]
    · rw [h.endings hplaying]
      simp [hidle]
  case isFalse hrests =>
    obtain ⟨hentry, hdoings⟩ := h.idle (by simpa using hrests)
    exact ⟨hentry, hdoings⟩

/-- **Parts run out.**  Take any session that a run leads to, whatever was called back in it, and
let only timers fire from then on, in due order, in an environment that does not call back.  As
many fire as are still to come, wherever calls fail: one for each event that a playing part has
not taken and one for each such part, and one for each orphan, of which there are none unless
something was called back before.  Then no timer is left, each of the parts that played has run
out, and the others have rested. -/
theorem playing_parts_run_out (past env : Environment) (pastDepth depth : Nat)
    (passive : env.IsPassive) (hooks : Hooks) (policy : ErrorPolicy) (moves : List Move)
    (limit : Nat) :
    let s := (Session.initial hooks policy).after past pastDepth moves
    let r := fireWhile (handler env depth) (fun _ => true) limit s
    (past.IsPassive → s.orphans = []) ∧
    r.2 = min limit (s.pending + s.orphans.length) ∧
    (s.pending + s.orphans.length ≤ limit →
      r.1.timers = [] ∧
      List.Forall₂ (fun e e' => if e.isPlaying then e.RunsOut s r.1 e' else e.Rests s r.1 e')
        s.registry r.1.registry) := by
  intro s r
  have hs : s.Timed := after_timed past pastDepth hooks policy moves
  have hr : r = fireWhile (handler env 0) (fun _ => true) limit s := by
    rw [← handler_eq_zero passive depth]
  obtain ⟨hadvances, htimed, htoCome, hlimit⟩ := fireWhile_advances env limit hs
  rw [← hr] at hadvances htimed htoCome hlimit
  have hnil := htimed.timers_eq_nil_iff
  have hsum : s.toCome = s.pending + s.orphans.length := rfl
  refine ⟨fun hpast => ?_, ?_, fun hle => ?_⟩
  · exact (after_wellTimed hpast pastDepth hooks policy moves).orphans_eq
  · rcases hlimit with hall | ⟨hless, hempty⟩
    · omega
    · rw [hnil] at hempty
      omega
  · have hempty : r.1.timers = [] := by
      rcases hlimit with hall | ⟨-, hempty⟩
      · rw [hnil]
        omega
      · exact hempty
    have hidle : ∀ e' ∈ r.1.registry, e'.isPlaying = false := fun e' he' =>
      e'.not_isPlaying_iff.mpr (htimed.timer_eq_none hempty he')
    obtain ⟨hlength, hzip⟩ := List.forall₂_iff_zip.mp hadvances.entries
    refine ⟨hempty, List.forall₂_iff_zip.mpr ⟨hlength, fun {e e'} hmem => ?_⟩⟩
    exact (hzip hmem).runsOut (hidle e' (List.of_mem_zip hmem).2)

/-- A part that plays is at the first of its two events; every call that starts an event or tells
that the part has ended fails.  Another part was not played. -/
theorem part_runs_out_when_calls_fail :
    (Environment.failing [.startGenerator, .ended]).IsPassive ∧
      let env := Environment.failing [.startGenerator, .ended]
      let s := (Session.initial .all .abort).after env 0
        [.prepare (.generators 1 "list") ["T60 O4 C4 D4", "T60 O3 C1"] none,
          .play (.ofIndex 0) none none]
      let r := fireWhile (handler env 0) (fun _ => true) 5 s
      s.registry.map (·.pending) = [2, 0] ∧ s.pending + s.orphans.length = 2 ∧
        (env.IsPassive → s.orphans = []) ∧
        r.2 = min 5 (s.pending + s.orphans.length) ∧
        (s.pending + s.orphans.length ≤ 5 →
          r.1.timers = [] ∧
          List.Forall₂ (fun e e' => if e.isPlaying then e.RunsOut s r.1 e' else e.Rests s r.1 e')
            s.registry r.1.registry) :=
  ⟨Environment.failing_isPassive _, by decide +kernel, by decide +kernel,
    playing_parts_run_out _ _ 0 0 (Environment.failing_isPassive _) _ _ _ 5⟩

end MusicMacro
