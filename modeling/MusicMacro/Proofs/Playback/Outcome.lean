import Mathlib.Tactic.Set
import MusicMacro.Proofs.Playback.Dispatch

/-!
# What each operation does

For an environment that only answers, each operation of playback comes down to a few changes of
the session, around which the log is written:

* `play` arms a part and starts its next event, or finishes the part (`play_cases`);
* a timer of a part that plays goes off, its event is stopped and the part plays on
  (`fire_eq_ring`);
* `halt` disarms all parts and then stops their events (`halt_apply`, `stopEntry_notes`);
* `prepare` halts, clears, adopts a source and installs parts, and can end early after each of
  the first three (`prepare_cases`).

Everything that is proved of runs is proved from these.
-/

namespace MusicMacro

variable (env : Environment)

/-- Only the flag and those who wait are concerned when it is checked whether anything plays. -/
lemma Session.updateIdle_eq (s : Session) :
    ∃ idle waiters, s.updateIdle = { s with idle := idle, waiters := waiters } := by
  unfold Session.updateIdle
  split
  · exact ⟨_, _, rfl⟩
  · exact ⟨s.idle, s.waiters, rfl⟩

/-- Disarming takes back the timers that entries name, and names none any more. -/
lemma Session.disarm_eq (s : Session) :
    ∃ idle waiters, s.disarm =
      { s with
        timers := s.timers.filter fun t => !(s.registry.filterMap (·.timer)).contains t.serial
        registry := s.registry.map fun e => { e with timer := none }
        idle := idle
        waiters := waiters } := by
  obtain ⟨idle, waiters, hs⟩ := Session.updateIdle_eq { s with
    timers := s.timers.filter fun t => !(s.registry.filterMap (·.timer)).contains t.serial
    registry := s.registry.map fun e => { e with timer := none } }
  exact ⟨idle, waiters, by rw [Session.disarm, hs]⟩

lemma Session.disarm_log (s : Session) : s.disarm.log = s.log := by
  obtain ⟨idle, waiters, hs⟩ := s.disarm_eq
  rw [hs]

/-! ## Playing -/

/-- If the part of the index is played, this event of this entry is taken, and the rest is left. -/
structure Session.Takes (s : Session) (index : Nat) (e : PartEntry) (event : Event)
    (rest : List Event) : Prop where
  entry : s.entryAt? index = some e
  source : s.adapter ≠ none
  idle : e.isPlaying = false
  queue : e.part.queue = event :: rest

section

variable {s : Session} {index : Nat} (handle : Handler) (routing onProcess : Option String)

/-- The event that is taken is started, once its entry has been armed for it. -/
lemma Session.Takes.play_eq {e : PartEntry} {event : Event} {rest : List Event}
    (h : s.Takes index e event rest) :
    ∃ adapter, s.adapter = some adapter ∧ play handle index routing onProcess s =
      startEvent handle adapter s.adapters e.index e.serial event routing onProcess
        (s.arm e { e.part with queue := rest } event routing onProcess) := by
  obtain ⟨adapter, hadapter⟩ := Option.ne_none_iff_exists'.mp h.source
  exact ⟨adapter, hadapter, by simp [play, h.entry, hadapter, h.idle, Part.take?, h.queue]⟩

/-- Where no event can be taken, to play is to tell that the part has ended, or to do nothing. -/
lemma play_of_not_takes (h : ¬ ∃ e event rest, s.Takes index e event rest) :
    (play handle index routing onProcess s).1 = s ∨
      ∃ e, s.entryAt? index = some e ∧ e.part.queue = [] ∧
        play handle index routing onProcess s =
          (tellEnded handle e.index e.serial).andThen (.change Session.updateIdle) s := by
  rcases hentry : s.entryAt? index with _ | e
  · exact Or.inl (by simp [play, hentry])
  rcases hadapter : s.adapter with _ | adapter
  · exact Or.inl (by simp [play, hentry, hadapter])
  by_cases hplaying : e.isPlaying = true
  · exact Or.inl (by simp [play, hentry, hadapter, hplaying])
  have hidle : e.isPlaying = false := by simpa using hplaying
  rcases hqueue : e.part.queue with _ | ⟨event, rest⟩
  · exact Or.inr ⟨e, rfl, hqueue, by
      simp [play, hentry, hadapter, hidle, Part.take?, hqueue]⟩
  · exact absurd ⟨e, event, rest, hentry, by simp [hadapter], hidle, hqueue⟩ h

end

namespace Session

/-- An entry has ended: this is logged and the hook is told, if it is installed. -/
def tellEnd (s : Session) (entry : PartEntry) : Session :=
  let marked := s.record (.finished s.clock entry.index entry.serial)
  if s.hooks.ended then marked.recordCall entry.index .ended else marked

/-- Whether the next telling that a part has ended fails. -/
def endingFails (s : Session) : Bool := s.hooks.ended && (env .ended (s.countOf .ended)).fails

/-- An entry has ended, and unless the hook failed it is checked whether anything still plays. -/
def finish (s : Session) (entry : PartEntry) : Session :=
  if s.endingFails env then s.tellEnd entry else (s.tellEnd entry).updateIdle

/-- What is logged when an entry has ended, the latest first. -/
def endItems (s : Session) (entry : PartEntry) : List LogItem :=
  (if s.hooks.ended then [.call s.clock entry.index .ended] else []) ++
    [.finished s.clock entry.index entry.serial]

lemma tellEnd_eq (s : Session) (entry : PartEntry) :
    ∃ counts, s.tellEnd entry = { s with log := s.endItems entry ++ s.log, counts := counts } := by
  unfold tellEnd endItems
  split
  · exact ⟨_, rfl⟩
  · exact ⟨s.counts, rfl⟩

lemma finish_eq (s : Session) (entry : PartEntry) :
    ∃ counts idle waiters, s.finish env entry =
      { s with
        log := s.endItems entry ++ s.log, counts := counts, idle := idle, waiters := waiters } := by
  obtain ⟨counts, htold⟩ := s.tellEnd_eq entry
  unfold finish
  split
  · exact ⟨counts, s.idle, s.waiters, htold⟩
  · obtain ⟨idle, waiters, hs⟩ := (s.tellEnd entry).updateIdle_eq
    exact ⟨counts, idle, waiters, by rw [hs, htold]⟩

end Session

/-- The error with which telling of an end fails, if it does. -/
def Session.endingError? (s : Session) : Option PlaybackError :=
  if s.endingFails env then some (.raised .ended (s.countOf .ended)) else none

lemma tellEnded_andThen (s : Session) (entry : PartEntry) :
    (tellEnded (handler env 0) entry.index entry.serial).andThen (.change Session.updateIdle) s =
      (s.finish env entry, s.endingError? env) := by
  have hcount : (s.record (.finished s.clock entry.index entry.serial)).countOf .ended =
      s.countOf .ended := rfl
  by_cases hhook : s.hooks.ended = true
  · have htold : tellEnded (handler env 0) entry.index entry.serial s =
        handler env 0 entry.index .ended
          (s.record (.finished s.clock entry.index entry.serial)) := by
      simp only [tellEnded, Step.change_andThen, Step.given_apply, Session.record, hhook, if_true]
    by_cases hfails : (env .ended (s.countOf .ended)).fails = true
    · have herror : (tellEnded (handler env 0) entry.index entry.serial s).2 =
          some (.raised .ended (s.countOf .ended)) := by
        rw [htold, handler_zero_snd, Call.name, hcount, if_pos hfails]
      have hends : s.endingFails env = true := by rw [Session.endingFails, hhook, hfails]; rfl
      rw [Step.andThen_of_some herror, Session.finish, Session.endingError?, if_pos hends,
        if_pos hends, Session.tellEnd, if_pos hhook, ← herror, htold]
      rfl
    · have hnone : (tellEnded (handler env 0) entry.index entry.serial s).2 = none := by
        rw [htold, handler_zero_snd, Call.name, hcount, if_neg hfails]
      have hends : ¬ s.endingFails env = true := by simp [Session.endingFails, hfails]
      rw [Step.andThen_of_none hnone, htold, handler_zero_fst, Session.finish,
        Session.endingError?, if_neg hends, if_neg hends, Session.tellEnd, if_pos hhook]
      rfl
  · have htold : tellEnded (handler env 0) entry.index entry.serial s =
        (s.record (.finished s.clock entry.index entry.serial), none) := by
      simp [tellEnded, Session.record, hhook]
    have hends : ¬ s.endingFails env = true := by simp [Session.endingFails, hhook]
    rw [Step.andThen_of_none (by rw [htold]), htold, Session.finish, Session.endingError?,
      if_neg hends, if_neg hends, Session.tellEnd, if_neg hhook]
    rfl

/-- To play a part is to change nothing, to finish it, or to arm it and start its next event. -/
theorem play_cases (index : Nat) (routing onProcess : Option String) (s : Session) :
    ((s.entryAt? index = none ∨ s.adapter = none ∨
        ∃ entry, s.entryAt? index = some entry ∧ entry.isPlaying = true) ∧
      (play (handler env 0) index routing onProcess s).1 = s) ∨
    (∃ entry adapter, s.entryAt? index = some entry ∧ s.adapter = some adapter ∧
      entry.isPlaying = false ∧ entry.part.queue = [] ∧
      play (handler env 0) index routing onProcess s =
        (s.finish env entry, s.endingError? env)) ∨
    (∃ entry adapter event rest, s.entryAt? index = some entry ∧ s.adapter = some adapter ∧
      entry.isPlaying = false ∧ entry.part.queue = event :: rest ∧
      ((s.arm entry { entry.part with queue := rest } event routing onProcess).record
        (.dispatched s.clock entry.index entry.serial s.adapters true event)).Notes
          (LogItem.IsAside entry.index) (play (handler env 0) index routing onProcess s).1) := by
  rcases hentry : s.entryAt? index with _ | entry
  · exact Or.inl ⟨Or.inl rfl, by simp [play, hentry]⟩
  rcases hadapter : s.adapter with _ | adapter
  · exact Or.inl ⟨Or.inr (Or.inl rfl), by simp [play, hentry, hadapter]⟩
  by_cases hplaying : entry.isPlaying = true
  · refine Or.inl ⟨Or.inr (Or.inr ⟨entry, rfl, hplaying⟩), ?_⟩
    simp [play, hentry, hadapter, hplaying]
  have hidle : entry.isPlaying = false := by simpa using hplaying
  right
  rcases hqueue : entry.part.queue with _ | ⟨event, rest⟩
  · left
    refine ⟨entry, adapter, rfl, rfl, hidle, hqueue, ?_⟩
    rw [← tellEnded_andThen]
    simp [play, hentry, hadapter, hidle, Part.take?, hqueue]
  · right
    refine ⟨entry, adapter, event, rest, rfl, rfl, hidle, hqueue, ?_⟩
    have hplay : play (handler env 0) index routing onProcess s =
        startEvent (handler env 0) adapter s.adapters entry.index entry.serial event routing
          onProcess (s.arm entry { entry.part with queue := rest } event routing onProcess) := by
      simp [play, hentry, hadapter, hidle, Part.take?, hqueue]
    rw [hplay]
    exact startEvent_notes env adapter s.adapters entry.index entry.serial event routing onProcess _

/-! ## Timers -/

namespace Session

/-- A timer goes off: it is gone, the clock stands at its due time, and the entry has none. -/
def ring (s : Session) (t : Timer) (entry : PartEntry) : Session :=
  { s.replaceEntry { entry with timer := none } with
    timers := s.timers.filter (·.serial ≠ t.serial)
    clock := t.due
    log := .fired t.due :: s.log }

/-- An error that comes out of a timer is logged. -/
def escape (s : Session) (e : Option PlaybackError) : Session :=
  e.elim s fun e => s.record (.escaped e)

/-- A timer finds no part that it belongs to, or one that does not play. -/
def IsStale (s : Session) (t : Timer) : Prop :=
  ∀ entry, s.entryAt? t.index = some entry → entry.serial ≠ t.entry ∨ entry.isPlaying = false

/-- A timer goes off and is gone, and nothing comes of it. -/
def drop (s : Session) (t : Timer) : Session :=
  { s with
    timers := s.timers.filter (·.serial ≠ t.serial)
    clock := t.due
    log := .fired t.due :: s.log }

end Session

/-- Nothing comes of a stale timer. -/
lemma fire_of_isStale {handle : Handler} {t : Timer} {s : Session} (h : s.IsStale t) :
    fire handle t s = s.drop t := by
  have hat : (s.drop t).entryAt? t.index = s.entryAt? t.index := rfl
  have helapse : elapse handle t (s.drop t) = (s.drop t, none) := by
    rcases hentry : s.entryAt? t.index with _ | entry
    · simp [elapse, hat, hentry]
    · rcases h entry hentry with hserial | hidle
      · simp [elapse, hat, hentry, hserial]
      · simp [elapse, hat, hentry, hidle]
  have hstarted : ({ s with
      timers := s.timers.filter (·.serial ≠ t.serial), clock := t.due }.record (.fired t.due)) =
      s.drop t := rfl
  rw [fire, hstarted, helapse]

/-- What a part does when its timer goes off: its event is stopped, and it plays on whether or not
that fails. -/
def playOn (handle : Handler) (t : Timer) (entry : PartEntry) : Step :=
  (stopEvent handle entry.index entry.serial t.event t.onProcess).andAlways
    (play handle entry.index t.routing t.onProcess)

/-- A timer that is not stale is taken from its part, which then plays on. -/
lemma elapse_of_playing {handle : Handler} {t : Timer} {s : Session} {entry : PartEntry}
    (hentry : s.entryAt? t.index = some entry) (hserial : entry.serial = t.entry)
    (hplaying : entry.isPlaying = true) :
    elapse handle t s = playOn handle t entry (s.replaceEntry { entry with timer := none }) := by
  simp [elapse, hentry, hserial, hplaying, playOn]

/-- When the timer of a part that plays fires, it goes off and the part plays on. -/
lemma fire_eq_ring {handle : Handler} {t : Timer} {s : Session} {entry : PartEntry}
    (hentry : s.entryAt? t.index = some entry) (hserial : entry.serial = t.entry)
    (hplaying : entry.isPlaying = true) :
    fire handle t s =
      (playOn handle t entry (s.ring t entry)).1.escape
        (playOn handle t entry (s.ring t entry)).2 := by
  have helapse : elapse handle t ({ s with
        timers := s.timers.filter (·.serial ≠ t.serial), clock := t.due }.record (.fired t.due)) =
      playOn handle t entry (s.ring t entry) :=
    elapse_of_playing (s := Session.record _ _) hentry hserial hplaying
  rw [fire, helapse]
  generalize playOn handle t entry (s.ring t entry) = r
  rcases r with ⟨s', _ | e⟩
  · rfl
  · rfl

lemma Session.escape_notes (index : Nat) (s : Session) (e : Option PlaybackError) :
    s.Notes (LogItem.IsAside index) (s.escape e) := by
  rcases e with _ | e
  · exact Session.Notes.refl s
  · exact Session.record_notes trivial

/-! ## Halting -/

/-- An item that is written while events are stopped. -/
def LogItem.IsStopping (item : LogItem) : Prop :=
  (∃ index, item.IsAside index) ∨
    ∃ time index entry adapter event, item = .dispatched time index entry adapter false event

/-- To halt is to disarm all parts and then to stop the events of those that played. -/
lemma halt_apply (handle : Handler) (onProcess : Option String) (s : Session) :
    halt handle onProcess s =
      Step.forEach (stopEntry handle onProcess) (s.registry.filter (·.isPlaying)) s.disarm := rfl

lemma stopEntry_notes (onProcess : Option String) (entry : PartEntry) :
    (stopEntry (handler env 0) onProcess entry).Notes LogItem.IsStopping := by
  refine Step.Leads.given fun s => ?_
  split
  case h_2 => exact Step.skip_leads
  case h_1 event adapter _ _ =>
    intro s'
    rcases hadapter : s'.adapter with _ | adapter
    · simpa [stopEvent, hadapter] using Session.Notes.refl s'
    · have hrest := stopEvent_notes env hadapter entry.index entry.serial event onProcess
      have hfirst : s'.Notes LogItem.IsStopping
          (s'.record (.dispatched s'.clock entry.index entry.serial s'.adapters false event)) :=
        Session.record_notes (Or.inr ⟨_, _, _, _, _, rfl⟩)
      exact hfirst.trans (hrest.mono fun item h => Or.inl ⟨_, h⟩)

/-- A halt disarms all parts; the rest only writes to the log. -/
lemma halt_notes (onProcess : Option String) (s : Session) :
    s.disarm.Notes LogItem.IsStopping (halt (handler env 0) onProcess s).1 := by
  rw [halt_apply]
  exact Step.Leads.forEach (fun entry _ => stopEntry_notes env onProcess entry) s.disarm

/-! ## Preparing -/

/-- An item that is written while strings are compiled. -/
def LogItem.IsReport (item : LogItem) : Prop := ∃ index, item.IsAside index

lemma reportOutcome_notes (o : PartOutcome) :
    (reportOutcome (handler env 0) o).Notes LogItem.IsReport := by
  have hreport : ∀ {item : LogItem}, item.IsAside o.index → item.IsReport := fun h => ⟨_, h⟩
  refine reportOutcome_leads (fun w s => (warned_isAside o.index w s).mono fun _ => hreport) ?_
  have hcall := fun e => handler_notes env o.index (c := .refused e) (by simp [Call.name])
  exact fun e s => (hcall e s).mono fun _ => hreport

namespace Session

section

variable {s : Session} {index : Nat}

lemma installPart_of_none (hnone : s.entryAt? index = none) (events : List Event) :
    s.installPart index events =
      { s with
        registry := s.registry ++ [⟨index, s.created, .ofEvents events, none, none⟩]
        created := s.created + 1 } := by
  have hfree : ({ s with created := s.created + 1 } : Session).entryAt? index = none := hnone
  simp only [installPart, hfree]

lemma installPart_of_some {old : PartEntry} (hsome : s.entryAt? index = some old)
    (events : List Event) :
    s.installPart index events =
      { s with
        registry := s.registry.map fun e =>
          if e.index = index then ⟨index, s.created, .ofEvents events, none, none⟩ else e
        discarded := old :: s.discarded
        created := s.created + 1 } := by
  have htaken : ({ s with created := s.created + 1 } : Session).entryAt? index = some old := hsome
  simp only [installPart, htaken]

/-- Only entries are concerned when a part is installed. -/
lemma installPart_eq (s : Session) (index : Nat) (events : List Event) :
    ∃ registry discarded, s.installPart index events =
      { s with registry := registry, discarded := discarded, created := s.created + 1 } := by
  cases hentry : s.entryAt? index with
  | none => exact ⟨_, s.discarded, installPart_of_none hentry events⟩
  | some old => exact ⟨_, _, installPart_of_some hentry events⟩

/-- Beside the entry of a part that is installed there are only those of before. -/
lemma eq_or_mem_of_installPart {events : List Event} {e : PartEntry}
    (he : e ∈ (s.installPart index events).registry) :
    e = ⟨index, s.created, .ofEvents events, none, none⟩ ∨ e ∈ s.registry := by
  cases hentry : s.entryAt? index with
  | none =>
      rw [installPart_of_none hentry] at he
      exact (List.mem_append.mp he).symm.imp_left List.mem_singleton.mp
  | some old =>
      rw [installPart_of_some hentry] at he
      obtain ⟨y, hy, rfl⟩ := List.mem_map.mp he
      split
      · exact .inl rfl
      · exact .inr hy

end

/-- Installs parts one after another. -/
def installParts (s : Session) (parts : List (Nat × List Event)) : Session :=
  parts.foldl (fun s p => s.installPart p.1 p.2) s

/-- What leads on with each report and each part does so while strings are installed. -/
lemma installTexts_leads {R : Session → Session → Prop} [IsPreorder Session R] {handle : Handler}
    (hreports : ∀ o, (reportOutcome handle o).Leads R)
    (hinstall : ∀ s index events, R s (s.installPart index events)) (texts : List String) :
    (installTexts handle texts).Leads R := by
  have hparts : ∀ (parts : List (Nat × List Event)) (s : Session), R s (s.installParts parts) := by
    intro parts
    induction parts with
    | nil => exact fun s => refl_of R s
    | cons p rest ih => exact fun s => trans_of R (hinstall s p.1 p.2) (ih _)
  exact Step.Leads.given fun s =>
    Step.Leads.andThen (Step.Leads.forEach fun o _ => hreports o) fun s => hparts _ s

/-- The entries of parts that are newly installed, numbered from a number on. -/
def freshEntries (serial : Nat) : List (Nat × List Event) → List PartEntry
  | [] => []
  | (index, events) :: rest =>
    ⟨index, serial, .ofEvents events, none, none⟩ :: freshEntries (serial + 1) rest

lemma map_serial_freshEntries (serial : Nat) (parts : List (Nat × List Event)) :
    (freshEntries serial parts).map (·.serial) = List.range' serial parts.length := by
  induction parts generalizing serial with
  | nil => rfl
  | cons p rest ih => simp [freshEntries, ih, List.range'_succ]

/-- A newly installed entry was never played and has all its events before it. -/
lemma eq_of_mem_freshEntries {serial : Nat} {parts : List (Nat × List Event)} {e : PartEntry}
    (he : e ∈ freshEntries serial parts) :
    (e.index, e.part.events) ∈ parts ∧ e.part.queue = e.part.events ∧ e.timer = none ∧
      e.lastEvent = none := by
  induction parts generalizing serial with
  | nil => exact absurd he List.not_mem_nil
  | cons p rest ih =>
      rcases List.mem_cons.mp he with rfl | he
      · exact ⟨List.mem_cons_self, rfl, rfl, rfl⟩
      · obtain ⟨hmem, hrest⟩ := ih he
        exact ⟨List.mem_cons_of_mem p hmem, hrest⟩

lemma entryAt?_eq_none_iff {s : Session} {index : Nat} :
    s.entryAt? index = none ↔ ∀ e ∈ s.registry, e.index ≠ index := by
  simp [entryAt?, List.find?_eq_none]

/-- Parts with indices of their own are installed after the others. -/
lemma installParts_eq {s : Session} {parts : List (Nat × List Event)}
    (hparts : (parts.map (·.1)).Nodup) (hfree : ∀ p ∈ parts, s.entryAt? p.1 = none) :
    s.installParts parts =
      { s with
        registry := s.registry ++ freshEntries s.created parts
        created := s.created + parts.length } := by
  induction parts generalizing s with
  | nil => simp [installParts, freshEntries]
  | cons p rest ih =>
      obtain ⟨hnot, hrest⟩ := List.nodup_cons.mp hparts
      set entry : PartEntry := ⟨p.1, s.created, .ofEvents p.2, none, none⟩ with hentry
      have hfirst : s.installPart p.1 p.2 =
          { s with registry := s.registry ++ [entry], created := s.created + 1 } :=
        installPart_of_none (hfree p List.mem_cons_self) p.2
      have hstill : ∀ q ∈ rest, (s.installPart p.1 p.2).entryAt? q.1 = none := by
        intro q hq
        rw [hfirst, entryAt?_eq_none_iff]
        intro e he
        rcases List.mem_append.mp he with he | he
        · exact entryAt?_eq_none_iff.mp (hfree q (List.mem_cons_of_mem p hq)) e he
        · rw [List.mem_singleton.mp he]
          exact fun heq => hnot (List.mem_map.mpr ⟨q, hq, heq.symm⟩)
      have hlater := ih hrest hstill
      rw [installParts, List.foldl_cons, ← installParts, hlater, hfirst]
      simp [freshEntries, hentry, Nat.add_assoc, Nat.add_comm 1]

/-- Where no part is installed, the new ones are all there is. -/
lemma installParts_of_nil {s : Session} (hnone : s.registry = []) {parts : List (Nat × List Event)}
    (hparts : (parts.map (·.1)).Nodup) :
    s.installParts parts =
      { s with
        registry := freshEntries s.created parts
        created := s.created + parts.length } := by
  have hfree : ∀ p ∈ parts, s.entryAt? p.1 = none := by
    intro p _
    rw [entryAt?_eq_none_iff, hnone]
    exact fun e he => absurd he List.not_mem_nil
  rw [installParts_eq hparts hfree, hnone, List.nil_append]

end Session

/-- To install a batch ends when a report fails; else the parts that the policy keeps are
installed. -/
lemma installTexts_cases (texts : List String) (s : Session) :
    ∃ s', s.Notes LogItem.IsReport s' ∧
      ((∃ e, installTexts (handler env 0) texts s = (s', some e)) ∨
        installTexts (handler env 0) texts s =
          (s'.installParts (installedParts s.policy (outcomesFrom s.policy 0 texts)), none)) := by
  set outcomes := outcomesFrom s.policy 0 texts with houtcomes
  set reports := Step.forEach (reportOutcome (handler env 0)) outcomes with hreports
  have hnotes : s.Notes LogItem.IsReport (reports s).1 :=
    Step.Leads.forEach (fun o _ => reportOutcome_notes env o) s
  have hpolicy : (reports s).1.policy = s.policy := by rw [hnotes.eq_log]
  have hinstall : installTexts (handler env 0) texts s =
      reports.andThen (.change fun s => s.installParts (installedParts s.policy outcomes)) s := by
    simp only [installTexts, Step.given_apply, ← houtcomes, hreports, Session.installParts]
  refine ⟨(reports s).1, hnotes, ?_⟩
  rw [hinstall]
  rcases herror : (reports s).2 with _ | e
  · right
    rw [Step.andThen_of_none herror, Step.change_apply, hpolicy]
  · left
    exact ⟨e, by rw [Step.andThen_of_some herror, ← herror]⟩

/-- To prepare ends when halting fails, when the source cannot be wrapped, or when a report
fails; else the parts of the batch are installed. -/
theorem prepare_cases (source : SoundSource) (shape : Option SourceShape) (texts : List String)
    (s : Session) :
    ((halt (handler env 0) none s).2 ≠ none ∧
      prepare (handler env 0) source shape texts s = halt (handler env 0) none s) ∨
    ((halt (handler env 0) none s).2 = none ∧ ∃ e, source.adapter shape = .error e ∧
      prepare (handler env 0) source shape texts s =
        ((halt (handler env 0) none s).1.clear, some (.source e))) ∨
    ((halt (handler env 0) none s).2 = none ∧ ∃ adapter s', source.adapter shape = .ok adapter ∧
      ((halt (handler env 0) none s).1.clear.adopt adapter).Notes LogItem.IsReport s' ∧
      ((∃ e, prepare (handler env 0) source shape texts s = (s', some e)) ∨
        prepare (handler env 0) source shape texts s =
          (s'.installParts (installedParts s.policy (outcomesFrom s.policy 0 texts)), none))) := by
  rcases hhalt : (halt (handler env 0) none s).2 with _ | e
  case some =>
    left
    refine ⟨by simp, ?_⟩
    rw [prepare, Step.andThen_of_some (e := e)]
    · exact Step.andThen_of_some hhalt
    · rw [Step.andThen_of_some hhalt, hhalt]
  right
  have hclear : ((halt (handler env 0) none).andThen (.change Session.clear)) s =
      ((halt (handler env 0) none s).1.clear, none) := by
    rw [Step.andThen_of_none hhalt, Step.change_apply]
  rw [prepare, Step.andThen_of_none (by rw [hclear]), hclear]
  rcases hsource : source.adapter shape with e | adapter
  · exact Or.inl ⟨rfl, e, rfl, rfl⟩
  right
  have hpolicy : ((halt (handler env 0) none s).1.clear.adopt adapter).policy = s.policy := by
    obtain ⟨idle, waiters, hdisarm⟩ := s.disarm_eq
    rw [(halt_notes env none s).eq_log, hdisarm]
    rfl
  obtain ⟨s', hnotes, hinstalled⟩ :=
    installTexts_cases env texts ((halt (handler env 0) none s).1.clear.adopt adapter)
  rw [hpolicy] at hinstalled
  refine ⟨rfl, adapter, s', rfl, hnotes, ?_⟩
  simp only [Step.change_andThen]
  exact hinstalled

end MusicMacro
