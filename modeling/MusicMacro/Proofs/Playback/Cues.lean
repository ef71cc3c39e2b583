import MusicMacro.Proofs.Playback.Outlook

/-!
# When the events of a part are handed over

A `Cue` is that an event was started or stopped at a reading of the clock.  `Outlook.Tells` says
all that matters of one part for its cues: what it has still to play, when its timer is due and for
which event, and its cues so far.  In an environment that only answers, to play the part either
starts its next event or changes none of this (`play_tells`), and when its timer fires its event is
stopped at the due time and the next one is started then (`fire_tells`).
-/

namespace MusicMacro

open Session

/-! ## Cues -/

/-- An event was handed over at a reading of the clock, to be started or to be stopped. -/
structure Cue where
  time : Double
  starting : Bool
  event : Event
deriving DecidableEq

/-- The cue that an item tells of, if it is one for the entry. -/
def LogItem.cue? (entry : Nat) : LogItem → Option Cue
  | .dispatched time _ n _ starting event => if n = entry then some ⟨time, starting, event⟩ else none
  | _ => none

/-- The cues of the events of an entry, the earliest first. -/
def cues (entry : Nat) (log : List LogItem) : List Cue := (log.filterMap (·.cue? entry)).reverse

lemma cues_append (entry : Nat) (items log : List LogItem) :
    cues entry (items ++ log) = cues entry log ++ cues entry items := by
  simp only [cues, List.filterMap_append, List.reverse_append]

/-- The cues are among what was done. -/
lemma cues_doings (index entry : Nat) (log : List LogItem) :
    cues entry (doings index entry log) = cues entry log := by
  rw [cues, cues, doings, List.filterMap_filter]
  congr 2
  funext item
  cases item with
  | dispatched time i n adapter starting event =>
      by_cases hn : n = entry
      · simp [LogItem.isFor, hn]
      · simp [LogItem.isFor, LogItem.cue?, hn]
  | _ => simp [LogItem.cue?]

lemma cues_asides {index : Nat} {items : List LogItem} (h : ∀ item ∈ items, item.IsAside index)
    (entry : Nat) : cues entry items = [] := by
  have hnone : items.filterMap (·.cue? entry) = [] := by
    refine List.filterMap_eq_nil_iff.mpr fun item hitem => ?_
    have haside := h item hitem
    cases item with
    | dispatched => exact haside.elim
    | _ => rfl
  rw [cues, hnone, List.reverse_nil]

lemma cues_endItems (s : Session) (e : PartEntry) (entry : Nat) :
    cues entry (s.endItems e) = [] := by
  unfold endItems
  split <;> rfl

/-! ## What an outlook tells -/

/-- There is this part at the index, its timer is set for this event if it plays, and its events
were handed over at these times. -/
structure Outlook.Tells (index entry : Nat) (part : Part) (pending : Option (Double × Event))
    (history : List Cue) (o : Outlook) : Prop where
  entries : o.entries = [(index, part, pending.isSome)]
  timers : o.timers.map (fun t => (t.1, t.2.1)) = pending.toList
  cues : cues entry o.doings = history

section

variable {index entry : Nat} {part : Part} {pending : Option (Double × Event)}
  {history : List Cue} {s s' : Session}

namespace Outlook.Tells

/-- Hooks and sources are of no account. -/
lemma congr (h : (s.outlook index entry).Tells index entry part pending history)
    (hregistry : s'.registry = s.registry) (htimers : s'.timers = s.timers)
    (hlog : s'.log = s.log) : (s'.outlook index entry).Tells index entry part pending history := by
  constructor
  case entries => rw [outlook, hregistry]; exact h.entries
  case timers => rw [outlook, htimers]; exact h.timers
  case cues => rw [outlook, hlog]; exact h.cues

/-- More was logged, and calls were counted. -/
lemma logged (h : (s.outlook index entry).Tells index entry part pending history)
    (items : List LogItem) (hsame : s.SameParts s') (hlog : s'.log = items ++ s.log) :
    (s'.outlook index entry).Tells index entry part pending
      (history ++ MusicMacro.cues entry items) := by
  constructor
  case entries => rw [outlook, hsame.registry]; exact h.entries
  case timers => rw [outlook, hsame.timers]; exact h.timers
  case cues =>
    have hcues := h.cues
    rw [outlook, cues_doings] at hcues
    rw [outlook, cues_doings, hlog, cues_append, hcues]

/-- Items beside the events leave the cues as they are. -/
lemma notes (h : (s.outlook index entry).Tells index entry part pending history) {i : Nat}
    (hnotes : s.Notes (LogItem.IsAside i) s') :
    (s'.outlook index entry).Tells index entry part pending history := by
  obtain ⟨items, hlog, hasides⟩ := hnotes.log
  have htold := h.logged items hnotes.sameParts hlog
  rwa [cues_asides hasides, List.append_nil] at htold

/-- An event of the entry is handed over. -/
lemma dispatched (h : (s.outlook index entry).Tells index entry part pending history)
    (time : Double) (i adapter : Nat) (starting : Bool) (event : Event) :
    ((s.record (.dispatched time i entry adapter starting event)).outlook index entry).Tells
      index entry part pending (history ++ [⟨time, starting, event⟩]) := by
  set item : LogItem := .dispatched time i entry adapter starting event with hitem
  have hcue : MusicMacro.cues entry [item] = [⟨time, starting, event⟩] := by
    simp [hitem, MusicMacro.cues, LogItem.cue?]
  have hsame : s.SameParts (s.record item) := ⟨rfl, rfl, rfl, rfl, rfl, rfl⟩
  rw [← hcue]
  exact h.logged [item] hsame rfl

/-- The entry that is found at the index is the one that is told of. -/
lemma entry_found (h : (s.outlook index entry).Tells index entry part pending history)
    (hosts : s.Hosts index entry) :
    ∃ e ∈ s.registry, e.index = index ∧ e.serial = entry ∧ s.entryAt? index = some e ∧
      e.part = part ∧ e.isPlaying = pending.isSome := by
  obtain ⟨e, he, hindex, hserial, hat, hentries⟩ := hosts.entry_found
  have hsame := hentries.symm.trans h.entries
  simp only [List.cons.injEq, Prod.mk.injEq, and_true, true_and] at hsame
  exact ⟨e, he, hindex, hserial, hat, hsame.1, hsame.2⟩

/-- The timer of an entry that plays is told of. -/
lemma timer_found {due : Double} {event : Event}
    (h : (s.outlook index entry).Tells index entry part (some (due, event)) history) :
    ∃ t ∈ s.timers, t.entry = entry ∧ t.due = due ∧ t.event = event := by
  have htimers := h.timers
  have hin : (due, event) ∈ ((s.timers.filter (·.entry = entry)).map fun t =>
      (t.due, t.event, t.routing, t.onProcess)).map fun t => (t.1, t.2.1) := by
    rw [outlook] at htimers
    rw [htimers]
    exact List.mem_singleton.mpr rfl
  obtain ⟨seen, hseen, hsame⟩ := List.mem_map.mp hin
  obtain ⟨t, ht, rfl⟩ := List.mem_map.mp hseen
  obtain ⟨hmem, hentry⟩ := List.mem_filter.mp ht
  obtain ⟨hdue, hevent⟩ := Prod.mk.inj hsame
  exact ⟨t, hmem, of_decide_eq_true hentry, hdue, hevent⟩

/-- The entry has ended. -/
lemma finish (h : (s.outlook index entry).Tells index entry part pending history)
    (env : Environment) (e : PartEntry) :
    ((s.finish env e).outlook index entry).Tells index entry part pending history := by
  obtain ⟨counts, idle, waiters, hfinish⟩ := s.finish_eq env e
  rw [hfinish, ← List.append_nil history, ← cues_endItems s e entry]
  exact h.logged (s.endItems e) ⟨rfl, rfl, rfl, rfl, rfl, rfl⟩ rfl

/-- The entry is armed for an event that it has taken. -/
lemma arm (h : (s.outlook index entry).Tells index entry part none history) {e : PartEntry}
    (hindex : e.index = index) (hserial : e.serial = entry) (taken : Part) (event : Event)
    (routing onProcess : Option String) :
    ((s.arm e taken event routing onProcess).outlook index entry).Tells index entry taken
      (some (s.clock + event.duration.nearest, event)) history := by
  constructor
  case entries =>
    have hentries := @replaceEntry_entries index entry s
      { e with part := taken, timer := some s.created, lastEvent := some event } hserial
    rw [h.entries] at hentries
    rw [← hindex]
    exact hentries
  case timers =>
    have htimers := h.timers
    simp only [outlook, Option.toList_none, List.map_eq_nil_iff] at htimers
    simp [outlook, Session.arm, List.filter_append, htimers, hserial]
  case cues => exact h.cues

/-- The timer of the entry goes off. -/
lemma ring (h : (s.outlook index entry).Tells index entry part pending history)
    (hosts : s.Hosts index entry) {t : Timer} {e : PartEntry} (ht : t ∈ s.timers)
    (he : e ∈ s.registry) (howns : e.Owns t) (hindex : e.index = index) (hserial : e.serial = entry) :
    ((s.ring t e).outlook index entry).Tells index entry e.part none history := by
  constructor
  case entries =>
    have hentries := @replaceEntry_entries index entry s { e with timer := none } hserial
    rw [h.entries] at hentries
    rw [← hindex]
    exact hentries
  case timers =>
    have honly := hosts.timers_of_owner (List.mem_append_left _ he) ht howns
    rw [hserial] at honly
    have hnone : (s.timers.filter (·.serial ≠ t.serial)).filter (·.entry = entry) = [] := by
      rw [List.filter_comm, honly]
      simp
    rw [outlook, Session.ring, hnone]
    rfl
  case cues => exact h.cues

end Outlook.Tells

/-! ## Playing, and timers that fire -/

variable (env : Environment)

/-- While the part plays, to play it does nothing. -/
lemma play_tells_of_playing (hosts : s.Hosts index entry) {due : Double × Event}
    (h : (s.outlook index entry).Tells index entry part (some due) history)
    (routing onProcess : Option String) :
    (play (handler env 0) index routing onProcess s).1 = s := by
  obtain ⟨e, -, -, -, hat, -, hplaying⟩ := h.entry_found hosts
  rcases hadapter : s.adapter with _ | adapter
  · simp [play, hat, hadapter]
  · simp [play, hat, hadapter, hplaying]

/-- A part that does not play is played: its next event is started, if there is one. -/
lemma play_tells (hosts : s.Hosts index entry)
    (h : (s.outlook index entry).Tells index entry part none history)
    (routing onProcess : Option String) :
    ((play (handler env 0) index routing onProcess s).1.outlook index entry).Tells index entry
        part none history ∨
      ∃ event rest, part.queue = event :: rest ∧
        ((play (handler env 0) index routing onProcess s).1.outlook index entry).Tells index entry
          { part with queue := rest } (some (s.clock + event.duration.nearest, event))
          (history ++ [⟨s.clock, true, event⟩]) := by
  obtain ⟨e, -, hindex, hserial, hat, hpart, -⟩ := h.entry_found hosts
  rcases play_cases env index routing onProcess s with
    ⟨-, hplay⟩ | ⟨e', -, -, -, -, -, hplay⟩ | ⟨e', -, event, rest, hat', -, -, hqueue, hplay⟩
  · left
    rw [hplay]
    exact h
  · left
    rw [hplay]
    exact h.finish env e'
  · right
    rw [hat] at hat'
    cases hat'
    have harmed := h.arm hindex hserial { e.part with queue := rest } event routing onProcess
    rw [hpart] at hqueue
    rw [← hserial] at harmed ⊢
    refine ⟨event, rest, hqueue, ?_⟩
    rw [← hpart]
    exact (harmed.dispatched s.clock e.index s.adapters true event).notes hplay

/-- The timer of the part fires: its event is stopped, and its next one is started at once, if
there is one. -/
lemma fire_tells (hosts : s.Hosts index entry)
    (h : (s.outlook index entry).Tells index entry part pending history) {t : Timer}
    (ht : t ∈ s.timers) (hentry : t.entry = entry) :
    pending = some (t.due, t.event) ∧
      ((part.queue = [] ∧ ((fire (handler env 0) t s).outlook index entry).Tells index entry
          part none (history ++ [⟨t.due, false, t.event⟩])) ∨
        ∃ event rest, part.queue = event :: rest ∧
          ((fire (handler env 0) t s).outlook index entry).Tells index entry
            { part with queue := rest } (some (t.due + event.duration.nearest, event))
            (history ++ [⟨t.due, false, t.event⟩, ⟨t.due, true, event⟩])) := by
  obtain ⟨e, he, hindex, hserial, -, hpart, -⟩ := h.entry_found hosts
  have howns := hosts.owns_of_serial ht (List.mem_append_left _ he) (hserial.trans hentry.symm)
  refine ⟨?_, ?_⟩
  · have honly := hosts.timers_of_owner (List.mem_append_left _ he) ht howns
    have htimers := h.timers
    rw [hserial] at honly
    rw [outlook, honly] at htimers
    rcases pending with _ | due
    · cases htimers
    · simpa using htimers.symm
  · obtain ⟨stopped, hstopped, hrest⟩ := fire_cases env hosts.toTimed ht he howns
    have hring := h.ring hosts ht he howns hindex hserial
    have hclock : stopped.clock = t.due := by rw [hstopped.eq_log]; rfl
    subst hserial
    have htold := (hring.dispatched t.due e.index s.adapters false t.event).notes hstopped
    rcases hrest with ⟨hqueue, hfire⟩ | ⟨event, rest, hqueue, hfire⟩
    · rw [hpart] at hqueue htold
      exact Or.inl ⟨hqueue, (htold.finish env _).notes hfire⟩
    · have harmed := htold.arm (e := { e with timer := none }) hindex rfl
        { e.part with queue := rest } event t.routing t.onProcess
      rw [hclock] at harmed
      have hstarted := (harmed.dispatched t.due e.index s.adapters true event).notes hfire
      rw [hpart] at hqueue hstarted
      rw [List.append_assoc] at hstarted
      exact Or.inr ⟨event, rest, hqueue, hstarted⟩

end

end MusicMacro
