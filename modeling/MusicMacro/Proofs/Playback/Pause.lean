import MusicMacro.Proofs.Playback.Idle
import MusicMacro.Proofs.Playback.Independence
import MusicMacro.Proofs.Playback.RunOut
import MusicMacro.Proofs.Playback.Silencing

/-!
# A halt only pauses

A halt ends early when a stop fails, but by then it has taken back all timers, and the stops only
write to the log.  So it leaves behind what a halt that succeeds does: the parts that played are
paused, each after the event it was at, and nothing is done for the others
(`halt_only_pauses`).  A second halt finds nothing to do.

What a paused part goes on with does not depend on what becomes of the other parts in the meantime
(`Session.HasPaused`).  That it is the event after the one that was halted comes from the order in
which events are taken, which every change of a session keeps (`PartEntry.InOrder`).
-/

namespace MusicMacro

open Session

/-! ## What a halt does -/

/-- The item tells of the stop of the event that the entry is at: that it is handed to the source
of a number, a call for it, or a warning. -/
def LogItem.IsStopOf (e : PartEntry) (number : Nat) : LogItem → Prop
  | .call _ i c => i = e.index ∧ c.IsStopping
  | .dispatched _ i n adapter starting event =>
    i = e.index ∧ n = e.serial ∧ adapter = number ∧ starting = false ∧ e.lastEvent = some event
  | .warned _ => True
  | _ => False

/-- The item tells of the stop of a part that plays in the session. -/
def Session.Stops (s : Session) (item : LogItem) : Prop :=
  ∃ e ∈ s.registry, e.isPlaying = true ∧ item.IsStopOf e s.adapters

/-- All that played is paused.  Beside the timers, the flag and those who wait nothing has changed,
and nothing was done but to stop what played. -/
structure Session.Pauses (s s' : Session) : Prop where
  frame : s' =
    { s with
      timers := []
      registry := s.registry.map fun e => { e with timer := none }
      idle := true
      waiters := s'.waiters
      counts := s'.counts
      log := s'.log }
  log : s.log <:+ s'.log
  stops : ∀ item ∈ s.since s', s.Stops item

lemma LogItem.IsStopOf.isFor_eq {e : PartEntry} {number index entry : Nat} {item : LogItem}
    (h : item.IsStopOf e number) (hindex : e.index ≠ index) (hserial : e.serial ≠ entry) :
    item.isFor index entry = false := by
  cases item with
  | call time i c => exact decide_eq_false (h.1 ▸ hindex)
  | dispatched time i n adapter starting event => exact decide_eq_false (h.2.1 ▸ hserial)
  | finished => exact h.elim
  | _ => rfl

/-- For a part that did not play nothing was done. -/
lemma Session.Pauses.doings_eq {s s' : Session} (h : s.Pauses s') (hs : s.Timed) {e : PartEntry}
    (he : e ∈ s.registry) (hidle : e.isPlaying = false) :
    doings e.index e.serial (s.since s') = [] := by
  refine List.filter_eq_nil_iff.mpr fun item hitem => ?_
  obtain ⟨y, hy, hplays, hstop⟩ := h.stops item hitem
  have hne : y ≠ e := by
    rintro rfl
    rw [hidle] at hplays
    cases hplays
  have hindex : y.index ≠ e.index := fun heq => hne (List.inj_on_of_nodup_map hs.indices hy he heq)
  have hserial : y.serial ≠ e.serial := fun heq =>
    hne (hs.eq_of_serial (List.mem_append_left _ hy) (List.mem_append_left _ he) heq)
  simp [hstop.isFor_eq hindex hserial]

section

variable (env : Environment) {s : Session} (onProcess : Option String)

/-- To stop the event that an entry is at writes to the log only of this. -/
lemma stopEvent_isStopOf {adapter : Adapter} (hadapter : s.adapter = some adapter) {e : PartEntry}
    {event : Event} (hevent : e.lastEvent = some event) :
    s.Notes (·.IsStopOf e s.adapters)
      (stopEvent (handler env 0) e.index e.serial event onProcess s).1 := by
  have hcall (c : Call) (hc : c.IsStopping) :
      (handler env 0 e.index c).Notes (·.IsStopOf e s.adapters) :=
    fun _ => recordCall_notes ⟨rfl, hc⟩ hc.name_ne_ended
  have hrest : Step.Notes (·.IsStopOf e s.adapters)
      ((adapter.stop (handler env 0) e.index event onProcess).andThen
        (tellTones (·.stopped) (fun tone => handler env 0 e.index (.stopped event tone.place))
          event)) :=
    Step.Leads.andThen
      (adapter.stop_leads (fun _ => Step.change_record_notes trivial) hcall event onProcess)
      (tellTones_leads _ event fun tone => hcall (.stopped event tone.place) trivial)
  simp only [stopEvent, Step.given_apply, hadapter, Step.change_andThen]
  exact (record_notes ⟨rfl, rfl, rfl, rfl, hevent⟩).trans (hrest _)

/-- A halt disarms all parts; the rest only writes to the log, and only of stops. -/
lemma halt_stops (h : s.Timed) :
    s.disarm.Notes s.Stops (halt (handler env 0) onProcess s).1 := by
  -- Each entry is stopped in the session the stops before it left; by then only the log differs.
  have heach : ∀ e ∈ s.registry.filter (·.isPlaying),
      (stopEntry (handler env 0) onProcess e).Keeps (s.disarm.Notes s.Stops) := by
    intro e he u hu
    obtain ⟨hmem, hplays⟩ := List.mem_filter.mp he
    obtain ⟨event, adapter, hevent, hadapter, hnumber, hstop⟩ :=
      stopEntry_of_playing h hmem hplays (handler env 0) onProcess hu
    rw [hstop]
    exact hu.trans ((stopEvent_isStopOf env onProcess hadapter hevent).mono fun item hi =>
      ⟨e, hmem, hplays, hnumber ▸ hi⟩)
  rw [halt_apply]
  exact Step.Leads.forEach heach s.disarm (Notes.refl _)

/-- Wherever a halt ends, it pauses what played. -/
lemma halt_pauses (h : s.WellTimed) : s.Pauses (halt (handler env 0) onProcess s).1 := by
  obtain ⟨idle, waiters, hdisarm⟩ := h.toTimed.disarm_eq
  obtain ⟨items, counts, hhalted, hitems, -⟩ := halt_stops env onProcess h.toTimed
  rw [hdisarm, h.orphans_eq] at hhalted
  have hidle : idle = true := by
    have hwatch := congrArg Watch.idle (halt_watch env onProcess s)
    rwa [Watch.silence_tell_idle, hhalted] at hwatch
  subst hidle
  constructor
  case frame => rw [hhalted]
  case log =>
    rw [hhalted]
    exact List.suffix_append items s.log
  case stops =>
    have hlog : (halt (handler env 0) onProcess s).1.log = items ++ s.log :=
      congrArg Session.log hhalted
    rw [since_eq hlog]
    exact hitems

end

/-- Where no part plays and this was told, a halt does nothing, whatever the outside would do. -/
lemma halt_of_paused {s : Session} (h : ∀ e ∈ s.registry, e.timer = none) (hidle : s.idle = true)
    (handle : Handler) (onProcess : Option String) : halt handle onProcess s = (s, none) := by
  have hplaying : s.registry.filter (·.isPlaying) = [] :=
    List.filter_eq_nil_iff.mpr fun e he => by simp [e.not_isPlaying_iff.mpr (h e he)]
  have htimers : (s.timers.filter fun t =>
      !(s.registry.filterMap (·.timer)).contains t.serial) = s.timers := by
    simp [List.filterMap_eq_nil_iff.mpr h]
  have hentries : (s.registry.map fun e => { e with timer := none }) = s.registry := by
    conv_rhs => rw [← List.map_id s.registry]
    refine List.map_congr_left fun e he => ?_
    rw [← h e he]
    rfl
  have hdisarm : s.disarm = s := by
    rw [Session.disarm, htimers, hentries, updateIdle, if_neg (by simp [hidle])]
  rw [halt_apply, hplaying, hdisarm]
  rfl

/-! ## The order of the events of a part -/

/-- The events that were taken are the first of the part, and the last of them is remembered. -/
def PartEntry.InOrder (e : PartEntry) : Prop :=
  ∃ taken, e.part.events = taken ++ e.part.queue ∧ e.lastEvent = taken.getLast?

/-- Events are taken in order whatever is called back. -/
lemma inOrder_invariant : Session.Invariant fun s => ∀ e ∈ s.registry, e.InOrder where
  sameParts := fun h hsame => hsame.registry ▸ h
  arm := by
    intro s e event rest _ _ h he _ _ hqueue y hy
    rcases mem_replaceEntry.mp hy with ⟨rfl, -⟩ | ⟨hy, -⟩
    · obtain ⟨taken, hevents, -⟩ := h e he
      exact ⟨taken ++ [event], by simp [hevents, hqueue], by simp⟩
    · exact h y hy
  ring := by
    intro s t e h _ he _ _ y hy
    rcases mem_replaceEntry.mp hy with ⟨rfl, -⟩ | ⟨hy, -⟩
    · exact h e he
    · exact h y hy
  drop := fun h _ _ => h
  disarm := by
    intro s h y hy
    obtain ⟨idle, waiters, hs⟩ := s.disarm_eq
    rw [hs] at hy
    obtain ⟨e, he, rfl⟩ := List.mem_map.mp hy
    exact h e he
  clear := fun _ _ he => absurd he List.not_mem_nil
  adopt := fun _ h => h
  install := by
    intro s index events h y hy
    rcases eq_or_mem_of_installPart hy with rfl | hy
    · exact ⟨[], rfl, rfl⟩
    · exact h y hy

/-- After every run the events that a part took are the first of it. -/
lemma after_inOrder (env : Environment) (depth : Nat) (hooks : Hooks) (policy : ErrorPolicy)
    (moves : List Move) :
    ∀ e ∈ ((Session.initial hooks policy).after env depth moves).registry, e.InOrder :=
  after_of_invariant inOrder_invariant env depth (fun _ he => absurd he List.not_mem_nil) moves

/-- What an entry that is at an event has left are the events after this one. -/
lemma PartEntry.InOrder.events_eq {e : PartEntry} (h : e.InOrder) {event : Event}
    (hevent : e.lastEvent = some event) :
    ∃ taken, e.part.events = taken ++ event :: e.part.queue := by
  obtain ⟨taken, hevents, hlast⟩ := h
  obtain ⟨before, rfl⟩ := List.getLast?_eq_some_iff.mp (hlast.symm.trans hevent)
  exact ⟨before, by rw [hevents, List.append_assoc, List.singleton_append]⟩

/-! ## While a part is paused -/

/-- The move neither plays the part of the index nor prepares a batch. -/
def Move.LeavesOut (index : Nat) : Move → Prop
  | .prepare _ _ _ | .playAll _ _ => False
  | .play part _ _ => part.index? ≠ some index
  | _ => True

/-- The entry is installed and does not play, and there is a source, which has this number. -/
structure Session.HasPaused (x : PartEntry) (number : Nat) (s : Session) : Prop
    extends Session.Timed s where
  installed : x ∈ s.registry
  idle : x.timer = none
  source : s.adapter ≠ none
  number_eq : s.adapters = number

namespace Session.HasPaused

variable {x : PartEntry} {number : Nat} {s s' : Session}

lemma sameParts (h : s.HasPaused x number) (hsame : s.SameParts s') : s'.HasPaused x number where
  toTimed := h.toTimed.sameParts hsame
  installed := hsame.registry ▸ h.installed
  idle := h.idle
  source := hsame.adapter ▸ h.source
  number_eq := hsame.adapters ▸ h.number_eq

/-- Another entry is another one by its number. -/
lemma serial_ne (h : s.HasPaused x number) {e : PartEntry} (he : e ∈ s.registry)
    (hne : e.index ≠ x.index) : x.serial ≠ e.serial := fun heq =>
  hne (by rw [h.eq_of_serial (List.mem_append_left _ h.installed) (List.mem_append_left _ he) heq])

lemma arm (h : s.HasPaused x number) {i : Nat} (hi : i ≠ x.index) {e : PartEntry} {event : Event}
    {rest : List Event} (htakes : s.Takes i e event rest) (routing onProcess : Option String) :
    (s.arm e { e.part with queue := rest } event routing onProcess).HasPaused x number := by
  obtain ⟨he, hindex⟩ := mem_of_entryAt? htakes.entry
  have hserial := h.serial_ne he (hindex ▸ hi)
  exact ⟨h.toTimed.arm he htakes.source htakes.idle _ event routing onProcess,
    mem_replaceEntry.mpr (Or.inr ⟨h.installed, hserial⟩), h.idle, h.source, h.number_eq⟩

lemma ring (h : s.HasPaused x number) {t : Timer} {e : PartEntry} (ht : t ∈ s.timers)
    (he : e ∈ s.registry) (howns : e.Owns t) (hne : e.index ≠ x.index) :
    (s.ring t e).HasPaused x number := by
  have hserial := h.serial_ne he hne
  exact ⟨h.toTimed.ring ht he howns, mem_replaceEntry.mpr (Or.inr ⟨h.installed, hserial⟩), h.idle,
    h.source, h.number_eq⟩

lemma drop (h : s.HasPaused x number) {t : Timer} (ht : t ∈ s.timers) (hstale : s.IsStale t) :
    (s.drop t).HasPaused x number :=
  ⟨h.toTimed.drop ht hstale, h.installed, h.idle, h.source, h.number_eq⟩

lemma disarm (h : s.HasPaused x number) : s.disarm.HasPaused x number := by
  have htimed := h.toTimed.disarm
  obtain ⟨idle, waiters, hs⟩ := s.disarm_eq
  rw [hs] at htimed ⊢
  have hmem : x ∈ s.registry.map fun e => { e with timer := none } :=
    List.mem_map.mpr ⟨x, h.installed, by rw [← h.idle]⟩
  exact ⟨htimed, hmem, h.idle, h.source, h.number_eq⟩

/-- A timer that goes off is not that of the paused entry. -/
lemma index_ne (h : s.HasPaused x number) {t : Timer} {e : PartEntry} (he : e ∈ s.registry)
    (howns : e.Owns t) : e.index ≠ x.index := by
  intro heq
  have htimer := howns.timer
  rw [List.inj_on_of_nodup_map h.indices he h.installed heq, h.idle] at htimer
  cases htimer

end Session.HasPaused

section

variable (env : Environment) {x : PartEntry} {number : Nat}

lemma handler_keeps_hasPaused (i : Nat) (c : Call) :
    (handler env 0 i c).Keeps (HasPaused x number) :=
  fun _ h => h.sameParts ⟨rfl, rfl, rfl, rfl, rfl, rfl⟩

lemma record_keeps_hasPaused (item : LogItem) {s : Session} (h : s.HasPaused x number) :
    (s.record item).HasPaused x number :=
  h.sameParts ⟨rfl, rfl, rfl, rfl, rfl, rfl⟩

/-- Another part is played. -/
lemma play_keeps_hasPaused {i : Nat} (hi : i ≠ x.index) (routing onProcess : Option String) :
    (play (handler env 0) i routing onProcess).Keeps (HasPaused x number) := by
  intro s h
  refine play_leads_of_calls (R := fun s s' => s.HasPaused x number → s'.HasPaused x number)
    (fun _ _ => record_keeps_hasPaused _) (handler_keeps_hasPaused env i) (fun s hs => ?_) routing
    onProcess (fun _ _ _ item _ => record_keeps_hasPaused item)
    (fun e event rest htakes hs => hs.arm hi htakes routing onProcess) h
  obtain ⟨idle, waiters, hidle⟩ := s.updateIdle_eq
  rw [Step.change_apply, hidle]
  exact hs.sameParts ⟨rfl, rfl, rfl, rfl, rfl, rfl⟩

lemma halt_keeps_hasPaused (onProcess : Option String) :
    (halt (handler env 0) onProcess).Keeps (HasPaused x number) :=
  fun s h => h.disarm.sameParts (halt_notes env onProcess s).sameParts

/-- The timer of another part fires. -/
lemma fire_keeps_hasPaused {s : Session} (h : s.HasPaused x number) {t : Timer}
    (ht : t ∈ s.timers) : (fire (handler env 0) t s).HasPaused x number := by
  rcases h.orphan_or_owned ht with horphan | ⟨e, he, howns⟩
  · have hstale := (h.isStale_iff ht).mpr horphan
    rw [fire_of_isStale hstale]
    exact h.drop ht hstale
  · have hne := h.index_ne he howns
    have hplaysOn : (playOn (handler env 0) t e).Keeps (HasPaused x number) :=
      Step.Leads.andAlways
        (stopEvent_leads_of_calls (fun _ _ => record_keeps_hasPaused _)
          (handler_keeps_hasPaused env e.index) (fun _ => record_keeps_hasPaused _) t.onProcess)
        (play_keeps_hasPaused env hne t.routing t.onProcess)
    rw [fire_eq_ring (h.entryAt?_of_owns he howns) howns.serial.symm howns.isPlaying]
    exact (hplaysOn _ (h.ring ht he howns hne)).sameParts (escape_notes e.index _ _).sameParts

/-- A paused part stays as it is while other parts are played and halted and timers fire. -/
lemma move_keeps_hasPaused {m : Move} (hm : m.LeavesOut x.index) {s : Session}
    (h : s.HasPaused x number) : (s.move env 0 m).HasPaused x number := by
  have hsettled {s' : Session} (h' : s'.HasPaused x number) :
      s'.settleWaiters.HasPaused x number := h'.sameParts ⟨rfl, rfl, rfl, rfl, rfl, rfl⟩
  cases m with
  | prepare source texts shape => exact hm.elim
  | playAll routing onProcess => exact hm.elim
  | play part routing onProcess =>
      rcases @move_play env 0 s part routing onProcess with ⟨-, hs⟩ | ⟨e, hentry, hs⟩
      · rw [hs]
        exact hsettled h
      · obtain ⟨i, hi, hat⟩ := Option.bind_eq_some_iff.mp hentry
        have hne : e.index ≠ x.index := fun heq =>
          hm (by rw [hi, ← (mem_of_entryAt? hat).2, heq])
        rw [hs]
        exact hsettled (play_keeps_hasPaused env hne routing onProcess s h)
  | halt onProcess =>
      rw [move_halt]
      exact hsettled (halt_keeps_hasPaused env onProcess s h)
  | install hooks => exact h.sameParts ⟨rfl, rfl, rfl, rfl, rfl, rfl⟩
  | wait => exact h.sameParts ⟨rfl, rfl, rfl, rfl, rfl, rfl⟩
  | fire serial =>
      rw [move]
      rcases ht : s.timerOf? serial with _ | t
      · exact h
      · exact fire_keeps_hasPaused env h (mem_of_timerOf? ht).1
  | pass time => exact h.sameParts (s.sameDoings_moveClock time).toSameParts

end

/-! ## How a paused part goes on -/

/-- From one session to a later one the entry went on with the first of the events it had left, on
the source of a number: the event was started and nothing else was handed over, and the entry is at
it.  If none was left, nothing was handed over and the entry does not play. -/
structure PartEntry.GoesOn (number : Nat) (s s' : Session) (e : PartEntry) : Prop where
  entry : s'.entryAt? e.index = some (e.rung s.created)
  handovers : handovers e.serial (s.since s') =
    (e.part.queue.take 1).map fun event => ⟨number, true, event⟩

section

variable (env : Environment) {x : PartEntry} {number : Nat} {s : Session}
  (h : s.HasPaused x number) (routing onProcess : Option String)

include h

/-- To play a paused part moves its entry on as a timer does, and logs what it goes on with. -/
lemma play_rung :
    x.rung s.created ∈ (play (handler env 0) x.index routing onProcess s).1.registry ∧
      ∃ asides, (∀ item ∈ asides, item.IsAside x.index) ∧
        (play (handler env 0) x.index routing onProcess s).1.log =
          asides ++ s.nextItems x ++ s.log := by
  have hfound := h.entryAt?_of_mem h.installed
  rcases play_cases env x.index routing onProcess s with
    ⟨hskip, -⟩ | ⟨e, adapter, hentry, -, -, hqueue, hs⟩ |
    ⟨e, adapter, event, rest, hentry, -, -, hqueue, hs⟩
  · exfalso
    rcases hskip with hnone | hnone | ⟨e, hentry, hplays⟩
    · rw [hfound] at hnone
      cases hnone
    · exact h.source hnone
    · rw [hfound] at hentry
      cases hentry
      rw [PartEntry.isPlaying, h.idle] at hplays
      cases hplays
  · rw [hfound] at hentry
    cases hentry
    obtain ⟨counts, idle, waiters, hfinish⟩ := s.finish_eq env x
    have hrung : x.rung s.created = x := by
      rw [PartEntry.rung, hqueue, ← h.idle]
    rw [hs, hfinish, hrung, nextItems, hqueue]
    exact ⟨h.installed, [], fun _ hi => absurd hi List.not_mem_nil, rfl⟩
  · rw [hfound] at hentry
    cases hentry
    obtain ⟨asides, hlog, hasides⟩ := hs.log
    rw [hs.registry_eq, hlog, PartEntry.rung, nextItems, hqueue]
    exact ⟨mem_replaceEntry.mpr (Or.inl ⟨rfl, x, h.installed, rfl⟩), asides, hasides, by
      rw [List.append_assoc]; rfl⟩

/-- To play a paused part makes it go on. -/
lemma play_goesOn : x.GoesOn number s (play (handler env 0) x.index routing onProcess s).1 := by
  obtain ⟨hmem, asides, hasides, hlog⟩ := play_rung env h routing onProcess
  constructor
  case entry =>
    have htimed := play_keeps timed_invariant env 0 x.index routing onProcess s h.toTimed
    have hat := htimed.entryAt?_of_mem hmem
    rwa [x.rung_index] at hat
  case handovers =>
    rw [since_eq hlog, handovers_append, handovers_asides hasides, List.append_nil,
      handovers_nextItems, h.number_eq]

/-- To play a paused part by its name makes it go on. -/
lemma move_play_goesOn {part : PartName} (hpart : part.index? = some x.index) :
    x.GoesOn number s (s.move env 0 (.play part routing onProcess)) := by
  have hosts : s.Hosts x.index x.serial := ⟨h.toTimed, x, h.installed, rfl, rfl⟩
  have hgoes := play_goesOn env h routing onProcess
  rw [move_play_self hosts hpart routing onProcess]
  exact ⟨hgoes.entry, hgoes.handovers⟩

end

/-- How an entry goes on does not depend on the timer that it had. -/
lemma PartEntry.GoesOn.of_timer {e : PartEntry} {number : Nat} {s s' : Session}
    (h : PartEntry.GoesOn number s s' { e with timer := none }) : e.GoesOn number s s' :=
  ⟨h.entry, h.handovers⟩

/-- After a halt the parts that played are paused. -/
lemma Session.Pauses.hasPaused {s s' : Session} (h : s.Pauses s') (hs : s.Timed) (hs' : s'.Timed)
    {e : PartEntry} (he : e ∈ s.registry) (hplays : e.isPlaying = true) :
    s'.HasPaused { e with timer := none } s.adapters := by
  obtain ⟨t, ht, -⟩ := hs.owner_of_isPlaying he hplays
  have hsource : s.adapter ≠ none := hs.sourced (List.ne_nil_of_mem ht)
  refine ⟨hs', ?_, rfl, ?_, ?_⟩
  · rw [h.frame]
    exact List.mem_map_of_mem he
  · rw [h.frame]
    exact hsource
  · rw [h.frame]

/-- **A halt only pauses.**  Take any session that a run leads to, wherever calls failed in it, and
halt it, wherever calls fail now.  Then no timer runs, nothing plays and this was told; entries with
their events, those left and those taken last, and the source are as they were; and nothing was
done but to stop what played.  A second halt does nothing.  And a part that was halted goes on with
the event after the one it was halted at when it is next played, whatever becomes of the other
parts until then. -/
theorem halt_only_pauses (past env : Environment) (pastDepth depth : Nat)
    (pastPassive : past.IsPassive) (passive : env.IsPassive) (hooks : Hooks) (policy : ErrorPolicy)
    (moves : List Move) (onProcess : Option String) :
    let s := (Session.initial hooks policy).after past pastDepth moves
    let s' := (halt (handler env depth) onProcess s).1
    (s'.timers = [] ∧ s'.isPaused = true ∧ s'.idle = true) ∧
    s.Pauses s' ∧
    (∀ e ∈ s.registry, e.isPlaying = false → doings e.index e.serial (s.since s') = []) ∧
    (∀ handle again, halt handle again s' = (s', none)) ∧
    ∀ e ∈ s.registry, e.isPlaying = true →
      ∃ taken halted, e.lastEvent = some halted ∧
        e.part.events = taken ++ halted :: e.part.queue ∧
        ∀ env' depth' later part routing onProcess', env'.IsPassive →
          (∀ m ∈ later, m.LeavesOut e.index) → part.index? = some e.index →
            let u := s'.after env' depth' later
            e.GoesOn s.adapters u (u.move env' depth' (.play part routing onProcess')) := by
  intro s s'
  have hs : s.WellTimed := after_wellTimed pastPassive pastDepth hooks policy moves
  have hs' : s'.Timed :=
    halt_leads timed_invariant.guarantee.toPlayGuarantee
      (handler_leads timed_invariant.guarantee env depth) onProcess s hs.toTimed
  have hpauses : s.Pauses s' := by
    have hzero := halt_pauses env onProcess hs
    rwa [← handler_eq_zero passive depth] at hzero
  have htimers : s'.timers = [] := by rw [hpauses.frame]
  have hidle : s'.idle = true := by rw [hpauses.frame]
  have hnone : ∀ e ∈ s'.registry, e.timer = none := fun e he => hs'.timer_eq_none htimers he
  refine ⟨⟨htimers, isPaused_iff.mpr hnone, hidle⟩, hpauses,
    fun e he hrests => hpauses.doings_eq hs.toTimed he hrests,
    fun handle again => halt_of_paused hnone hidle handle again, fun e he hplays => ?_⟩
  obtain ⟨t, -, howns⟩ := hs.toTimed.owner_of_isPlaying he hplays
  obtain ⟨taken, hevents⟩ :=
    (after_inOrder past pastDepth hooks policy moves e he).events_eq howns.event
  refine ⟨taken, t.event, howns.event, hevents, ?_⟩
  intro env' depth' later part routing onProcess' passive' hlater hpart u
  -- Every later move leaves the part out, so it is still as the halt left it.
  have hu : u.HasPaused { e with timer := none } s.adapters := by
    refine after_keeps (fun m hm v hv => ?_) (hpauses.hasPaused hs.toTimed hs' he hplays)
    rw [Session.move_depth passive']
    exact move_keeps_hasPaused (x := { e with timer := none }) env' (hlater m hm) hv
  rw [Session.move_depth passive']
  exact (move_play_goesOn env' hu routing onProcess' hpart).of_timer

/-- Two of three parts play, and the hook fails when it is told that the first of them is stopped.
Afterwards the first part is played and halted once more, and then the second part goes on. -/
theorem halt_only_pauses_when_stop_fails :
    (Environment.failing [.stopped]).IsPassive ∧
      let env := Environment.failing [.stopped]
      let moves : List Move :=
        [.prepare (.generators 1 "list") ["T60 O4 C4 D4", "T60 O4 E4 F4", "T60 O4 G4"] none,
          .play (.ofIndex 0) none none, .play (.ofIndex 1) none none]
      let s := (Session.initial .all .abort).after env 0 moves
      let s' := (halt (handler env 0) none s).1
      let later : List Move := [.play (.ofIndex 0) none none, .halt none]
      let u := s'.after env 0 later
      let v := u.move env 0 (.play (.ofIndex 1) none none)
      ((∀ m ∈ later, m.LeavesOut 1) ∧
        (s.registry.map fun e => (doings e.index e.serial (s.since s')).length) = [3, 0, 0] ∧
        (s.registry.map fun e => (handovers e.serial (s'.since v)).map (·.starting)) =
          [[true, false], [true], []]) ∧
      (s'.timers = [] ∧ s'.isPaused = true ∧ s'.idle = true) ∧
      s.Pauses s' ∧
      (∀ e ∈ s.registry, e.isPlaying = false → doings e.index e.serial (s.since s') = []) ∧
      (∀ handle again, halt handle again s' = (s', none)) ∧
      ∀ e ∈ s.registry, e.isPlaying = true →
        ∃ taken halted, e.lastEvent = some halted ∧
          e.part.events = taken ++ halted :: e.part.queue ∧
          ∀ env' depth' later part routing onProcess', env'.IsPassive →
            (∀ m ∈ later, m.LeavesOut e.index) → part.index? = some e.index →
              let u := s'.after env' depth' later
              e.GoesOn s.adapters u (u.move env' depth' (.play part routing onProcess')) := by
  have hpassive := Environment.failing_isPassive [.stopped]
  have hlater : ∀ m ∈ [Move.play (.ofIndex 0) none none, .halt none], m.LeavesOut 1 := by
    simp only [List.forall_mem_cons, List.not_mem_nil, false_imp_iff, implies_true, and_true]
    exact ⟨by simp only [Move.LeavesOut]; decide +kernel, trivial⟩
  exact ⟨hpassive, ⟨hlater, by decide +kernel, by decide +kernel⟩,
    halt_only_pauses _ _ 0 0 hpassive hpassive _ _ _ none⟩

end MusicMacro
