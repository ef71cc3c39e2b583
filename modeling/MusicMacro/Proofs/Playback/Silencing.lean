import MusicMacro.Proofs.Playback.Matching

/-!
# What a halt silences

A halt takes back all timers first and then stops the events of the parts that played, one after
another, up to the first stop that fails.  So the parts before the failure and the one at which it
occurs are silenced, each by one stop of the event it is at; those after it sound on, and no timer
is left that would ever stop them.  `halt_silences_all_iff` says that a halt silences every part
that played exactly if no stop fails but that of the last of them.

The same holds of a batch that is prepared, which halts first (`Session.HaltsTo`).
-/

namespace MusicMacro

open Session

/-- From one session to a later one the event that the entry is at was handed over to be stopped,
once, and no other event of the entry was. -/
def PartEntry.Silenced (s s' : Session) (e : PartEntry) : Prop :=
  ∃ event, e.lastEvent = some event ∧ handovers e.serial (s.since s') = [⟨s.adapters, false, event⟩]

/-- The event that the entry is at, handed to the source of a number to be stopped. -/
def PartEntry.stopping (e : PartEntry) (number : Nat) : List Handover :=
  (e.lastEvent.map fun event => ⟨number, false, event⟩).toList

/-- No event of the entry was handed over, and no timer is left that was set for it. -/
def PartEntry.SoundsOn (s s' : Session) (e : PartEntry) : Prop :=
  handovers e.serial (s.since s') = [] ∧ ∀ t ∈ s'.timers, t.entry ≠ e.serial

/-- A halt gets through the stops of the entries before this one, and then the stop of this one
fails. -/
def Session.FailsToStop (handle : Handler) (onProcess : Option String) (s : Session)
    (before : List PartEntry) (e : PartEntry) : Prop :=
  (Step.forEach (stopEntry handle onProcess) before s.disarm).2 = none ∧
    (stopEntry handle onProcess e
      (Step.forEach (stopEntry handle onProcess) before s.disarm).1).2 ≠ none

/-- The session after a halt, or after a batch was prepared. -/
inductive Session.HaltsTo (handle : Handler) (s : Session) : Option String → Session → Prop
  | halted (onProcess : Option String) : s.HaltsTo handle onProcess (halt handle onProcess s).1
  | prepared (source : SoundSource) (shape : Option SourceShape) (texts : List String) :
    s.HaltsTo handle none (prepare handle source shape texts s).1

/-! ## One stop -/

section

variable (env : Environment) {s : Session} {e : PartEntry}

/-- While a halt stops what played, an entry that played is still found at its event. -/
lemma stopEntry_of_playing (h : s.Timed) (he : e ∈ s.registry) (hplays : e.isPlaying = true)
    (handle : Handler) (onProcess : Option String) {P : LogItem → Prop} {u : Session}
    (hu : s.disarm.Notes P u) :
    ∃ event adapter, e.lastEvent = some event ∧ u.adapter = some adapter ∧
      u.adapters = s.adapters ∧
      stopEntry handle onProcess e u = stopEvent handle e.index e.serial event onProcess u := by
  obtain ⟨t, ht, howns⟩ := h.owner_of_isPlaying he hplays
  obtain ⟨adapter, hadapter⟩ : ∃ adapter, s.adapter = some adapter :=
    Option.ne_none_iff_exists'.mp (h.sourced (List.ne_nil_of_mem ht))
  obtain ⟨idle, waiters, hdisarm⟩ := h.disarm_eq
  have hadapter' : u.adapter = some adapter := by
    rw [hu.eq_log, hdisarm]
    exact hadapter
  have hfound : u.entryOf? e.serial = some { e with timer := none } := by
    have hmem : { e with timer := none } ∈ u.registry := by
      rw [hu.registry_eq, hdisarm]
      exact List.mem_map_of_mem he
    exact (h.disarm.sameParts hu.sameParts).entryOf?_of_mem (List.mem_append_left _ hmem)
  refine ⟨t.event, adapter, howns.event, hadapter', ?_, ?_⟩
  · rw [hu.eq_log, hdisarm]
  · simp only [stopEntry, Step.given_apply, hfound, Option.getD_some, howns.event, hadapter']

/-- The stop of an entry that played hands over the event it is at, whether or not it fails. -/
lemma stopEntry_handovers (h : s.Timed) (he : e ∈ s.registry) (hplays : e.isPlaying = true)
    (onProcess : Option String) {P : LogItem → Prop} {u : Session} (hu : s.disarm.Notes P u)
    (n : Nat) :
    handovers n (stopEntry (handler env 0) onProcess e u).1.log = handovers n u.log ++
      if e.serial = n then e.stopping s.adapters else [] := by
  obtain ⟨event, adapter, hevent, hadapter, hnumber, hstop⟩ :=
    stopEntry_of_playing h he hplays (handler env 0) onProcess hu
  have hnotes := stopEvent_notes env hadapter e.index e.serial event onProcess
  obtain ⟨items, hlog, hasides⟩ := hnotes.log
  rw [hstop, hlog, handovers_append, handovers_asides hasides, List.append_nil, hnumber,
    PartEntry.stopping, hevent]
  by_cases hserial : e.serial = n
  · simp [record, handovers_cons, LogItem.handover?, hserial]
  · simp [record, handovers_cons, LogItem.handover?, hserial]

/-- The stops that a halt gets through hand over the events of their entries, in order. -/
lemma stopEntries_handovers (h : s.Timed) (onProcess : Option String) (l : List PartEntry)
    (hl : ∀ e ∈ l, e ∈ s.registry ∧ e.isPlaying = true) {u : Session}
    (hu : s.disarm.Notes LogItem.IsStopping u)
    (hnone : (Step.forEach (stopEntry (handler env 0) onProcess) l u).2 = none) (n : Nat) :
    handovers n (Step.forEach (stopEntry (handler env 0) onProcess) l u).1.log =
      handovers n u.log ++ (l.filter (·.serial = n)).flatMap (·.stopping s.adapters) := by
  induction l generalizing u with
  | nil => simp [Step.forEach]
  | cons e rest ih =>
      obtain ⟨he, hplays⟩ := hl e List.mem_cons_self
      rcases hfirst : (stopEntry (handler env 0) onProcess e u).2 with _ | error
      · have hcons : Step.forEach (stopEntry (handler env 0) onProcess) (e :: rest) u =
            Step.forEach (stopEntry (handler env 0) onProcess) rest
              (stopEntry (handler env 0) onProcess e u).1 := Step.andThen_of_none hfirst
        have hnext := hu.trans (stopEntry_notes env onProcess e u)
        rw [hcons] at hnone ⊢
        rw [ih (fun y hy => hl y (List.mem_cons_of_mem e hy)) hnext hnone,
          stopEntry_handovers env h he hplays onProcess hu]
        by_cases hserial : e.serial = n
        · simp [hserial, List.append_assoc]
        · simp [hserial]
      · rw [Step.forEach, Step.andThen_of_some hfirst, hfirst] at hnone
        cases hnone

end

/-! ## A whole halt -/

section

variable (env : Environment) {s s' : Session} {onProcess : Option String}

/-- After the halt that it begins with, preparing a batch hands nothing over and sets no timer. -/
lemma prepare_since_halt (source : SoundSource) (shape : Option SourceShape) (texts : List String)
    (s : Session) :
    (∃ reports, (prepare (handler env 0) source shape texts s).1.log =
        reports ++ (halt (handler env 0) none s).1.log ∧ ∀ item ∈ reports, item.IsReport) ∧
      (prepare (handler env 0) source shape texts s).1.timers =
        (halt (handler env 0) none s).1.timers := by
  have hnone : ∃ reports : List LogItem, (halt (handler env 0) none s).1.log =
      reports ++ (halt (handler env 0) none s).1.log ∧ ∀ item ∈ reports, item.IsReport :=
    ⟨[], rfl, fun _ hi => absurd hi List.not_mem_nil⟩
  rcases prepare_cases env source shape texts s with
    ⟨-, hs⟩ | ⟨-, e, -, hs⟩ | ⟨-, adapter, u, -, hnotes, ⟨e, hs⟩ | hs⟩
  · rw [hs]
    exact ⟨hnone, rfl⟩
  · rw [hs]
    exact ⟨hnone, rfl⟩
  · have htimers : u.timers = (halt (handler env 0) none s).1.timers := by
      rw [hnotes.eq_log]
      rfl
    rw [hs]
    exact ⟨hnotes.log, htimers⟩
  · have htimers : u.timers = (halt (handler env 0) none s).1.timers := by
      rw [hnotes.eq_log]
      rfl
    have hregistry : u.registry = [] := hnotes.registry_eq
    rw [hs, installParts_of_nil hregistry (installedParts_nodup s.policy texts)]
    exact ⟨hnotes.log, htimers⟩

/-- Reports hand nothing over. -/
lemma handovers_reports {reports : List LogItem} (h : ∀ item ∈ reports, item.IsReport) (n : Nat) :
    handovers n reports = [] := by
  have hnone : ∀ item ∈ reports, item.handover? n = none := by
    intro item hi
    obtain ⟨index, haside⟩ := h item hi
    exact haside.handover?_eq n
  rw [handovers, List.filterMap_eq_nil_iff.mpr hnone, List.reverse_nil]

/-- What a halt hands over is all that is handed over up to the session it leads to, and the timers
that are left are orphans. -/
lemma Session.HaltsTo.outcome (h : s.Timed) (hs' : s.HaltsTo (handler env 0) onProcess s') :
    (∀ n, handovers n s'.log = handovers n (halt (handler env 0) onProcess s).1.log) ∧
      (∃ items, s'.log = items ++ s.log) ∧ s'.timers = s.orphans := by
  obtain ⟨idle, waiters, hdisarm⟩ := h.disarm_eq
  have hhalted : ∀ onProcess, (∃ items,
      (halt (handler env 0) onProcess s).1.log = items ++ s.log) ∧
        (halt (handler env 0) onProcess s).1.timers = s.orphans := by
    intro onProcess
    have hnotes := halt_notes env onProcess s
    obtain ⟨items, hlog, -⟩ := hnotes.log
    rw [hdisarm] at hlog
    exact ⟨⟨items, hlog⟩, by rw [hnotes.eq_log, hdisarm]⟩
  cases hs' with
  | halted => exact ⟨fun _ => rfl, hhalted _⟩
  | prepared source shape texts =>
      obtain ⟨⟨reports, hlog, hreports⟩, htimers⟩ := prepare_since_halt env source shape texts s
      obtain ⟨⟨items, hitems⟩, horphans⟩ := hhalted none
      refine ⟨fun n => ?_, ⟨reports ++ items, ?_⟩, htimers.trans horphans⟩
      · rw [hlog, handovers_append, handovers_reports hreports, List.append_nil]
      · rw [hlog, hitems, List.append_assoc]

/-- The history of an entry goes on with what is handed over since. -/
lemma handovers_since (hlog : ∃ items, s'.log = items ++ s.log) (n : Nat) :
    handovers n s'.log = handovers n s.log ++ handovers n (s.since s') := by
  obtain ⟨items, hitems⟩ := hlog
  rw [since_eq hitems, hitems, handovers_append]

/-- A halt hands over the events of some of the entries that played. -/
def Session.HaltReaches (onProcess : Option String) (s : Session) (reached : List PartEntry) :
    Prop :=
  ∀ n, handovers n (halt (handler env 0) onProcess s).1.log = handovers n s.log ++
    (reached.filter (·.serial = n)).flatMap (·.stopping s.adapters)

/-- Without a failure a halt reaches all that played. -/
lemma haltReaches_of_none (h : s.Timed) (onProcess : Option String)
    (hnone : (Step.forEach (stopEntry (handler env 0) onProcess)
      (s.registry.filter (·.isPlaying)) s.disarm).2 = none) :
    s.HaltReaches env onProcess (s.registry.filter (·.isPlaying)) := by
  intro n
  rw [halt_apply, stopEntries_handovers env h onProcess _ (fun e he => List.mem_filter.mp he)
    (Notes.refl _) hnone, disarm_log]

/-- A halt reaches the entries up to the one whose stop fails. -/
lemma haltReaches_of_fails (h : s.Timed) (onProcess : Option String) {before after : List PartEntry}
    {e : PartEntry} (hplaying : s.registry.filter (·.isPlaying) = before ++ e :: after)
    (hfails : s.FailsToStop (handler env 0) onProcess before e) :
    s.HaltReaches env onProcess (before ++ [e]) := by
  intro n
  have hmem : ∀ y ∈ before ++ e :: after, y ∈ s.registry ∧ y.isPlaying = true := fun y hy =>
    List.mem_filter.mp (hplaying ▸ hy)
  have hbefore := stopEntries_handovers env h onProcess before
    (fun y hy => hmem y (List.mem_append_left _ hy)) (Notes.refl _) hfails.1 n
  have hnotes : s.disarm.Notes LogItem.IsStopping
      (Step.forEach (stopEntry (handler env 0) onProcess) before s.disarm).1 :=
    Step.Leads.forEach (fun y _ => stopEntry_notes env onProcess y) s.disarm
  obtain ⟨he, hplays⟩ := hmem e (List.mem_append_right _ List.mem_cons_self)
  rw [halt_apply, hplaying, Step.forEach_of_fails hfails.1 hfails.2,
    stopEntry_handovers env h he hplays onProcess hnotes, hbefore, disarm_log]
  by_cases hserial : e.serial = n
  · simp [hserial, List.append_assoc]
  · simp [hserial]

variable {env}

/-- An entry that a halt reaches is silenced. -/
lemma Session.HaltReaches.silenced {reached : List PartEntry}
    (hreached : s.HaltReaches env onProcess reached) (h : s.Timed)
    (hs' : s.HaltsTo (handler env 0) onProcess s')
    (hsub : reached.Sublist (s.registry.filter (·.isPlaying))) {e : PartEntry}
    (he : e ∈ reached) : e.Silenced s s' := by
  obtain ⟨hsame, hlog, -⟩ := hs'.outcome env h
  obtain ⟨hmem, hplays⟩ := List.mem_filter.mp (hsub.subset he)
  obtain ⟨t, -, howns⟩ := h.owner_of_isPlaying hmem hplays
  have hnodup : reached.Nodup :=
    (h.serials_registry.of_map.filter _).sublist hsub
  have honly : reached.filter (·.serial = e.serial) = [e] := by
    refine filter_eq_singleton hnodup he (by simp) fun y hy hserial => ?_
    have hy' := (List.mem_filter.mp (hsub.subset hy)).1
    exact h.eq_of_serial (List.mem_append_left _ hy') (List.mem_append_left _ hmem)
      (of_decide_eq_true hserial)
  have hsince := hreached e.serial
  rw [← hsame, handovers_since hlog, List.append_cancel_left_eq, honly, List.flatMap_singleton,
    PartEntry.stopping, howns.event] at hsince
  exact ⟨t.event, howns.event, hsince⟩

/-- An entry that played and is not reached by a halt sounds on. -/
lemma Session.HaltReaches.soundsOn {reached : List PartEntry}
    (hreached : s.HaltReaches env onProcess reached) (h : s.Timed)
    (hs' : s.HaltsTo (handler env 0) onProcess s') {e : PartEntry} (he : e ∈ s.registry)
    (hnot : ∀ y ∈ reached, y.serial ≠ e.serial) : e.SoundsOn s s' := by
  obtain ⟨hsame, hlog, htimers⟩ := hs'.outcome env h
  have hnone : reached.filter (·.serial = e.serial) = [] :=
    List.filter_eq_nil_iff.mpr fun y hy => by simp [hnot y hy]
  have hsince := hreached e.serial
  rw [← hsame, handovers_since hlog, List.append_cancel_left_eq, hnone] at hsince
  refine ⟨hsince, fun t ht => ?_⟩
  rw [htimers] at ht
  exact ((mem_orphans.mp ht).2 e he).symm

end

/-- **A halt silences what plays up to the first stop that fails.**  Take any session that a run
leads to, whatever was called back in it, and halt it or prepare a batch, in an environment that
does not call back.  All parts that played are silenced exactly if no stop fails but that of the
last of them.  If the stop of a part fails, it and those before it are silenced, and those after
it sound on. -/
theorem halt_silences_all_iff (past env : Environment) (pastDepth depth : Nat)
    (passive : env.IsPassive) (hooks : Hooks) (policy : ErrorPolicy) (moves : List Move)
    (onProcess : Option String) (s' : Session) :
    let s := (Session.initial hooks policy).after past pastDepth moves
    let playing := s.registry.filter (·.isPlaying)
    s.HaltsTo (handler env depth) onProcess s' →
    ((∀ e ∈ playing, e.Silenced s s') ↔
      ∀ before e after, playing = before ++ e :: after →
        s.FailsToStop (handler env depth) onProcess before e → after = []) ∧
    ∀ before e after, playing = before ++ e :: after →
      s.FailsToStop (handler env depth) onProcess before e →
        (∀ y ∈ before ++ [e], y.Silenced s s') ∧ ∀ y ∈ after, y.SoundsOn s s' := by
  intro s playing hs'
  have h : s.Timed := after_timed past pastDepth hooks policy moves
  rw [handler_eq_zero passive depth] at hs' ⊢
  have hfails : ∀ before e after, playing = before ++ e :: after →
      s.FailsToStop (handler env 0) onProcess before e →
        (∀ y ∈ before ++ [e], y.Silenced s s') ∧ ∀ y ∈ after, y.SoundsOn s s' := by
    intro before e after hsplit hfails
    have hreached := haltReaches_of_fails env h onProcess hsplit hfails
    have hsplit' : playing = (before ++ [e]) ++ after := by rw [hsplit, List.append_assoc]; rfl
    have hserials : ((before ++ [e]) ++ after).map (·.serial) |>.Nodup := by
      rw [← hsplit']
      exact h.serials_registry.sublist (List.filter_sublist.map _)
    rw [List.map_append] at hserials
    have happart := (List.nodup_append.mp hserials).2.2
    refine ⟨fun y hy => hreached.silenced h hs' ?_ hy, fun y hy => ?_⟩
    · rw [show s.registry.filter (·.isPlaying) = (before ++ [e]) ++ after from hsplit']
      exact List.sublist_append_left _ _
    · have hmem : y ∈ playing := hsplit' ▸ List.mem_append_right _ hy
      exact hreached.soundsOn h hs' (List.mem_filter.mp hmem).1 fun z hz =>
        happart _ (List.mem_map_of_mem hz) _ (List.mem_map_of_mem hy)
  refine ⟨⟨fun hall before e after hsplit hfail => ?_, fun hlast => ?_⟩, hfails⟩
  · -- A part after the failure would be silenced and sound on.
    rcases after with _ | ⟨y, after⟩
    · rfl
    · have hmem : y ∈ playing := by rw [hsplit]; simp
      obtain ⟨event, -, hstopped⟩ := hall y hmem
      have hsounds := ((hfails before e (y :: after) hsplit hfail).2 y List.mem_cons_self).1
      rw [hstopped] at hsounds
      cases hsounds
  · rcases Step.forEach_none_or_fails (stopEntry (handler env 0) onProcess) playing s.disarm with
      hnone | ⟨before, e, after, hsplit, hnone, hfail⟩
    · exact fun e he =>
        (haltReaches_of_none env h onProcess hnone).silenced h hs' (List.Sublist.refl _) he
    · have hafter := hlast before e after hsplit ⟨hnone, hfail⟩
      rw [hsplit, hafter]
      exact (hfails before e after hsplit ⟨hnone, hfail⟩).1

/-- Two parts play, and the hook fails when it is told that the first of them is stopped: the event
of the second is not stopped any more, and no timer is left. -/
theorem second_part_sounds_on_after_failed_stop :
    (Environment.failing [.stopped]).IsPassive ∧
      let handle := handler (Environment.failing [.stopped]) 0
      let s := (Session.initial .all .abort).after (.failing []) 0
        [.prepare (.generators 1 "list") ["T60 O4 C4", "T60 O4 E4"] none,
          .play (.ofIndex 0) none none, .play (.ofIndex 1) none none]
      let playing := s.registry.filter (·.isPlaying)
      let s' := (halt handle none s).1
      s.HaltsTo handle none s' ∧
        (playing.map fun e => (handovers e.serial (s.since s')).map (·.starting)) =
          [[false], []] ∧ s'.timers.map (·.entry) = [] ∧
        ((∀ e ∈ playing, e.Silenced s s') ↔
          ∀ before e after, playing = before ++ e :: after →
            s.FailsToStop handle none before e → after = []) ∧
        ∀ before e after, playing = before ++ e :: after →
          s.FailsToStop handle none before e →
            (∀ y ∈ before ++ [e], y.Silenced s s') ∧ ∀ y ∈ after, y.SoundsOn s s' :=
  ⟨Environment.failing_isPassive _, .halted none, by decide +kernel, by decide +kernel,
    halt_silences_all_iff _ _ 0 0 (Environment.failing_isPassive _) _ _ _ none _ (.halted none)⟩

end MusicMacro
