import MusicMacro.Proofs.Playback.Alternation

/-!
# Which generators sound

The parts of a batch share one list of generators: the tone at a place of a chord goes to the
generator of that place, whatever part the chord belongs to.  So a generator does not sound for
every part that plays a tone at its place.  The end of one part's event stops it, also while
another part's event at the same place goes on (`shorter_part_silences_longer`).

What holds is told by the log: a generator sounds exactly if some part that plays is at an event
with a tone at its place, and no event with a tone there, of this or another part, was stopped
since that one was started (`generator_sounds_iff`).

For this the last call to a generator is tied to the last event handed over that has a tone at its
place (`Session.Tracks`).  Every event that is started or stopped makes all its calls before
anything else is handed over, so the two agree between events.  That the event which was started
last is still the one its part is at follows from the order in which each part's events are handed
over (`Session.Ledger`).
-/

namespace MusicMacro

/-! ## Calls and events at a place -/

/-- A tone of the event sounds at a place of the chord. -/
def Event.soundsAt (e : Event) (place : Nat) : Bool := e.tones.any (·.place = place)

/-- Whether a call starts the generator of a place or stops it. -/
def Call.generator? (place : Nat) : Call → Option Bool
  | .startGenerator p => if p = place then some true else none
  | .stopGenerator p => if p = place then some false else none
  | _ => none

namespace LogItem

/-- Whether the item tells that the generator of a place was started or that it was stopped. -/
def generator? (place : Nat) : LogItem → Option Bool
  | .call _ _ c => c.generator? place
  | _ => none

/-- Whether the item tells that an event with a tone at a place was handed over to be started or
to be stopped. -/
def touch? (place : Nat) : LogItem → Option Bool
  | .dispatched _ _ _ _ starting event => if event.soundsAt place then some starting else none
  | _ => none

end LogItem

namespace Session

/-- Whether the last call to the generator of a place started it. -/
def lastCall? (s : Session) (place : Nat) : Option Bool :=
  s.log.findSome? (·.generator? place)

/-- Whether the last event handed over that has a tone at a place was started. -/
def lastTouch? (s : Session) (place : Nat) : Option Bool := s.log.findSome? (·.touch? place)

/-- The generator of a place sounds: the last call to it was to start. -/
def GeneratorSounds (s : Session) (place : Nat) : Prop := s.lastCall? place = some true

instance (s : Session) (place : Nat) : Decidable (s.GeneratorSounds place) :=
  inferInstanceAs (Decidable (_ = _))

/-- An entry of this number was installed. -/
def Has (s : Session) (serial : Nat) : Prop := serial ∈ s.entries.map (·.serial)

/-- The source is generators, the last call to the one of a place agrees with the last event handed
over that has a tone there, and every event was handed over for an entry. -/
structure Tracks (count place : Nat) (s : Session) : Prop where
  source : ∀ adapter, s.adapter = some adapter → adapter = .generators count
  told : s.lastCall? place = s.lastTouch? place
  owned : ∀ time index n number starting event,
    .dispatched time index n number starting event ∈ s.log → s.Has n

variable {place : Nat} {s s' : Session}

lemma has_of_sameParts (h : s.SameParts s') (n : Nat) : s'.Has n ↔ s.Has n := by
  rw [Has, Has, entries, entries, h.registry, h.discarded]

/-- An entry that is replaced keeps its number. -/
lemma has_replaceEntry {x : PartEntry} (hregistry : s'.registry = (s.replaceEntry x).registry)
    (hdiscarded : s'.discarded = s.discarded) (n : Nat) : s'.Has n ↔ s.Has n := by
  rw [Has, Has, entries, entries, List.map_append, List.map_append, hregistry, hdiscarded,
    map_serial_replaceEntry]

lemma has_of_entryAt? {index : Nat} {e : PartEntry} (h : s.entryAt? index = some e) :
    s.Has e.serial :=
  List.mem_map_of_mem (List.mem_append_left _ (mem_of_entryAt? h).1)

lemma lastCall?_record (s : Session) (item : LogItem) :
    (s.record item).lastCall? place = (item.generator? place).or (s.lastCall? place) := by
  rw [lastCall?, record, List.findSome?_cons]
  cases item.generator? place <;> rfl

lemma lastTouch?_record (s : Session) (item : LogItem) :
    (s.record item).lastTouch? place = (item.touch? place).or (s.lastTouch? place) := by
  rw [lastTouch?, record, List.findSome?_cons]
  cases item.touch? place <;> rfl

lemma lastCall?_recordCall (s : Session) (index : Nat) (c : Call) :
    (s.recordCall index c).lastCall? place = (c.generator? place).or (s.lastCall? place) :=
  s.lastCall?_record (.call s.clock index c)

end Session

/-! ## What an event does to a generator -/

/-- The step succeeds, and after it the last call to the generator of a place is the one given here,
or the one before if none is. -/
def Step.Ends (place : Nat) (last : Option Bool) (step : Step) : Prop :=
  ∀ s, (step s).2 = none ∧ (step s).1.lastCall? place = last.or (s.lastCall? place)

section

variable {place count : Nat} {env : Environment}

lemma Step.Ends.andThen {first second : Step} {last later : Option Bool}
    (h : first.Ends place last) (h' : second.Ends place later) :
    (first.andThen second).Ends place (later.or last) := by
  intro s
  obtain ⟨hnone, hlast⟩ := h s
  obtain ⟨hnone', hlast'⟩ := h' (first s).1
  rw [Step.andThen_of_none hnone]
  exact ⟨hnone', by rw [hlast', hlast, Option.or_assoc]⟩

lemma Step.Ends.forEach {f : SoundingTone → Step} {starting : Bool}
    (h : ∀ tone, (f tone).Ends place (if tone.place = place then some starting else none))
    (tones : List SoundingTone) :
    (Step.forEach f tones).Ends place
      (if tones.any (·.place = place) then some starting else none) := by
  induction tones with
  | nil => exact fun s => ⟨rfl, rfl⟩
  | cons tone rest ih =>
      have hboth := (h tone).andThen ih
      rw [← Step.forEach] at hboth
      rw [List.any_cons]
      by_cases hplace : tone.place = place <;>
        by_cases hrest : rest.any (·.place = place) = true <;>
          simpa [hplace, hrest] using hboth

lemma handler_ends (never : env.NeverFails) (index : Nat) (c : Call) :
    (handler env 0 index c).Ends place (c.generator? place) := by
  intro s
  refine ⟨?_, s.lastCall?_recordCall index c⟩
  rw [handler_zero_snd, never, if_neg Bool.false_ne_true]

/-- A tone without a generator calls none, and least of all that of a place that has one. -/
lemma onGenerator_ends (hplace : place < count) {tone : SoundingTone} {calls : Step}
    {starting : Bool}
    (h : calls.Ends place (if tone.place = place then some starting else none)) :
    (Adapter.onGenerator count tone calls).Ends place
      (if tone.place = place then some starting else none) := by
  by_cases hin : tone.place < count
  · rw [Adapter.onGenerator, if_pos hin]
    exact h
  · have hne : tone.place ≠ place := fun heq => hin (heq ▸ hplace)
    rw [Adapter.onGenerator, if_neg hin, if_neg hne]
    exact fun s => ⟨rfl, s.lastCall?_record _⟩

/-- What the start or the stop of an event is to the generator of a place. -/
def Event.touches? (e : Event) (place : Nat) (starting : Bool) : Option Bool :=
  if e.soundsAt place then some starting else none

lemma start_ends (never : env.NeverFails) (hplace : place < count) (index : Nat) (event : Event)
    (routing onProcess : Option String) :
    (Adapter.start (handler env 0) index event routing onProcess (.generators count)).Ends place
      (event.touches? place true) := by
  refine Step.Ends.forEach (fun tone => onGenerator_ends hplace ?_) event.tones
  have htune : (handler env 0 index (.tune tone.place tone.frequency)).Ends place none :=
    handler_ends never index _
  have hboth := htune.andThen (handler_ends never index (.startGenerator tone.place))
  rwa [Option.or_none] at hboth

lemma stop_ends (never : env.NeverFails) (hplace : place < count) (index : Nat) (event : Event)
    (onProcess : Option String) :
    (Adapter.stop (handler env 0) index event onProcess (.generators count)).Ends place
      (event.touches? place false) :=
  Step.Ends.forEach (fun tone => onGenerator_ends hplace
    (handler_ends never index (.stopGenerator tone.place))) event.tones

/-- The last call to the generator of a place is the same. -/
def Session.SameCall (place : Nat) (s s' : Session) : Prop := s'.lastCall? place = s.lastCall? place

instance : IsPreorder Session (Session.SameCall place) where
  refl _ := rfl
  trans _ _ _ h h' := h'.trans h

lemma handler_sameCall (index : Nat) {c : Call} (h : c.generator? place = none) :
    (handler env 0 index c).Leads (Session.SameCall place) := by
  intro s
  exact (s.lastCall?_recordCall index c).trans (by rw [h]; rfl)

/-- Where an event is started, it is started on the generators of its places. -/
lemma startEvent_lastCall? (never : env.NeverFails) (hplace : place < count)
    (number index entry : Nat) (event : Event) (routing onProcess : Option String) (s : Session) :
    (startEvent (handler env 0) (.generators count) number index entry event routing onProcess
      s).1.lastCall? place = (event.touches? place true).or (s.lastCall? place) := by
  set marked := s.record (.dispatched s.clock index entry number true event)
  obtain ⟨hnone, hlast⟩ := start_ends never hplace index event routing onProcess marked
  have htells : (tellTones (·.started)
      (fun tone => handler env 0 index (.started event tone.place)) event).Leads
        (Session.SameCall place) :=
    tellTones_leads _ event fun tone => handler_sameCall index rfl
  rw [startEvent, Step.change_andThen, Step.andThen_of_none hnone, htells, hlast]
  rfl

lemma stopEvent_lastCall? (never : env.NeverFails) (hplace : place < count) {s : Session}
    (hsource : s.adapter = some (.generators count)) (index entry : Nat) (event : Event)
    (onProcess : Option String) :
    (stopEvent (handler env 0) index entry event onProcess s).1.lastCall? place =
      (event.touches? place false).or (s.lastCall? place) := by
  set marked := s.record (.dispatched s.clock index entry s.adapters false event)
  obtain ⟨hnone, hlast⟩ := stop_ends never hplace index event onProcess marked
  have htells : (tellTones (·.stopped)
      (fun tone => handler env 0 index (.stopped event tone.place)) event).Leads
        (Session.SameCall place) :=
    tellTones_leads _ event fun tone => handler_sameCall index rfl
  rw [stopEvent, Step.given_apply, hsource]
  dsimp only
  rw [Step.change_andThen, Step.andThen_of_none hnone, htells, hlast]
  rfl

end

/-! ## What each operation does -/

lemma LogItem.ne_dispatched {item : LogItem} (h : ∀ n, item.handover? n = none) {time : Double}
    {index n number : Nat} {starting : Bool} {event : Event} :
    item ≠ .dispatched time index n number starting event := by
  rintro rfl
  have := h n
  simp [handover?] at this

lemma LogItem.touch?_eq_none {item : LogItem} (h : ∀ n, item.handover? n = none) (place : Nat) :
    item.touch? place = none := by
  cases item with
  | dispatched => exact absurd rfl (ne_dispatched h)
  | _ => rfl

namespace Session

variable {count place : Nat} {s s' : Session}

lemma lastTouch?_append {items : List LogItem} (hlog : s'.log = items ++ s.log)
    (hitems : ∀ item ∈ items, ∀ n, item.handover? n = none) :
    s'.lastTouch? place = s.lastTouch? place := by
  have hnone : items.findSome? (·.touch? place) = none :=
    List.findSome?_eq_none_iff.mpr fun item hi => LogItem.touch?_eq_none (hitems item hi) place
  rw [lastTouch?, hlog, List.findSome?_append, hnone]
  rfl

namespace Tracks

/-- What is logged besides events and calls to the generator is of no account. -/
lemma settle (h : s.Tracks count place) (items : List LogItem) (hlog : s'.log = items ++ s.log)
    (hitems : ∀ item ∈ items, ∀ n, item.handover? n = none) (hcall : SameCall place s s')
    (hsource : ∀ adapter, s'.adapter = some adapter → adapter = .generators count)
    (hkept : ∀ n, s.Has n → s'.Has n) : s'.Tracks count place where
  source := hsource
  told := by
    rw [hcall, lastTouch?_append hlog hitems]
    exact h.told
  owned := by
    intro time index n number starting event hmem
    rw [hlog] at hmem
    rcases List.mem_append.mp hmem with hnew | hold
    · exact absurd rfl (LogItem.ne_dispatched (hitems _ hnew))
    · exact hkept n (h.owned time index n number starting event hold)

/-- An event is handed over for an entry, and the generator is told so. -/
lemma dispatch (h : s.Tracks count place) {time : Double} {index entry number : Nat}
    {starting : Bool} {event : Event} (hentry : s.Has entry)
    (hnotes : (s.record (.dispatched time index entry number starting event)).Notes
      (LogItem.IsAside index) s')
    (hlast : s'.lastCall? place = (event.touches? place starting).or (s.lastCall? place)) :
    s'.Tracks count place := by
  obtain ⟨items, hlog, hasides⟩ := hnotes.log
  have hsame := hnotes.sameParts
  have hhas (n : Nat) : s.Has n → s'.Has n := (has_of_sameParts hsame n).mpr
  constructor
  case source =>
    rw [hsame.adapter]
    exact h.source
  case told =>
    rw [lastTouch?_append hlog fun item hi n => (hasides item hi).handover?_eq n,
      lastTouch?_record, hlast, h.told]
    rfl
  case owned =>
    intro time' index' n number' starting' event' hmem
    rw [hlog] at hmem
    rcases List.mem_append.mp hmem with hnew | hold
    · exact absurd rfl (LogItem.ne_dispatched (hasides _ hnew).handover?_eq)
    · rcases List.mem_cons.mp hold with heq | hold
      · cases heq
        exact hhas _ hentry
      · exact hhas n (h.owned time' index' n number' starting' event' hold)

end Tracks

end Session

section

open Session

variable {count place : Nat} {env : Environment} (never : env.NeverFails) (hplace : place < count)

include never hplace

lemma stopEvent_tracks (index entry : Nat) (event : Event) (onProcess : Option String)
    {s : Session} (h : s.Tracks count place) (hentry : s.Has entry) :
    (stopEvent (handler env 0) index entry event onProcess s).1.Tracks count place ∧
      s.SameParts (stopEvent (handler env 0) index entry event onProcess s).1 := by
  cases hadapter : s.adapter with
  | none =>
      rw [stopEvent, Step.given_apply, hadapter]
      exact ⟨h, rfl, rfl, rfl, rfl, rfl, rfl⟩
  | some adapter =>
      obtain rfl := h.source adapter hadapter
      have hnotes := stopEvent_notes env hadapter index entry event onProcess
      have hsame := hnotes.sameParts
      exact ⟨h.dispatch hentry hnotes
        (stopEvent_lastCall? never hplace hadapter index entry event onProcess),
        hsame.adapter, hsame.adapters, hsame.registry, hsame.discarded, hsame.timers, hsame.created⟩

lemma play_tracks (index : Nat) (routing onProcess : Option String) :
    (play (handler env 0) index routing onProcess).Keeps (Tracks count place) := by
  intro s h
  by_cases htakes : ∃ e event rest, s.Takes index e event rest
  · obtain ⟨e, event, rest, ht⟩ := htakes
    obtain ⟨adapter, hadapter, hplay⟩ := ht.play_eq (handler env 0) routing onProcess
    obtain rfl := h.source adapter hadapter
    rw [hplay]
    set armed := s.arm e { e.part with queue := rest } event routing onProcess
    have hhas (n : Nat) : armed.Has n ↔ s.Has n := has_replaceEntry rfl rfl n
    have harmed : armed.Tracks count place :=
      h.settle [] rfl (fun _ hi => absurd hi List.not_mem_nil) rfl h.source fun n => (hhas n).mpr
    have hentry : armed.Has e.serial := (hhas _).mpr (has_of_entryAt? ht.entry)
    exact harmed.dispatch hentry
      (startEvent_notes env _ s.adapters e.index e.serial event routing onProcess armed)
      (startEvent_lastCall? never hplace s.adapters e.index e.serial event routing onProcess armed)
  · rcases play_of_not_takes (handler env 0) routing onProcess htakes with hsame | ⟨e, -, -, hplay⟩
    · rw [hsame]
      exact h
    · obtain ⟨counts, idle, waiters, hfinish⟩ := s.finish_eq env e
      rw [hplay, tellEnded_andThen, hfinish]
      have hends : ∀ item ∈ s.endItems e, item = .call s.clock e.index .ended ∨
          item = .finished s.clock e.index e.serial := by
        unfold endItems
        split <;> simp
      refine h.settle (s.endItems e) rfl (fun item hi n => ?_) ?_ h.source fun n hn => hn
      · rcases hends item hi with rfl | rfl <;> rfl
      · have hnone : (s.endItems e).findSome? (·.generator? place) = none :=
          List.findSome?_eq_none_iff.mpr fun item hi => by
            rcases hends item hi with rfl | rfl <;> rfl
        rw [SameCall, lastCall?, List.findSome?_append, hnone]
        rfl

lemma playAll_tracks (routing onProcess : Option String) :
    (playAll (handler env 0) routing onProcess).Keeps (Tracks count place) :=
  Step.Leads.given fun _ => Step.Leads.forEach fun index _ =>
    play_tracks never hplace index routing onProcess

lemma halt_tracks (onProcess : Option String) :
    (halt (handler env 0) onProcess).Keeps (Tracks count place) := by
  intro s h
  rw [halt_apply]
  set playing := s.registry.filter (·.isPlaying)
  obtain ⟨idle, waiters, hdisarm⟩ := s.disarm_eq
  have hserials : s.disarm.entries.map (·.serial) = s.entries.map (·.serial) := by
    rw [hdisarm, entries, entries, List.map_append, List.map_append, List.map_map]
    rfl
  have hdisarmed : s.disarm.Tracks count place := by
    refine h.settle [] s.disarm_log (fun _ hi => absurd hi List.not_mem_nil) ?_ ?_
      fun n hn => by rwa [Has, hserials]
    · rw [SameCall, lastCall?, s.disarm_log]
      rfl
    · rw [hdisarm]
      exact h.source
  have hstops : (Step.forEach (stopEntry (handler env 0) onProcess) playing).Keeps fun s =>
      s.Tracks count place ∧ ∀ y ∈ playing, s.Has y.serial := by
    refine Step.Leads.forEach fun y hy => Step.Leads.given fun s₁ => ?_
    split
    · rintro s₂ ⟨htracks, hhas⟩
      obtain ⟨hstopped, hsame⟩ :=
        stopEvent_tracks never hplace y.index y.serial _ onProcess htracks (hhas y hy)
      exact ⟨hstopped, fun z hz => (has_of_sameParts hsame _).mpr (hhas z hz)⟩
    · exact Step.skip_leads
  refine (hstops s.disarm ⟨hdisarmed, fun y hy => ?_⟩).1
  rw [Has, hserials]
  exact List.mem_map_of_mem (List.mem_append_left _ (List.mem_filter.mp hy).1)

lemma fire_tracks {s : Session} (t : Timer) (h : s.Tracks count place) :
    (fire (handler env 0) t s).Tracks count place := by
  have hfired : ∀ item ∈ [LogItem.fired t.due], ∀ n, item.handover? n = none := by
    intro item hi n
    rw [List.mem_singleton.mp hi]
    rfl
  by_cases hstale : s.IsStale t
  · rw [fire_of_isStale hstale]
    exact h.settle [.fired t.due] rfl hfired rfl h.source fun n hn => hn
  · obtain ⟨e, hentry, hserial, hplaying⟩ : ∃ e, s.entryAt? t.index = some e ∧
        e.serial = t.entry ∧ e.isPlaying = true := by
      simpa [IsStale] using hstale
    have hhas (n : Nat) : (s.ring t e).Has n ↔ s.Has n := has_replaceEntry rfl rfl n
    have hrung : (s.ring t e).Tracks count place :=
      h.settle [.fired t.due] rfl hfired rfl h.source fun n => (hhas n).mpr
    have hrings : (s.ring t e).Has e.serial := (hhas _).mpr (has_of_entryAt? hentry)
    have hplayed : (playOn (handler env 0) t e (s.ring t e)).1.Tracks count place := by
      rw [playOn, Step.andAlways_fst]
      exact play_tracks never hplace _ _ _ _
        (stopEvent_tracks never hplace e.index e.serial t.event t.onProcess hrung hrings).1
    rw [fire_eq_ring hentry hserial hplaying, escape]
    cases (playOn (handler env 0) t e (s.ring t e)).2 with
    | none => exact hplayed
    | some error =>
        refine hplayed.settle [.escaped error] rfl ?_ rfl hplayed.source fun n hn => hn
        intro item hi n
        rw [List.mem_singleton.mp hi]
        rfl

omit never hplace in
/-- Nothing that follows the halt of a new batch is a call to a generator. -/
lemma prepare_sameCall (source : SoundSource) (shape : Option SourceShape) (texts : List String)
    (s : Session) :
    SameCall place (halt (handler env 0) none s).1
      (prepare (handler env 0) source shape texts s).1 := by
  have hinstall (s : Session) (index : Nat) (events : List Event) :
      SameCall place s (s.installPart index events) := by
    obtain ⟨registry, discarded, hs⟩ := s.installPart_eq index events
    rw [hs]
    rfl
  have hreports (o : PartOutcome) :
      (reportOutcome (handler env 0) o).Leads (SameCall place) :=
    reportOutcome_leads (fun w s => s.lastCall?_record (.warned w))
      fun e => handler_sameCall o.index rfl
  have hclear : (Step.change clear).Leads (SameCall place) := fun s => rfl
  refine trans_of (SameCall place) (hclear.from_first (halt (handler env 0) none) s)
    (Step.Leads.from_first ?_ _ s)
  cases source.adapter shape with
  | error e => exact Step.fail_leads _
  | ok adapter =>
      exact Step.Leads.andThen (fun s => rfl) (installTexts_leads hreports hinstall texts)

lemma prepare_tracks {source : SoundSource} {shape : Option SourceShape}
    (hsource : ∀ adapter, source.adapter shape = .ok adapter → adapter = .generators count)
    (texts : List String) :
    (prepare (handler env 0) source shape texts).Keeps (Tracks count place) := by
  intro s hs
  have hhalted := halt_tracks never hplace none s hs
  set u := (halt (handler env 0) none s).1
  have hcall : SameCall place u (prepare (handler env 0) source shape texts s).1 :=
    prepare_sameCall source shape texts s
  rcases prepare_cases env source shape texts s with
    ⟨-, heq⟩ | ⟨-, e, -, heq⟩ | ⟨-, adapter, s', hadapter, hnotes, hrest⟩
  · rw [heq]
    exact hhalted
  · rw [heq]
    exact hhalted.settle [] rfl (fun _ hi => absurd hi List.not_mem_nil) rfl hhalted.source
      fun n hn => hn
  · obtain rfl := hsource adapter hadapter
    obtain ⟨items, hlog, hitems⟩ := hnotes.log
    have hquiet : ∀ item ∈ items, ∀ n, item.handover? n = none :=
      fun item hi => (hitems item hi).isQuiet.1
    have hsame := hnotes.sameParts
    have hown : ∀ a, s'.adapter = some a → a = .generators count := by
      intro a ha
      rw [hsame.adapter] at ha
      exact (Option.some.inj ha).symm
    rcases hrest with ⟨e, heq⟩ | heq
    · rw [heq] at hcall ⊢
      exact hhalted.settle items hlog hquiet hcall hown fun n => (has_of_sameParts hsame n).mpr
    · rw [heq] at hcall ⊢
      rw [installParts_of_nil hnotes.registry_eq (installedParts_nodup s.policy texts)] at hcall ⊢
      refine hhalted.settle items hlog hquiet hcall hown fun n hn => ?_
      rw [Has, entries, List.map_append]
      refine List.mem_append_right _ ?_
      dsimp only
      rw [hsame.discarded]
      exact hn

end

/-! ## Every run -/

/-- A source that is prepared is so many generators. -/
def Move.PlaysOn (count : Nat) : Move → Prop
  | .prepare source _ shape => ∀ forced adapter, forcedShape shape = .ok forced →
      source.adapter forced = .ok adapter → adapter = .generators count
  | _ => True

lemma Move.PlaysOn.fits {count : Nat} {m : Move} (h : m.PlaysOn count) : m.Fits := by
  cases m with
  | prepare source texts shape =>
      intro forced adapter hshape hadapter
      obtain rfl := h forced adapter hshape hadapter
      trivial
  | _ => trivial

lemma Move.generators_playsOn (count : Nat) (kind : String) (texts : List String) :
    Move.PlaysOn count (.prepare (.generators count kind) texts none) := by
  intro forced adapter hshape hadapter
  cases hshape
  exact (Except.ok.inj hadapter).symm

open Session in
lemma move_tracks {count place : Nat} {env : Environment} (never : env.NeverFails)
    (hplace : place < count) {m : Move} (hm : m.PlaysOn count) {s : Session}
    (h : s.Tracks count place) : (s.move env 0 m).Tracks count place := by
  refine move_elim env h (fun _ _ _ _ h' => { h' with }) ?prepares ?plays ?playsAll ?halts ?fires
  case prepares =>
    intro source texts shape forced heq hshape
    subst heq
    exact prepare_tracks never hplace (fun adapter => hm forced adapter hshape) texts s h
  case plays =>
    exact fun _ routing onProcess index _ => play_tracks never hplace index routing onProcess s h
  case playsAll => exact fun routing onProcess _ => playAll_tracks never hplace routing onProcess s h
  case halts => exact fun onProcess _ => halt_tracks never hplace onProcess s h
  case fires => exact fun t _ _ => fire_tracks never hplace t h

/-- In a history in turn, an event that was started sounds, or its stop comes next. -/
lemma alternation_after_start {number a : Nat} {stopped : List Event} {sounding : Option Event}
    {event : Event} {before later : List Handover}
    (h : before ++ ⟨a, true, event⟩ :: later = alternation number stopped sounding) :
    later = [] ∧ sounding = some event ∨ ∃ b rest, later = ⟨b, false, event⟩ :: rest := by
  induction stopped generalizing before with
  | nil =>
      left
      cases sounding with
      | none => exact absurd h (by simp [alternation])
      | some e =>
          obtain ⟨rfl, hlast⟩ | ⟨hbefore, hnil⟩ := List.append_eq_singleton_iff.mp h
          · obtain ⟨hhandover, rfl⟩ := List.cons.inj hlast
            exact ⟨rfl, congrArg some (Handover.mk.inj hhandover).2.2.symm⟩
          · cases hnil
  | cons e stopped ih =>
      have hcons : alternation number (e :: stopped) sounding =
          ⟨number, true, e⟩ :: ⟨number, false, e⟩ :: alternation number stopped sounding := rfl
      rw [hcons] at h
      cases before with
      | nil =>
          obtain ⟨hhandover, rfl⟩ := List.cons.inj h
          obtain rfl := (Handover.mk.inj hhandover).2.2
          exact .inr ⟨number, _, rfl⟩
      | cons _ before =>
          cases before with
          | nil =>
              obtain ⟨hhandover, -⟩ := List.cons.inj (List.cons.inj h).2
              cases (Handover.mk.inj hhandover).2.1
          | cons _ before => exact ih (List.cons.inj (List.cons.inj h).2).2

/-- An event that was started is the one its entry is at, unless its stop was handed over since. -/
lemma PartEntry.Accounted.after_start {e : PartEntry} {number a index : Nat} {sounds : Bool}
    {time : Double} {event : Event} {later earlier : List LogItem}
    (h : e.Accounted number sounds
      (later ++ .dispatched time index e.serial a true event :: earlier)) :
    (sounds = true ∧ e.lastEvent = some event) ∨
      ∃ time index b, .dispatched time index e.serial b false event ∈ later := by
  obtain ⟨stopped, sounding, -, hsome, hlast, hhistory⟩ := h
  rw [handovers_append, handovers_dispatched, List.append_assoc,
    List.singleton_append] at hhistory
  obtain ⟨-, hsounding⟩ | ⟨b, rest, hstop⟩ := alternation_after_start hhistory
  · left
    rw [← hsome, hsounding]
    exact ⟨rfl, hlast event hsounding⟩
  · right
    have hmem : (⟨b, false, event⟩ : Handover) ∈ handovers e.serial later :=
      hstop ▸ List.mem_cons_self
    obtain ⟨item, hitem, hhandover⟩ := List.mem_filterMap.mp (List.mem_reverse.mp hmem)
    cases item with
    | dispatched time index n b' starting event' =>
        obtain ⟨rfl, rfl, rfl, rfl⟩ : n = e.serial ∧ b' = b ∧ starting = false ∧ event' = event := by
          simpa [LogItem.handover?] using hhandover
        exact ⟨time, index, b', hitem⟩
    | _ => cases hhandover

lemma LogItem.touch?_eq_some {item : LogItem} {place : Nat} {starting : Bool}
    (h : item.touch? place = some starting) : ∃ time index n number event,
      item = .dispatched time index n number starting event ∧ event.soundsAt place = true := by
  cases item with
  | dispatched time index n number starting' event =>
      obtain ⟨hsounds, rfl⟩ : event.soundsAt place = true ∧ starting' = starting := by
        simpa [touch?] using h
      exact ⟨time, index, n, number, event, rfl, hsounds⟩
  | _ => cases h

/-- The part of the entry is at this event, and since it was started no event with a tone at the
place was stopped. -/
def Session.HoldsOpen (s : Session) (place : Nat) (e : PartEntry) (event : Event) : Prop :=
  e.isPlaying = true ∧ e.lastEvent = some event ∧ event.soundsAt place = true ∧
    ∃ later time index number earlier,
      s.log = later ++ .dispatched time index e.serial number true event :: earlier ∧
      ∀ item ∈ later, item.touch? place ≠ some false

open Session in
/-- **Which generators sound.**  After every run in which no call fails or calls back and every
batch is played on the same number of generators, the generator of a place sounds exactly if some
installed part that plays is at an event with a tone at the place, and since that event was started
no event with a tone there was stopped, whether of this part or of another. -/
theorem generator_sounds_iff (env : Environment) (depth : Nat) (passive : env.IsPassive)
    (never : env.NeverFails) (hooks : Hooks) (policy : ErrorPolicy) (count : Nat)
    (moves : List Move) (hmoves : ∀ m ∈ moves, m.PlaysOn count) (place : Nat)
    (hplace : place < count) :
    let s := (Session.initial hooks policy).after env depth moves
    s.GeneratorSounds place ↔ ∃ e ∈ s.registry, ∃ event, s.HoldsOpen place e event := by
  intro s
  obtain ⟨hwell, hledger, htracks⟩ : s.WellTimed ∧
      Ledger (fun _ _ => True) policy (·.isPlaying) s ∧ s.Tracks count place := by
    refine after_keeps (I := fun s => s.WellTimed ∧
        Ledger (fun _ _ => True) policy (·.isPlaying) s ∧ s.Tracks count place)
      (fun m hm s ⟨hs, hl, ht⟩ => ?_) ⟨after_wellTimed passive depth hooks policy [], ?_, ?_⟩
    · rw [move_depth passive]
      exact ⟨move_wellTimed env m s hs,
        move_ledger never (hmoves m hm).fits (fun _ _ _ _ _ _ => trivial) hs hl,
        move_tracks never hplace (hmoves m hm) ht⟩
    · constructor <;> simp [Session.initial, entries, handovers, TellsEnds]
    · constructor <;> simp [Session.initial, lastCall?, lastTouch?]
  rw [GeneratorSounds, htracks.told, lastTouch?]
  constructor
  · intro hlast
    obtain ⟨later, item, earlier, hlog, htouch, hlater⟩ := List.findSome?_eq_some_iff.mp hlast
    obtain ⟨time, index, n, number, event, rfl, hsounds⟩ := LogItem.touch?_eq_some htouch
    obtain ⟨e, he, rfl⟩ := List.mem_map.mp
      (htracks.owned time index n number true event (hlog ▸ List.mem_append_right _
        List.mem_cons_self))
    obtain ⟨source, haccounted⟩ : ∃ source, e.Accounted source e.isPlaying s.log := by
      rcases List.mem_append.mp he with he | he
      · exact ⟨_, hledger.installed e he⟩
      · exact hledger.discarded e he
    rw [hlog] at haccounted
    obtain ⟨hplays, hevent⟩ | ⟨time', index', number', hstop⟩ := haccounted.after_start
    · have hregistry : e ∈ s.registry := by
        rcases List.mem_append.mp he with he | he
        · exact he
        · rw [e.not_isPlaying_iff.mpr (hwell.discarded_idle e he)] at hplays
          cases hplays
      refine ⟨e, hregistry, event, hplays, hevent, hsounds, later, time, index, number, earlier,
        hlog, fun item hi => ?_⟩
      simp [hlater item hi]
    · -- The stop would be a later event with a tone at the place.
      have hnone := hlater _ hstop
      simp [LogItem.touch?, hsounds] at hnone
  · rintro ⟨e, -, event, -, -, hsounds, later, time, index, number, earlier, hlog, hlater⟩
    have hstart : (LogItem.dispatched time index e.serial number true event).touch? place =
        some true := if_pos hsounds
    rw [hlog, List.findSome?_append, List.findSome?_cons, hstart]
    cases hlast : later.findSome? (·.touch? place) with
    | none => rfl
    | some starting =>
        obtain ⟨item, hi, htouch⟩ := List.exists_of_findSome?_eq_some hlast
        cases starting with
        | false => exact absurd htouch (hlater item hi)
        | true => rfl

/-- A part is halted amid its first event and its chord is stopped; of the two parts of the next
batch the shorter one ends first and stops the generator, which the longer one starts again with
its next event. -/
theorem next_event_sounds_again :
    let env := Environment.failing []
    let moves : List Move :=
      [.prepare (.generators 2 "list") ["T60 O4 CE1"] none, .play (.ofIndex 0) none none,
        .prepare (.generators 2 "list") ["T60 O4 C4 D4", "T60 O4 E8"] none,
        .play (.ofIndex 0) none none, .play (.ofIndex 1) none none, .fire 5, .fire 4]
    let s := (Session.initial .all .abort).after env 0 moves
    (env.IsPassive ∧ env.NeverFails ∧ (∀ m ∈ moves, m.PlaysOn 2) ∧ 0 < 2) ∧
      s.GeneratorSounds 0 ∧
      (s.GeneratorSounds 0 ↔ ∃ e ∈ s.registry, ∃ event, s.HoldsOpen 0 e event) := by
  intro env moves s
  have hpassive : env.IsPassive := Environment.failing_isPassive []
  have hnever : env.NeverFails := fun _ _ => rfl
  have hplays : ∀ m ∈ moves, m.PlaysOn 2 := by
    simp only [moves, List.forall_mem_cons, List.not_mem_nil, false_imp_iff, implies_true, and_true]
    exact ⟨Move.generators_playsOn 2 "list" _, trivial, Move.generators_playsOn 2 "list" _,
      trivial, trivial, trivial, trivial⟩
  exact ⟨⟨hpassive, hnever, hplays, Nat.two_pos⟩, by decide +kernel,
    generator_sounds_iff env 0 hpassive hnever .all .abort 2 moves hplays 0 Nat.two_pos⟩

/-- That a part which plays is at an event with a tone at the place does not suffice: two parts
share the one generator, the end of the shorter one's event stops it, and the longer one goes on
in silence. -/
theorem shorter_part_silences_longer :
    let env := Environment.failing []
    let moves : List Move :=
      [.prepare (.generators 1 "list") ["T60 O4 C4", "T60 O4 E8"] none,
        .play (.ofIndex 0) none none, .play (.ofIndex 1) none none, .fire 3]
    let s := (Session.initial .all .abort).after env 0 moves
    (env.IsPassive ∧ env.NeverFails ∧ ∀ m ∈ moves, m.PlaysOn 1) ∧
      ¬ (s.GeneratorSounds 0 ↔ ∃ e ∈ s.registry, e.isPlaying = true ∧
        ∃ event, e.lastEvent = some event ∧ event.soundsAt 0 = true) := by
  intro env moves s
  have hplays : ∀ m ∈ moves, m.PlaysOn 1 := by
    simp only [moves, List.forall_mem_cons, List.not_mem_nil, false_imp_iff, implies_true, and_true]
    exact ⟨Move.generators_playsOn 1 "list" _, trivial, trivial, trivial⟩
  refine ⟨⟨Environment.failing_isPassive [], fun _ _ => rfl, hplays⟩, fun h => ?_⟩
  have hsilent : ¬ s.GeneratorSounds 0 := by decide +kernel
  have hplaying : (s.registry.any fun e =>
      e.isPlaying && e.lastEvent.any (·.soundsAt 0)) = true := by decide +kernel
  obtain ⟨e, he, hboth⟩ := List.any_eq_true.mp hplaying
  obtain ⟨hplays, hevent⟩ := Bool.and_eq_true_iff.mp hboth
  obtain ⟨event, hlast, hsounds⟩ := (Option.any_eq_true ..).mp hevent
  exact hsilent (h.mpr ⟨e, he, hplays, event, hlast, hsounds⟩)

end MusicMacro
