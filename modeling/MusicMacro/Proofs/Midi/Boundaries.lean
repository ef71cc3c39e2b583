import MusicMacro.Proofs.Midi.Writing

/-!
# Parts without gaps

Start and stop of an event are converted to ticks on their own, and yet the ticks of a compiled
part leave no gap and no overlap.  An event starts at the very number at which the one before it
stops (`IsTimeline`), so both get the same tick, and on a grid with ticks and a tempo later times
never get smaller ticks.  The lengths in ticks therefore add up to the tick of each start: an
event is never further off than the rounding of its own start (`IsLaidOn`).

As long as no product overflows (`TickGrid.reaches`), nothing but a tone above the highest key
keeps a part from its notes, and its notes lie where the events do (`part_leaves_no_gap`).
-/

namespace MusicMacro

/-! ## Times that can be counted -/

namespace TickGrid

open Magnitude

/-- Whether a time is a double whose products with the resolution and then with the tempo are
finite, as these two themselves are as doubles. -/
def reaches (grid : TickGrid) (seconds : Number) : Bool :=
  match seconds, doubleOfInt grid.ticksPerBeat, doubleOfInt grid.bpm with
  | .real x, .ok resolution, .ok tempo =>
    (x * resolution).isFinite && (x * resolution * tempo).isFinite
  | _, _, _ => false

lemma units_of_sixty {sixty : Magnitude} (h : doubleOfInt 60 = .ok (.finite false sixty)) :
    sixty.units = 60 * unitsPerWhole := by
  obtain ⟨hfraction, -⟩ := doubleOfInt_eq_ok_iff.mp h
  obtain ⟨-, hunits⟩ := Double.ofUnits_eq_finite_iff.mp hfraction
  have hsize : (60 : Int).natAbs = 60 := rfl
  rw [← hunits, hsize, nearestUnits_whole (by decide)]

/-- The quotient by sixty is finite where the products are. -/
lemma exists_tick_of_reaches {grid : TickGrid} {seconds : Number}
    (h : grid.reaches seconds = true) :
    ∃ tick, grid.ticks seconds = .ok tick := by
  unfold reaches at h
  split at h
  case h_2 => cases h
  rename_i x resolution tempo hresolution htempo
  have hfinite := (Bool.and_eq_true_iff.mp h).2
  obtain ⟨sixty, hsixty, hpos⟩ := exists_sixty
  obtain ⟨s, minutes, hminutes⟩ : ∃ s m, x * resolution * tempo = .finite s m := by
    cases hproduct : x * resolution * tempo with
    | finite s m => exact ⟨s, m, rfl⟩
    | infinite s =>
        rw [hproduct] at hfinite
        cases hfinite
    | nan =>
        rw [hproduct] at hfinite
        cases hfinite
  have hself : Double.ofUnits s (minutes.units * sixty.units) sixty.units = .finite s minutes := by
    refine Double.ofUnits_eq_finite_iff.mpr ⟨rfl, ?_⟩
    have hscaled := nearestUnits_mul_right Nat.one_pos hpos minutes.units
    rwa [Nat.one_mul, nearestUnits_units] at hscaled
  have hle : unitsPerWhole ≤ sixty.units := by
    rw [units_of_sixty hsixty]
    exact Nat.le_mul_of_pos_left _ (by decide)
  obtain ⟨ticks, hticks, -⟩ :=
    Double.exists_ofUnits_le hpos (Nat.mul_le_mul_left minutes.units hle) hself
  have hsteps : x * resolution * tempo / .finite false sixty = .finite (s != false) ticks := by
    rw [hminutes, Double.finite_div_finite _ _ _ (Nat.ne_of_gt hpos)]
    cases s <;> exact hticks
  exact ⟨_, ticks_of_steps hresolution htempo hsixty hpos (congrArg Double.round hsteps)⟩

/-- Time begins at tick zero. -/
lemma tickAt_zero (grid : TickGrid) : grid.tickAt (.real .zero) = 0 := by
  cases htick : grid.ticks (.real .zero) with
  | error e =>
      rw [tickAt, htick]
      rfl
  | ok n =>
      obtain ⟨sixty, hsixty, hpos⟩ := exists_sixty
      obtain ⟨r, resolution, t, tempo, -, -, hn⟩ :=
        ticks_real Double.zero_isUnsigned hsixty hpos htick
      have hzero : tickOfUnits resolution.units tempo.units sixty.units Double.zero.size = 0 := by
        have hsize : Double.zero.size = 0 := rfl
        simp [tickOfUnits, hsize, nearestUnits_zero, roundDiv]
      rw [tickAt, htick, hn, hzero]
      split <;> rfl

end TickGrid

/-! ## Events on a grid -/

/-- Events have ticks, in order and from zero on, each starts at the tick at which the one before it
stops, and the lengths of the earlier ones add up to the tick of its start. -/
structure IsLaidOn (grid : TickGrid) (events : List Event) : Prop where
  ticks : ∀ e ∈ events, e.HasTicks grid
  ordered : ∀ e ∈ events, 0 ≤ grid.tickAt e.start ∧ grid.tickAt e.start ≤ grid.tickAt e.stop
  meets : events.IsChain fun e next => grid.tickAt e.stop = grid.tickAt next.start
  rises : events.Pairwise fun e later => grid.tickAt e.start ≤ grid.tickAt later.start
  apart : events.Pairwise fun e later => grid.tickAt e.stop ≤ grid.tickAt later.start
  adds_up : ∀ front e back, events = front ++ e :: back →
    (front.map fun f => grid.tickAt f.stop - grid.tickAt f.start).sum = grid.tickAt e.start

section

variable {grid : TickGrid} {time : Double} {events : List Event}

/-- An event of a timeline stops when the next one starts, and so at the same tick. -/
lemma isChain_of_isTimeline (h : IsTimeline time events) :
    events.IsChain fun e next => grid.tickAt e.stop = grid.tickAt next.start := by
  induction events generalizing time with
  | nil => exact .nil
  | cons e rest ih =>
      obtain ⟨seconds, -, -, hstop, hrest⟩ := h
      cases rest with
      | nil => exact .singleton e
      | cons next more =>
          obtain ⟨-, hstart, -⟩ := id hrest
          refine .cons_cons ?_ (ih hrest)
          rw [hstop, hstart]

/-- The lengths of the events before one add up to the ticks since the start of the timeline. -/
lemma sum_of_isTimeline (h : IsTimeline time events) {front back : List Event} {e : Event}
    (hsplit : events = front ++ e :: back) :
    (front.map fun f => grid.tickAt f.stop - grid.tickAt f.start).sum =
      grid.tickAt e.start - grid.tickAt (.real time) := by
  subst hsplit
  induction front generalizing time with
  | nil =>
      obtain ⟨-, hstart, -⟩ := h
      rw [hstart]
      exact (Int.sub_self _).symm
  | cons f front ih =>
      obtain ⟨seconds, hstart, -, hstop, hrest⟩ := h
      rw [List.map_cons, List.sum_cons, ih hrest, hstart, hstop]
      omega

/-- Events that meet and do not run backwards are apart, however far from one another. -/
lemma apart_of_meets
    (hmeets : events.IsChain fun e next => grid.tickAt e.stop = grid.tickAt next.start)
    (hordered : ∀ e ∈ events, grid.tickAt e.start ≤ grid.tickAt e.stop) :
    events.Pairwise fun e later => grid.tickAt e.stop ≤ grid.tickAt later.start := by
  induction events with
  | nil => exact .nil
  | cons e rest ih =>
      have hrest := ih hmeets.tail fun f hf => hordered f (List.mem_cons_of_mem e hf)
      refine .cons (fun later hlater => ?_) hrest
      cases rest with
      | nil => exact absurd hlater List.not_mem_nil
      | cons next more =>
          have hmeet := (List.isChain_cons_cons.mp hmeets).1
          have hnext := hordered next (.tail _ (.head _))
          rcases List.mem_cons.mp hlater with rfl | hlater
          · exact hmeet.le
          · have := (List.pairwise_cons.mp hrest).1 later hlater
            omega

end

section

variable {text : String} {events : List Event} {grid : TickGrid}

/-- The ticks of a compiled part. -/
lemma isLaidOn_of_compileText (hresolution : 0 < grid.ticksPerBeat) (hbpm : 0 < grid.bpm)
    (h : (compileText text).2 = .ok events)
    (hlast : ∀ e ∈ events.getLast?, grid.reaches e.stop = true) :
    IsLaidOn grid events := by
  have hticks (e : Event) (he : e ∈ events) : e.HasTicks grid ∧
      0 ≤ grid.tickAt e.start ∧ grid.tickAt e.start ≤ grid.tickAt e.stop := by
    obtain ⟨start, stop, hstart, hstop, hpos, hle⟩ := ticks_of_last hresolution hbpm h
      (fun e he => TickGrid.exists_tick_of_reaches (hlast e he)) he
    obtain rfl := Except.ok.inj ((ticks_eq_tickAt hstart).symm.trans hstart)
    obtain rfl := Except.ok.inj ((ticks_eq_tickAt hstop).symm.trans hstop)
    exact ⟨⟨hstart, hstop⟩, hpos, hle⟩
  have htimeline := compileText_isTimeline h
  have hmeets : events.IsChain fun e next => grid.tickAt e.stop = grid.tickAt next.start :=
    isChain_of_isTimeline htimeline
  have hapart := apart_of_meets hmeets fun e he => (hticks e he).2.2
  refine ⟨fun e he => (hticks e he).1, fun e he => (hticks e he).2, hmeets, ?_, hapart, ?_⟩
  · exact hapart.imp_of_mem fun he _ hle => (hticks _ he).2.2.trans hle
  · intro front e back hsplit
    rw [sum_of_isTimeline htimeline hsplit, TickGrid.tickAt_zero, Int.sub_zero]

end

/-! ## Notes of events -/

/-- The notes of an event of a part on its own channel, none where there are none. -/
def eventNotes (grid : TickGrid) (e : Event) : List MidiNote :=
  (notesOfEvent grid standardVelocity 0 e).toOption.getD []

/-- Notes are those of the tones of events, event by event, and notes of different events do not
overlap. -/
structure IsPlayedBy (grid : TickGrid) (events : List Event) (notes : List MidiNote) : Prop where
  notes_eq : notes = events.flatMap (eventNotes grid)
  values : ∀ e ∈ events,
    (eventNotes grid e).map (·.values) = eventValues grid standardVelocity 0 e
  rises : notes.Pairwise fun a b => a.start ≤ b.start
  apart : events.Pairwise fun e later =>
    ∀ a ∈ eventNotes grid e, ∀ b ∈ eventNotes grid later, a.start + a.duration ≤ b.start

section

variable {grid : TickGrid} {events : List Event} {notes : List MidiNote}

lemma notesOfPart_eq_ok (h : notesOfPart grid standardVelocity 0 events = .ok notes) :
    notes = events.flatMap (eventNotes grid) ∧
      ∀ e ∈ events, notesOfEvent grid standardVelocity 0 e = .ok (eventNotes grid e) := by
  induction events generalizing notes with
  | nil =>
      cases h
      exact ⟨rfl, fun e he => absurd he List.not_mem_nil⟩
  | cons e rest ih =>
      obtain ⟨first, hfirst, h⟩ := bind_eq_ok h
      obtain ⟨more, hmore, h⟩ := bind_eq_ok h
      obtain rfl := Except.ok.inj h
      obtain ⟨hnotes, hevents⟩ := ih hmore
      have heq : eventNotes grid e = first := by
        rw [eventNotes, hfirst]
        rfl
      exact ⟨by rw [List.flatMap_cons, heq, hnotes],
        List.forall_mem_cons.mpr ⟨heq ▸ hfirst, hevents⟩⟩

lemma ticks_of_mem_eventNotes {e : Event}
    (h : (eventNotes grid e).map (·.values) = eventValues grid standardVelocity 0 e) {n : MidiNote}
    (hn : n ∈ eventNotes grid e) :
    (n.start : Int) = grid.tickAt e.start ∧ (n.start + n.duration : Int) = grid.tickAt e.stop := by
  have hmem : n.values ∈ eventValues grid standardVelocity 0 e := h ▸ List.mem_map_of_mem hn
  obtain ⟨t, -, hvalues⟩ := List.mem_map.mp hmem
  simp only [MidiNote.values, Prod.mk.injEq] at hvalues
  omega

/-- Notes lie where the events of their part do. -/
lemma IsLaidOn.isPlayedBy (hlaid : IsLaidOn grid events)
    (h : notesOfPart grid standardVelocity 0 events = .ok notes) :
    IsPlayedBy grid events notes := by
  obtain ⟨hnotes, hevents⟩ := notesOfPart_eq_ok h
  have hvalues (e : Event) (he : e ∈ events) := (values_of_notesOfEvent (hevents e he)).2
  refine ⟨hnotes, hvalues, ?_, ?_⟩
  · rw [hnotes, List.pairwise_flatMap]
    constructor
    · refine fun e he => List.pairwise_of_forall_mem_list fun a ha b hb => ?_
      have := ticks_of_mem_eventNotes (hvalues e he) ha
      have := ticks_of_mem_eventNotes (hvalues e he) hb
      omega
    · refine hlaid.rises.imp_of_mem fun {e later} he hlater hle a ha b hb => ?_
      have := ticks_of_mem_eventNotes (hvalues e he) ha
      have := ticks_of_mem_eventNotes (hvalues later hlater) hb
      omega
  · refine hlaid.apart.imp_of_mem fun {e later} he hlater hle a ha b hb => ?_
    have := ticks_of_mem_eventNotes (hvalues e he) ha
    have := ticks_of_mem_eventNotes (hvalues later hlater) hb
    omega

/-! ## Refused tones -/

/-- The tone is above the highest key. -/
def SoundingTone.isTooHigh (t : SoundingTone) : Bool := highestIndex < t.index

lemma make_of_isTooHigh {t : SoundingTone} (h : t.isTooHigh = true)
    (start duration velocity channel : Int) :
    MidiNote.make (midiKey t.index) start duration velocity channel =
      .error (.key (midiKey t.index)) := by
  have hkey : finOfInt? 128 (midiKey t.index) = none := by
    rw [SoundingTone.isTooHigh, highestIndex, decide_eq_true_eq] at h
    rw [finOfInt?, dif_neg]
    rw [midiKey, midiKeyOffset]
    omega
  rw [MidiNote.make, hkey]

/-- An event with ticks is refused for its first tone above the highest key, and for nothing
else. -/
lemma exists_notesOfEvent_eq {e : Event} (hticks : e.HasTicks grid)
    (hordered : 0 ≤ grid.tickAt e.start ∧ grid.tickAt e.start ≤ grid.tickAt e.stop) :
    ∃ made : SoundingTone → MidiNote, notesOfEvent grid standardVelocity 0 e =
      (e.tones.find? SoundingTone.isTooHigh).elim (.ok (e.tones.map made)) fun t =>
        .error (.key (midiKey t.index)) := by
  have hmake (t : SoundingTone) : ∃ made : MidiNote,
      MidiNote.make (midiKey t.index) (grid.tickAt e.start)
          (grid.tickAt e.stop - grid.tickAt e.start) standardVelocity (channelOfPart 0) =
        if t.isTooHigh then .error (.key (midiKey t.index)) else .ok made := by
    cases hhigh : t.isTooHigh with
    | true => exact ⟨⟨0, 0, 0, 0, 0⟩, make_of_isTooHigh hhigh _ _ _ _⟩
    | false =>
        rw [SoundingTone.isTooHigh, highestIndex, decide_eq_false_iff_not] at hhigh
        refine exists_make_eq_ok ?_ (by decide) (by decide) hordered.1
          (Int.sub_nonneg_of_le hordered.2)
        rw [midiKey, midiKeyOffset]
        omega
  choose made hmade using hmake
  refine ⟨made, ?_⟩
  rw [notesOfEvent, hticks.1, hticks.2]
  exact mapM_eq_find? SoundingTone.isTooHigh (fun t => MidiError.key (midiKey t.index)) made hmade
    e.tones

/-- A part on a grid is refused for its first tone above the highest key, and for nothing else. -/
lemma IsLaidOn.notesOfPart_of_find? (hlaid : IsLaidOn grid events) {t : SoundingTone}
    (h : (events.flatMap Event.tones).find? SoundingTone.isTooHigh = some t) :
    notesOfPart grid standardVelocity 0 events = .error (.key (midiKey t.index)) := by
  have hticks := hlaid.ticks
  have hordered := hlaid.ordered
  clear hlaid
  induction events with
  | nil => cases h
  | cons e rest ih =>
      obtain ⟨hfirst, hticks⟩ := List.forall_mem_cons.mp hticks
      obtain ⟨hfirst', hordered⟩ := List.forall_mem_cons.mp hordered
      obtain ⟨made, hmade⟩ := exists_notesOfEvent_eq hfirst hfirst'
      rw [List.flatMap_cons, List.find?_append] at h
      rw [notesOfPart, hmade]
      cases hfind : e.tones.find? SoundingTone.isTooHigh with
      | some u =>
          rw [hfind] at h
          obtain rfl := Option.some.inj h
          rfl
      | none =>
          rw [hfind] at h
          rw [Option.elim_none, ok_bind, ih h hticks hordered]
          rfl

lemma IsLaidOn.exists_notesOfPart (hlaid : IsLaidOn grid events)
    (h : (events.flatMap Event.tones).find? SoundingTone.isTooHigh = none) :
    ∃ notes, notesOfPart grid standardVelocity 0 events = .ok notes := by
  refine MusicMacro.exists_notesOfPart fun e he => ?_
  have hnone : e.tones.find? SoundingTone.isTooHigh = none := List.find?_eq_none.mpr fun t ht =>
    List.find?_eq_none.mp h t (List.mem_flatMap.mpr ⟨e, he, ht⟩)
  obtain ⟨made, hmade⟩ := exists_notesOfEvent_eq (hlaid.ticks e he) (hlaid.ordered e he)
  rw [hnone] at hmade
  exact ⟨_, hmade⟩

/-- The refusals of a part on a grid. -/
lemma IsLaidOn.notesOfPart_eq_error_iff (hlaid : IsLaidOn grid events) {error : MidiError} :
    notesOfPart grid standardVelocity 0 events = .error error ↔
      ∃ t, (events.flatMap Event.tones).find? SoundingTone.isTooHigh = some t ∧
        error = .key (midiKey t.index) := by
  constructor
  · intro h
    cases hfind : (events.flatMap Event.tones).find? SoundingTone.isTooHigh with
    | none =>
        obtain ⟨notes, hnotes⟩ := hlaid.exists_notesOfPart hfind
        cases hnotes.symm.trans h
    | some t => exact ⟨t, rfl, Except.error.inj (h.symm.trans (hlaid.notesOfPart_of_find? hfind))⟩
  · rintro ⟨t, hfind, rfl⟩
    exact hlaid.notesOfPart_of_find? hfind

lemma IsLaidOn.isRefused_iff (hlaid : IsLaidOn grid events) :
    (∃ error, notesOfPart grid standardVelocity 0 events = .error error) ↔
      ∃ e ∈ events, ∃ t ∈ e.tones, highestIndex < t.index := by
  simp only [hlaid.notesOfPart_eq_error_iff]
  constructor
  · rintro ⟨-, t, hfind, -⟩
    obtain ⟨e, he, ht⟩ := List.mem_flatMap.mp (List.mem_of_find?_eq_some hfind)
    have hhigh : t.isTooHigh = true := List.find?_some hfind
    exact ⟨e, he, t, ht, of_decide_eq_true hhigh⟩
  · rintro ⟨e, he, t, ht, hhigh⟩
    have hsome : ((events.flatMap Event.tones).find? SoundingTone.isTooHigh).isSome = true :=
      List.find?_isSome.mpr ⟨t, List.mem_flatMap.mpr ⟨e, he, ht⟩, decide_eq_true hhigh⟩
    obtain ⟨u, hu⟩ := Option.isSome_iff_exists.mp hsome
    exact ⟨_, u, hu, rfl⟩

end

/-- **Rounding to ticks leaves no gap and no overlap in a part**: on a grid with ticks and a tempo,
if the stop of the last event of a compiled text is within reach, all its events have ticks, which
never fall; each stops at the tick at which the next one starts, and the lengths of the events
before one add up to the tick of its start.  The part is refused exactly if a tone is above the
highest key, for the first of them; otherwise its notes are those of its tones in order, and notes
of different events do not overlap. -/
theorem part_leaves_no_gap {grid : TickGrid} {text : String} {events : List Event}
    (hresolution : 0 < grid.ticksPerBeat) (hbpm : 0 < grid.bpm)
    (h : (compileText text).2 = .ok events)
    (hlast : ∀ e ∈ events.getLast?, grid.reaches e.stop = true) :
    IsLaidOn grid events ∧
      ((∃ error, notesOfPart grid standardVelocity 0 events = .error error) ↔
        ∃ e ∈ events, ∃ t ∈ e.tones, highestIndex < t.index) ∧
      (∀ error, notesOfPart grid standardVelocity 0 events = .error error ↔
        ∃ t, (events.flatMap Event.tones).find? SoundingTone.isTooHigh = some t ∧
          error = .key (midiKey t.index)) ∧
      ∀ notes, notesOfPart grid standardVelocity 0 events = .ok notes →
        IsPlayedBy grid events notes := by
  have hlaid := isLaidOn_of_compileText hresolution hbpm h hlast
  exact ⟨hlaid, hlaid.isRefused_iff, fun _ => hlaid.notesOfPart_eq_error_iff,
    fun _ => hlaid.isPlayedBy⟩

/-- A chord, a rest and triplets across a change of tempo, on a grid that none of their times hits;
a tone above the highest key behind them refuses the part. -/
theorem triplets_leave_no_gap :
    (∃ events notes, (compileText "T97 O4 CEG4R8 T133 D12E12F12").2 = .ok events ∧
      IsLaidOn ⟨96, 130⟩ events ∧ notesOfPart ⟨96, 130⟩ standardVelocity 0 events = .ok notes ∧
      IsPlayedBy ⟨96, 130⟩ events notes ∧
      notes.map (fun n => (n.start, n.start + n.duration)) =
        [(0, 129), (0, 129), (0, 129), (193, 224), (224, 256), (256, 287)]) ∧
    ∃ events, (compileText "T97 O4 CEG4R8 T133 D12 O10 C12").2 = .ok events ∧
      notesOfPart ⟨96, 130⟩ standardVelocity 0 events = .error (.key 132) := by
  constructor
  · have hevents :=
      eq_ok_of_isOk (x := (compileText "T97 O4 CEG4R8 T133 D12E12F12").2) (by decide +kernel) []
    obtain ⟨hlaid, -, -, hplayed⟩ := @part_leaves_no_gap ⟨96, 130⟩ _ _ (by decide) (by decide)
      hevents (by decide +kernel)
    have hnotes := eq_ok_of_isOk (x := notesOfPart ⟨96, 130⟩ standardVelocity 0
      ((compileText "T97 O4 CEG4R8 T133 D12E12F12").2.toOption.getD [])) (by decide +kernel) []
    exact ⟨_, _, hevents, hlaid, hnotes, hplayed _ hnotes, by decide +kernel⟩
  · have hevents :=
      eq_ok_of_isOk (x := (compileText "T97 O4 CEG4R8 T133 D12 O10 C12").2) (by decide +kernel) []
    obtain ⟨-, -, hrefused, -⟩ := @part_leaves_no_gap ⟨96, 130⟩ _ _ (by decide) (by decide)
      hevents (by decide +kernel)
    have htone : ((((compileText "T97 O4 CEG4R8 T133 D12 O10 C12").2.toOption.getD []).flatMap
        Event.tones).find? SoundingTone.isTooHigh).map (·.index) = some 111 := by
      decide +kernel
    obtain ⟨t, hfind, hindex⟩ := Option.map_eq_some_iff.mp htone
    exact ⟨_, hevents, (hrefused _).mpr ⟨t, hfind, by rw [hindex]; rfl⟩⟩

end MusicMacro
