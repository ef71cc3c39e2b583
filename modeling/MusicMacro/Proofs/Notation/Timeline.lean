import Mathlib.Tactic.Lemma
import MusicMacro.Notation.Compile
import MusicMacro.Proofs.Computation
import MusicMacro.Proofs.Pitch

/-!
# The timeline of compiled events

What the compiler does is told here once: what a note goes through if it compiles, from its text to
its event and the next state (`CompilesNote`), and what directives become one after the other
(`CompilesFrom`).  Facts about compiled events are proved by induction on the second, with the first
at each note.

One of them is that compiled events follow one another without a gap: the first starts at zero, each
stops where its start and its duration lead in one addition, and there the next one starts
(`compileText_isTimeline`).  The compiler keeps a cursor for this and nothing else moves it
(`compileNote_timeline`); playback never sees the cursor.
-/

namespace MusicMacro

/-! ## Compiled notes -/

/-- An event keeps the times that it was made with. -/
lemma make_eq_ok {positions : List Position} {start duration stop : Number} {event : Event}
    (h : Event.make positions start duration stop = .ok event) :
    event = ⟨positions, start, duration, stop⟩ := by
  obtain ⟨-, -, h⟩ := bind_eq_ok h
  obtain ⟨-, -, h⟩ := bind_eq_ok h
  exact (Except.ok.inj h).symm

/-- The positions of an event are not checked. -/
lemma make_of_make {positions : List Position} {start duration stop : Number} {event : Event}
    (h : Event.make positions start duration stop = .ok event) (positions' : List Position) :
    Event.make positions' start duration stop = .ok ⟨positions', start, duration, stop⟩ := by
  obtain ⟨_, hduration, h⟩ := bind_eq_ok h
  obtain ⟨_, hstart, -⟩ := bind_eq_ok h
  rw [Event.make, hduration, ok_bind, hstart]
  rfl

/-- A note becomes an event between two states, with the tempo and the octave of the first one: its
segments are read, and its positions and seconds are found. -/
structure CompilesNote (raw : String) (state : CompileState) (perBeat : Double) (octave : Number)
    (first : Segment) (tied : List Segment) (positions : List Position) (seconds : Double)
    (event : Event) (state' : CompileState) : Prop where
  atTempo : state.perBeat = some perBeat
  inOctave : state.octave = some octave
  segments : Segment.ofNote raw = .ok (first :: tied)
  resolves : resolveNote raw perBeat octave first tied = .ok (positions, seconds)
  makes : Event.make positions (.real state.cursor) (.real seconds)
    (.real (state.cursor + seconds)) = .ok event
  moves : state' = { state with cursor := state.cursor + seconds }

/-- A note has a position for each tone of its first segment, in an octave of either kind, and takes
the time of all of them. -/
lemma resolveNote_eq_ok {raw : String} {perBeat seconds : Double} {octave : Number}
    {first : Segment} {tied : List Segment} {positions : List Position}
    (h : resolveNote raw perBeat octave first tied = .ok (positions, seconds)) :
    positions.length = (parseTones first.letters).length ∧
      noteSeconds raw perBeat first tied = .ok seconds := by
  cases octave with
  | whole o =>
      dsimp only [resolveNote] at h
      split at h
      · cases h
      · obtain ⟨_, hseconds, h⟩ := bind_eq_ok h
        obtain ⟨_, hsounding, h⟩ := bind_eq_ok h
        obtain ⟨rfl, rfl⟩ := Prod.mk.inj (Except.ok.inj h)
        refine ⟨?_, hseconds⟩
        rw [length_of_mapM hsounding, chordIndices, length_foldChord, List.length_map]
  | real x =>
      dsimp only [resolveNote] at h
      split at h
      · cases h
      · obtain ⟨_, hseconds, h⟩ := bind_eq_ok h
        obtain ⟨_, hresting, h⟩ := bind_eq_ok h
        obtain ⟨rfl, rfl⟩ := Prod.mk.inj (Except.ok.inj h)
        obtain ⟨_, -, hresting⟩ := bind_eq_ok hresting
        refine ⟨?_, hseconds⟩
        split at hresting
        · rw [← Except.ok.inj hresting, List.length_map, length_foldChordBy, List.length_map]
        · cases hresting

/-- What happens with a note once its segments are read. -/
lemma compileNote_of_segments {raw : String} {state : CompileState} {perBeat : Double}
    {octave : Number} {first : Segment} {tied : List Segment}
    (hperBeat : state.perBeat = some perBeat) (hoctave : state.octave = some octave)
    (hsegments : Segment.ofNote raw = .ok (first :: tied)) :
    compileNote raw state = do
      let (positions, seconds) ← resolveNote raw perBeat octave first tied
      let event ← (Event.make positions (.real state.cursor) (.real seconds)
        (.real (state.cursor + seconds))).mapError .event
      return (event, { state with cursor := state.cursor + seconds }) := by
  unfold compileNote
  rw [hperBeat, hoctave]
  dsimp only
  rw [hsegments, mapError_ok, ok_bind]

/-- **What a note goes through if it compiles.** -/
lemma exists_compilesNote {raw : String} {state state' : CompileState} {event : Event}
    (h : compileNote raw state = .ok (event, state')) :
    ∃ perBeat octave first tied positions seconds,
      CompilesNote raw state perBeat octave first tied positions seconds event state' := by
  unfold compileNote at h
  rcases hperBeat : state.perBeat with _ | perBeat
  · rw [hperBeat] at h
    cases h
  rcases hoctave : state.octave with _ | octave
  · rw [hperBeat, hoctave] at h
    cases h
  rw [hperBeat, hoctave] at h
  obtain ⟨segments, hsegments, h⟩ := bind_eq_ok h
  rcases segments with _ | ⟨first, tied⟩
  · cases h
  obtain ⟨⟨positions, seconds⟩, hresolves, h⟩ := bind_eq_ok h
  obtain ⟨made, hmade, h⟩ := bind_eq_ok h
  obtain ⟨rfl, rfl⟩ := Prod.mk.inj (Except.ok.inj h)
  exact ⟨perBeat, octave, first, tied, positions, seconds, hperBeat, hoctave,
    mapError_eq_ok hsegments, hresolves, mapError_eq_ok hmade, by rw [hperBeat, hoctave]⟩

/-! ## Compiled directives -/

/-- Directives become events from a state on, one directive after the other. -/
inductive CompilesFrom : CompileState → List Directive → List Event → Prop
  | nil (state : CompileState) : CompilesFrom state [] []
  | tempo {state : CompileState} {bpm : Number} {raw : String} {seconds : Double}
      {directives : List Directive} {events : List Event}
      (step : compileTempo bpm raw = .ok seconds)
      (rest : CompilesFrom { state with perBeat := some seconds } directives events) :
      CompilesFrom state (.tempo bpm raw :: directives) events
  | octave {state : CompileState} {value : Number} {raw : String}
      {directives : List Directive} {events : List Event}
      (step : value.less (.whole 0) = false)
      (rest : CompilesFrom { state with octave := some value } directives events) :
      CompilesFrom state (.octave value raw :: directives) events
  | note {state state' : CompileState} {raw : String} {event : Event}
      {directives : List Directive} {events : List Event}
      (step : compileNote raw state = .ok (event, state'))
      (rest : CompilesFrom state' directives events) :
      CompilesFrom state (.note raw :: directives) (event :: events)

/-- Directives that compile do so one after the other. -/
lemma compilesFrom_of_compileFrom {state : CompileState} {directives : List Directive}
    {events : List Event} (h : compileFrom state directives = .ok events) :
    CompilesFrom state directives events := by
  induction directives generalizing state events with
  | nil =>
      obtain rfl := Except.ok.inj h
      exact .nil state
  | cons directive rest ih =>
      cases directive with
      | tempo bpm raw =>
          rw [compileFrom] at h
          split at h
          · cases h
          · exact .tempo ‹_› (ih h)
      | octave value raw =>
          rw [compileFrom] at h
          split at h
          · cases h
          · exact .octave (Bool.eq_false_iff.mpr ‹_›) (ih h)
      | note raw =>
          rw [compileFrom] at h
          split at h
          · cases h
          · rename_i event state' hnote
            rcases hrest : compileFrom state' rest with e | later
            · rw [hrest] at h
              cases h
            · rw [hrest] at h
              obtain rfl := Except.ok.inj h
              exact .note hnote (ih hrest)

/-! ## The cursor -/

/-- Events that follow one another from a time on, each stopping where the next one starts. -/
def IsTimeline : Double → List Event → Prop
  | _, [] => True
  | time, event :: rest =>
    ∃ seconds, event.start = .real time ∧ event.duration = .real seconds ∧
      event.stop = .real (time + seconds) ∧ IsTimeline (time + seconds) rest

lemma exists_times_of_isTimeline {time : Double} {events : List Event}
    (h : IsTimeline time events) :
    ∀ e ∈ events, ∃ start seconds,
      e.start = .real start ∧ e.duration = .real seconds ∧ e.stop = .real (start + seconds) := by
  induction events generalizing time with
  | nil => exact fun e he => absurd he List.not_mem_nil
  | cons first rest ih =>
      obtain ⟨seconds, hstart, hduration, hstop, hrest⟩ := h
      exact List.forall_mem_cons.mpr ⟨⟨time, seconds, hstart, hduration, hstop⟩, ih hrest⟩

/-- The event of a note starts at the cursor, and the cursor is moved to its stop. -/
lemma compileNote_timeline {raw : String} {state state' : CompileState} {event : Event}
    (h : compileNote raw state = .ok (event, state')) :
    ∃ seconds, event.start = .real state.cursor ∧ event.duration = .real seconds ∧
      event.stop = .real (state.cursor + seconds) ∧ state'.cursor = state.cursor + seconds := by
  obtain ⟨_, _, _, _, _, seconds, hnote⟩ := exists_compilesNote h
  rw [make_eq_ok hnote.makes, hnote.moves]
  exact ⟨seconds, rfl, rfl, rfl, rfl⟩

/-- The events of directives follow one another from the cursor on. -/
lemma compileFrom_isTimeline {directives : List Directive} {state : CompileState}
    {events : List Event} (h : compileFrom state directives = .ok events) :
    IsTimeline state.cursor events := by
  have hcompiles := compilesFrom_of_compileFrom h
  clear h
  induction hcompiles with
  | nil => trivial
  | tempo _ _ ih => exact ih
  | octave _ _ ih => exact ih
  | note step _ ih =>
      obtain ⟨seconds, hstart, hduration, hstop, hcursor⟩ := compileNote_timeline step
      exact ⟨seconds, hstart, hduration, hstop, hcursor ▸ ih⟩

/-- The events of a notation string follow one another from zero on. -/
theorem compileText_isTimeline {text : String} {events : List Event}
    (h : (compileText text).2 = .ok events) : IsTimeline .zero events := by
  unfold compileText at h
  split at h
  · cases h
  · exact compileFrom_isTimeline h

end MusicMacro
