import MusicMacro.Proofs.Notation.Timeline
import MusicMacro.Proofs.Number.Rounding

/-!
# What compiled events are like

The compiler gives every event times that are doubles from zero on, with a duration above zero, and
indices whose frequency it could compute (`Event.IsRegular`), however the directives came about:
`compileDirectives_isRegular`.  Its cursor only moves on, so an event never starts before an
earlier one has stopped (`compileDirectives_pairwise`).
-/

namespace MusicMacro

/-- The event has the times and indices of a compiled one. -/
structure Event.IsRegular (e : Event) : Prop where
  start : ∃ x : Double, x.IsUnsigned ∧ e.start = .real x
  duration : ∃ x, Double.zero.less x = true ∧ e.duration = .real x
  stop : ∃ x : Double, x.IsUnsigned ∧ e.stop = .real x
  index_lt : ∀ p ∈ e.positions, ∀ i ∈ p.index, (i : Int) < powerLimit

/-- The size of a time in units. -/
def Number.size (n : Number) : Nat := n.nearest.size

/-! ## Positions -/

lemma lt_powerLimit_of_frequency {index : Int} {f : Double} (h : frequency index = .ok f) :
    index < powerLimit := by
  refine Int.lt_of_not_ge fun hle => ?_
  unfold frequency ratioPower at h
  rw [if_pos hle] at h
  cases hn : doubleOfInt index with
  | error e =>
      rw [hn] at h
      cases h
  | ok x =>
      rw [hn] at h
      cases h

lemma soundingPosition_index_lt {raw : String} {index? : Option Int} {p : Position}
    (h : soundingPosition raw index? = .ok p) : ∀ i ∈ p.index, (i : Int) < powerLimit := by
  cases index? with
  | none =>
      cases h
      exact nofun
  | some index =>
      rw [soundingPosition] at h
      split at h
      · rename_i f hf
        split at h
        · cases h
          intro i hi
          obtain rfl := Option.some.inj hi
          have hlt := lt_powerLimit_of_frequency hf
          have hpos : (0 : Int) < powerLimit := by decide
          omega
        · cases h
      · cases h

lemma realPositions_index_none {raw : String} {indices : List (Option Double)}
    {positions : List Position} (h : realPositions raw indices = .ok positions) :
    ∀ p ∈ positions, p.index = none := by
  obtain ⟨-, -, h⟩ := bind_eq_ok h
  split at h
  · obtain rfl := Except.ok.inj h
    intro p hp
    obtain ⟨_, -, rfl⟩ := List.mem_map.mp hp
    rfl
  · cases h

/-! ## Notes -/

lemma zero_less_noteSeconds {raw : String} {perBeat seconds : Double} {first : Segment}
    {tied : List Segment} (h : noteSeconds raw perBeat first tied = .ok seconds) :
    Double.zero.less seconds = true := by
  obtain ⟨start, _, h⟩ := bind_eq_ok h
  obtain ⟨rest, _, h⟩ := bind_eq_ok h
  obtain ⟨made, _, h⟩ := bind_eq_ok h
  split at h
  · obtain rfl := Except.ok.inj h
    assumption
  · cases h

lemma resolveNote_regular {raw : String} {perBeat seconds : Double} {octave : Number}
    {first : Segment} {tied : List Segment} {positions : List Position}
    (h : resolveNote raw perBeat octave first tied = .ok (positions, seconds)) :
    Double.zero.less seconds = true ∧
      ∀ p ∈ positions, ∀ i ∈ p.index, (i : Int) < powerLimit := by
  cases octave with
  | whole o =>
      dsimp only [resolveNote] at h
      split at h
      · cases h
      · obtain ⟨made, hmade, h⟩ := bind_eq_ok h
        obtain ⟨sounding, hsounding, h⟩ := bind_eq_ok h
        cases h
        refine ⟨zero_less_noteSeconds hmade, fun p hp => ?_⟩
        obtain ⟨index?, -, hp⟩ := exists_of_mem_mapM hsounding hp
        exact soundingPosition_index_lt hp
  | real x =>
      dsimp only [resolveNote] at h
      split at h
      · cases h
      · obtain ⟨made, hmade, h⟩ := bind_eq_ok h
        obtain ⟨resting, hresting, h⟩ := bind_eq_ok h
        cases h
        refine ⟨zero_less_noteSeconds hmade, fun p hp i hi => ?_⟩
        rw [realPositions_index_none hresting p hp] at hi
        cases hi

lemma Double.isUnsigned_of_zero_less {x : Double} (h : zero.less x = true) : x.IsUnsigned := by
  cases x with
  | nan => cases h
  | infinite s =>
      cases s with
      | false => exact .inr rfl
      | true => cases h
  | finite s m =>
      cases s with
      | false => exact .inl ⟨m, rfl⟩
      | true =>
          rw [less, decide_eq_true_eq, zero, compare?, Option.some.injEq, signedUnits, signedUnits,
            if_neg Bool.false_ne_true, if_pos rfl, Int.compare_eq_lt] at h
          have hzero : Magnitude.zero.units = 0 := rfl
          omega

/-- The event of a note is regular, starts at the cursor and stops where the cursor is moved. -/
lemma compileNote_regular {raw : String} {state state' : CompileState} {event : Event}
    (hcursor : state.cursor.IsUnsigned) (h : compileNote raw state = .ok (event, state')) :
    event.IsRegular ∧ event.start = .real state.cursor ∧ event.stop = .real state'.cursor ∧
      state'.cursor.IsUnsigned ∧ state.cursor.size ≤ state'.cursor.size := by
  obtain ⟨_, _, _, _, positions, seconds, hnote⟩ := exists_compilesNote h
  obtain ⟨hpositive, hindices⟩ := resolveNote_regular hnote.resolves
  have hseconds := Double.isUnsigned_of_zero_less hpositive
  have hstop := hcursor.add hseconds
  have hle := hcursor.size_le_add hseconds
  rw [make_eq_ok hnote.makes, hnote.moves]
  dsimp only
  generalize state.cursor + seconds = stop at hstop hle ⊢
  have hregular : Event.IsRegular ⟨positions, .real state.cursor, .real seconds, .real stop⟩ :=
    ⟨⟨state.cursor, hcursor, rfl⟩, ⟨seconds, hpositive, rfl⟩, ⟨stop, hstop, rfl⟩, hindices⟩
  exact ⟨hregular, rfl, rfl, hstop, hle⟩

/-! ## Directives -/

/-- Events of directives are regular, in order, and start no earlier than the cursor. -/
lemma compileFrom_regular {directives : List Directive} {state : CompileState} {events : List Event}
    (h : compileFrom state directives = .ok events) (hcursor : state.cursor.IsUnsigned) :
    (∀ e ∈ events, e.IsRegular ∧ state.cursor.size ≤ e.start.size) ∧
      events.Pairwise fun a b => a.stop.size ≤ b.start.size := by
  have hcompiles := compilesFrom_of_compileFrom h
  clear h
  induction hcompiles with
  | nil state => exact ⟨fun e he => absurd he List.not_mem_nil, .nil⟩
  | tempo _ _ ih => exact ih hcursor
  | octave _ _ ih => exact ih hcursor
  | note step _ ih =>
      obtain ⟨hregular, hstart, hstop, hcursor', hle⟩ := compileNote_regular hcursor step
      obtain ⟨hlater, hordered⟩ := ih hcursor'
      refine ⟨List.forall_mem_cons.mpr ⟨⟨hregular, ?_⟩, fun e he => ?_⟩, ?_⟩
      · rw [hstart]
        exact Nat.le_refl _
      · exact ⟨(hlater e he).1, Nat.le_trans hle (hlater e he).2⟩
      · refine List.pairwise_cons.mpr ⟨fun e he => ?_, hordered⟩
        rw [hstop]
        exact (hlater e he).2

section

variable {directives : List Directive} {events : List Event}

/-- Compiled events are regular. -/
theorem compileDirectives_isRegular (h : compileDirectives directives = .ok events) :
    ∀ e ∈ events, e.IsRegular :=
  fun e he => ((compileFrom_regular h Double.zero_isUnsigned).1 e he).1

/-- No compiled event starts before an earlier one has stopped. -/
theorem compileDirectives_pairwise (h : compileDirectives directives = .ok events) :
    events.Pairwise fun a b => a.stop.size ≤ b.start.size :=
  (compileFrom_regular h Double.zero_isUnsigned).2

end

/-- The events of a text are those of directives. -/
lemma exists_directives_of_compileText {text : String} {events : List Event}
    (h : (compileText text).2 = .ok events) :
    ∃ directives, compileDirectives directives = .ok events := by
  unfold compileText at h
  split at h
  · cases h
  · exact ⟨_, h⟩

section

variable {text : String} {events : List Event}

lemma start_size_le_stop (h : (compileText text).2 = .ok events) {e : Event} (he : e ∈ events) :
    e.start.size ≤ e.stop.size := by
  obtain ⟨directives, hdirectives⟩ := exists_directives_of_compileText h
  have hregular := compileDirectives_isRegular hdirectives e he
  obtain ⟨start, seconds, hstart, hduration, hstop⟩ :=
    exists_times_of_isTimeline (compileText_isTimeline h) e he
  obtain ⟨x, hx, hstart'⟩ := hregular.start
  obtain ⟨y, hy, hduration'⟩ := hregular.duration
  obtain rfl := Number.real.inj (hstart.symm.trans hstart')
  obtain rfl := Number.real.inj (hduration.symm.trans hduration')
  rw [hstart, hstop]
  exact hx.size_le_add (Double.isUnsigned_of_zero_less hy)

/-- No compiled event stops after the last one. -/
lemma stop_size_le_last (h : (compileText text).2 = .ok events) {e last : Event} (he : e ∈ events)
    (hlast : last ∈ events.getLast?) : e.stop.size ≤ last.stop.size := by
  obtain ⟨directives, hdirectives⟩ := exists_directives_of_compileText h
  obtain ⟨front, rfl⟩ := List.getLast?_eq_some_iff.mp hlast
  rcases List.mem_append.mp he with hfront | hend
  · have hordered := compileDirectives_pairwise hdirectives
    calc e.stop.size ≤ last.start.size :=
          (List.pairwise_append.mp hordered).2.2 e hfront last List.mem_cons_self
      _ ≤ last.stop.size := start_size_le_stop h (List.mem_append_right _ List.mem_cons_self)
  · obtain rfl := List.mem_singleton.mp hend
    exact Nat.le_refl _

end

end MusicMacro
