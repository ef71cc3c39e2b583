import MusicMacro.Proofs.Notation.Letters
import MusicMacro.Proofs.Notation.Timeline

/-!
# Raising the octaves of a text

A text whose octaves are all raised by the same number sounds the same but for its pitches
(`raised_octaves_transpose`).  Two places in the compiler look at more than one index or at an index
by itself, and both have to agree with the shift: a chord is folded by comparing indices with each
other, so that folding and raising commute (`chordIndices_raised`); and an index must not be below
zero, which raising can only help.  What can go wrong is the other end: an index may come to lie
where no finite frequency is.

The step is one note (`compileNote_raised`), whose lengths are read again and not touched; the run
is an induction over directives that compile.
-/

namespace MusicMacro

/-! ## Raised octaves and raised events -/

/-- The directive with its octave raised, if it is one that sets the octave. -/
def Directive.raised (k : Nat) : Directive → Directive
  | octave value raw => octave (value.shift k) raw
  | tempo bpm raw => tempo bpm raw
  | note raw => note raw

/-- The position so many octaves higher, with the frequency of its new index; a rest stays. -/
def Position.raised (k : Nat) (p : Position) : Position :=
  match p.index with
  | none => p
  | some index => ⟨some (index + 12 * k), pitchFrequency (index + 12 * k)⟩

/-- The event with every position so many octaves higher, at the same time. -/
def Event.raised (k : Nat) (e : Event) : Event :=
  { e with positions := e.positions.map (·.raised k) }

/-- Whether all positions have finite frequencies. -/
def Event.isAudible (e : Event) : Bool := e.positions.all (·.frequency.isFinite)

/-- The first note whose event has a frequency that is not finite. -/
def firstInaudible? (notes : List String) (events : List Event) : Option String :=
  ((notes.zip events).find? (!·.2.isAudible)).map (·.1)

lemma firstInaudible?_cons (raw : String) (notes : List String) (e : Event) (events : List Event) :
    firstInaudible? (raw :: notes) (e :: events) =
      if e.isAudible then firstInaudible? notes events else some raw := by
  rw [firstInaudible?, List.zip_cons_cons, List.find?_cons]
  dsimp only
  cases e.isAudible <;> rfl

/-- The octave that the directive sets, if it sets one, is a whole number. -/
def Directive.HasWholeOctave (d : Directive) : Prop :=
  ∀ value raw, d = .octave value raw → ∃ n : Int, value = .whole n

lemma hasWholeOctave_directive (i : Instruction) : i.directive.HasWholeOctave := by
  rintro value raw h
  cases i with
  | octave n raw => exact ⟨n, (Directive.octave.inj h).1.symm⟩
  | tempo bpm raw => cases h
  | note n => cases h

/-! ## Chords -/

lemma foldChord_raised (n : Int) (indices : List (Option Int)) :
    foldChord (indices.map (·.map (· + n))) = (foldChord indices).map (·.map (· + n)) := by
  rcases indices with _ | ⟨first, rest⟩
  · rfl
  cases first with
  | none => rfl
  | some first =>
      rw [List.map_cons, Option.map_some, foldChord_cons, foldChord_cons, List.map_cons,
        Option.map_some, List.map_map, List.map_map]
      refine congrArg _ (List.map_congr_left fun index? _ => ?_)
      cases index? with
      | none => rfl
      | some index =>
          have hle : first + n ≤ index + n ↔ first ≤ index := Int.add_le_add_iff_right n
          by_cases h : first ≤ index
          · simp only [Function.comp_apply, Option.map_some, hle, if_pos h]
            congr 1
            omega
          · simp only [Function.comp_apply, Option.map_some, hle, if_neg h]

/-- Folding commutes with raising. -/
lemma chordIndices_raised (tones : List Tone) (octave : Int) (k : Nat) :
    chordIndices tones (octave + k) =
      (chordIndices tones octave).map (·.map (· + 12 * (k : Int))) := by
  rw [chordIndices, chordIndices, ← foldChord_raised, List.map_map]
  congr 1
  refine List.map_congr_left fun t _ => ?_
  rw [Function.comp_apply, Tone.index?, Tone.index?, Option.map_map]
  congr 1
  funext l
  rw [Function.comp_apply, PitchLetter.indexIn, PitchLetter.indexIn]
  omega

lemma all_isFinite_positionOf (indices : List (Option Int)) :
    (indices.map positionOf).all (·.frequency.isFinite) = !indices.any isAboveRange := by
  rw [List.all_map, List.not_any_eq_all_not]
  congr 1
  funext index?
  cases index? with
  | none => rfl
  | some index => exact (Bool.not_not _).symm

lemma positionOf_raised {index? : Option Int} (h : ∀ index ∈ index?, 0 ≤ index) (k : Nat) :
    positionOf (index?.map (· + 12 * (k : Int))) = (positionOf index?).raised k := by
  cases index? with
  | none => rfl
  | some index =>
      obtain ⟨i, rfl⟩ := Int.eq_ofNat_of_zero_le (h index rfl)
      rw [Option.map_some, positionOf, positionOf, Position.raised]
      rfl

/-! ## Notes -/

section

variable {raw : String} {perBeat seconds : Double} {octave : Int} {first : Segment}
  {tied : List Segment} {positions : List Position}

/-- A note whose indices are not below zero, once its seconds are known. -/
lemma resolveNote_of_seconds
    (hlow : ∀ index? ∈ chordIndices (parseTones first.letters) octave, ∀ index ∈ index?, 0 ≤ index)
    (hseconds : noteSeconds raw perBeat first tied = .ok seconds) :
    resolveNote raw perBeat (.whole octave) first tied =
      if (chordIndices (parseTones first.letters) octave).any isAboveRange then
        .error (.refused ⟨.aboveHighestPitch, raw⟩)
      else .ok ((chordIndices (parseTones first.letters) octave).map positionOf, seconds) := by
  dsimp only [resolveNote]
  rw [any_below_eq_false_iff.mpr hlow, if_neg Bool.false_ne_true, hseconds, mapM_soundingPosition]
  cases (chordIndices (parseTones first.letters) octave).any isAboveRange <;> rfl

lemma resolveNote_whole_eq_ok
    (h : resolveNote raw perBeat (.whole octave) first tied = .ok (positions, seconds)) :
    (∀ index? ∈ chordIndices (parseTones first.letters) octave, ∀ index ∈ index?, 0 ≤ index) ∧
      noteSeconds raw perBeat first tied = .ok seconds ∧
      positions = (chordIndices (parseTones first.letters) octave).map positionOf := by
  dsimp only [resolveNote] at h
  split at h
  · cases h
  rename_i hlow
  obtain ⟨found, hseconds, h⟩ := bind_eq_ok h
  obtain ⟨sounding, hsounding, h⟩ := bind_eq_ok h
  obtain ⟨rfl, rfl⟩ := Prod.mk.inj (Except.ok.inj h)
  refine ⟨any_below_eq_false_iff.mp (Bool.eq_false_iff.mpr hlow), hseconds, ?_⟩
  rw [mapM_soundingPosition] at hsounding
  split at hsounding
  · cases hsounding
  · exact (Except.ok.inj hsounding).symm

/-- A note in a raised octave takes the same time; it has the raised positions, or is refused if one
of them has no finite frequency. -/
lemma resolveNote_raised
    (h : resolveNote raw perBeat (.whole octave) first tied = .ok (positions, seconds)) (k : Nat) :
    resolveNote raw perBeat (.whole (octave + k)) first tied =
      if (positions.map (·.raised k)).all (·.frequency.isFinite) then
        .ok (positions.map (·.raised k), seconds)
      else .error (.refused ⟨.aboveHighestPitch, raw⟩) := by
  obtain ⟨hlow, hseconds, rfl⟩ := resolveNote_whole_eq_ok h
  have hpositions : ((chordIndices (parseTones first.letters) octave).map positionOf).map
      (·.raised k) = (chordIndices (parseTones first.letters) (octave + k)).map positionOf := by
    rw [chordIndices_raised, List.map_map, List.map_map]
    exact List.map_congr_left fun index? hmem => (positionOf_raised (hlow index? hmem) k).symm
  have hraised : ∀ index? ∈ chordIndices (parseTones first.letters) (octave + k),
      ∀ index ∈ index?, 0 ≤ index := by
    rw [chordIndices_raised]
    intro _ hmem index hindex
    obtain ⟨index?, hindex?, rfl⟩ := List.mem_map.mp hmem
    obtain ⟨i, hi, rfl⟩ := Option.map_eq_some_iff.mp hindex
    have := hlow index? hindex? i hi
    omega
  rw [resolveNote_of_seconds hraised hseconds, hpositions, all_isFinite_positionOf]
  cases (chordIndices (parseTones first.letters) (octave + k)).any isAboveRange <;> rfl

end

/-- The state with its octave raised. -/
def CompileState.raised (k : Nat) (state : CompileState) : CompileState :=
  { state with octave := state.octave.map (·.shift k) }

/-- The octave of the state, if it has one, is a whole number. -/
def CompileState.HasWholeOctave (state : CompileState) : Prop :=
  ∀ value ∈ state.octave, ∃ n : Int, value = .whole n

/-- **One note in a raised octave.** -/
lemma compileNote_raised {raw : String} {state state' : CompileState} {event : Event}
    (hwhole : state.HasWholeOctave) (h : compileNote raw state = .ok (event, state')) (k : Nat) :
    compileNote raw (state.raised k) =
        (if (event.raised k).isAudible then .ok (event.raised k, state'.raised k)
          else .error (.refused ⟨.aboveHighestPitch, raw⟩)) ∧
      state'.HasWholeOctave := by
  obtain ⟨perBeat, octave, first, tied, positions, seconds, hnote⟩ := exists_compilesNote h
  obtain ⟨n, rfl⟩ := hwhole octave hnote.inOctave
  have hmake := make_of_make hnote.makes (positions.map (·.raised k))
  obtain rfl := make_eq_ok hnote.makes
  obtain rfl := hnote.moves
  refine ⟨?_, hwhole⟩
  have htempo : (state.raised k).perBeat = some perBeat := hnote.atTempo
  have hoctave : (state.raised k).octave = some (.whole (n + k)) := by
    rw [CompileState.raised, hnote.inOctave]
    rfl
  rw [compileNote_of_segments htempo hoctave hnote.segments, resolveNote_raised hnote.resolves]
  rw [Event.isAudible, Event.raised]
  dsimp only
  cases (positions.map (·.raised k)).all (·.frequency.isFinite) with
  | false => rfl
  | true =>
      rw [if_pos rfl, if_pos rfl, ok_bind]
      exact congrArg (· >>= _) (congrArg (Except.mapError CompileError.event) hmake)

/-! ## Texts -/

/-- **Directives with raised octaves.** -/
lemma compileFrom_raised {state : CompileState} {directives : List Directive} {events : List Event}
    (h : CompilesFrom state directives events) (hstate : state.HasWholeOctave)
    (hall : ∀ d ∈ directives, d.HasWholeOctave) (k : Nat) :
    compileFrom (state.raised k) (directives.map (·.raised k)) =
      match firstInaudible? (directives.filterMap (·.note?)) (events.map (·.raised k)) with
      | some raw => .error (.refused ⟨.aboveHighestPitch, raw⟩)
      | none => .ok (events.map (·.raised k)) := by
  induction h with
  | nil state => rfl
  | @tempo state bpm raw seconds directives events step rest ih =>
      have hrest := ih hstate fun d hd => hall d (List.mem_cons_of_mem _ hd)
      rw [List.map_cons, Directive.raised, compileFrom, step]
      exact hrest
  | @octave state value raw directives events step rest ih =>
      obtain ⟨n, rfl⟩ := hall _ List.mem_cons_self value raw rfl
      have hrest := ih (fun _ h => ⟨n, (Option.some.inj h).symm⟩)
        fun d hd => hall d (List.mem_cons_of_mem _ hd)
      have hraised : ((Number.whole n).shift k).less (.whole 0) = false := by
        rw [Number.whole_less_zero] at step
        rw [Number.shift, Number.whole_less_zero]
        simp only [decide_eq_false_iff_not] at step ⊢
        omega
      rw [List.map_cons, Directive.raised, compileFrom, if_neg (by rw [hraised]; decide)]
      exact hrest
  | @note state state' raw event directives events step rest ih =>
      obtain ⟨hnote, hstate'⟩ := compileNote_raised hstate step k
      have hrest := ih hstate' fun d hd => hall d (List.mem_cons_of_mem _ hd)
      have hnotes : (Directive.note raw :: directives).filterMap (·.note?) =
          raw :: directives.filterMap (·.note?) := rfl
      rw [List.map_cons, Directive.raised, compileFrom, hnote, hnotes, List.map_cons,
        firstInaudible?_cons]
      cases (event.raised k).isAudible with
      | false => rfl
      | true =>
          rw [if_pos rfl, if_pos rfl]
          dsimp only
          rw [hrest]
          cases firstInaudible? (directives.filterMap (·.note?)) (events.map (·.raised k)) <;> rfl

/-- What is found of a pitch by its finite frequency is its frequency. -/
lemma frequency_of_isFinite {index : Int} (h : (pitchFrequency index).isFinite = true) :
    frequency index = .ok (pitchFrequency index) := by
  unfold pitchFrequency at h ⊢
  cases hf : frequency index with
  | error e =>
      rw [hf] at h
      cases h
  | ok f => rfl

lemma Event.frequency_raised {e : Event} {k : Nat} (h : (e.raised k).isAudible = true) :
    ∀ p ∈ (e.raised k).positions, ∀ index ∈ p.index, frequency index = .ok p.frequency := by
  intro p hp index hindex
  have hfinite := List.all_eq_true.mp h p hp
  obtain ⟨⟨index?, f⟩, -, rfl⟩ := List.mem_map.mp hp
  cases index? with
  | none => cases hindex
  | some i =>
      obtain rfl := Option.some.inj hindex
      exact frequency_of_isFinite hfinite

/-- **Raising every octave raises every pitch and nothing else.**  If the directives of a text
compile to events, then with all octaves raised by `k` they compile to the same events with every
index raised by `12 * k` and with the frequencies of the new indices; or else, if a frequency is not
finite, they are refused because of the pitch of the first note with such a frequency. -/
theorem raised_octaves_transpose {text : String} {directives : List Directive} {events : List Event}
    (htokens : (tokenize text).2 = .ok directives) (h : compileDirectives directives = .ok events)
    (k : Nat) :
    (compileDirectives (directives.map (·.raised k)) =
      match firstInaudible? (directives.filterMap (·.note?)) (events.map (·.raised k)) with
      | some raw => .error (.refused ⟨.aboveHighestPitch, raw⟩)
      | none => .ok (events.map (·.raised k))) ∧
    ∀ e ∈ events, (e.raised k).isAudible = true →
      ∀ p ∈ (e.raised k).positions, ∀ index ∈ p.index, frequency index = .ok p.frequency := by
  refine ⟨?_, fun e _ haudible => e.frequency_raised haudible⟩
  obtain ⟨is, rfl, -⟩ := exists_instructions_of_tokenize htokens
  refine compileFrom_raised (compilesFrom_of_compileFrom h) (fun _ h => (by cases h)) ?_ k
  intro d hd
  obtain ⟨i, -, rfl⟩ := List.mem_map.mp hd
  exact hasWholeOctave_directive i

/-- Two octaves up a text compiles, and twelve hundred octaves up it is refused. -/
theorem chord_two_octaves_up :
    ∃ directives events, (tokenize "T60 O4 CRE4 O3 B-8.").2 = .ok directives ∧
      compileDirectives directives = .ok events ∧
      events.map (·.indices) = [[some 39, none, some 31], [some 37]] ∧
      compileDirectives (directives.map (·.raised 2)) = .ok (events.map (·.raised 2)) ∧
      (events.map (·.raised 2)).map (·.indices) = [[some 63, none, some 55], [some 61]] ∧
      compileDirectives (directives.map (·.raised 1200)) =
        .error (.refused ⟨.aboveHighestPitch, "CRE4"⟩) := by
  have htokens : (tokenize "T60 O4 CRE4 O3 B-8.").2 =
      .ok [.tempo (.whole 60) "T60", .octave (.whole 4) "O4", .note "CRE4", .octave (.whole 3) "O3",
        .note "B-8."] := by
    decide +kernel
  have hevents := eq_ok_of_isOk (x := compileDirectives
    [.tempo (.whole 60) "T60", .octave (.whole 4) "O4", .note "CRE4", .octave (.whole 3) "O3",
      .note "B-8."]) (by decide +kernel) []
  refine ⟨_, _, htokens, hevents, by decide +kernel, ?_, by decide +kernel, ?_⟩
  · refine (raised_octaves_transpose htokens hevents 2).1.trans ?_
    rw [(by decide +kernel : firstInaudible? _ _ = none)]
  · refine (raised_octaves_transpose htokens hevents 1200).1.trans ?_
    rw [(by decide +kernel : firstInaudible? _ _ = some "CRE4")]

end MusicMacro
