import MusicMacro.Proofs.Notation.Compilation
import MusicMacro.Proofs.Pitch
import MusicMacro.Proofs.Score

/-!
# Compiled events are well formed

Playback, scores and files take the events of a text as they come and rely on their shape.
`compiled_events_well_formed` says what it is: the times follow one another from zero on without a
gap, so that the last stop is the end of the part, and every position is either a rest without a
frequency or an index from zero on with an audible one (`Event.IsWellPitched`).

For the times nothing is assumed of doubles: that a sum of positive numbers does not fall below one
of them, and that no power of the semitone ratio falls below one, are theorems about rounding here.
-/

namespace MusicMacro

/-! ## Pitches -/

/-- The positions of a chord, each a rest or an audible tone. -/
structure Event.IsWellPitched (e : Event) : Prop where
  indices_ne : e.indices ≠ []
  parallel : e.indices.length = e.frequencies.length
  /-- The indices are those of a folded chord, with none of them below zero. -/
  folded : ∃ tones octave, e.indices.map (·.map Int.ofNat) = chordIndices tones octave
  rest_iff : ∀ p ∈ e.positions, p.index = none ↔ p.frequency = .zero
  audible : ∀ p ∈ e.positions, p.index ≠ none →
    p.frequency.isFinite = true ∧ (Double.ofFraction 55 2).atMost p.frequency = true

/-- The frequency of an index from zero on is at least the lowest one if it is finite. -/
lemma referenceFrequency_atMost_pitchFrequency {index : Int} (hindex : 0 ≤ index)
    (hfinite : (pitchFrequency index).isFinite = true) :
    referenceFrequency.atMost (pitchFrequency index) = true ∧ pitchFrequency index ≠ .zero := by
  unfold pitchFrequency at hfinite ⊢
  cases hf : frequency index with
  | error e =>
      rw [hf] at hfinite
      cases hfinite
  | ok f =>
      obtain ⟨hsign, hle⟩ := size_referenceFrequency_le hindex hf
      obtain ⟨m, hm⟩ := exists_referenceFrequency
      have hlow : referenceFrequency.IsUnsigned := .inl ⟨m, hm⟩
      have hpos := (Double.zero_isUnsigned.less_iff hlow).mp zero_less_referenceFrequency
      refine ⟨(hlow.atMost_iff hsign).mpr hle, ?_⟩
      rintro rfl
      exact absurd hle (Nat.not_le.mpr hpos)

/-- The event of a note that is at no fault has rests and audible tones. -/
lemma WrittenNote.Makes.isWellPitched {n : WrittenNote} {e : Event} (h : n.Makes e) :
    e.IsWellPitched := by
  obtain ⟨bpm, octave, start, hfault, rfl⟩ := h
  have hright := n.isFaultless_of_faultAt? hfault
  have hposition : ∀ index? ∈ n.indices octave,
      (positionOf index?).index.map Int.ofNat = index? := by
    intro index? hmem
    cases index? with
    | none => rfl
    | some i =>
        have hpos := hright.not_below _ hmem i rfl
        rw [positionOf, Option.map_some, Int.ofNat_eq_natCast, Int.toNat_of_nonneg hpos]
  have haudible : ∀ i : Int, some i ∈ n.indices octave →
      (pitchFrequency i).isFinite = true ∧
        referenceFrequency.atMost (pitchFrequency i) = true ∧ pitchFrequency i ≠ .zero := by
    intro i hmem
    have hfinite : (pitchFrequency i).isFinite = true := by
      simpa [isAboveRange] using hright.not_above _ hmem
    have hpos := hright.not_below _ hmem i rfl
    exact ⟨hfinite, referenceFrequency_atMost_pitchFrequency hpos hfinite⟩
  exact
    { indices_ne := by
        have htones := List.length_pos_of_ne_nil n.first.tones_ne
        rwa [← List.length_pos_iff, Event.indices, event, List.length_map, List.length_map,
          indices, length_foldChord, List.length_map]
      parallel := by
        rw [Event.indices, Event.frequencies, List.length_map, List.length_map]
      folded := by
        refine ⟨n.first.tones.map (·.tone), octave, ?_⟩
        rw [Event.indices, event, List.map_map, List.map_map, chordIndices, List.map_map]
        exact (List.map_congr_left hposition).trans (List.map_id _)
      rest_iff := fun p hp => by
        obtain ⟨index?, hmem, rfl⟩ := List.mem_map.mp hp
        cases index? with
        | none => exact iff_of_true rfl rfl
        | some i => exact iff_of_false (Option.some_ne_none _) (haudible i hmem).2.2
      audible := fun p hp hindex => by
        obtain ⟨index?, hmem, rfl⟩ := List.mem_map.mp hp
        cases index? with
        | none => exact absurd rfl hindex
        | some i => exact ⟨(haudible i hmem).1, (haudible i hmem).2.1⟩ }

/-! ## Times -/

/-- The part ends where its last event stops, and no event stops later. -/
structure ScorePart.EndsLast (p : ScorePart) : Prop where
  duration : ∀ last ∈ p.events.getLast?, p.duration = last.stop
  latest : ∀ e ∈ p.events, e.stop.atMost p.duration = true

/-- **Compiled events are well formed and contiguous.**  Of the events of a text

* the first one starts at zero, each stops where its start and its duration lead, and there the
  next one starts;
* every duration is above zero, and starts never decrease;
* a part of these events ends with the last of them, and none stops later;
* each has as many frequencies as indices and at least one, the indices are those of a folded chord
  with none below zero, the frequency is zero at the rests and nowhere else, and where a tone sounds
  it is finite and no less than 27.5. -/
theorem compiled_events_well_formed {text : String} {events : List Event}
    (h : (compileText text).2 = .ok events) :
    IsTimeline .zero events ∧
      (∀ e ∈ events, (Number.real .zero).less e.duration = true) ∧
      events.Pairwise (fun a b => a.start.atMost b.start = true) ∧
      (∀ p : ScorePart, p.events = events → p.EndsLast) ∧
      ∀ e ∈ events, e.IsWellPitched := by
  obtain ⟨directives, hdirectives⟩ := exists_directives_of_compileText h
  have hregular := compileDirectives_isRegular hdirectives
  refine ⟨compileText_isTimeline h, fun e he => ?_, ?_, ?_, ?_⟩
  · obtain ⟨x, hx, hduration⟩ := (hregular e he).duration
    rw [hduration]
    exact hx
  · refine (compileDirectives_pairwise hdirectives).imp_of_mem fun {a b} ha hb hle => ?_
    exact (Number.IsTime.atMost_iff (hregular a ha).start (hregular b hb).start).mpr
      (Nat.le_trans (start_size_le_stop h ha) hle)
  · rintro p rfl
    have hduration : ∀ last ∈ p.events.getLast?, p.duration = last.stop := fun last hlast => by
      rw [ScorePart.duration, Option.mem_def.mp hlast, Option.map_some, Option.getD_some]
    refine ⟨hduration, fun e he => ?_⟩
    have hlast := List.getLast?_eq_some_getLast (List.ne_nil_of_mem he)
    rw [hduration _ hlast]
    have hend := (hregular _ (List.mem_of_getLast? hlast)).stop
    exact (Number.IsTime.atMost_iff (hregular e he).stop hend).mpr (stop_size_le_last h he hlast)
  · obtain ⟨is, -, hmakes⟩ := exists_instructions_of_compileText h
    have hpitched : List.Forall₂ (fun e n => e.IsWellPitched ∧ n.Makes e) events
        (is.filterMap (·.note?)) :=
      hmakes.flip.imp fun _ _ hnote => ⟨WrittenNote.Makes.isWellPitched hnote, hnote⟩
    exact (List.forall₂_and_left ..).mp hpitched |>.1

/-- A chord with a rest and a tie, and a rest at another tempo. -/
theorem chord_and_rest_well_formed :
    ∃ events, (compileText "T60 O4 CRE-4&C8. T90 R2").2 = .ok events ∧
      events.map (·.indices) = [[some 39, none, some 30], [none]] ∧
      IsTimeline .zero events ∧
      (∀ e ∈ events, (Number.real .zero).less e.duration = true) ∧
      events.Pairwise (fun a b => a.start.atMost b.start = true) ∧
      (∀ p : ScorePart, p.events = events → p.EndsLast) ∧
      ∀ e ∈ events, e.IsWellPitched := by
  have hevents := eq_ok_of_isOk (x := (compileText "T60 O4 CRE-4&C8. T90 R2").2)
    (by decide +kernel) []
  exact ⟨_, hevents, by decide +kernel, compiled_events_well_formed hevents⟩

end MusicMacro
