import MusicMacro.Proofs.Notation.Letters

/-!
# Tones below the first of a chord

Folding lowers a tone by one octave where it is not below the first tone of its chord.  One octave
is enough as long as the two lie less than an octave apart, as any two letters of an octave do.
Signs can widen that by a semitone at either end: from C to B sharp it is an octave, and from C flat
to B or B sharp as well (`mem_wideIntervals_iff`).

`chords_fold_below_iff`: in what compiles these are exactly the tones that do not come out below the
first one, and none comes out more than a semitone above it.
-/

namespace MusicMacro

/-! ## Intervals within an octave -/

/-- The tones of a first and a later letter that lie an octave or more apart although they are
written in the same octave. -/
def wideIntervals : List (Tone × Tone) :=
  [(⟨some .c, -1⟩, ⟨some .b, 0⟩), (⟨some .c, -1⟩, ⟨some .b, 1⟩), (⟨some .c, 0⟩, ⟨some .b, 1⟩)]

lemma PitchLetter.offset_bounds (l : PitchLetter) : 3 ≤ l.offset ∧ l.offset ≤ 14 := by
  cases l <;> decide

/-- A letter at either end of the octave is one by its offset. -/
lemma PitchLetter.eq_of_offset {l : PitchLetter} :
    (l.offset ≤ 4 → l = c) ∧ (13 ≤ l.offset → l = b) := by
  cases l <;> decide

section

variable {l m : PitchLetter} {low high : Int}

/-- No other two tones of one octave lie an octave apart. -/
lemma mem_wideIntervals_iff (hlow : -1 ≤ low ∧ low ≤ 1) (hhigh : -1 ≤ high ∧ high ≤ 1) :
    ((⟨some l, low⟩, ⟨some m, high⟩) : Tone × Tone) ∈ wideIntervals ↔
      l.offset + low + 12 ≤ m.offset + high := by
  have hl := l.offset_bounds
  have hm := m.offset_bounds
  constructor
  · intro hmem
    simp only [wideIntervals, List.mem_cons, List.not_mem_nil, or_false, Prod.mk.injEq,
      Tone.mk.injEq, Option.some.injEq] at hmem
    rcases hmem with ⟨⟨rfl, rfl⟩, rfl, rfl⟩ | ⟨⟨rfl, rfl⟩, rfl, rfl⟩ | ⟨⟨rfl, rfl⟩, rfl, rfl⟩ <;>
      decide
  · intro hle
    obtain rfl := PitchLetter.eq_of_offset.1 (show l.offset ≤ 4 by omega)
    obtain rfl := PitchLetter.eq_of_offset.2 (show 13 ≤ m.offset by omega)
    have hc : PitchLetter.offset .c = 3 := rfl
    have hb : PitchLetter.offset .b = 14 := rfl
    have hcases : low = -1 ∧ high = 0 ∨ low = -1 ∧ high = 1 ∨ low = 0 ∧ high = 1 := by omega
    rcases hcases with ⟨rfl, rfl⟩ | ⟨rfl, rfl⟩ | ⟨rfl, rfl⟩ <;> decide

end

/-! ## Events -/

/-- The tones of the first segment of a note. -/
def firstTones (raw : String) : List Tone :=
  parseTones (letterPortion ((pieces '&' raw.toList).headD []))

/-- Where a chord begins with a pitch, its later tones sound below it unless they lie an octave or
more above it as they are written, and in no case more than a semitone above it. -/
def Event.FoldsBelow (e : Event) (tones : List Tone) : Prop :=
  ∀ t rest first later, tones = t :: rest → e.indices = some first :: later →
    List.Forall₂ (fun u index? => ∀ index ∈ index?,
      (index < first ↔ (t, u) ∉ wideIntervals) ∧ index ≤ first + 1) rest later

lemma WrittenTone.tone_accidental (t : WrittenTone) :
    -1 ≤ t.tone.accidental ∧ t.tone.accidental ≤ 1 := by
  obtain ⟨letter, sign⟩ := t
  cases letter with
  | none => exact (by decide : -1 ≤ Tone.rest.accidental ∧ Tone.rest.accidental ≤ 1)
  | some l =>
      rcases sign with _ | s
      · exact (by decide : -1 ≤ (0 : Int) ∧ (0 : Int) ≤ 1)
      · change -1 ≤ s.shift ∧ s.shift ≤ 1
        cases s <;> decide

/-- A later tone against the first one, folded. -/
lemma WrittenTone.folded_lt_iff {t u : WrittenTone} {octave first folded : Int}
    (hfirst : t.tone.index? octave = some first)
    (hfolded : (u.tone.index? octave).map (fun i => if first ≤ i then i - 12 else i) =
      some folded) :
    (folded < first ↔ (t.tone, u.tone) ∉ wideIntervals) ∧ folded ≤ first + 1 := by
  obtain ⟨index, hindex, hfolded⟩ := Option.map_eq_some_iff.mp hfolded
  obtain ⟨l, hl, hfirst⟩ := Option.map_eq_some_iff.mp hfirst
  obtain ⟨m, hm, hindex⟩ := Option.map_eq_some_iff.mp hindex
  have htone (t : Tone) {l : PitchLetter} (ht : t.letter = some l) :
      t = ⟨some l, t.accidental⟩ := by rw [← ht]
  have hl_bounds := l.offset_bounds
  have hm_bounds := m.offset_bounds
  have ht_bounds := t.tone_accidental
  have hu_bounds := u.tone_accidental
  rw [htone _ hl, htone _ hm, mem_wideIntervals_iff t.tone_accidental u.tone_accidental]
  rw [PitchLetter.indexIn] at hfirst hindex
  split at hfolded <;> omega

namespace WrittenNote

variable {n : WrittenNote} {e : Event}

lemma firstTones_raw : firstTones n.raw = n.first.tones.map WrittenTone.tone := by
  rw [firstTones, n.letterPortion_raw, WrittenSegment.letters, parseTones_letters]

/-- The chord of a note is folded below its first tone but for the wide intervals. -/
lemma Makes.foldsBelow (h : n.Makes e) : e.FoldsBelow (firstTones n.raw) := by
  obtain ⟨bpm, octave, start, hfault, rfl⟩ := h
  have hpos := (n.isFaultless_of_faultAt? hfault).not_below
  rw [firstTones_raw]
  intro t rest first later htones hindices
  obtain ⟨w, ws, hws, rfl, rfl⟩ := List.map_eq_cons_iff.mp htones
  rw [indices_event, indices, hws, List.map_cons] at hindices
  rw [indices, hws, List.map_cons] at hpos
  cases hfirst : w.tone.index? octave with
  | none =>
      rw [hfirst] at hindices
      cases hindices
  | some lead =>
      rw [hfirst, foldChord_cons] at hindices hpos
      obtain ⟨hlead, hlater⟩ := List.cons.inj hindices
      obtain rfl := Option.some.inj hlead
      have hlead := hpos _ List.mem_cons_self _ rfl
      rw [← hlater, List.map_map, List.map_map, List.forall₂_map_left_iff,
        List.forall₂_map_right_iff, List.forall₂_same]
      intro u hu index hmem
      obtain ⟨folded, hfolded, rfl⟩ := Option.map_eq_some_iff.mp hmem
      have hindex := hpos (some folded)
        (List.mem_cons_of_mem _ (hfolded ▸ List.mem_map_of_mem (List.mem_map_of_mem hu))) _ rfl
      obtain ⟨hlt, hle⟩ := WrittenTone.folded_lt_iff hfirst hfolded
      -- the indices are from zero on, so that nothing is lost when they become natural numbers
      rw [← hlt]
      omega

end WrittenNote

/-- **The later tones of a chord sound below its first tone, but for the wide intervals.**  Where
the first position of an event is a pitch, the index of a later one is below it exactly if the two
tones, as they are written, are none of C flat and B, C flat and B sharp, and C and B sharp; and
then it is at most the next index above. -/
theorem chords_fold_below_iff {text : String} {directives : List Directive} {events : List Event}
    (htokens : (tokenize text).2 = .ok directives) (h : (compileText text).2 = .ok events) :
    List.Forall₂ (fun raw e => e.FoldsBelow (firstTones raw)) (directives.filterMap (·.note?))
      events := by
  obtain ⟨is, his, hmakes⟩ := exists_instructions_of_compileText h
  obtain rfl := Except.ok.inj (htokens.symm.trans his)
  rw [filterMap_note?_directive, List.forall₂_map_left_iff]
  exact hmakes.imp fun _ _ hnote => hnote.foldsBelow

/-- A B sharp in a chord on C flat comes out above it. -/
theorem b_sharp_above_c_flat :
    ∃ events, (compileText "T60 O4 C-B#4 CB#4 CEG4").2 = .ok events ∧
      events.map (·.indices) =
        [[some 38, some 39], [some 39, some 39], [some 39, some 31, some 34]] ∧
      List.Forall₂ (fun raw e => e.FoldsBelow (firstTones raw)) ["C-B#4", "CB#4", "CEG4"]
        events := by
  have htokens : (tokenize "T60 O4 C-B#4 CB#4 CEG4").2 =
      .ok [.tempo (.whole 60) "T60", .octave (.whole 4) "O4", .note "C-B#4", .note "CB#4",
        .note "CEG4"] := by
    decide +kernel
  have hevents := eq_ok_of_isOk (x := (compileText "T60 O4 C-B#4 CB#4 CEG4").2)
    (by decide +kernel) []
  exact ⟨_, hevents, by decide +kernel, chords_fold_below_iff htokens hevents⟩

/-- Folding does not bring every later tone below the first: lowered by one octave, the B sharp is
still a semitone above the C flat. -/
theorem folded_tone_above_first :
    ∃ events, (compileText "T60 O4 C-B#4").2 = .ok events ∧
      ¬∀ e ∈ events, ∀ first later, e.indices = some first :: later →
        ∀ index, some index ∈ later → index < first := by
  have hevents := eq_ok_of_isOk (x := (compileText "T60 O4 C-B#4").2) (by decide +kernel) []
  have hindices : ((compileText "T60 O4 C-B#4").2.toOption.getD []).map (·.indices) =
      [[some 38, some 39]] := by
    decide +kernel
  obtain ⟨e, hsingle, he⟩ := List.map_eq_singleton_iff.mp hindices
  refine ⟨_, hevents, fun hbelow => ?_⟩
  have hlt := hbelow e (hsingle ▸ List.mem_singleton_self e) 38 [some 39] he 39
    (List.mem_singleton_self _)
  omega

end MusicMacro
