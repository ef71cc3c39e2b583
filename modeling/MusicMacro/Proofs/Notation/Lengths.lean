import Mathlib.Algebra.Order.Field.Rat
import Mathlib.Tactic.Linarith
import Mathlib.Tactic.Positivity
import MusicMacro.Proofs.Computation
import MusicMacro.Proofs.Notation.Reference
import MusicMacro.Proofs.Number.Bounds

/-!
# The length of a note

The compiler adds the lengths of a note's segments as durations and turns the sum into seconds.
What comes out is the length that the reference gives the note (`WrittenNote.noteSeconds_segments`)
or the refusal of the first segment whose code is not supported.

A supported length is at most a dotted whole note, so a note of less than `2^63` characters stays
far below the largest double (`WrittenNote.isFinite_beats`).
-/

namespace MusicMacro

/-! ## Seconds -/

lemma doubleOfQuotient_rat (r : Rat) :
    doubleOfQuotient r.num r.den =
      if (Double.ofRat r).isFinite then .ok (.ofRat r) else .error .quotientTooLarge := by
  have hsign : (decide (r.num < 0) != decide ((r.den : Int) < 0)) = decide (r.num < 0) := by
    rw [decide_eq_false (Int.not_lt.mpr (Int.natCast_nonneg r.den)), Bool.bne_false]
  rw [doubleOfQuotient, if_neg (Int.natCast_ne_zero.mpr r.den_nz), hsign]
  rfl

/-- A positive tempo gives a quarter note a finite number of seconds. -/
lemma beatSeconds_finite {bpm : Int} (h : 0 < bpm) : ∃ m, beatSeconds bpm = .finite false m := by
  have hbpm : 1 ≤ bpm.natAbs := Int.natAbs_pos.mpr (ne_of_gt h)
  have hlt : (60 : Int).natAbs < 2 ^ 100 * bpm.natAbs :=
    Nat.lt_of_lt_of_le (by decide) (Nat.le_mul_of_pos_right _ hbpm)
  exact Double.isFinite_ofFraction hlt

namespace WrittenSegment

variable (s : WrittenSegment)

lemma part_pos (h : s.isSupported = true) : (0 : Rat) < 4 / s.code := by
  have hcode : s.code ≠ 0 := by
    intro h0
    rw [isSupported, h0] at h
    revert h
    decide
  have hcode : (0 : Rat) < s.code := by exact_mod_cast Nat.pos_of_ne_zero hcode
  positivity

lemma beats_pos (h : s.isSupported = true) : 0 < s.beats := by
  have hpart := s.part_pos h
  rw [beats]
  split <;> positivity

/-- The length as a duration; that of an unsupported code is of no account. -/
def duration : Duration := if h : 0 < s.beats then ⟨s.beats, h⟩ else ⟨1, by decide⟩

lemma duration_beats (h : s.isSupported = true) : s.duration.beats = s.beats := by
  rw [duration, dif_pos (s.beats_pos h)]

/-- Looking a code up among the supported ones finds that code. -/
lemma find?_supportedCodes :
    (Duration.supportedCodes.find? fun n : Nat => (Number.whole s.code).equal (.whole n)) =
      if s.isSupported then some s.code else none := by
  have hequal (n : Nat) : (Number.whole s.code).equal (.whole n) = decide (s.code = n) := by
    rw [Number.whole_equal, decide_eq_decide]
    exact Int.ofNat_inj
  simp only [hequal, isSupported, decide_eq_true_eq]
  split
  · rename_i hmem
    cases hfind : Duration.supportedCodes.find? fun n => decide (s.code = n) with
    | none => exact absurd (by simp) (List.find?_eq_none.mp hfind s.code hmem)
    | some n =>
        have heq := List.find?_some hfind
        rw [of_decide_eq_true heq]
  · rename_i hmem
    refine List.find?_eq_none.mpr fun n hn heq => hmem ?_
    rwa [of_decide_eq_true heq]

lemma isSupported_code : Duration.isSupported (.whole s.code) = s.isSupported := by
  rw [Duration.isSupported, ← List.isSome_find?, find?_supportedCodes]
  cases s.isSupported <;> rfl

/-- The length of a supported code is that of the segment. -/
lemma ofCode_code (h : s.isSupported = true) :
    Duration.ofCode (.whole s.code) s.dotted = .ok s.duration := by
  rw [Duration.ofCode, find?_supportedCodes, if_pos h]
  dsimp only
  rw [Duration.ofBeats, dif_pos (s.part_pos h), duration, dif_pos (s.beats_pos h)]
  refine congrArg Except.ok ?_
  cases hdot : s.dotted with
  | true =>
      dsimp only
      rw [if_pos rfl, Duration.dotted, Duration.mk.injEq, beats, hdot, if_pos rfl]
  | false =>
      dsimp only
      rw [if_neg Bool.false_ne_true, Duration.mk.injEq, beats, hdot, if_neg Bool.false_ne_true,
        mul_one]

lemma segmentDuration_segment (raw : String) :
    segmentDuration raw s.segment =
      if !s.isSupported then .error (.refused ⟨.unsupportedCode s.code, raw⟩)
      else .ok s.duration := by
  rw [segmentDuration, segment, s.isSupported_code]
  cases h : s.isSupported with
  | true => rw [s.ofCode_code h]; rfl
  | false => rfl

end WrittenSegment

namespace WrittenNote

variable (n : WrittenNote)

/-- The durations of the segments, added up. -/
def duration : Duration :=
  (n.tied.map WrittenSegment.duration).foldl Duration.add n.first.duration

/-- Durations add up to the beats of the note. -/
lemma duration_beats (h : ∀ s ∈ n.segments, s.isSupported = true) : n.duration.beats = n.beats := by
  have hfold (d : Duration) (segments : List WrittenSegment)
      (hall : ∀ s ∈ segments, s.isSupported = true) :
      ((segments.map WrittenSegment.duration).foldl Duration.add d).beats =
        d.beats + (segments.map WrittenSegment.beats).sum := by
    induction segments generalizing d with
    | nil => exact (add_zero _).symm
    | cons s rest ih =>
        obtain ⟨hs, hrest⟩ := List.forall_mem_cons.mp hall
        calc ((s :: rest).map WrittenSegment.duration |>.foldl Duration.add d).beats
            = d.beats + s.duration.beats + (rest.map WrittenSegment.beats).sum := ih _ hrest
          _ = d.beats + ((s :: rest).map WrittenSegment.beats).sum := by
            rw [s.duration_beats hs, List.map_cons, List.sum_cons, add_assoc]
  obtain ⟨hfirst, htied⟩ := List.forall_mem_cons.mp h
  rw [duration, hfold _ _ htied, n.first.duration_beats hfirst, beats, segments, List.map_cons,
    List.sum_cons]

lemma beats_pos (h : ∀ s ∈ n.segments, s.isSupported = true) : 0 < n.beats := by
  rw [← n.duration_beats h]
  exact Duration.positive _

/-- A note whose beats have a nearest double takes an unsigned number of seconds. -/
lemma seconds_isUnsigned {bpm : Int} (hbpm : 0 < bpm)
    (h : ∀ s ∈ n.segments, s.isSupported = true) (hfinite : (Double.ofRat n.beats).isFinite = true) :
    (n.seconds bpm).IsUnsigned := by
  have hnum : ¬ n.beats.num < 0 := not_lt.mpr (Rat.num_nonneg.mpr (n.beats_pos h).le)
  have hbeats : (Double.ofRat n.beats).IsUnsigned := by
    rw [Double.ofRat, Double.ofFraction, decide_eq_false hnum]
    exact Double.isUnsigned_ofUnits _ _
  obtain ⟨perBeat, hperBeat⟩ := beatSeconds_finite hbpm
  rcases hbeats with ⟨m, hm⟩ | hinfinite
  · rw [seconds, hm, hperBeat]
    exact Double.isUnsigned_mul _ _
  · rw [hinfinite] at hfinite
    cases hfinite

lemma duration_seconds (h : ∀ s ∈ n.segments, s.isSupported = true) (perBeat : Double) :
    n.duration.seconds perBeat =
      if (Double.ofRat n.beats).isFinite then .ok (.ofRat n.beats * perBeat)
      else .error .quotientTooLarge := by
  rw [Duration.seconds, n.duration_beats h, doubleOfQuotient_rat]
  split <;> rfl

/-- The seconds of a note with supported codes come from its duration alone. -/
lemma noteSeconds_of_supported (h : ∀ s ∈ n.segments, s.isSupported = true) (perBeat : Double) :
    noteSeconds n.raw perBeat n.first.segment (n.tied.map WrittenSegment.segment) =
      (n.duration.seconds perBeat).mapError CompileError.number >>= fun seconds =>
        if Double.zero.less seconds then .ok seconds
        else .error (.refused ⟨.tempoTooFast, n.raw⟩) := by
  obtain ⟨hfirst, htied⟩ := List.forall_mem_cons.mp h
  have hsegment : ∀ s : WrittenSegment, s.isSupported = true →
      segmentDuration n.raw s.segment = .ok s.duration := by
    intro s hs
    rw [s.segmentDuration_segment, hs]
    rfl
  have hrest : (n.tied.map WrittenSegment.segment).mapM (segmentDuration n.raw) =
      .ok (n.tied.map WrittenSegment.duration) := by
    rw [mapM_eq_ok_iff, List.map_map, List.map_map]
    exact List.map_congr_left fun s hs => hsegment s (htied s hs)
  rw [noteSeconds, hsegment _ hfirst, ok_bind, hrest, ok_bind]
  rfl

/-- The first code that is not supported refuses the note. -/
lemma noteSeconds_of_unsupported {s : WrittenSegment}
    (h : n.segments.find? (!·.isSupported) = some s) (perBeat : Double) :
    noteSeconds n.raw perBeat n.first.segment (n.tied.map WrittenSegment.segment) =
      .error (.refused ⟨.unsupportedCode s.code, n.raw⟩) := by
  have htied := mapM_eq_find? (fun s : WrittenSegment => !s.isSupported)
    (fun s => CompileError.refused ⟨.unsupportedCode s.code, n.raw⟩) WrittenSegment.duration
    (fun s => s.segmentDuration_segment n.raw) n.tied
  rw [noteSeconds, List.mapM_map, n.first.segmentDuration_segment, Function.comp_def, htied]
  rw [segments, List.find?_cons] at h
  cases hfirst : n.first.isSupported with
  | false =>
      rw [hfirst] at h
      obtain rfl := Option.some.inj h
      rfl
  | true =>
      rw [hfirst] at h
      have hlater : n.tied.find? (fun s => !s.isSupported) = some s := h
      rw [hlater]
      rfl

/-- Reading the lengths of a note and turning them into seconds. -/
lemma noteSeconds_segments {bpm : Int} (hbpm : 0 < bpm) :
    noteSeconds n.raw (beatSeconds bpm) n.first.segment (n.tied.map WrittenSegment.segment) =
      match n.segments.find? (!·.isSupported) with
      | some s => .error (.refused ⟨.unsupportedCode s.code, n.raw⟩)
      | none =>
        if !(Double.ofRat n.beats).isFinite then .error (.number .quotientTooLarge)
        else if n.seconds bpm = .zero then .error (.refused ⟨.tempoTooFast, n.raw⟩)
        else .ok (n.seconds bpm) := by
  cases hfind : n.segments.find? (!·.isSupported) with
  | some s => exact n.noteSeconds_of_unsupported hfind _
  | none =>
      have hall : ∀ s ∈ n.segments, s.isSupported = true := fun s hs => by
        simpa using List.find?_eq_none.mp hfind s hs
      rw [n.noteSeconds_of_supported hall, n.duration_seconds hall, ← seconds]
      cases hfinite : (Double.ofRat n.beats).isFinite with
      | false => rfl
      | true =>
          have hsign := (n.seconds_isUnsigned hbpm hall hfinite).zero_less_iff
          simp only [if_true, mapError_ok, Bool.not_true, Bool.false_eq_true, if_false]
          rw [ok_bind]
          by_cases hzero : n.seconds bpm = .zero
          · rw [if_pos hzero, if_neg fun hless => hsign.mp hless hzero]
          · rw [if_neg hzero, if_pos (hsign.mpr hzero)]

end WrittenNote

/-! ## Sizes -/

namespace WrittenSegment

variable (s : WrittenSegment)

/-- No supported length exceeds a dotted whole note. -/
lemma beats_le (h : s.isSupported = true) : s.beats ≤ 6 := by
  have hcode : (1 : Rat) ≤ s.code := by
    have hall : ∀ code ∈ Duration.supportedCodes, 1 ≤ code := by decide
    exact_mod_cast hall s.code (of_decide_eq_true h)
  have hpart : 4 / (s.code : Rat) ≤ 4 := div_le_self (by norm_num) hcode
  rw [beats]
  split
  · linarith
  · linarith

lemma text_ne : 0 < s.text.length := by
  rw [text, List.length_append, List.length_append]
  have := List.length_pos_iff.mpr s.letters_ne
  omega

end WrittenSegment

namespace WrittenNote

variable (n : WrittenNote)

lemma length_segments_le : n.segments.length ≤ n.text.length := by
  have htied : n.tied.length ≤ (n.tied.flatMap fun s => '&' :: s.text).length := by
    induction n.tied with
    | nil => exact Nat.le_refl 0
    | cons s rest ih =>
        rw [List.flatMap_cons, List.length_append, List.length_cons, List.length_cons]
        omega
  have hfirst := n.first.text_ne
  rw [segments, text, List.length_cons, List.length_append]
  omega

lemma beats_le (h : ∀ s ∈ n.segments, s.isSupported = true) :
    n.beats ≤ 6 * n.segments.length := by
  rw [beats]
  generalize n.segments = segments at h
  induction segments with
  | nil => simp
  | cons s rest ih =>
      obtain ⟨hs, hrest⟩ := List.forall_mem_cons.mp h
      have hsum := ih hrest
      have hone := s.beats_le hs
      rw [List.map_cons, List.sum_cons, List.length_cons, Nat.cast_succ]
      linarith

/-- **The beats of a note of less than `2^63` characters have a nearest double.** -/
lemma isFinite_beats (h : ∀ s ∈ n.segments, s.isSupported = true) (hlength : n.text.length < 2 ^ 63) :
    (Double.ofRat n.beats).isFinite = true := by
  have hpos := n.beats_pos h
  have hle : n.beats ≤ ((6 * 2 ^ 63 : Nat) : Rat) := by
    have hsegments : (n.segments.length : Rat) ≤ 2 ^ 63 := by
      exact_mod_cast (Nat.le_trans n.length_segments_le hlength.le)
    have := n.beats_le h
    push_cast
    linarith
  have hnum : n.beats.num ≤ (6 * 2 ^ 63 : Nat) * n.beats.den := by
    have hden : (0 : Rat) < n.beats.den := by exact_mod_cast n.beats.den_pos
    rw [← Rat.num_div_den n.beats, div_le_iff₀ hden] at hle
    exact_mod_cast hle
  have hnat : n.beats.num.natAbs < 2 ^ 100 * n.beats.den := by
    have := n.beats.den_pos
    have := Rat.num_pos.mpr hpos
    omega
  obtain ⟨m, hm⟩ := Double.isFinite_ofFraction hnat
  rw [Double.ofRat, hm]
  rfl

end WrittenNote

end MusicMacro
