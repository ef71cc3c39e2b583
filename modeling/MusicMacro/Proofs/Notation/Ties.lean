import Mathlib.Algebra.BigOperators.Group.List.Basic
import MusicMacro.Proofs.Notation.Compilation
import MusicMacro.Proofs.Notation.Timeline

/-!
# Notes of the same length

One length can be written in many ways, as a single code or as a chain of ties, with points or
without.  The compiler adds the lengths of a chain exactly and rounds their sum once, so it does not
matter which way is taken (`tied_lengths_add_up`): neither the order of a chain nor how it is
divided has an effect on the event, on where the next one starts or on why a note is refused.

The two notes are compiled side by side.  Their texts differ, and each step puts the text of the
note into the error that it may end with; `SameButToken` is the relation between the two that leaves
this out, and every step keeps it.
-/

namespace MusicMacro

/-! ## Failing alike -/

/-- The error without the token that it names. -/
def CompileError.withoutToken : CompileError → CompileError
  | refused e => refused { e with token := "" }
  | e => e

section

variable {α β : Type}

/-- The two computations have the same result, or fail for the same cause. -/
def SameButToken (x y : Except CompileError α) : Prop :=
  x.mapError CompileError.withoutToken = y.mapError CompileError.withoutToken

namespace SameButToken

lemma refl (x : Except CompileError α) : SameButToken x x := rfl

lemma refused (cause : NotationCause) (raw raw' : String) :
    SameButToken (.error (.refused ⟨cause, raw⟩) : Except CompileError α)
      (.error (.refused ⟨cause, raw'⟩)) := rfl

variable {x y : Except CompileError α} {f g : α → Except CompileError β}

lemma eq_ok {a : α} (h : SameButToken x y) (hx : x = .ok a) : y = .ok a := by
  subst hx
  exact mapError_eq_ok h.symm

lemma bind (h : SameButToken x y) (hfg : ∀ a, SameButToken (f a) (g a)) :
    SameButToken (x >>= f) (y >>= g) := by
  cases x with
  | error e =>
      cases y with
      | error e' => exact congrArg Except.error (Except.error.inj h)
      | ok b => cases h
  | ok a =>
      cases y with
      | error e' => cases h
      | ok b =>
          obtain rfl := Except.ok.inj h
          exact hfg a

lemma mapM (h : ∀ a, SameButToken (f a) (g a)) (l : List α) :
    SameButToken (l.mapM f) (l.mapM g) := by
  induction l with
  | nil => exact .refl _
  | cons a rest ih =>
      rw [List.mapM_cons, List.mapM_cons]
      exact (h a).bind fun _ => ih.bind fun _ => .refl _

lemma forM {f g : α → Except CompileError PUnit} (h : ∀ a, SameButToken (f a) (g a)) (l : List α) :
    SameButToken (l.forM f) (l.forM g) := by
  induction l with
  | nil => exact .refl _
  | cons a rest ih =>
      exact (h a).bind fun _ => ih

end SameButToken

end

/-! ## Pitches -/

section

variable (raw raw' : String)

lemma soundingPosition_sameButToken (index? : Option Int) :
    SameButToken (soundingPosition raw index?) (soundingPosition raw' index?) := by
  rw [soundingPosition_eq, soundingPosition_eq]
  cases isAboveRange index? with
  | true => exact .refused _ _ _
  | false => exact .refl _

lemma checkRealFrequency_sameButToken (index : Double) :
    SameButToken (checkRealFrequency raw index) (checkRealFrequency raw' index) := by
  rw [checkRealFrequency, checkRealFrequency]
  split
  · exact .refl _
  · exact .refused _ _ _
  · exact (soundingPosition_sameButToken raw raw' _).bind fun _ => .refl _

lemma realPositions_sameButToken (indices : List (Option Double)) :
    SameButToken (realPositions raw indices) (realPositions raw' indices) := by
  refine (SameButToken.forM (fun index? => ?_) indices).bind fun _ => .refl _
  cases index? with
  | none => exact .refl _
  | some index => exact checkRealFrequency_sameButToken raw raw' index

/-- Notes with the same tones that take the same time have the same positions. -/
lemma resolveNote_sameButToken {perBeat : Double} {octave : Number} {first first' : Segment}
    {tied tied' : List Segment} (htones : parseTones first.letters = parseTones first'.letters)
    (hseconds : SameButToken (noteSeconds raw perBeat first tied)
      (noteSeconds raw' perBeat first' tied')) :
    SameButToken (resolveNote raw perBeat octave first tied)
      (resolveNote raw' perBeat octave first' tied') := by
  cases octave with
  | whole o =>
      dsimp only [resolveNote]
      rw [htones]
      split
      · exact .refused _ _ _
      · exact hseconds.bind fun _ =>
          (SameButToken.mapM (soundingPosition_sameButToken raw raw') _).bind fun _ => .refl _
  | real x =>
      dsimp only [resolveNote]
      rw [htones]
      split
      · exact .refused _ _ _
      · exact hseconds.bind fun _ =>
          (realPositions_sameButToken raw raw' _).bind fun _ => .refl _

end

/-! ## Lengths -/

namespace WrittenNote

/-- The codes of the note, as they are read, are all supported.  A code with more digits than can be
read has no value that is looked up. -/
def HasSupportedCodes (n : WrittenNote) : Prop :=
  ∃ segments, Segment.ofNote n.raw = .ok segments ∧
    ∀ s ∈ segments, Duration.isSupported (.whole s.code) = true

/-- The lengths of the second note are those of the first one in some order. -/
def Reorders (n n' : WrittenNote) : Prop :=
  (n.segments.map WrittenSegment.beats).Perm (n'.segments.map WrittenSegment.beats)

/-- In place of one segment of the first note the second one has several of one length, by a code
that is so many times the code of that segment. -/
def Splits (n n' : WrittenNote) : Prop :=
  ∃ front s back parts, n.segments = front ++ s :: back ∧ n'.segments = front ++ parts ++ back ∧
    parts ≠ [] ∧ ∀ part ∈ parts, part.code = parts.length * s.code ∧ part.dotted = s.dotted

variable {n n' : WrittenNote}

lemma hasSupportedCodes_iff : n.HasSupportedCodes ↔
    n.segments.any (·.isTooLong) = false ∧ ∀ s ∈ n.segments, s.isSupported = true := by
  rw [HasSupportedCodes, n.ofNote_raw]
  have hcodes : (∀ s ∈ n.segments.map WrittenSegment.segment,
      Duration.isSupported (.whole s.code) = true) ↔ ∀ s ∈ n.segments, s.isSupported = true := by
    rw [List.forall_mem_map]
    exact forall₂_congr fun s _ => by rw [WrittenSegment.segment, s.isSupported_code]
  cases n.segments.any (·.isTooLong) with
  | true => simp
  | false => simpa using hcodes

lemma beats_eq_of_splits (h : n.Splits n') : n.beats = n'.beats := by
  obtain ⟨front, s, back, parts, hn, hn', hne, hparts⟩ := h
  have hlength : (parts.length : Rat) ≠ 0 :=
    Nat.cast_ne_zero.mpr (List.length_eq_zero_iff.not.mpr hne)
  have hpart : ∀ beats ∈ parts.map WrittenSegment.beats, beats = s.beats / parts.length := by
    rw [List.forall_mem_map]
    intro part hmem
    obtain ⟨hcode, hdotted⟩ := hparts part hmem
    rw [WrittenSegment.beats, WrittenSegment.beats, hcode, hdotted, Nat.cast_mul,
      mul_comm (parts.length : Rat), ← div_div, div_mul_eq_mul_div]
  have hsum : (parts.map WrittenSegment.beats).sum = s.beats := by
    rw [List.sum_eq_card_nsmul _ _ hpart, List.length_map, nsmul_eq_mul, mul_div_cancel₀ _ hlength]
  rw [beats, beats, hn, hn']
  simp only [List.map_append, List.map_cons, List.sum_append, List.sum_cons, hsum, add_assoc]

lemma ofNote_of_readable (h : n.segments.any (·.isTooLong) = false) :
    Segment.ofNote n.raw = .ok (n.first.segment :: n.tied.map WrittenSegment.segment) := by
  rw [n.ofNote_raw, h]
  rfl

lemma parseTones_first : parseTones n.first.segment.letters = n.first.tones.map WrittenTone.tone :=
  parseTones_letters n.first.tones

/-- What the seconds of a note with supported codes are. -/
lemma seconds_of_noteSeconds (h : ∀ s ∈ n.segments, s.isSupported = true) {perBeat seconds : Double}
    (hseconds : noteSeconds n.raw perBeat n.first.segment (n.tied.map WrittenSegment.segment) =
      .ok seconds) : seconds = .ofRat n.beats * perBeat := by
  rw [n.noteSeconds_of_supported h] at hseconds
  obtain ⟨found, hfound, hseconds⟩ := bind_eq_ok hseconds
  have hfound := mapError_eq_ok hfound
  rw [n.duration_seconds h] at hfound
  split at hseconds
  · obtain rfl := Except.ok.inj hseconds
    split at hfound
    · exact (Except.ok.inj hfound).symm
    · cases hfound
  · cases hseconds

/-- Notes of the same length take the same time. -/
lemma noteSeconds_sameButToken (h : ∀ s ∈ n.segments, s.isSupported = true)
    (h' : ∀ s ∈ n'.segments, s.isSupported = true) (hbeats : n.beats = n'.beats)
    (perBeat : Double) :
    SameButToken
      (noteSeconds n.raw perBeat n.first.segment (n.tied.map WrittenSegment.segment))
      (noteSeconds n'.raw perBeat n'.first.segment (n'.tied.map WrittenSegment.segment)) := by
  have hduration : n.duration = n'.duration := by
    rw [Duration.mk.injEq, n.duration_beats h, n'.duration_beats h', hbeats]
  rw [n.noteSeconds_of_supported h, n'.noteSeconds_of_supported h', hduration]
  refine (SameButToken.refl _).bind fun seconds => ?_
  split
  · exact .refl _
  · exact .refused _ _ _

lemma compileNote_sameButToken (hn : n.HasSupportedCodes) (hn' : n'.HasSupportedCodes)
    (htones : n.first.tones.map WrittenTone.tone = n'.first.tones.map WrittenTone.tone)
    (hbeats : n.beats = n'.beats) (state : CompileState) :
    SameButToken (compileNote n.raw state) (compileNote n'.raw state) := by
  obtain ⟨hread, hcodes⟩ := hasSupportedCodes_iff.mp hn
  obtain ⟨hread', hcodes'⟩ := hasSupportedCodes_iff.mp hn'
  have hsegments := n.ofNote_of_readable hread
  have hsegments' := n'.ofNote_of_readable hread'
  rcases hperBeat : state.perBeat with _ | perBeat
  · unfold compileNote
    rw [hperBeat]
    exact .refused _ _ _
  rcases hoctave : state.octave with _ | octave
  · unfold compileNote
    rw [hperBeat, hoctave]
    exact .refused _ _ _
  rw [compileNote_of_segments hperBeat hoctave hsegments,
    compileNote_of_segments hperBeat hoctave hsegments']
  refine (resolveNote_sameButToken _ _ ?_ ?_).bind fun _ => .refl _
  · rw [n.parseTones_first, n'.parseTones_first, htones]
  · exact noteSeconds_sameButToken hcodes hcodes' hbeats perBeat

lemma duration_of_compileNote (hn : n.HasSupportedCodes) {state state' : CompileState}
    {event : Event} (h : compileNote n.raw state = .ok (event, state')) :
    ∃ perBeat, state.perBeat = some perBeat ∧
      event.duration = .real (Double.ofRat n.beats * perBeat) := by
  obtain ⟨hread, hcodes⟩ := hasSupportedCodes_iff.mp hn
  obtain ⟨perBeat, _, _, _, _, seconds, hnote⟩ := exists_compilesNote h
  obtain ⟨rfl, rfl⟩ := List.cons.inj
    (Except.ok.inj (hnote.segments.symm.trans (n.ofNote_of_readable hread)))
  obtain ⟨-, hseconds⟩ := resolveNote_eq_ok hnote.resolves
  rw [make_eq_ok hnote.makes]
  exact ⟨perBeat, hnote.atTempo, congrArg Number.real (seconds_of_noteSeconds hcodes hseconds)⟩

end WrittenNote

/-- **Only the exact length of a note matters.**  Let the codes of two notes be supported and let
their first segments have the same tones.  If their lengths have the same sum, as they do if the
second note has the lengths of the first one in another order or has several equal ones for one of
them, then in every state

* the two notes give the same event and the same next state, or are refused for the same cause;
* the duration is the double nearest to the sum, times the seconds of a quarter note. -/
theorem tied_lengths_add_up {n n' : WrittenNote} (hn : n.HasSupportedCodes)
    (hn' : n'.HasSupportedCodes)
    (htones : n.first.tones.map WrittenTone.tone = n'.first.tones.map WrittenTone.tone)
    (hlength : n.beats = n'.beats ∨ n.Reorders n' ∨ n.Splits n') (state : CompileState) :
    SameButToken (compileNote n.raw state) (compileNote n'.raw state) ∧
      ∀ event state', compileNote n.raw state = .ok (event, state') →
        ∃ perBeat, state.perBeat = some perBeat ∧
          event.duration = .real (Double.ofRat n.beats * perBeat) := by
  have hbeats : n.beats = n'.beats := by
    rcases hlength with hsum | hperm | hsplit
    · exact hsum
    · exact hperm.sum_eq
    · exact WrittenNote.beats_eq_of_splits hsplit
  exact ⟨WrittenNote.compileNote_sameButToken hn hn' htones hbeats state,
    fun _ _ h => WrittenNote.duration_of_compileNote hn h⟩

/-- A half note, and the three tied triplets that span it. -/
def halfNote : WrittenNote :=
  ⟨⟨[⟨some .c, none⟩, ⟨some .e, some .minus⟩], ['2'], false, by decide, by decide,
    List.all_eq_true.mp (by decide)⟩, []⟩

@[inherit_doc halfNote]
def tiedTriplets : WrittenNote :=
  ⟨⟨[⟨some .c, none⟩, ⟨some .e, some .minus⟩], ['6'], false, by decide, by decide,
      List.all_eq_true.mp (by decide)⟩,
    List.replicate 2 ⟨[⟨some .c, none⟩], ['6'], false, by decide, by decide,
      List.all_eq_true.mp (by decide)⟩⟩

/-- Three tied triplets are compiled as the half note that they span. -/
theorem triplets_span_half_note :
    halfNote.raw = "CE-2" ∧ tiedTriplets.raw = "CE-6&C6&C6" ∧
      halfNote.HasSupportedCodes ∧ tiedTriplets.HasSupportedCodes ∧
      halfNote.Splits tiedTriplets ∧
      ∃ result, compileNote "CE-2" ⟨some (beatSeconds 90), some (.whole 4), .zero⟩ = .ok result ∧
        compileNote "CE-6&C6&C6" ⟨some (beatSeconds 90), some (.whole 4), .zero⟩ = .ok result := by
  have hhalf : halfNote.HasSupportedCodes := WrittenNote.hasSupportedCodes_iff.mpr (by decide)
  have htriplets : tiedTriplets.HasSupportedCodes :=
    WrittenNote.hasSupportedCodes_iff.mpr (by decide)
  have hsplits : halfNote.Splits tiedTriplets :=
    ⟨[], halfNote.first, [], tiedTriplets.segments, rfl, rfl, by decide, by decide⟩
  have hsame := (tied_lengths_add_up hhalf htriplets rfl (.inr (.inr hsplits))
    ⟨some (beatSeconds 90), some (.whole 4), .zero⟩).1
  have hok : (compileNote "CE-2" ⟨some (beatSeconds 90), some (.whole 4), .zero⟩).isOk = true := by
    decide +kernel
  cases hresult : compileNote "CE-2" ⟨some (beatSeconds 90), some (.whole 4), .zero⟩ with
  | error e =>
      rw [hresult] at hok
      cases hok
  | ok result => exact ⟨rfl, rfl, hhalf, htriplets, hsplits, result, rfl, hsame.eq_ok hresult⟩

end MusicMacro
