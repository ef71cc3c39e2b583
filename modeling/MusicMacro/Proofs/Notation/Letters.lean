import MusicMacro.Proofs.Notation.Compilation
import MusicMacro.Proofs.Pitch

/-!
# Notes are read to the last character

A note is measured once by the scanner and read twice by the compiler, each time by a rule of its
own: the scanner counts tones and digits, a segment is read as letters of any kind and digits, and
tones are picked out of the letters with everything else passed over.  `notes_are_read_whole`: on
what the scanner cuts, the other two lose nothing.  A segment is its letters, the digits of its code
and the point, and its letters are those of its tones with their signs, so that an event has one
position for every letter of a tone, and rests where the letter is an `R`.

All of this is about the grammar between scanner and compiler (`WrittenSegment`); what is said of a
text here is said in terms of the text alone.
-/

namespace MusicMacro

/-! ## Parts of a segment -/

/-- What stands before the first digit. -/
def letterPortion (segment : List Char) : List Char := segment.takeWhile (!isDecimalDigit ·)

/-- All digits of a segment. -/
def codeDigits (segment : List Char) : List Char := segment.filter isDecimalDigit

/-- Whether a segment ends in a point. -/
def endsInPoint (segment : List Char) : Bool := segment.getLast? = some '.'

/-- The letters of tones in a text. -/
def toneLetters (text : List Char) : List Char := text.filter isToneLetter

/-- A segment of the note `raw` that is read to the last character. -/
structure IsReadWhole (raw : String) (segment : List Char) : Prop where
  /-- Nothing stands beside the letters, the digits and the point. -/
  whole : segment = letterPortion segment ++ codeDigits segment ++
    (if endsInPoint segment then ['.'] else [])
  /-- Only a code of too many digits is refused. -/
  read : Segment.read raw segment =
    if digitLimit < (codeDigits segment).length then .error ⟨.codeTooLong, raw⟩
    else .ok ⟨letterPortion segment, digitsValue (codeDigits segment), endsInPoint segment⟩
  /-- The letters are those of tones and their signs, and these tones are read. -/
  tones : ∃ tones : List WrittenTone, letterPortion segment = tones.flatMap WrittenTone.text ∧
    toneLetters (letterPortion segment) = tones.map (WrittenTone.symbol ·.letter) ∧
    parseTones (letterPortion segment) = tones.map WrittenTone.tone

lemma WrittenTone.toneLetters_text (t : WrittenTone) : toneLetters t.text = [symbol t.letter] := by
  obtain ⟨letter, sign⟩ := t
  rw [toneLetters, text, List.filter_cons_of_pos (isToneLetter_symbol letter)]
  cases sign with
  | none => rfl
  | some s => cases s <;> rfl

lemma toneLetters_tones (tones : List WrittenTone) :
    toneLetters (tones.flatMap WrittenTone.text) = tones.map (WrittenTone.symbol ·.letter) := by
  induction tones with
  | nil => rfl
  | cons t rest ih =>
      rw [List.flatMap_cons, toneLetters, List.filter_append, ← toneLetters, ← toneLetters,
        t.toneLetters_text, ih, List.map_cons, List.singleton_append]

namespace WrittenSegment

variable (s : WrittenSegment)

lemma isDecimalDigit_of_mem_letters : ∀ c ∈ s.letters, isDecimalDigit c = false := by
  intro c hc
  rw [Bool.eq_false_iff]
  intro hdigit
  have hletter := s.isSegmentLetter_of_mem_letters c hc
  rw [not_isSegmentLetter_of_digit hdigit] at hletter
  cases hletter

lemma letterPortion_text : letterPortion s.text = s.letters := by
  obtain ⟨d, rest, hd⟩ := List.exists_cons_of_ne_nil s.digits_ne
  have hdigit : isDecimalDigit d = true := s.isDigit d (by rw [hd]; exact List.mem_cons_self)
  have hletters : ∀ c ∈ s.letters, (!isDecimalDigit c) = true := fun c hc => by
    rw [s.isDecimalDigit_of_mem_letters c hc, Bool.not_false]
  rw [letterPortion, text, List.append_assoc, List.takeWhile_append_of_pos hletters, hd,
    List.cons_append, List.takeWhile_cons_of_neg (by simp [hdigit]), List.append_nil]

lemma codeDigits_text : codeDigits s.text = s.digits := by
  have hletters : s.letters.filter isDecimalDigit = [] :=
    List.filter_eq_nil_iff.mpr fun c hc => by simp [s.isDecimalDigit_of_mem_letters c hc]
  have hpoint : s.point.filter isDecimalDigit = [] :=
    List.filter_eq_nil_iff.mpr fun c hc => by rw [s.mem_point hc]; decide
  rw [codeDigits, text, List.filter_append, List.filter_append, hletters, hpoint,
    List.filter_eq_self.mpr s.isDigit, List.nil_append, List.append_nil]

lemma endsInPoint_text : endsInPoint s.text = s.dotted := by
  rw [endsInPoint, text, point]
  cases hdotted : s.dotted with
  | true => simp
  | false =>
      obtain ⟨init, d, hd⟩ := List.eq_nil_or_concat s.digits |>.resolve_left s.digits_ne
      have hne : d ≠ '.' := by
        rintro rfl
        exact absurd (s.isDigit '.' (by rw [hd]; simp)) (by decide)
      simp [hd, hne]

/-- A written segment is read to the last character. -/
lemma isReadWhole_text (raw : String) : IsReadWhole raw s.text where
  whole := by
    rw [s.letterPortion_text, s.codeDigits_text, s.endsInPoint_text]
    rfl
  read := by
    rw [s.read_text, s.letterPortion_text, s.codeDigits_text, s.endsInPoint_text, isTooLong]
    simp only [decide_eq_true_eq]
    rfl
  tones := by
    rw [s.letterPortion_text]
    exact ⟨s.tones, rfl, toneLetters_tones s.tones, parseTones_letters s.tones⟩

end WrittenSegment

/-! ## Positions of an event -/

/-- The letters of tones in the first segment of a note. -/
def firstLetters (raw : String) : List Char :=
  toneLetters (letterPortion ((pieces '&' raw.toList).headD []))

/-- The event has a position for each letter, which is a rest where the letter is an `R`. -/
def Event.Voices (e : Event) (letters : List Char) : Prop :=
  e.positions.length = letters.length ∧ e.indices.map (·.isNone) = letters.map (· == 'R')

namespace WrittenNote

variable (n : WrittenNote)

lemma letterPortion_raw : letterPortion ((pieces '&' n.raw.toList).headD []) = n.first.letters := by
  rw [raw, String.toList_ofList, n.pieces_text, segments, List.map_cons, List.headD_cons,
    n.first.letterPortion_text]

lemma firstLetters_raw : firstLetters n.raw = n.first.tones.map (WrittenTone.symbol ·.letter) := by
  rw [firstLetters, n.letterPortion_raw, WrittenSegment.letters, toneLetters_tones]

lemma isNone_index?_tone (t : WrittenTone) (octave : Int) :
    (t.tone.index? octave).isNone = (WrittenTone.symbol t.letter == 'R') := by
  obtain ⟨letter, sign⟩ := t
  cases letter with
  | none => rfl
  | some l => cases l <;> rfl

lemma indices_event (bpm octave : Int) (start : Double) :
    (n.event bpm octave start).indices = (n.indices octave).map (·.map Int.toNat) := by
  rw [Event.indices, event, List.map_map]
  refine List.map_congr_left fun index? _ => ?_
  cases index? <;> rfl

/-- The event of a note has its rests where they are written. -/
lemma Makes.voices {n : WrittenNote} {e : Event} (h : n.Makes e) :
    e.Voices (firstLetters n.raw) := by
  obtain ⟨bpm, octave, start, -, rfl⟩ := h
  have hrests : (n.event bpm octave start).indices.map (·.isNone) =
      (firstLetters n.raw).map (· == 'R') := by
    rw [n.indices_event, List.map_map, n.firstLetters_raw, List.map_map]
    calc (n.indices octave).map (Option.isNone ∘ (·.map Int.toNat))
        = (n.indices octave).map Option.isNone :=
          List.map_congr_left fun index? _ => Option.isNone_map
      _ = n.first.tones.map fun t => (t.tone.index? octave).isNone := by
          rw [indices, map_isNone_foldChord, List.map_map]
          rfl
      _ = _ := List.map_congr_left fun t _ => isNone_index?_tone t octave
  refine ⟨?_, hrests⟩
  rw [event, List.length_map, indices, length_foldChord, n.firstLetters_raw, List.length_map,
    List.length_map]

end WrittenNote

/-! ## Texts -/

/-- The text of a note. -/
def Directive.note? : Directive → Option String
  | note raw => some raw
  | _ => none

lemma filterMap_note?_directive (is : List Instruction) :
    (is.map Instruction.directive).filterMap (·.note?) =
      (is.filterMap (·.note?)).map WrittenNote.raw := by
  rw [List.filterMap_map, List.map_filterMap]
  congr 1
  funext i
  cases i <;> rfl

/-- **Every note that the scanner cuts is read whole.**  Of a text that has tokens, and with the
notes among its directives,

* every segment of a note is its letters, all its digits and the point if it ends in one; it is
  read as these, and the only reason to refuse it are more digits than can be read; its letters are
  those of tones and of the signs right after them, and they are read as one tone each, in order,
  raised or lowered by its sign unless it is a rest;
* if the text compiles, each event has one position for every letter of a tone in the first segment
  of its note, with rests where the letter is an `R`. -/
theorem notes_are_read_whole {text : String} {directives : List Directive}
    (h : (tokenize text).2 = .ok directives) :
    (∀ raw, .note raw ∈ directives → ∀ segment ∈ pieces '&' raw.toList, IsReadWhole raw segment) ∧
      ∀ events, (compileText text).2 = .ok events →
        List.Forall₂ (fun raw e => e.Voices (firstLetters raw)) (directives.filterMap (·.note?))
          events := by
  constructor
  · obtain ⟨is, rfl, -⟩ := exists_instructions_of_tokenize h
    intro raw hraw segment hsegment
    obtain ⟨i, -, hi⟩ := List.mem_map.mp hraw
    cases i with
    | tempo bpm raw => cases hi
    | octave value raw => cases hi
    | note n =>
        obtain rfl := Directive.note.inj hi
        rw [WrittenNote.raw, String.toList_ofList, n.pieces_text] at hsegment
        obtain ⟨s, -, rfl⟩ := List.mem_map.mp hsegment
        exact s.isReadWhole_text _
  · intro events hevents
    obtain ⟨is, htokens, hmakes⟩ := exists_instructions_of_compileText hevents
    obtain rfl := Except.ok.inj (h.symm.trans htokens)
    rw [filterMap_note?_directive, List.forall₂_map_left_iff]
    exact hmakes.imp fun _ _ hnote => hnote.voices

/-- Both notes of a text with ties, signs, a rest in a chord and a digit of another script. -/
theorem chord_with_rest_is_read_whole :
    ∃ first second events,
      (tokenize "t60 o4 cr#e+2&d٨. b-4").2 =
          .ok [.tempo (.whole 60) "T60", .octave (.whole 4) "O4", .note first, .note second] ∧
        (compileText "t60 o4 cr#e+2&d٨. b-4").2 = .ok events ∧
        first = "CR#E+2&D٨." ∧ second = "B-4" ∧
        (∀ segment ∈ pieces '&' first.toList, IsReadWhole first segment) ∧
        (∀ segment ∈ pieces '&' second.toList, IsReadWhole second segment) ∧
        List.Forall₂ Event.Voices events [['C', 'R', 'E'], ['B']] := by
  have htokens : (tokenize "t60 o4 cr#e+2&d٨. b-4").2 =
      .ok [.tempo (.whole 60) "T60", .octave (.whole 4) "O4", .note "CR#E+2&D٨.", .note "B-4"] := by
    decide +kernel
  have hevents := eq_ok_of_isOk (x := (compileText "t60 o4 cr#e+2&d٨. b-4").2)
    (by decide +kernel) []
  obtain ⟨hwhole, hvoices⟩ := notes_are_read_whole htokens
  refine ⟨_, _, _, htokens, hevents, rfl, rfl, hwhole _ (by simp), hwhole _ (by simp), ?_⟩
  have hletters : ["CR#E+2&D٨.", "B-4"].map firstLetters = [['C', 'R', 'E'], ['B']] := by
    decide +kernel
  rw [← hletters, List.forall₂_map_right_iff]
  exact (hvoices _ hevents).flip

end MusicMacro
