import MusicMacro.Proofs.Notation.Letters
import MusicMacro.Proofs.Notation.Scanning
import MusicMacro.Proofs.Notation.Timeline

/-!
# Notes that no scanner cuts

The compiler takes notes of any text, and the rule by which it reads a segment is wider than the
grammar: letters other than those of tones pass, and so do signs by themselves, letters of other
scripts whose upper-case form consists of letters of ASCII, and a line feed at the end.
`accepted_note_is_token_iff`: these are the only ways in which a note that compiles is none of the
grammar, and each of them is seen at a single character or at two that stand next to each other
(`isForeign`, `SignFollows`).

An accepted note has as many positions as its first segment has letters of tones in upper case, and
so it has none where all of its letters are foreign.
-/

namespace MusicMacro

/-! ## Stray characters -/

/-- A character that the reading of segments passes although no note has it. -/
def isForeign (c : Char) : Bool :=
  c == '\n' || (specialUpper.lookup c).isSome || (c.toUpper.isUpper && !isToneLetter c)

/-- If the second character is a sign, the first one is the letter that it belongs to. -/
def SignFollows (a b : Char) : Prop := isToneSign b = true → isToneLetter a = true

instance : DecidableRel SignFollows := fun a b =>
  inferInstanceAs (Decidable (isToneSign b = true → isToneLetter a = true))

/-- Every sign stands right after the letter of a tone, and none at the beginning. -/
def SignsFollowLetters (text : List Char) : Prop := ('&' :: text).IsChain SignFollows

instance (text : List Char) : Decidable (SignsFollowLetters text) :=
  inferInstanceAs (Decidable (('&' :: text).IsChain SignFollows))

/-- A text without foreign characters whose signs all stand after letters. -/
def HasNoStray (text : List Char) : Prop :=
  (∀ c ∈ text, isForeign c = false) ∧ SignsFollowLetters text

instance (text : List Char) : Decidable (HasNoStray text) :=
  @instDecidableAnd _ _ (List.decidableBAll _ text) inferInstance

/-! ### Letter case -/

lemma isToneSign_toUpper (c : Char) : isToneSign c.toUpper = isToneSign c := by
  have hsame (d : Char) (hd : d.toUpper = d) (hrange : d.toNat < 65) :
      (c.toUpper == d) = (c == d) := by
    rw [Bool.eq_iff_iff, beq_iff_eq, beq_iff_eq]
    exact ⟨fun h => eq_of_toUpper_eq h (.inl hrange), fun h => by rw [h, hd]⟩
  rw [isToneSign, isToneSign, hsame '#' rfl (by decide), hsame '+' rfl (by decide),
    hsame '-' rfl (by decide)]

lemma isToneLetter_toUpper (c : Char) : isToneLetter c.toUpper = isToneLetter c := by
  rw [Bool.eq_iff_iff]
  constructor
  · intro h
    obtain ⟨letter, hletter⟩ := exists_symbol_of_isToneLetter h
    rw [toUpper_toUpper] at hletter
    exact isToneLetter_of_toUpper hletter
  · intro h
    obtain ⟨letter, hletter⟩ := exists_symbol_of_isToneLetter h
    rw [hletter]
    exact WrittenTone.isToneLetter_symbol letter

lemma signsFollowLetters_upperText {text : List Char} :
    SignsFollowLetters (upperText text) ↔ SignsFollowLetters text := by
  have hcons : '&' :: upperText text = ('&' :: text).map Char.toUpper := rfl
  rw [SignsFollowLetters, hcons, List.isChain_map, SignsFollowLetters]
  have hrel : (fun a b : Char => SignFollows a.toUpper b.toUpper) = SignFollows := by
    funext a b
    rw [SignFollows, isToneSign_toUpper, isToneLetter_toUpper, SignFollows]
  rw [hrel]

/-! ## Notes of the grammar -/

lemma SignsFollowLetters.append {a b : List Char} (ha : SignsFollowLetters a)
    (hb : SignsFollowLetters b) : SignsFollowLetters (a ++ b) := by
  obtain ⟨hhead, hchain⟩ := List.isChain_cons.mp hb
  refine List.IsChain.append ha hchain fun x _ y hy hsign => ?_
  exact absurd (hhead y hy hsign) (by decide)

lemma SignsFollowLetters.left_of_append {a b : List Char} (h : SignsFollowLetters (a ++ b)) :
    SignsFollowLetters a :=
  List.IsChain.prefix h (List.prefix_append ('&' :: a) b)

lemma SignsFollowLetters.flatMap {α : Type} {f : α → List Char} {l : List α}
    (h : ∀ a ∈ l, SignsFollowLetters (f a)) : SignsFollowLetters (l.flatMap f) := by
  induction l with
  | nil => exact .singleton _
  | cons a rest ih =>
      obtain ⟨ha, hrest⟩ := List.forall_mem_cons.mp h
      rw [List.flatMap_cons]
      exact ha.append (ih hrest)

/-- Characters that are no signs are in order wherever they stand. -/
lemma signsFollowLetters_of_no_sign {text : List Char} (h : ∀ c ∈ text, isToneSign c = false) :
    SignsFollowLetters text := by
  induction text with
  | nil => exact .singleton _
  | cons c rest ih =>
      obtain ⟨hc, hrest⟩ := List.forall_mem_cons.mp h
      refine SignsFollowLetters.append (a := [c]) ?_ (ih hrest)
      exact .cons_cons (fun hsign => absurd hsign (by rw [hc]; decide)) (.singleton _)

lemma WrittenTone.signsFollowLetters_text (t : WrittenTone) : SignsFollowLetters t.text := by
  obtain ⟨letter, sign⟩ := t
  have hletter : SignFollows '&' (symbol letter) := fun hsign => by
    rw [isToneSign_symbol] at hsign
    cases hsign
  cases sign with
  | none => exact .cons_cons hletter (.singleton _)
  | some s =>
      have hsign : SignFollows (symbol letter) s.symbol := fun _ => isToneLetter_symbol letter
      exact .cons_cons hletter (.cons_cons hsign (.singleton _))

lemma WrittenSegment.signsFollowLetters_text (s : WrittenSegment) : SignsFollowLetters s.text := by
  have hletters : SignsFollowLetters s.letters :=
    .flatMap fun t _ => t.signsFollowLetters_text
  have hdigits : SignsFollowLetters s.digits :=
    signsFollowLetters_of_no_sign fun c hc => (digit_ends_tones (s.isDigit c hc)).2
  have hpoint : SignsFollowLetters s.point :=
    signsFollowLetters_of_no_sign fun c hc => by rw [s.mem_point hc]; decide
  exact (hletters.append hdigits).append hpoint

lemma WrittenNote.signsFollowLetters_text (n : WrittenNote) : SignsFollowLetters n.text := by
  have htie : SignsFollowLetters ['&'] := by decide
  exact n.first.signsFollowLetters_text.append
    (.flatMap fun s _ => htie.append s.signsFollowLetters_text)

/-- What stands in notes, letters in either case. -/
def isNoteCharacter (c : Char) : Bool :=
  isToneLetter c || isToneSign c || isDecimalDigit c || c == '.' || c == '&'

lemma WrittenSegment.isNoteCharacter_of_mem_text {s : WrittenSegment} {c : Char}
    (h : c ∈ s.text) : isNoteCharacter c = true := by
  simp only [text, List.mem_append] at h
  simp only [isNoteCharacter, Bool.or_eq_true]
  rcases h with (hletter | hdigit) | hpoint
  · obtain ⟨t, -, ht⟩ := List.mem_flatMap.mp hletter
    rcases WrittenTone.mem_text ht with ⟨letter, rfl⟩ | ⟨sign, rfl⟩
    · simp [WrittenTone.isToneLetter_symbol]
    · have hsign : isToneSign sign.symbol = true := by cases sign <;> decide
      simp [hsign]
  · simp [s.isDigit c hdigit]
  · simp [s.mem_point hpoint]

lemma WrittenNote.isNoteCharacter_of_mem_text {n : WrittenNote} {c : Char} (h : c ∈ n.text) :
    isNoteCharacter c = true := by
  rcases List.mem_append.mp h with hfirst | htied
  · exact WrittenSegment.isNoteCharacter_of_mem_text hfirst
  · obtain ⟨s, -, hs⟩ := List.mem_flatMap.mp htied
    rcases List.mem_cons.mp hs with rfl | hs
    · decide
    · exact WrittenSegment.isNoteCharacter_of_mem_text hs

lemma isToneLetter_of_isUpper {c : Char} (h : isNoteCharacter c = true)
    (hupper : c.isUpper = true) : isToneLetter c = true := by
  simp only [isNoteCharacter, Bool.or_eq_true, beq_iff_eq] at h
  rcases h with (((hletter | hsign) | hdigit) | rfl) | rfl
  · exact hletter
  · simp only [isToneSign, Bool.or_eq_true, beq_iff_eq] at hsign
    rcases hsign with (rfl | rfl) | rfl <;> cases hupper
  · have hsegment := not_isSegmentLetter_of_digit hdigit
    simp [isSegmentLetter, hupper] at hsegment
  · cases hupper
  · cases hupper

/-- No character of a note is foreign, in either case. -/
lemma isForeign_eq_false {c : Char} (h : isNoteCharacter c.toUpper = true) :
    isForeign c = false := by
  have hfar : ∀ p ∈ ('\n', []) :: specialUpper, isNoteCharacter p.1.toUpper = false := by decide
  have hne {p : Char × List Char} (hp : p ∈ ('\n', []) :: specialUpper) : c ≠ p.1 := by
    rintro rfl
    rw [hfar p hp] at h
    cases h
  have hlookup : specialUpper.lookup c = none :=
    List.lookup_eq_none_iff.mpr fun p hp => bne_iff_ne.mpr (hne (List.mem_cons_of_mem _ hp))
  have hletter : (c.toUpper.isUpper && !isToneLetter c) = false := by
    cases hupper : c.toUpper.isUpper with
    | false => rfl
    | true =>
        rw [← isToneLetter_toUpper, isToneLetter_of_isUpper h hupper]
        rfl
  rw [isForeign, hlookup, hletter, beq_eq_false_iff_ne.mpr (hne List.mem_cons_self)]
  rfl

/-! ## Segments without stray characters -/

/-- What may stand after the code of a segment. -/
def segmentEndings : List (List Char) := [[], ['.'], ['\n'], ['.', '\n']]

/-- A segment is read from a text that has its letters in upper case, digits and an ending. -/
structure Segment.ReadsOff (s : Segment) (upper digits ending : List Char) : Prop where
  whole : upper = s.letters ++ digits ++ ending
  letters_ne : s.letters ≠ []
  digits_ne : digits ≠ []
  isLetter : ∀ c ∈ s.letters, isSegmentLetter c = true
  isDigit : ∀ c ∈ digits, isDecimalDigit c = true
  ends : ending ∈ segmentEndings

lemma Segment.exists_readsOff {raw : String} {text : List Char} {s : Segment}
    (h : Segment.read raw text = .ok s) :
    ∃ digits ending, s.ReadsOff (upperLetters text) digits ending := by
  unfold Segment.read at h
  dsimp only at h
  split at h
  · cases h
  rename_i hright
  split at h
  · cases h
  obtain rfl := Except.ok.inj h
  simp only [Bool.or_eq_true, Bool.not_eq_true', not_or, List.isEmpty_iff, Bool.not_eq_false,
    decide_eq_true_eq] at hright
  obtain ⟨⟨hletters, hdigits⟩, hending⟩ := hright
  have hcut (p : Char → Bool) (l : List Char) :
      l.takeWhile p ++ l.drop (l.takeWhile p).length = l :=
    List.prefix_iff_eq_append.mp (List.takeWhile_prefix p)
  refine ⟨_, (upperLetters text).drop _, ?_, hletters, hdigits,
    List.all_eq_true.mp List.all_takeWhile, List.all_eq_true.mp List.all_takeWhile,
    by simpa only [segmentEndings, List.mem_cons, List.not_mem_nil, or_false, or_assoc] using
      hending⟩
  rw [List.append_assoc, ← List.drop_drop, hcut, hcut]

lemma upperLetters_of_not_foreign {text : List Char} (h : ∀ c ∈ text, isForeign c = false) :
    upperLetters text = upperText text := by
  induction text with
  | nil => rfl
  | cons c rest ih =>
      obtain ⟨hc, hrest⟩ := List.forall_mem_cons.mp h
      have hlookup : specialUpper.lookup c = none := by
        simp only [isForeign, Bool.or_eq_false_iff] at hc
        exact Option.isNone_iff_eq_none.mp (by rw [← Option.not_isSome, hc.1.2]; rfl)
      rw [upperLetters, List.flatMap_cons, hlookup, ← upperLetters, ih hrest]
      rfl

/-- Where each sign stands after a letter, all is measured as tones. -/
lemma toneRun_eq_length {after : Bool} {text : List Char}
    (hchars : ∀ c ∈ text, isToneLetter c = true ∨ isToneSign c = true)
    (hhead : ∀ c ∈ text.head?, isToneSign c = true → after = true)
    (hsigns : text.IsChain SignFollows) : toneRun after text = text.length := by
  induction text generalizing after with
  | nil => rfl
  | cons c rest ih =>
      obtain ⟨hc, hrest⟩ := List.forall_mem_cons.mp hchars
      obtain ⟨hnext, hchain⟩ := List.isChain_cons.mp hsigns
      rw [toneRun, List.length_cons]
      by_cases hletter : isToneLetter c = true
      · rw [if_pos hletter, ih hrest (fun _ _ _ => rfl) hchain]
      · have hsign := hc.resolve_left hletter
        rw [if_neg hletter, hhead c rfl hsign, hsign, Bool.and_self, if_pos rfl,
          ih hrest (fun d hd hdsign => absurd (hnext d hd hdsign) hletter) hchain]

/-- Letters of tones with signs in order are tones. -/
lemma exists_tones {text : List Char}
    (hchars : ∀ c ∈ text, isToneLetter c = true ∨ isToneSign c = true)
    (hsigns : SignsFollowLetters text) :
    ∃ tones : List WrittenTone, upperText text = tones.flatMap WrittenTone.text := by
  obtain ⟨hhead, hchain⟩ := List.isChain_cons.mp hsigns
  have hrun : toneRun false text = text.length :=
    toneRun_eq_length hchars (fun c hc hsign => absurd (hhead c hc hsign) (by decide)) hchain
  have htones := (exists_tones_of_toneRun text).1
  rwa [hrun, List.take_length] at htones

lemma isTone_of_isSegmentLetter {c : Char} (h : isSegmentLetter c.toUpper = true)
    (hforeign : isForeign c = false) : isToneLetter c = true ∨ isToneSign c = true := by
  rw [isSegmentLetter, Bool.or_assoc, Bool.or_assoc, Bool.or_eq_true] at h
  rcases h with hupper | hsign
  · rw [isForeign, hupper, Bool.true_and, Bool.or_eq_false_iff, Bool.not_eq_false'] at hforeign
    exact .inl hforeign.2
  · right
    rw [← isToneSign_toUpper, isToneSign, Bool.or_assoc]
    exact hsign

/-- Without a line feed the ending is a point or nothing. -/
lemma upperText_ending {text : List Char} (h : upperText text ∈ segmentEndings)
    (hforeign : ∀ c ∈ text, isForeign c = false) :
    upperText text = [] ∨ upperText text = ['.'] := by
  have hfeed : '\n' ∉ upperText text := by
    intro hmem
    obtain ⟨c, hc, hupper⟩ := List.mem_map.mp hmem
    obtain rfl := eq_of_toUpper_eq hupper (.inl (by decide))
    exact absurd (hforeign _ hc) (by decide)
  have hall : ∀ ending ∈ segmentEndings, '\n' ∈ ending ∨ ending = [] ∨ ending = ['.'] := by decide
  exact (hall _ h).resolve_left hfeed

/-- **A segment that is read and has no stray characters is one of the grammar.** -/
lemma exists_segment_of_read {raw : String} {text : List Char} {s : Segment}
    (h : Segment.read raw text = .ok s) (hstray : HasNoStray text) :
    ∃ w : WrittenSegment, upperText text = w.text := by
  obtain ⟨hforeign, hsigns⟩ := hstray
  obtain ⟨digits, ending, hread⟩ := Segment.exists_readsOff h
  have hwhole := hread.whole
  rw [upperLetters_of_not_foreign hforeign] at hwhole
  -- the text itself comes apart where its upper case does
  obtain ⟨front, back, rfl, hfront, rfl⟩ := List.map_eq_append_iff.mp hwhole
  obtain ⟨first, middle, rfl, hfirst, rfl⟩ := List.map_eq_append_iff.mp hfront
  simp only [List.forall_mem_append] at hforeign
  obtain ⟨⟨hforeign_first, -⟩, hforeign_back⟩ := hforeign
  have hchars : ∀ c ∈ first, isToneLetter c = true ∨ isToneSign c = true := fun c hc =>
    isTone_of_isSegmentLetter (hread.isLetter _ (hfirst ▸ List.mem_map_of_mem hc))
      (hforeign_first c hc)
  obtain ⟨tones, htones⟩ := exists_tones hchars hsigns.left_of_append.left_of_append
  have htones_ne : tones ≠ [] := by
    rintro rfl
    exact hread.letters_ne (hfirst.symm.trans htones)
  refine ⟨⟨tones, upperText middle, decide (upperText back = ['.']), htones_ne, hread.digits_ne,
    hread.isDigit⟩, ?_⟩
  rw [upperText_append, upperText_append, htones]
  congr 1
  rw [WrittenSegment.point]
  rcases upperText_ending hread.ends hforeign_back with hback | hback <;> rw [hback] <;> rfl

/-! ## Notes without stray characters -/

/-- Nothing is stray in the pieces of a text without stray characters. -/
lemma HasNoStray.of_joined {first : List Char} {more : List (List Char)}
    (h : HasNoStray (first ++ more.flatMap ('&' :: ·))) :
    ∀ piece ∈ first :: more, HasNoStray piece := by
  obtain ⟨hforeign, hsigns⟩ := h
  obtain ⟨hfirst, hmore⟩ := List.forall_mem_append.mp hforeign
  refine List.forall_mem_cons.mpr ⟨⟨hfirst, hsigns.left_of_append⟩, fun piece hpiece => ?_⟩
  have hwithin : '&' :: piece <:+: more.flatMap ('&' :: ·) :=
    List.infix_of_mem_flatten (List.mem_map_of_mem hpiece)
  exact ⟨fun c hc => hmore c (hwithin.subset (List.mem_cons_of_mem _ hc)),
    List.IsChain.infix hsigns (hwithin.trans (List.suffix_append ('&' :: first) _).isInfix)⟩

lemma exists_tied {more : List (List Char)}
    (h : ∀ piece ∈ more, ∃ w : WrittenSegment, upperText piece = w.text) :
    ∃ tied : List WrittenSegment,
      upperText (more.flatMap ('&' :: ·)) = tied.flatMap fun w => '&' :: w.text := by
  induction more with
  | nil => exact ⟨[], rfl⟩
  | cons piece more ih =>
      obtain ⟨⟨w, hw⟩, hmore⟩ := List.forall_mem_cons.mp h
      obtain ⟨tied, htied⟩ := ih hmore
      refine ⟨w :: tied, ?_⟩
      rw [List.flatMap_cons, upperText_append, htied, List.flatMap_cons, ← hw]
      rfl

/-- **A note whose segments are read is one of the grammar if nothing in it is stray**, and only
then. -/
lemma isWritten_iff_of_ofNote {raw : String} {segments : List Segment}
    (h : Segment.ofNote raw = .ok segments) :
    Token.IsWritten ⟨.note, raw.toList⟩ ↔ HasNoStray raw.toList := by
  constructor
  · rintro ⟨n, hn⟩
    refine ⟨fun c hc => isForeign_eq_false (n.isNoteCharacter_of_mem_text ?_), ?_⟩
    · rw [← hn]
      exact List.mem_map_of_mem hc
    · rw [← signsFollowLetters_upperText, hn]
      exact n.signsFollowLetters_text
  · intro hstray
    obtain ⟨first, more, hpieces, hraw⟩ := exists_joined_pieces '&' raw.toList
    have hwritten : ∀ piece ∈ first :: more, ∃ w : WrittenSegment, upperText piece = w.text := by
      intro piece hpiece
      obtain ⟨s, hs⟩ := exists_ok_of_mapM h (by rwa [hpieces])
      exact exists_segment_of_read hs ((hraw ▸ hstray).of_joined piece hpiece)
    obtain ⟨⟨w, hw⟩, hmore⟩ := List.forall_mem_cons.mp hwritten
    obtain ⟨tied, htied⟩ := exists_tied hmore
    refine ⟨⟨w, tied⟩, ?_⟩
    rw [hraw, upperText_append, hw, htied, WrittenNote.text]

/-! ## Positions of accepted notes -/

lemma isToneLetter_of_ofChar? {c : Char} {l : PitchLetter} (h : PitchLetter.ofChar? c = some l) :
    isToneLetter c = true := by
  have hsymbol : c.toUpper = WrittenTone.symbol (some l) := by
    unfold PitchLetter.ofChar? at h
    split at h <;> first | (obtain rfl := Option.some.inj h; assumption) | cases h
  exact isToneLetter_of_toUpper hsymbol

/-- A tone is read where the letter of one stands. -/
lemma isSome_ofLetter? (c : Char) (shift : Int) :
    (Tone.ofLetter? c shift).isSome = isToneLetter c := by
  rw [Bool.eq_iff_iff]
  constructor
  · intro h
    unfold Tone.ofLetter? at h
    split at h
    · rename_i hrest
      rcases hrest with rfl | rfl <;> decide
    · rw [Option.isSome_map] at h
      obtain ⟨l, hl⟩ := Option.isSome_iff_exists.mp h
      exact isToneLetter_of_ofChar? hl
  · have hall : ("CDEFGABRcdefgabr".toList.all fun c => (Tone.ofLetter? c shift).isSome) =
        true :=
      rfl
    exact fun h => List.all_eq_true.mp hall c (List.contains_iff_mem.mp h)

lemma length_parseTones (text : List Char) :
    (parseTones text).length = (toneLetters text).length := by
  induction text with
  | nil => rfl
  | cons c rest ih =>
      have hlength (tone? : Option Tone) : tone?.toList.length = if tone?.isSome then 1 else 0 := by
        cases tone? <;> rfl
      rw [parseTones, List.length_append, ih, hlength, isSome_ofLetter?, toneLetters, toneLetters,
        List.filter_cons]
      split
      · rw [List.length_cons, Nat.add_comm]
      · rw [Nat.zero_add]

/-- What is read after the letters has no letters of tones. -/
lemma toneLetters_of_read {raw : String} {text : List Char} {s : Segment}
    (h : Segment.read raw text = .ok s) :
    toneLetters (upperLetters text) = toneLetters s.letters := by
  obtain ⟨digits, ending, hread⟩ := Segment.exists_readsOff h
  have hdigits : digits.filter isToneLetter = [] :=
    List.filter_eq_nil_iff.mpr fun c hc => by simp [(digit_ends_tones (hread.isDigit c hc)).1]
  have hall : ∀ ending ∈ segmentEndings, ending.filter isToneLetter = [] := by decide
  rw [toneLetters, toneLetters, hread.whole, List.filter_append, List.filter_append, hdigits,
    hall ending hread.ends, List.append_nil, List.append_nil]

/-- The first segment is read from the first piece of the note. -/
lemma read_first_of_ofNote {raw : String} {first : Segment} {tied : List Segment}
    (h : Segment.ofNote raw = .ok (first :: tied)) :
    Segment.read raw ((pieces '&' raw.toList).headD []) = .ok first := by
  obtain ⟨piece, more, hpieces, -⟩ := exists_joined_pieces '&' raw.toList
  rw [Segment.ofNote, hpieces] at h
  rw [hpieces]
  exact (List.cons.inj (mapM_eq_ok_iff.mp h)).1

/-- **The notes that are accepted.**  A note that compiles to an event, after any tempo and octave
that do,

* is one of the grammar if and only if it has no character that is foreign and no sign that stands
  elsewhere than right after a letter;
* has as many positions as there are letters of tones in its first segment, all in upper case, up to
  none at all. -/
theorem accepted_note_is_token_iff {bpm octave : Number} {tempoRaw octaveRaw raw : String}
    {events : List Event}
    (h : compileDirectives [.tempo bpm tempoRaw, .octave octave octaveRaw, .note raw] =
      .ok events) :
    ∃ e, events = [e] ∧
      (Token.IsWritten ⟨.note, raw.toList⟩ ↔ HasNoStray raw.toList) ∧
      e.positions.length =
        (toneLetters (upperLetters ((pieces '&' raw.toList).headD []))).length := by
  rcases compilesFrom_of_compileFrom h with - | ⟨-, - | - | ⟨-, - | - | - | ⟨hnote, hnil⟩⟩⟩
  obtain ⟨_, _, first, tied, _, _, hcompiles⟩ := exists_compilesNote hnote
  cases hnil
  refine ⟨_, rfl, isWritten_iff_of_ofNote hcompiles.segments, ?_⟩
  rw [make_eq_ok hcompiles.makes, (resolveNote_eq_ok hcompiles.resolves).1, length_parseTones,
    toneLetters_of_read (read_first_of_ofNote hcompiles.segments)]

/-- Accepted notes, whether they are of the grammar and how many positions they have: a foreign
letter, a sign by itself, a line feed, letters of another script, and a note of the grammar. -/
theorem stray_characters_accepted :
    [("H4", false, 0), ("C##4", false, 1), ("C4\n", false, 1), ("ﬀ4", false, 2),
      ("cE-4.&r8", true, 2)].Forall fun (raw, written, count) =>
        ∃ e, compileDirectives [.tempo (.whole 60) "T60", .octave (.whole 4) "O4", .note raw] =
            .ok [e] ∧
          (Token.IsWritten ⟨.note, raw.toList⟩ ↔ written = true) ∧ e.positions.length = count := by
  have hok : ([("H4", false, 0), ("C##4", false, 1), ("C4\n", false, 1), ("ﬀ4", false, 2),
      ("cE-4.&r8", true, 2)].all fun p : String × Bool × Nat =>
        (compileDirectives [.tempo (.whole 60) "T60", .octave (.whole 4) "O4", .note p.1]).isOk) =
      true := by
    decide +kernel
  have hread : ∀ p ∈ [("H4", false, 0), ("C##4", false, 1), ("C4\n", false, 1), ("ﬀ4", false, 2),
      ("cE-4.&r8", true, 2)],
      (HasNoStray p.1.toList ↔ p.2.1 = true) ∧
        (toneLetters (upperLetters ((pieces '&' p.1.toList).headD []))).length = p.2.2 := by
    decide
  refine List.forall_iff_forall_mem.mpr fun p hp => ?_
  obtain ⟨hstray, hcount⟩ := hread p hp
  have hevents := eq_ok_of_isOk (List.all_eq_true.mp hok p hp) []
  obtain ⟨e, he, hwritten, hpositions⟩ := accepted_note_is_token_iff hevents
  exact ⟨e, hevents.trans (congrArg _ he), hwritten.trans hstray, hpositions.trans hcount⟩

end MusicMacro
