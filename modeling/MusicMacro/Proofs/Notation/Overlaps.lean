import MusicMacro.Proofs.Notation.Strays

/-!
# Tokens that overlap

What can be said of the characters inside a written token, wherever it stands: which characters they
are (`Token.IsWritten.mem_cases`) and that a tie is followed by a letter
(`Token.IsWritten.letter_of_tie`); that a token may end behind each of its digits
(`Token.IsWritten.upToDigit`); and that a token which begins inside another one and goes on beyond
it makes the other one longer (`Token.IsWritten.extend`).

For the last three a note is cut at one of its characters.  With a tie put in front, a note is
nothing but tied segments, and a character of tied segments is either a tie or stands in one of them
(`split_tiedText`).
-/

namespace MusicMacro

/-- An element of two lists together is one of the first or one of the second. -/
lemma split_append {α : Type} {front back w v : List α} {c : α}
    (h : front ++ back = w ++ c :: v) :
    (∃ a, front = w ++ c :: a ∧ v = a ++ back) ∨ ∃ a, w = front ++ a ∧ back = a ++ c :: v := by
  rcases List.append_eq_append_iff.mp h with ⟨a, hw, hback⟩ | ⟨a, hfront, hv⟩
  · exact .inr ⟨a, hw, hback⟩
  · cases a with
    | nil => exact .inr ⟨[], by simpa using hfront.symm, hv.symm⟩
    | cons d a =>
        obtain ⟨rfl, rfl⟩ := List.cons.inj hv
        exact .inl ⟨a, hfront, rfl⟩

/-! ## Cutting a segment -/

/-- A letter of tones starts one of them. -/
lemma split_tones {tones : List WrittenTone} {w v : List Char} {c : Char}
    (h : tones.flatMap WrittenTone.text = w ++ c :: v) (hc : isToneLetter c = true) :
    ∃ front : List WrittenTone, w = front.flatMap WrittenTone.text := by
  induction tones generalizing w with
  | nil => simp at h
  | cons t rest ih =>
      rw [List.flatMap_cons] at h
      rcases split_append h with ⟨a, ht, -⟩ | ⟨a, rfl, hrest⟩
      · cases w with
        | nil => exact ⟨[], rfl⟩
        | cons d w =>
            -- behind the letter of a tone stands at most its sign
            have hmem : c ∈ (t.sign.map ToneSign.symbol).toList := by
              rw [(List.cons.inj ht).2]
              simp
            obtain ⟨sign, -, rfl⟩ := Option.map_eq_some_iff.mp (Option.mem_toList.mp hmem)
            cases sign <;> cases hc
      · obtain ⟨front, rfl⟩ := ih hrest
        exact ⟨t :: front, rfl⟩

namespace WrittenSegment

variable {s : WrittenSegment} {u u' : List Char} {c : Char}

/-- A character of a segment stands among its letters and signs or among its digits, or it is the
point. -/
lemma split_text (h : s.text = u ++ c :: u') :
    (∃ v, s.letters = u ++ c :: v) ∨
      (∃ w v, u = s.letters ++ w ∧ s.digits = w ++ c :: v) ∨ c = '.' := by
  rcases split_append h with ⟨a, hfront, -⟩ | ⟨a, -, hpoint⟩
  · rcases split_append hfront with ⟨v, hletters, -⟩ | ⟨w, hu, hdigits⟩
    · exact .inl ⟨v, hletters⟩
    · exact .inr (.inl ⟨w, a, hu, hdigits⟩)
  · exact .inr (.inr (s.mem_point (by rw [hpoint]; simp)))

/-- A segment may end behind each of its digits. -/
lemma exists_upToDigit (h : s.text = u ++ c :: u') (hc : isDecimalDigit c = true) :
    ∃ s' : WrittenSegment, s'.text = u ++ [c] := by
  rcases split_text h with ⟨v, hletters⟩ | ⟨w, v, rfl, hdigits⟩ | rfl
  · have hletter := s.isDecimalDigit_of_mem_letters c (by rw [hletters]; simp)
    rw [hletter] at hc
    cases hc
  · have hall : ∀ d ∈ w ++ [c], isDecimalDigit d = true := fun d hd =>
      s.isDigit d (by rw [hdigits, List.append_cons]; exact List.mem_append_left _ hd)
    refine ⟨⟨s.tones, w ++ [c], false, s.tones_ne, by simp, hall⟩, ?_⟩
    simp [text, letters, point]
  · cases hc

/-- What stands before a letter of a segment are tones. -/
lemma exists_tones_of_letter (h : s.text = u ++ c :: u') (hc : isToneLetter c = true) :
    ∃ tones : List WrittenTone, u = tones.flatMap WrittenTone.text := by
  rcases split_text h with ⟨v, hletters⟩ | ⟨w, v, -, hdigits⟩ | rfl
  · exact split_tones hletters hc
  · have hdigit := digit_ends_tones (s.isDigit c (by rw [hdigits]; simp))
    rw [hdigit.1] at hc
    cases hc
  · cases hc

/-- Tones in front of a segment join it. -/
lemma exists_join (s : WrittenSegment) (tones : List WrittenTone) :
    ∃ s' : WrittenSegment, s'.text = tones.flatMap WrittenTone.text ++ s.text := by
  refine ⟨⟨tones ++ s.tones, s.digits, s.dotted, by simp [s.tones_ne], s.digits_ne, s.isDigit⟩, ?_⟩
  simp [text, letters, point]

lemma exists_letter_text (s : WrittenSegment) :
    ∃ c rest, s.text = c :: rest ∧ isToneLetter c = true := by
  obtain ⟨t, tones, htones⟩ := List.exists_cons_of_ne_nil s.tones_ne
  refine ⟨WrittenTone.symbol t.letter, (t.sign.map ToneSign.symbol).toList ++
    tones.flatMap WrittenTone.text ++ s.digits ++ s.point, ?_,
    WrittenTone.isToneLetter_symbol t.letter⟩
  simp [text, letters, htones, WrittenTone.text]

end WrittenSegment

/-! ## Cutting a note -/

/-- Segments, each behind a tie. -/
def tiedText (segments : List WrittenSegment) : List Char := segments.flatMap fun s => '&' :: s.text

lemma tiedText_append (front back : List WrittenSegment) :
    tiedText (front ++ back) = tiedText front ++ tiedText back := List.flatMap_append

lemma tiedText_cons (s : WrittenSegment) (rest : List WrittenSegment) :
    tiedText (s :: rest) = '&' :: s.text ++ tiedText rest := rfl

/-- With a tie in front, written notes are tied segments, at least one. -/
lemma writes_note_iff {text : List Char} :
    TokenKind.note.Writes text ↔ ∃ segments ≠ [], '&' :: text = tiedText segments := by
  constructor
  · rintro ⟨n, rfl⟩
    exact ⟨n.segments, List.cons_ne_nil _ _, rfl⟩
  · rintro ⟨segments, hne, htext⟩
    obtain ⟨first, tied, rfl⟩ := List.exists_cons_of_ne_nil hne
    exact ⟨⟨first, tied⟩, (List.cons.inj htext).2⟩

/-- A character of tied segments is the tie in front of one of them or stands in one of them. -/
lemma split_tiedText {segments : List WrittenSegment} {w v : List Char} {c : Char}
    (h : tiedText segments = w ++ c :: v) :
    ∃ front s back, segments = front ++ s :: back ∧
      ((c = '&' ∧ w = tiedText front ∧ v = s.text ++ tiedText back) ∨
        ∃ u u', s.text = u ++ c :: u' ∧ w = tiedText front ++ '&' :: u ∧
          v = u' ++ tiedText back) := by
  induction segments generalizing w with
  | nil => simp [tiedText] at h
  | cons s rest ih =>
      rw [tiedText_cons] at h
      rcases split_append h with ⟨a, hs, rfl⟩ | ⟨a, rfl, hrest⟩
      · cases w with
        | nil =>
            obtain ⟨rfl, rfl⟩ := List.cons.inj hs
            exact ⟨[], s, rest, rfl, .inl ⟨rfl, rfl, rfl⟩⟩
        | cons d w =>
            rw [List.cons_append] at hs
            obtain ⟨rfl, hinside⟩ := List.cons.inj hs
            exact ⟨[], s, rest, rfl, .inr ⟨w, a, hinside, rfl, rfl⟩⟩
      · obtain ⟨front, s', back, rfl, hcases⟩ := ih hrest
        refine ⟨s :: front, s', back, rfl, ?_⟩
        rcases hcases with ⟨hc, rfl, hv⟩ | ⟨u, u', hs', rfl, hv⟩
        · exact .inl ⟨hc, rfl, hv⟩
        · exact .inr ⟨u, u', hs', by rw [tiedText_cons, List.append_assoc], hv⟩

/-! ## Cutting a token -/

lemma cases_of_isNoteCharacter {c : Char} (h : isNoteCharacter c = true) :
    isDecimalDigit c = true ∨ c.toNat < 128 ∧ c ≠ ';' := by
  have hletters : ("CDEFGABRcdefgabr".toList.all fun c => c.toNat < 128 && c != ';') = true := by
    decide
  simp only [isNoteCharacter, Bool.or_eq_true, beq_iff_eq] at h
  rcases h with (((hletter | hsign) | hdigit) | rfl) | rfl
  · have := List.all_eq_true.mp hletters c (List.contains_iff_mem.mp hletter)
    simp only [Bool.and_eq_true, decide_eq_true_eq, bne_iff_ne] at this
    exact .inr this
  · simp only [isToneSign, Bool.or_eq_true, beq_iff_eq] at hsign
    rcases hsign with (rfl | rfl) | rfl <;> exact .inr (by decide)
  · exact .inl hdigit
  · exact .inr (by decide)
  · exact .inr (by decide)

namespace TokenKind

variable {kind kind' : TokenKind} {w u v : List Char} {c : Char}

lemma writes_upToDigit (h : kind.Writes (w ++ c :: v)) (hc : isDecimalDigit c = true) :
    kind.Writes (w ++ [c]) := by
  have hnumbered {letter : Char} (hletter : isDecimalDigit letter = false)
      (h : IsNumbered letter (w ++ c :: v)) : IsNumbered letter (w ++ [c]) := by
    obtain ⟨digits, -, hdigits, htext⟩ := h
    cases w with
    | nil =>
        rw [(List.cons.inj htext).1, hletter] at hc
        cases hc
    | cons d w =>
        rw [List.cons_append] at htext
        obtain ⟨rfl, rfl⟩ := List.cons.inj htext
        rw [List.append_cons] at hdigits
        exact ⟨w ++ [c], by simp, (List.forall_mem_append.mp hdigits).1, rfl⟩
  cases kind with
  | tempo => exact hnumbered (by decide) h
  | octave => exact hnumbered (by decide) h
  | note =>
      obtain ⟨segments, -, htext⟩ := writes_note_iff.mp h
      obtain ⟨front, s, back, rfl, ⟨rfl, -⟩ | ⟨a, a', hs, hw, -⟩⟩ :=
        split_tiedText (w := '&' :: w) htext.symm
      · cases hc
      · obtain ⟨s', hs'⟩ := s.exists_upToDigit hs hc
        refine writes_note_iff.mpr ⟨front ++ [s'], by simp, ?_⟩
        rw [← List.cons_append, hw, tiedText_append, tiedText_cons, hs']
        simp [tiedText]

/-- A tie is followed by the letter of a tone. -/
lemma letter_of_tie (h : kind.Writes (w ++ '&' :: v)) :
    ∃ c rest, v = c :: rest ∧ isToneLetter c = true := by
  have hnumbered {letter : Char} (hletter : letter ≠ '&') (h : IsNumbered letter (w ++ '&' :: v)) :
      False := by
    obtain ⟨digits, -, hdigits, htext⟩ := h
    cases w with
    | nil => exact hletter (List.cons.inj htext).1.symm
    | cons d w =>
        rw [List.cons_append] at htext
        have hdigit := hdigits '&' (by rw [← (List.cons.inj htext).2]; simp)
        cases hdigit
  cases kind with
  | tempo => exact (hnumbered (by decide) h).elim
  | octave => exact (hnumbered (by decide) h).elim
  | note =>
      obtain ⟨segments, -, htext⟩ := writes_note_iff.mp h
      obtain ⟨front, s, back, rfl, ⟨-, -, rfl⟩ | ⟨a, a', hs, -⟩⟩ :=
        split_tiedText (w := '&' :: w) htext.symm
      · obtain ⟨c, rest, hs, hc⟩ := s.exists_letter_text
        exact ⟨c, rest ++ tiedText back, by rw [hs]; rfl, hc⟩
      · exact absurd (by rw [hs]; simp) s.tie_not_mem_text

lemma isToneLetter_of_mem_note (h : note.Writes (w ++ c :: v)) (hupper : c.isUpper = true) :
    isToneLetter c = true := by
  obtain ⟨n, hn⟩ := h
  refine isToneLetter_of_isUpper (n.isNoteCharacter_of_mem_text ?_) hupper
  rw [← hn]
  simp

/-- Of two tokens that overlap the first goes on to the end of the second. -/
lemma writes_extend (h : kind.Writes (w ++ u)) (h' : kind'.Writes (u ++ v)) (hw : w ≠ [])
    (hu : u ≠ []) : kind.Writes (w ++ (u ++ v)) := by
  obtain ⟨c, u, rfl⟩ := List.exists_cons_of_ne_nil hu
  obtain ⟨d, w, rfl⟩ := List.exists_cons_of_ne_nil hw
  obtain ⟨c', hc', hrange, hkind'⟩ := exists_letter_of_writes h'
  obtain rfl : c = c' := Option.some.inj hc'
  have hnumbered {letter : Char} (h : IsNumbered letter (d :: w ++ c :: u)) : False := by
    obtain ⟨digits, -, hdigits, htext⟩ := h
    rw [List.cons_append] at htext
    have := digit_range (hdigits c (by rw [← (List.cons.inj htext).2]; simp))
    omega
  cases kind with
  | tempo => exact (hnumbered h).elim
  | octave => exact (hnumbered h).elim
  | note =>
      have hletter : isToneLetter c = true :=
        isToneLetter_of_mem_note h (decide_eq_true ⟨hrange.1, hrange.2⟩)
      obtain rfl : note = kind' := by
        rw [← hkind', ofLetter, if_neg, if_neg]
        · rintro rfl
          cases hletter
        · rintro rfl
          cases hletter
      obtain ⟨segments, -, htext⟩ := writes_note_iff.mp h
      obtain ⟨n, hn⟩ := h'
      obtain ⟨front, s, back, rfl, ⟨rfl, -⟩ | ⟨a, a', hs, hw, -⟩⟩ :=
        split_tiedText (w := '&' :: d :: w) htext.symm
      · cases hletter
      · obtain ⟨tones, rfl⟩ := s.exists_tones_of_letter hs hletter
        obtain ⟨s', hs'⟩ := n.first.exists_join tones
        refine writes_note_iff.mpr ⟨front ++ s' :: n.tied, by simp, ?_⟩
        rw [tiedText_append, tiedText_cons, hs', hn, ← List.cons_append, hw, WrittenNote.text]
        simp [tiedText]

end TokenKind

namespace Token.IsWritten

variable {t t' : Token} {w u v : List Char} {c : Char}

/-- A token may end behind each of its digits. -/
lemma upToDigit (h : t.IsWritten) (htext : t.text = w ++ c :: v) (hc : isDecimalDigit c = true) :
    IsWritten ⟨t.kind, w ++ [c]⟩ := by
  have hupper : isDecimalDigit c.toUpper = true := by rwa [toUpper_of_digit hc]
  rw [IsWritten, htext, upperText_append] at h
  rw [IsWritten, upperText_append]
  exact TokenKind.writes_upToDigit h hupper

lemma letter_of_tie (h : t.IsWritten) (htext : t.text = w ++ '&' :: v) :
    ∃ c rest, v = c :: rest ∧ isToneLetter c = true := by
  rw [IsWritten, htext, upperText_append] at h
  obtain ⟨c, rest, hv, hc⟩ := TokenKind.letter_of_tie h
  obtain ⟨d, v, rfl, rfl, -⟩ := List.map_eq_cons_iff.mp hv
  exact ⟨d, v, rfl, by rwa [isToneLetter_toUpper] at hc⟩

/-- Of two tokens that overlap the first goes on to the end of the second. -/
lemma extend (h : t.IsWritten) (h' : t'.IsWritten) (htext : t.text = w ++ u)
    (htext' : t'.text = u ++ v) (hw : w ≠ []) (hu : u ≠ []) :
    IsWritten ⟨t.kind, w ++ (u ++ v)⟩ := by
  rw [IsWritten, htext, upperText_append] at h
  rw [IsWritten, htext', upperText_append] at h'
  rw [IsWritten, upperText_append, upperText_append]
  exact TokenKind.writes_extend h h' (List.map_eq_nil_iff.not.mpr hw)
    (List.map_eq_nil_iff.not.mpr hu)

/-- A token consists of digits and of other characters of ASCII, but no semicolon. -/
lemma mem_cases (h : t.IsWritten) (hc : c ∈ t.text) :
    isDecimalDigit c = true ∨ c.toNat < 128 ∧ c ≠ ';' := by
  have hmem : c.toUpper ∈ upperText t.text := List.mem_map_of_mem hc
  have hupper : isDecimalDigit c.toUpper = true ∨ c.toUpper.toNat < 128 ∧ c.toUpper ≠ ';' := by
    have hnumbered (letter : Char) (hletter : letter.toNat < 128 ∧ letter ≠ ';')
        (h : IsNumbered letter (upperText t.text)) :
        isDecimalDigit c.toUpper = true ∨ c.toUpper.toNat < 128 ∧ c.toUpper ≠ ';' := by
      obtain ⟨digits, -, hdigits, htext⟩ := h
      rw [htext] at hmem
      rcases List.mem_cons.mp hmem with heq | hdigit
      · exact .inr (heq ▸ hletter)
      · exact .inl (hdigits _ hdigit)
    rw [IsWritten] at h
    cases hkind : t.kind with
    | tempo => exact hnumbered 'T' (by decide) (by rwa [hkind] at h)
    | octave => exact hnumbered 'O' (by decide) (by rwa [hkind] at h)
    | note =>
        rw [hkind] at h
        obtain ⟨n, hn⟩ := h
        rw [hn] at hmem
        exact cases_of_isNoteCharacter (n.isNoteCharacter_of_mem_text hmem)
  rcases hupper with hdigit | ⟨hlow, hne⟩
  · exact .inl (by rwa [isDecimalDigit_of_toUpper hdigit] at hdigit)
  · refine .inr ⟨?_, fun heq => hne (by rw [heq]; rfl)⟩
    rcases toUpper_cases c with hsame | ⟨-, hhigh, -⟩
    · rwa [hsame] at hlow
    · omega

end Token.IsWritten

end MusicMacro
