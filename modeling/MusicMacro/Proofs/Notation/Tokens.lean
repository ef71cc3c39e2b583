import MusicMacro.Proofs.Notation.Grammar

/-!
# The longest token at a place

A token is written in either letter case: `T` or `O` and digits, or a note of the grammar
(`Token.IsWritten`).  The scanner does not look for written tokens; it measures runs of characters.
Here the two are tied together:

* what is measured is a written token (`TokenKind.writes_take`);
* a written token is measured as a whole where it stands, and nothing beyond it is unless a digit,
  a point or a tie follows (`TokenKind.lengthAt_written`);
* so the token that is found at a place is the longest that is written there
  (`isLongestAt_of_tokenAt?`), and where none is found none is written (`tokenAt?_eq_none_iff`).
-/

namespace MusicMacro

/-! ## Written tokens -/

/-- A letter and digits, at least one. -/
def IsNumbered (letter : Char) (text : List Char) : Prop :=
  ∃ digits, digits ≠ [] ∧ (∀ c ∈ digits, isDecimalDigit c = true) ∧ text = letter :: digits

/-- A token of the kind is written so in upper case. -/
def TokenKind.Writes : TokenKind → List Char → Prop
  | tempo, text => IsNumbered 'T' text
  | octave, text => IsNumbered 'O' text
  | note, text => ∃ n : WrittenNote, text = n.text

/-- The text is a token of its kind, each letter in either case. -/
def Token.IsWritten (t : Token) : Prop := t.kind.Writes (upperText t.text)

/-- A written token stands at the head of the text. -/
def StartsToken (text : List Char) : Prop := ∃ t : Token, t.IsWritten ∧ t.text <+: text

/-- The token stands at the head of the text, and no longer one does. -/
structure Token.IsLongestAt (t : Token) (text : List Char) : Prop where
  written : t.IsWritten
  atHead : t.text <+: text
  longest : ∀ t' : Token, t'.IsWritten → t'.text <+: text → t'.text.length ≤ t.text.length

/-! ## Letters in either case -/

lemma toUpper_cases (c : Char) :
    c.toUpper = c ∨ 97 ≤ c.toNat ∧ c.toNat ≤ 122 ∧ c.toUpper.toNat + 32 = c.toNat := by
  unfold Char.toUpper
  split
  · rename_i h
    right
    have hlow : 97 ≤ c.toNat := h.1
    have hhigh : c.toNat ≤ 122 := h.2
    refine ⟨hlow, hhigh, ?_⟩
    change (c.val + (65 - 97)).toNat + 32 = c.val.toNat
    have hval : c.val.toNat = c.toNat := rfl
    rw [UInt32.toNat_add]
    have hshift : ((65 - 97 : UInt32)).toNat = 4294967264 := by decide
    omega
  · exact .inl rfl

/-- Only letters differ from their upper-case form. -/
lemma eq_of_toUpper_eq {c d : Char} (h : c.toUpper = d) (hd : d.toNat < 65 ∨ 90 < d.toNat) :
    c = d := by
  rcases toUpper_cases c with hsame | ⟨hlow, hhigh, hshift⟩
  · rw [← hsame, h]
  · rw [h] at hshift
    omega

lemma isDecimalDigit_of_toUpper {c : Char} (h : isDecimalDigit c.toUpper = true) :
    c.toUpper = c := by
  rcases toUpper_cases c with hsame | ⟨hlow, hhigh, hshift⟩
  · exact hsame
  · have := digit_range h
    omega

lemma eq_of_upperText_digits {text digits : List Char}
    (hdigits : ∀ c ∈ digits, isDecimalDigit c = true) (h : upperText text = digits) :
    text = digits := by
  induction text generalizing digits with
  | nil => exact h
  | cons c rest ih =>
      subst h
      obtain ⟨hc, hrest⟩ := List.forall_mem_cons.mp hdigits
      have hsame : c = c.toUpper := (isDecimalDigit_of_toUpper hc).symm
      rw [upperText, List.map_cons, ← hsame]
      exact congrArg (c :: ·) (ih hrest rfl)

lemma isToneLetter_of_toUpper {c : Char} {letter : Option PitchLetter}
    (h : c.toUpper = WrittenTone.symbol letter) : isToneLetter c = true := by
  rcases toUpper_cases c with hsame | ⟨-, -, hshift⟩
  · rw [← hsame, h]
    exact WrittenTone.isToneLetter_symbol letter
  · obtain rfl : c = Char.ofNat ((WrittenTone.symbol letter).toNat + 32) := by
      rw [← h, hshift, Char.ofNat_toNat]
    cases letter with
    | none => decide
    | some l => cases l <;> decide

/-! ## Measuring what is written -/

/-- A character that can lengthen what stands before it: a digit, a point or a tie. -/
def continuesToken (c : Char) : Bool := isDecimalDigit c || c == '.' || c == '&'

/-- The text does not begin with a character that can lengthen a token before it. -/
def ContinuesNone (text : List Char) : Prop := ∀ c ∈ text.head?, continuesToken c = false

lemma toneRun_written {tones : List WrittenTone} {w rest : List Char}
    (hw : upperText w = tones.flatMap WrittenTone.text)
    (hrest : ∀ c ∈ rest.head?, isToneLetter c = false ∧ isToneSign c = false) (after : Bool) :
    toneRun after (w ++ rest) = w.length := by
  induction tones generalizing w after with
  | nil =>
      obtain rfl : w = [] := List.map_eq_nil_iff.mp hw
      cases rest with
      | nil => rfl
      | cons c more =>
          obtain ⟨hletter, hsign⟩ := hrest c rfl
          simp [toneRun, hletter, hsign]
  | cons t tones ih =>
      obtain ⟨letter, sign⟩ := t
      rw [List.flatMap_cons, WrittenTone.text, List.cons_append] at hw
      obtain ⟨c, w', rfl, hc, hw'⟩ := List.map_eq_cons_iff.mp hw
      simp only [List.cons_append, toneRun, isToneLetter_of_toUpper hc, if_true, List.length_cons]
      cases sign with
      | none => rw [ih hw']
      | some s =>
          obtain ⟨c', w'', rfl, hc', hw''⟩ := List.map_eq_cons_iff.mp hw'
          have hsame : c' = s.symbol := eq_of_toUpper_eq hc' (by cases s <;> decide)
          have hletter : isToneLetter c' = false := by rw [hsame]; cases s <;> decide
          have hsign : isToneSign c' = true := by rw [hsame]; cases s <;> decide
          simp only [List.cons_append, toneRun, hletter, hsign, Bool.false_eq_true, if_false,
            Bool.and_self, if_true, List.length_cons]
          rw [ih hw'']

lemma digitRun_append {digits : List Char} (h : ∀ c ∈ digits, isDecimalDigit c = true)
    (rest : List Char) : digitRun (digits ++ rest) = digits.length + digitRun rest := by
  rw [digitRun, List.takeWhile_append_of_pos h, List.length_append, digitRun]

lemma digitRun_eq_zero {text : List Char} (h : ∀ c ∈ text.head?, isDecimalDigit c = false) :
    digitRun text = 0 := by
  cases text with
  | nil => rfl
  | cons c rest => rw [digitRun, List.takeWhile_cons_of_neg (by simp [h c rfl]), List.length_nil]

/-- A digit is neither a letter of a tone nor its sign. -/
lemma digit_ends_tones {c : Char} (h : isDecimalDigit c = true) :
    isToneLetter c = false ∧ isToneSign c = false := by
  have hrange := digit_range h
  refine ⟨Bool.eq_false_iff.mpr fun hletter => ?_, Bool.eq_false_iff.mpr fun hsign => ?_⟩
  · have hall : ("CDEFGABRcdefgabr".toList.all fun c => 57 < c.toNat && c.toNat < 128) = true := by
      decide
    have := List.all_eq_true.mp hall c (List.contains_iff_mem.mp hletter)
    simp only [Bool.and_eq_true, decide_eq_true_eq] at this
    omega
  · obtain ⟨sign, hsymbol⟩ := exists_sign_of_isToneSign hsign
    rw [toUpper_of_digit h] at hsymbol
    rw [hsymbol] at hrange
    revert hrange
    cases sign <;> decide

/-- What is measured beyond a segment without a point: digits that follow, and a point. -/
def overrun (text : List Char) : Nat :=
  digitRun text + if text[digitRun text]? = some '.' then 1 else 0

lemma overrun_eq_zero {text : List Char}
    (h : ∀ c ∈ text.head?, isDecimalDigit c = false ∧ c ≠ '.') : overrun text = 0 := by
  have hrun : digitRun text = 0 := digitRun_eq_zero fun c hc => (h c hc).1
  rw [overrun, hrun, if_neg]
  intro hpoint
  rw [← List.head?_eq_getElem?] at hpoint
  exact (h '.' hpoint).2 rfl

/-- A written segment is measured exactly if it has a point, and else with the digits and the
point that follow. -/
lemma segmentLength_written {s : WrittenSegment} {w : List Char} (hw : upperText w = s.text)
    (rest : List Char) :
    segmentLength (w ++ rest) = w.length + if s.dotted then 0 else overrun rest := by
  rw [WrittenSegment.text] at hw
  obtain ⟨front, point, rfl, hfront, hpoint⟩ := List.map_eq_append_iff.mp hw
  obtain ⟨letters, digits, rfl, hletters, hdigits⟩ := List.map_eq_append_iff.mp hfront
  obtain rfl := eq_of_upperText_digits s.isDigit hdigits
  have htones : toneRun false (letters ++ (s.digits ++ (point ++ rest))) = letters.length := by
    refine toneRun_written hletters (fun c hc => digit_ends_tones ?_) false
    obtain ⟨d, more, hd⟩ := List.exists_cons_of_ne_nil s.digits_ne
    rw [hd] at hc
    obtain rfl := Option.some.inj hc
    exact s.isDigit d (by rw [hd]; exact List.mem_cons_self)
  have hletters_ne : letters.length ≠ 0 := by
    intro hzero
    rw [List.length_eq_zero_iff.mp hzero] at hletters
    exact s.letters_ne hletters.symm
  have hdigits_ne : s.digits.length ≠ 0 := List.length_eq_zero_iff.not.mpr s.digits_ne
  have hget (k : Nat) : (letters ++ (s.digits ++ (point ++ rest)))[letters.length +
      (s.digits.length + k)]? = (point ++ rest)[k]? := by
    rw [List.getElem?_append_right (by omega), List.getElem?_append_right (by omega)]
    congr 1
    omega
  rw [WrittenSegment.point] at hpoint
  rw [segmentLength, List.append_assoc, List.append_assoc, htones, List.drop_left,
    digitRun_append s.isDigit, if_neg (by omega), hget]
  cases hdotted : s.dotted with
  | true =>
      rw [hdotted, if_pos rfl] at hpoint
      obtain ⟨c, w', rfl, hc, hw'⟩ := List.map_eq_cons_iff.mp hpoint
      obtain rfl : w' = [] := List.map_eq_nil_iff.mp hw'
      obtain rfl := eq_of_toUpper_eq hc (by decide)
      have hrun : digitRun ('.' :: rest) = 0 := digitRun_eq_zero (by rintro c ⟨⟩; decide)
      simp [hrun, Nat.add_assoc]
  | false =>
      rw [hdotted, if_neg Bool.false_ne_true] at hpoint
      obtain rfl : point = [] := List.map_eq_nil_iff.mp hpoint
      simp [overrun, Nat.add_assoc]

/-- A tied segment adds its length and that of what is tied to it. -/
lemma tieLength_cons {s : WrittenSegment} {w : List Char} (hw : upperText w = s.text)
    (rest : List Char) :
    tieLength ('&' :: (w ++ rest)) =
      1 + segmentLength (w ++ rest) +
        tieLength ((w ++ rest).drop (segmentLength (w ++ rest))) := by
  have hne : w ≠ [] := by
    rintro rfl
    have := s.letters_ne
    simp_all [WrittenSegment.text, upperText]
  have hpos : segmentLength (w ++ rest) ≠ 0 := by
    have := List.length_pos_iff.mpr hne
    rw [segmentLength_written hw]
    omega
  rw [tieLength, if_pos ⟨rfl, hpos⟩]

lemma tieLength_eq_zero {text : List Char} (h : ContinuesNone text) : tieLength text = 0 := by
  cases text with
  | nil => rw [tieLength]
  | cons c rest =>
      have hc : c ≠ '&' := by
        rintro rfl
        have := h '&' rfl
        revert this
        decide
      rw [tieLength, if_neg fun hboth => hc hboth.1]

lemma overrun_of_continuesNone {text : List Char} (h : ContinuesNone text) : overrun text = 0 := by
  refine overrun_eq_zero fun c hc => ?_
  have := h c hc
  simp only [continuesToken, Bool.or_eq_false_iff, beq_eq_false_iff_ne] at this
  exact this.1

/-- Written ties are measured as a whole, and nothing else is if nothing can lengthen them. -/
lemma tieLength_written {tied : List WrittenSegment} {w : List Char}
    (hw : upperText w = tied.flatMap fun s => '&' :: s.text) (rest : List Char) :
    w.length ≤ tieLength (w ++ rest) ∧ (ContinuesNone rest → tieLength (w ++ rest) = w.length) := by
  induction tied generalizing w with
  | nil =>
      obtain rfl : w = [] := List.map_eq_nil_iff.mp hw
      exact ⟨Nat.zero_le _, tieLength_eq_zero⟩
  | cons s tied ih =>
      rw [List.flatMap_cons, List.cons_append] at hw
      obtain ⟨c, w', rfl, hc, hw'⟩ := List.map_eq_cons_iff.mp hw
      obtain rfl := eq_of_toUpper_eq hc (by decide)
      obtain ⟨first, more, rfl, hfirst, hmore⟩ := List.map_eq_append_iff.mp hw'
      obtain ⟨hle, heq⟩ := ih hmore
      rw [List.cons_append, List.append_assoc, tieLength_cons hfirst, segmentLength_written hfirst,
        List.length_cons, List.length_append]
      cases tied with
      | nil =>
          obtain rfl : more = [] := List.map_eq_nil_iff.mp hmore
          refine ⟨by rw [List.length_nil]; omega, fun hrest => ?_⟩
          rw [List.nil_append, overrun_of_continuesNone hrest, ite_self, Nat.add_zero,
            List.drop_left, tieLength_eq_zero hrest, List.length_nil]
          omega
      | cons s' tied =>
          have hover : overrun (more ++ rest) = 0 := by
            obtain ⟨c, more', rfl, hc, -⟩ := List.map_eq_cons_iff.mp hmore
            obtain rfl := eq_of_toUpper_eq hc (by decide)
            exact overrun_eq_zero (by rintro c ⟨⟩; decide)
          simp only [hover, ite_self, Nat.add_zero, List.drop_left]
          exact ⟨by omega, fun hrest => by rw [heq hrest]; omega⟩

/-- A note is a tied segment and its ties, but for the first tie. -/
lemma noteLength_eq (text : List Char) : noteLength text = tieLength ('&' :: text) - 1 := by
  rw [noteLength, tieLength]
  by_cases h : segmentLength text = 0
  · rw [if_pos h, if_neg fun hboth => hboth.2 h]
  · rw [if_neg h, if_pos ⟨rfl, h⟩]
    omega

lemma numberedLength_written {letter : Char} {w : List Char} (hw : IsNumbered letter (upperText w))
    (rest : List Char) : numberedLength letter (w ++ rest) = w.length + digitRun rest := by
  obtain ⟨digits, hne, hdigits, htext⟩ := hw
  obtain ⟨c, w', rfl, hc, hw'⟩ := List.map_eq_cons_iff.mp htext
  obtain rfl := eq_of_upperText_digits hdigits hw'
  have hlength : w'.length ≠ 0 := List.length_eq_zero_iff.not.mpr hne
  rw [List.cons_append, numberedLength, digitRun_append hdigits, if_pos ⟨hc, by omega⟩,
    List.length_cons]
  omega

lemma isNumbered_of_numberedLength {letter : Char} {text : List Char}
    (h : numberedLength letter text ≠ 0) :
    IsNumbered letter (upperText (text.take (numberedLength letter text))) := by
  cases text with
  | nil => exact absurd rfl h
  | cons c rest =>
      unfold numberedLength at h ⊢
      dsimp only at h ⊢
      split at h
      · rename_i hletter
        have hdigits : ∀ d ∈ rest.takeWhile isDecimalDigit, isDecimalDigit d = true :=
          List.all_eq_true.mp List.all_takeWhile
        rw [if_pos hletter, List.take_succ_cons, take_digitRun, upperText, List.map_cons, hletter.1,
          ← upperText, upperText_of_digits hdigits]
        exact ⟨_, fun hnil => hletter.2 (by rw [digitRun, hnil, List.length_nil]), hdigits, rfl⟩
      · exact absurd rfl h

/-! ### Lengths within the text -/

lemma toneRun_le (after : Bool) (text : List Char) : toneRun after text ≤ text.length := by
  fun_induction toneRun after text with
  | case1 => exact Nat.le_refl _
  | case2 after c rest _ ih => exact Nat.succ_le_succ ih
  | case3 after c rest _ _ ih => exact Nat.succ_le_succ ih
  | case4 => exact Nat.zero_le _

lemma digitRun_le (text : List Char) : digitRun text ≤ text.length :=
  (List.takeWhile_prefix _).length_le

lemma segmentLength_le (text : List Char) : segmentLength text ≤ text.length := by
  have htones := toneRun_le false text
  have hdigits := digitRun_le (text.drop (toneRun false text))
  rw [List.length_drop] at hdigits
  rw [segmentLength]
  split
  · exact Nat.zero_le _
  · split
    · rename_i hpoint
      obtain ⟨hlt, -⟩ := List.getElem?_eq_some_iff.mp hpoint
      omega
    · omega

lemma tieLength_le (text : List Char) : tieLength text ≤ text.length := by
  fun_induction tieLength text with
  | case1 => exact Nat.zero_le _
  | case2 c rest h ih =>
      have := segmentLength_le rest
      rw [List.length_drop] at ih
      rw [List.length_cons]
      omega
  | case3 => exact Nat.zero_le _

/-! ## Kinds -/

namespace TokenKind

/-- **What is measured is written.** -/
lemma writes_take {kind : TokenKind} {text : List Char} (h : kind.lengthAt text ≠ 0) :
    kind.Writes (upperText (text.take (kind.lengthAt text))) := by
  cases kind with
  | tempo => exact isNumbered_of_numberedLength h
  | octave => exact isNumbered_of_numberedLength h
  | note => exact exists_note_of_noteLength h

lemma lengthAt_le (kind : TokenKind) (text : List Char) : kind.lengthAt text ≤ text.length := by
  have hnumbered (letter : Char) : numberedLength letter text ≤ text.length := by
    cases text with
    | nil => exact Nat.le_refl _
    | cons c rest =>
        have := digitRun_le rest
        unfold numberedLength
        dsimp only
        split
        · rw [List.length_cons]; omega
        · exact Nat.zero_le _
  cases kind with
  | tempo => exact hnumbered 'T'
  | octave => exact hnumbered 'O'
  | note =>
      have := tieLength_le ('&' :: text)
      rw [List.length_cons] at this
      rw [lengthAt, noteLength_eq]
      omega

/-- **What is written is measured as a whole**, and nothing else is if nothing can lengthen
it. -/
lemma lengthAt_written {kind : TokenKind} {w : List Char} (hw : kind.Writes (upperText w))
    (rest : List Char) :
    w.length ≤ kind.lengthAt (w ++ rest) ∧
      (ContinuesNone rest → kind.lengthAt (w ++ rest) = w.length) := by
  have hrun (hrest : ContinuesNone rest) : digitRun rest = 0 := by
    have := overrun_of_continuesNone hrest
    rw [overrun] at this
    omega
  cases kind with
  | tempo =>
      have heq := numberedLength_written hw rest
      exact ⟨by rw [lengthAt, heq]; omega, fun hrest => by rw [lengthAt, heq, hrun hrest]; rfl⟩
  | octave =>
      have heq := numberedLength_written hw rest
      exact ⟨by rw [lengthAt, heq]; omega, fun hrest => by rw [lengthAt, heq, hrun hrest]; rfl⟩
  | note =>
      obtain ⟨n, hn⟩ := hw
      have htied : upperText ('&' :: w) = n.segments.flatMap fun s => '&' :: s.text :=
        congrArg ('&' :: ·) hn
      obtain ⟨hle, heq⟩ := tieLength_written htied rest
      rw [List.length_cons] at hle heq
      rw [lengthAt, noteLength_eq]
      exact ⟨by rw [List.cons_append] at hle; omega,
        fun hrest => by rw [← List.cons_append, heq hrest]; rfl⟩

/-- The kind of the tokens that begin with a letter. -/
def ofLetter (c : Char) : TokenKind := if c = 'T' then tempo else if c = 'O' then octave else note

/-- A token begins with a capital letter, which shows its kind. -/
lemma exists_letter_of_writes {kind : TokenKind} {text : List Char} (h : kind.Writes text) :
    ∃ c, text.head? = some c ∧ (65 ≤ c.toNat ∧ c.toNat ≤ 90) ∧ ofLetter c = kind := by
  cases kind with
  | tempo =>
      obtain ⟨digits, -, -, rfl⟩ := h
      exact ⟨'T', rfl, by decide, rfl⟩
  | octave =>
      obtain ⟨digits, -, -, rfl⟩ := h
      exact ⟨'O', rfl, by decide, rfl⟩
  | note =>
      obtain ⟨n, rfl⟩ := h
      obtain ⟨t, tones, htones⟩ := List.exists_cons_of_ne_nil n.first.tones_ne
      have hhead : n.text.head? = some (WrittenTone.symbol t.letter) := by
        rw [WrittenNote.text, WrittenSegment.text, WrittenSegment.letters, htones]
        rfl
      refine ⟨_, hhead, ?_⟩
      cases t.letter with
      | none => decide
      | some l => cases l <;> decide

lemma eq_of_writes {kind kind' : TokenKind} {text text' : List Char} (h : kind.Writes text)
    (h' : kind'.Writes text') (hhead : text.head? = text'.head?) : kind = kind' := by
  obtain ⟨c, hc, -, rfl⟩ := exists_letter_of_writes h
  obtain ⟨c', hc', -, rfl⟩ := exists_letter_of_writes h'
  rw [hc, hc', Option.some_inj] at hhead
  rw [hhead]

lemma ne_nil_of_writes {kind : TokenKind} {text : List Char} (h : kind.Writes text) :
    text ≠ [] := by
  rintro rfl
  obtain ⟨c, hc, -⟩ := exists_letter_of_writes h
  cases hc

end TokenKind

/-! ## The token at a place -/

namespace Token

variable {t t' : Token} {text : List Char}

lemma IsWritten.ne_nil (h : t.IsWritten) : t.text ≠ [] := fun hnil =>
  TokenKind.ne_nil_of_writes h (by rw [hnil]; rfl)

lemma kind_eq_of_atHead (h : t.IsWritten) (h' : t'.IsWritten) (hhead : t.text <+: text)
    (hhead' : t'.text <+: text) : t.kind = t'.kind := by
  refine TokenKind.eq_of_writes h h' ?_
  have hsame {u : Token} (hu : u.IsWritten) (huhead : u.text <+: text) :
      (upperText u.text).head? = text.head?.map Char.toUpper := by
    obtain ⟨c, w, hcons⟩ := List.exists_cons_of_ne_nil hu.ne_nil
    obtain ⟨rest, rfl⟩ := huhead
    rw [hcons]
    rfl
  rw [hsame h hhead, hsame h' hhead']

/-- At most one token is the longest at a place. -/
lemma IsLongestAt.unique (h : t.IsLongestAt text) (h' : t'.IsLongestAt text) : t = t' := by
  have hkind := kind_eq_of_atHead h.written h'.written h.atHead h'.atHead
  have hlength : t.text.length = t'.text.length :=
    Nat.le_antisymm (h'.longest t h.written h.atHead) (h.longest t' h'.written h'.atHead)
  have htext : t.text = t'.text := by
    rw [List.prefix_iff_eq_take.mp h.atHead, List.prefix_iff_eq_take.mp h'.atHead, hlength]
  cases t
  cases t'
  exact congrArg₂ _ hkind htext

end Token

/-- Where a written token stands, one is found. -/
lemma exists_tokenAt?_of_atHead {t : Token} {text : List Char} (h : t.IsWritten)
    (hhead : t.text <+: text) : ∃ kind length, tokenAt? text = some (kind, length) := by
  cases hfound : tokenAt? text with
  | some found => exact ⟨found.1, found.2, rfl⟩
  | none =>
      exfalso
      obtain ⟨rest, rfl⟩ := hhead
      have hnone := List.find?_eq_none.mp hfound (t.kind, t.kind.lengthAt (t.text ++ rest))
        (List.mem_map_of_mem (by cases t.kind <;> decide))
      have hle := (TokenKind.lengthAt_written h rest).1
      have hlength := List.length_pos_iff.mpr h.ne_nil
      simp only [ne_eq, decide_not, Bool.not_eq_eq_eq_not, Bool.not_true, decide_eq_false_iff_not,
        not_not] at hnone
      omega

/-- **The token that is found is the longest one.** -/
lemma isLongestAt_of_tokenAt? {text : List Char} {kind : TokenKind} {length : Nat}
    (h : tokenAt? text = some (kind, length)) :
    Token.IsLongestAt ⟨kind, text.take length⟩ text ∧ length ≤ text.length ∧ 0 < length := by
  have hfound := List.find?_some h
  obtain ⟨kind', -, hkind⟩ := List.mem_map.mp (List.mem_of_find?_eq_some h)
  obtain ⟨rfl, rfl⟩ := Prod.mk.inj hkind
  have hpos : kind'.lengthAt text ≠ 0 := by simpa using hfound
  have hle := kind'.lengthAt_le text
  have hwritten : Token.IsWritten ⟨kind', text.take (kind'.lengthAt text)⟩ :=
    TokenKind.writes_take hpos
  refine ⟨⟨hwritten, List.take_prefix _ _, fun t' ht' hhead' => ?_⟩, hle, by omega⟩
  have hsame := Token.kind_eq_of_atHead hwritten ht' (List.take_prefix _ _) hhead'
  dsimp only at hsame
  obtain ⟨rest, hrest⟩ := hhead'
  have hlong := (TokenKind.lengthAt_written ht' rest).1
  rw [← hsame, hrest] at hlong
  rw [List.length_take]
  omega

/-- No token is found exactly where none is written. -/
lemma tokenAt?_eq_none_iff {text : List Char} : tokenAt? text = none ↔ ¬StartsToken text := by
  constructor
  · rintro hnone ⟨t, ht, hhead⟩
    obtain ⟨kind, length, hsome⟩ := exists_tokenAt?_of_atHead ht hhead
    rw [hnone] at hsome
    cases hsome
  · intro hstart
    cases hfound : tokenAt? text with
    | none => rfl
    | some found =>
        obtain ⟨hlongest, -⟩ := isLongestAt_of_tokenAt? (by exact hfound)
        exact absurd ⟨_, hlongest.written, hlongest.atHead⟩ hstart

/-- The longest token at the head of a text is found there. -/
lemma Token.IsLongestAt.tokenAt?_eq {t : Token} {text : List Char} (h : t.IsLongestAt text) :
    tokenAt? text = some (t.kind, t.text.length) := by
  obtain ⟨kind, length, hfound⟩ := exists_tokenAt?_of_atHead h.written h.atHead
  obtain ⟨hlongest, hle, -⟩ := isLongestAt_of_tokenAt? hfound
  obtain rfl := h.unique hlongest
  rw [hfound, List.length_take, Nat.min_eq_left hle]

/-- A written token is the longest at its place if nothing can lengthen it. -/
lemma Token.IsWritten.isLongestAt {t : Token} (h : t.IsWritten) {rest : List Char}
    (hrest : ContinuesNone rest) : t.IsLongestAt (t.text ++ rest) := by
  refine ⟨h, List.prefix_append _ _, fun t' ht' hhead' => ?_⟩
  have hsame := Token.kind_eq_of_atHead h ht' (List.prefix_append _ _) hhead'
  obtain ⟨rest', hrest'⟩ := hhead'
  have hlong := (TokenKind.lengthAt_written ht' rest').1
  rw [← hsame, hrest', (TokenKind.lengthAt_written h rest).2 hrest] at hlong
  exact hlong

end MusicMacro
