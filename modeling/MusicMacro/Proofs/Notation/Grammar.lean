import Mathlib.Algebra.Group.Nat.Defs
import Mathlib.Data.List.Induction
import Mathlib.Tactic.Lemma
import MusicMacro.Notation.Directive
import MusicMacro.Notation.Segment
import MusicMacro.Pitch
import MusicMacro.Proofs.Text.Pieces

/-!
# The grammar of notes

The scanner measures notes and the compiler takes them apart again, each with a procedure of its
own.  Between the two stands the grammar: a note is segments, a segment is tones, digits and a
point, a tone is a letter and a sign (`WrittenNote`, `WrittenSegment`, `WrittenTone`).

* Every note that the scanner cuts from a text is, in upper case, such a note
  (`exists_note_of_noteLength`), and so what `tokenize` yields are instructions with whole numbers
  and written notes (`exists_instructions_of_tokenize`).
* Taking a written note apart gives its segments, unless a code is too long
  (`ofNote_raw`), and taking its letters apart gives its tones (`parseTones_letters`).
-/

namespace MusicMacro

/-! ## Written notes -/

/-- A sign after a tone letter. -/
inductive ToneSign where
  | sharp
  | plus
  | minus
deriving DecidableEq

namespace ToneSign

def symbol : ToneSign → Char
  | sharp => '#'
  | plus => '+'
  | minus => '-'

/-- Semitones that the sign adds. -/
def shift : ToneSign → Int
  | sharp => 1
  | plus => 1
  | minus => -1

end ToneSign

/-- A letter, none for a rest, and the sign after it. -/
structure WrittenTone where
  letter : Option PitchLetter
  sign : Option ToneSign
deriving DecidableEq

namespace WrittenTone

/-- The letter as it is written; a rest is `R`. -/
def symbol (letter : Option PitchLetter) : Char := letter.elim 'R' PitchLetter.symbol

def text (t : WrittenTone) : List Char := symbol t.letter :: (t.sign.map ToneSign.symbol).toList

/-- The tone that is meant; the sign of a rest means nothing. -/
def tone (t : WrittenTone) : Tone :=
  match t.letter with
  | none => .rest
  | some l => ⟨some l, (t.sign.map ToneSign.shift).getD 0⟩

end WrittenTone

/-- Tones, the digits of a duration code and a point if there is one. -/
structure WrittenSegment where
  tones : List WrittenTone
  digits : List Char
  dotted : Bool
  tones_ne : tones ≠ []
  digits_ne : digits ≠ []
  isDigit : ∀ c ∈ digits, isDecimalDigit c = true

namespace WrittenSegment

def letters (s : WrittenSegment) : List Char := s.tones.flatMap WrittenTone.text

/-- The point after the code. -/
def point (s : WrittenSegment) : List Char := if s.dotted then ['.'] else []

def text (s : WrittenSegment) : List Char := s.letters ++ s.digits ++ s.point

/-- The number that the digits spell. -/
def code (s : WrittenSegment) : Nat := digitsValue s.digits

/-- Whether the code has more digits than can be read. -/
def isTooLong (s : WrittenSegment) : Bool := digitLimit < s.digits.length

/-- The segment that is meant. -/
def segment (s : WrittenSegment) : Segment := ⟨s.letters, s.code, s.dotted⟩

end WrittenSegment

/-- A segment and the ones tied to it. -/
structure WrittenNote where
  first : WrittenSegment
  tied : List WrittenSegment

namespace WrittenNote

def segments (n : WrittenNote) : List WrittenSegment := n.first :: n.tied

def text (n : WrittenNote) : List Char :=
  n.first.text ++ n.tied.flatMap fun s => '&' :: s.text

/-- The text that messages show. -/
def raw (n : WrittenNote) : String := String.ofList n.text

end WrittenNote

/-! ## Characters of a note -/

/-- A decimal digit of ASCII or of another script, so no letter of ASCII. -/
lemma digit_range {c : Char} (h : isDecimalDigit c = true) :
    (48 ≤ c.toNat ∧ c.toNat ≤ 57) ∨ 128 ≤ c.toNat := by
  unfold isDecimalDigit digitValue? at h
  split at h
  · split at h
    · rename_i hc
      exact .inl hc
    · cases h
  · omega

lemma toUpper_of_digit {c : Char} (h : isDecimalDigit c = true) : c.toUpper = c := by
  have hrange := digit_range h
  unfold Char.toUpper
  rw [dif_neg]
  rintro ⟨hlow, hhigh⟩
  have hlow : 97 ≤ c.toNat := hlow
  have hhigh : c.toNat ≤ 122 := hhigh
  omega

lemma not_isSegmentLetter_of_digit {c : Char} (h : isDecimalDigit c = true) :
    isSegmentLetter c = false := by
  have hrange := digit_range h
  have hupper : c.isUpper = false := by
    rw [Bool.eq_false_iff]
    intro hup
    obtain ⟨hlow, hhigh⟩ := of_decide_eq_true hup
    have hlow : 65 ≤ c.toNat := hlow
    have hhigh : c.toNat ≤ 90 := hhigh
    omega
  have hsign : ∀ x ∈ ['#', '+', '-'], (c == x) = false := by
    intro x hx
    rw [beq_eq_false_iff_ne]
    rintro rfl
    simp only [List.mem_cons, List.not_mem_nil, or_false] at hx
    rcases hx with rfl | rfl | rfl <;> revert hrange <;> decide
  simp [isSegmentLetter, hupper, hsign]

/-- A character that its own upper-case form consists of. -/
def IsPlain (c : Char) : Prop := (specialUpper.lookup c).getD [c.toUpper] = [c]

lemma isPlain_of_digit {c : Char} (h : isDecimalDigit c = true) : IsPlain c := by
  have hall : ∀ p ∈ specialUpper, isDecimalDigit p.1 = false := by decide
  have hnone : specialUpper.lookup c = none := by
    refine List.lookup_eq_none_iff.mpr fun p hp => ?_
    rw [bne_iff_ne]
    rintro rfl
    rw [hall p hp] at h
    cases h
  rw [IsPlain, hnone, Option.getD_none, toUpper_of_digit h]

lemma upperLetters_of_plain {text : List Char} (h : ∀ c ∈ text, IsPlain c) :
    upperLetters text = text := by
  induction text with
  | nil => rfl
  | cons c rest ih =>
      have hc : (specialUpper.lookup c).getD [c.toUpper] = [c] := h c List.mem_cons_self
      rw [upperLetters, List.flatMap_cons, hc, ← upperLetters,
        ih fun d hd => h d (List.mem_cons_of_mem _ hd)]
      rfl

lemma WrittenTone.isToneLetter_symbol (letter : Option PitchLetter) :
    isToneLetter (symbol letter) = true := by
  cases letter with
  | none => decide
  | some l => cases l <;> decide

lemma WrittenTone.isToneSign_symbol (letter : Option PitchLetter) :
    isToneSign (symbol letter) = false := by
  cases letter with
  | none => decide
  | some l => cases l <;> decide

lemma exists_symbol_of_isToneLetter {c : Char} (h : isToneLetter c = true) :
    ∃ letter, c.toUpper = WrittenTone.symbol letter := by
  have hall : ("CDEFGABRcdefgabr".toList.all fun c =>
      (none :: PitchLetter.all.map some).any fun letter =>
        c.toUpper = WrittenTone.symbol letter) = true := by
    decide
  have hc := List.all_eq_true.mp hall c (List.contains_iff_mem.mp h)
  obtain ⟨letter, -, hletter⟩ := List.any_eq_true.mp hc
  exact ⟨letter, of_decide_eq_true hletter⟩

lemma exists_sign_of_isToneSign {c : Char} (h : isToneSign c = true) :
    ∃ sign : ToneSign, c.toUpper = sign.symbol := by
  simp only [isToneSign, Bool.or_eq_true, beq_iff_eq] at h
  rcases h with (rfl | rfl) | rfl
  · exact ⟨.sharp, rfl⟩
  · exact ⟨.plus, rfl⟩
  · exact ⟨.minus, rfl⟩

/-! ## What the scanner cuts -/

lemma upperText_append (x y : List Char) : upperText (x ++ y) = upperText x ++ upperText y :=
  List.map_append

/-- A run of tones, and what is left of one right after a letter.  The two are told together
because every letter leads from either to the second and every sign from the second to the
first. -/
lemma exists_tones_of_toneRun (text : List Char) :
    (∃ tones : List WrittenTone,
      upperText (text.take (toneRun false text)) = tones.flatMap WrittenTone.text) ∧
    ∃ (sign : Option ToneSign) (tones : List WrittenTone),
      upperText (text.take (toneRun true text)) =
        (sign.map ToneSign.symbol).toList ++ tones.flatMap WrittenTone.text := by
  induction text with
  | nil => exact ⟨⟨[], rfl⟩, none, [], rfl⟩
  | cons c rest ih =>
      obtain ⟨⟨after, hafter⟩, sign, tones, htones⟩ := ih
      by_cases hletter : isToneLetter c = true
      · obtain ⟨letter, hc⟩ := exists_symbol_of_isToneLetter hletter
        have hcons : upperText ((c :: rest).take (toneRun true rest + 1)) =
            (⟨letter, sign⟩ :: tones : List WrittenTone).flatMap WrittenTone.text := by
          rw [List.take_succ_cons, upperText, List.map_cons, ← upperText, htones, hc,
            List.flatMap_cons]
          rfl
        simp only [toneRun, hletter, if_true]
        exact ⟨⟨_, hcons⟩, none, ⟨letter, sign⟩ :: tones, hcons⟩
      · by_cases hsign : isToneSign c = true
        · obtain ⟨s, hc⟩ := exists_sign_of_isToneSign hsign
          simp only [toneRun, hletter, hsign, Bool.false_and, Bool.true_and, if_true,
            Bool.false_eq_true, if_false]
          refine ⟨⟨[], rfl⟩, some s, after, ?_⟩
          rw [List.take_succ_cons, upperText, List.map_cons, ← upperText, hafter, hc]
          rfl
        · simp only [toneRun, hletter, hsign, Bool.and_false, Bool.false_eq_true, if_false]
          exact ⟨⟨[], rfl⟩, none, [], rfl⟩

lemma take_digitRun (text : List Char) :
    text.take (digitRun text) = text.takeWhile isDecimalDigit :=
  (List.prefix_iff_eq_take.mp (List.takeWhile_prefix _)).symm

lemma upperText_of_digits {digits : List Char} (h : ∀ c ∈ digits, isDecimalDigit c = true) :
    upperText digits = digits := by
  rw [upperText]
  exact (List.map_congr_left fun c hc => toUpper_of_digit (h c hc)).trans (List.map_id _)

/-- Where a segment is measured, a segment is written. -/
lemma exists_segment_of_segmentLength {text : List Char} (h : segmentLength text ≠ 0) :
    ∃ s : WrittenSegment, upperText (text.take (segmentLength text)) = s.text := by
  obtain ⟨⟨tones, htones⟩, -⟩ := exists_tones_of_toneRun text
  unfold segmentLength at h ⊢
  dsimp only at h ⊢
  generalize ht : toneRun false text = t at h htones ⊢
  have hcut := take_digitRun (text.drop t)
  have hall : ∀ c ∈ (text.drop t).takeWhile isDecimalDigit, isDecimalDigit c = true :=
    List.all_eq_true.mp List.all_takeWhile
  rw [digitRun] at h hcut ⊢
  generalize (text.drop t).takeWhile isDecimalDigit = digits at h hcut hall ⊢
  obtain ⟨ht0, hd0⟩ : t ≠ 0 ∧ digits.length ≠ 0 := by
    by_contra hcon
    rw [if_pos (by omega)] at h
    exact h rfl
  rw [if_neg (by omega)]
  have htones_ne : tones ≠ [] := by
    rintro rfl
    have hnil : text.take t = [] := List.map_eq_nil_iff.mp htones
    rcases List.take_eq_nil_iff.mp hnil with h0 | rfl
    · exact ht0 h0
    · exact ht0 ht.symm
  refine ⟨⟨tones, digits, decide (text[t + digits.length]? = some '.'), htones_ne,
    List.length_eq_zero_iff.not.mp hd0, hall⟩, ?_⟩
  rw [WrittenSegment.text, WrittenSegment.letters, List.take_add, List.take_add, upperText_append,
    upperText_append, htones, hcut, upperText_of_digits hall]
  congr 1
  rw [WrittenSegment.point]
  split
  · rename_i hpoint
    obtain ⟨hlt, hget⟩ := List.getElem?_eq_some_iff.mp hpoint
    rw [List.drop_eq_getElem_cons hlt, List.take_succ_cons, List.take_zero, hget,
      if_pos (decide_eq_true hpoint)]
    rfl
  · rename_i hpoint
    rw [List.take_zero, decide_eq_false hpoint]
    rfl

/-- Where ties are measured, tied segments are written. -/
lemma exists_tied_of_tieLength (text : List Char) :
    ∃ tied : List WrittenSegment,
      upperText (text.take (tieLength text)) = tied.flatMap fun s => '&' :: s.text := by
  fun_induction tieLength text with
  | case1 => exact ⟨[], rfl⟩
  | case2 c rest h ih =>
      obtain ⟨rfl, hlength⟩ := h
      obtain ⟨s, hs⟩ := exists_segment_of_segmentLength hlength
      obtain ⟨tied, htied⟩ := ih
      refine ⟨s :: tied, ?_⟩
      rw [Nat.add_assoc, Nat.add_comm 1, List.take_succ_cons, List.take_add, upperText,
        List.map_cons, ← upperText, upperText_append, hs, htied, List.flatMap_cons]
      rfl
  | case3 c rest h => exact ⟨[], rfl⟩

/-- **Where a note is measured, a note is written.** -/
lemma exists_note_of_noteLength {text : List Char} (h : noteLength text ≠ 0) :
    ∃ n : WrittenNote, upperText (text.take (noteLength text)) = n.text := by
  unfold noteLength at h ⊢
  dsimp only at h ⊢
  split at h
  · exact absurd rfl h
  · rename_i hfirst
    rw [if_neg hfirst, List.take_add]
    obtain ⟨s, hs⟩ := exists_segment_of_segmentLength hfirst
    obtain ⟨tied, htied⟩ := exists_tied_of_tieLength (text.drop (segmentLength text))
    exact ⟨⟨s, tied⟩, by rw [upperText_append, hs, htied, WrittenNote.text]⟩

/-- A token of a scanned text is what its kind measures at some place of the text. -/
lemma token_of_mem_scan {gap text : List Char} {lexeme : Lexeme}
    (h : lexeme ∈ (Lexeme.scan gap text).1) :
    ∃ rest : List Char, rest.length ≤ text.length ∧
      lexeme.token.kind.lengthAt rest ≠ 0 ∧
      lexeme.token.text = rest.take (lexeme.token.kind.lengthAt rest) := by
  fun_induction Lexeme.scan gap text with
  | case1 => cases h
  | case2 gap c rest hnone ih =>
      obtain ⟨place, hle, hplace⟩ := ih h
      exact ⟨place, Nat.le_succ_of_le hle, hplace⟩
  | case3 gap c rest kind length hsome more tail hscan ih =>
      have hfound := List.find?_some hsome
      obtain ⟨kind', -, hkind⟩ := List.mem_map.mp (List.mem_of_find?_eq_some hsome)
      obtain ⟨rfl, rfl⟩ := Prod.mk.inj hkind
      rcases List.mem_cons.mp h with rfl | hmore
      · exact ⟨c :: rest, Nat.le_refl _, by simpa using hfound, rfl⟩
      · rw [hscan] at ih
        obtain ⟨place, hle, hplace⟩ := ih hmore
        refine ⟨place, Nat.le_succ_of_le (Nat.le_trans hle ?_), hplace⟩
        rw [List.length_drop]
        exact Nat.sub_le _ _

/-! ## Instructions -/

/-- A directive with a whole number or a written note. -/
inductive Instruction where
  | tempo (bpm : Int) (raw : String)
  | octave (value : Int) (raw : String)
  | note (n : WrittenNote)

namespace Instruction

def directive : Instruction → Directive
  | tempo bpm raw => .tempo (.whole bpm) raw
  | octave value raw => .octave (.whole value) raw
  | note n => .note n.raw

/-- A number from zero on with so many digits at most, or a note of so many characters at most. -/
def FitsIn (digits length : Nat) : Instruction → Prop
  | tempo n _ => 0 ≤ n ∧ n.natAbs < 10 ^ digits
  | octave n _ => 0 ≤ n ∧ n.natAbs < 10 ^ digits
  | note n => n.text.length ≤ length

end Instruction

lemma digitValue?_lt {c : Char} {n : Nat} (h : digitValue? c = some n) : n < 10 := by
  unfold digitValue? at h
  split at h
  · split at h
    · rename_i hc
      have hhigh : c.toNat ≤ 57 := hc.2
      obtain rfl := Option.some.inj h
      omega
    · cases h
  · obtain ⟨start, hstart, rfl⟩ := Option.map_eq_some_iff.mp h
    have hfound := List.find?_some hstart
    simp only [Bool.and_eq_true, decide_eq_true_eq] at hfound
    omega

/-- Digits spell a number of no more digits. -/
lemma digitsValue_lt (digits : List Char) : digitsValue digits < 10 ^ digits.length := by
  induction digits using List.reverseRecOn with
  | nil => decide
  | append_singleton digits c ih =>
      have hc : (digitValue? c).getD 0 < 10 := by
        cases h : digitValue? c with
        | none => decide
        | some n => exact digitValue?_lt h
      rw [digitsValue, List.foldl_append, ← digitsValue, List.foldl_cons, List.foldl_nil,
        List.length_append, List.length_singleton, Nat.pow_succ]
      omega

lemma number?_lt {t : Token} {n : Nat} (h : t.number? = some n) : n < 10 ^ digitLimit := by
  unfold Token.number? at h
  dsimp only at h
  split at h
  · rename_i hlength
    obtain rfl := Option.some.inj h
    exact Nat.lt_of_lt_of_le (digitsValue_lt _) (Nat.pow_le_pow_right (by decide) hlength)
  · cases h

/-- What a token of a scanned text asks for is an instruction that fits in the text. -/
lemma exists_instruction_of_mem_scan {gap text : List Char} {lexeme : Lexeme} {d : Directive}
    (hmem : lexeme ∈ (Lexeme.scan gap text).1) (hd : Directive.ofToken lexeme.token = .ok d) :
    ∃ i : Instruction, i.directive = d ∧ i.FitsIn digitLimit text.length := by
  obtain ⟨rest, hrest, hlength, htext⟩ := token_of_mem_scan hmem
  obtain ⟨_, kind, token⟩ := lexeme
  unfold Directive.ofToken at hd
  cases kind with
  | note =>
      obtain ⟨n, hn⟩ := exists_note_of_noteLength hlength
      refine ⟨.note n, ?_, ?_⟩
      · rw [← Except.ok.inj hd, Instruction.directive, WrittenNote.raw, ← hn, htext]
        rfl
      · calc n.text.length = (upperText (rest.take (noteLength rest))).length := by rw [hn]
          _ ≤ rest.length := by
            rw [upperText, List.length_map]
            exact List.length_take_le' _ _
          _ ≤ text.length := hrest
  | tempo =>
      dsimp only at hd
      split at hd
      · rename_i n hn
        exact ⟨.tempo n _, Except.ok.inj hd, Int.natCast_nonneg n, number?_lt hn⟩
      · cases hd
  | octave =>
      dsimp only at hd
      split at hd
      · rename_i n hn
        exact ⟨.octave n _, Except.ok.inj hd, Int.natCast_nonneg n, number?_lt hn⟩
      · cases hd

lemma exists_instructions_of_readLexemes {P : Instruction → Prop} {tail : List Char}
    {lexemes : List Lexeme} {ds : List Directive}
    (hall : ∀ lexeme ∈ lexemes, ∀ d, Directive.ofToken lexeme.token = .ok d →
      ∃ i : Instruction, i.directive = d ∧ P i)
    (h : (readLexemes tail lexemes).2 = .ok ds) :
    ∃ is : List Instruction, is.map Instruction.directive = ds ∧ ∀ i ∈ is, P i := by
  induction lexemes generalizing ds with
  | nil =>
      obtain rfl := Except.ok.inj h
      exact ⟨[], rfl, by simp⟩
  | cons lexeme rest ih =>
      obtain ⟨hfirst, hrest⟩ := List.forall_mem_cons.mp hall
      unfold readLexemes at h
      split at h
      · cases h
      · rename_i d hd
        obtain ⟨i, rfl, hi⟩ := hfirst d hd
        cases hread : readLexemes tail rest with
        | mk log directives =>
            rw [hread] at h ih
            cases directives with
            | error e => cases h
            | ok more =>
                obtain rfl := Except.ok.inj h
                obtain ⟨is, rfl, his⟩ := ih hrest rfl
                exact ⟨i :: is, rfl, List.forall_mem_cons.mpr ⟨hi, his⟩⟩

/-- **The directives of a text are instructions** with numbers that can be read and notes no
longer than the text. -/
lemma exists_instructions_of_tokenize {text : String} {ds : List Directive}
    (h : (tokenize text).2 = .ok ds) :
    ∃ is : List Instruction, is.map Instruction.directive = ds ∧
      ∀ i ∈ is, i.FitsIn digitLimit text.length := by
  unfold tokenize at h
  dsimp only at h
  split at h
  · cases h
  · refine exists_instructions_of_readLexemes (fun lexeme hmem d hd => ?_) h
    rw [← String.length_toList]
    exact exists_instruction_of_mem_scan hmem hd

/-! ## Taking a note apart -/

/-- A traversal whose steps fail each on their own stops at the first that fails. -/
lemma mapM_eq_find? {α β ε : Type} {f : α → Except ε β} (p : α → Bool) (e : α → ε) (g : α → β)
    (h : ∀ a, f a = if p a then .error (e a) else .ok (g a)) (l : List α) :
    l.mapM f = (l.find? p).elim (.ok (l.map g)) (.error ∘ e) := by
  induction l with
  | nil => rfl
  | cons a rest ih =>
      rw [List.mapM_cons, h, List.find?_cons, ih]
      cases p a with
      | true => rfl
      | false => cases rest.find? p <;> rfl

namespace WrittenTone

/-- Every character of a tone is the letter of one or a sign. -/
lemma mem_text {t : WrittenTone} {c : Char} (h : c ∈ t.text) :
    (∃ letter, c = symbol letter) ∨ ∃ sign : ToneSign, c = sign.symbol := by
  rcases List.mem_cons.mp h with rfl | hsign
  · exact .inl ⟨t.letter, rfl⟩
  · obtain ⟨sign, -, rfl⟩ := Option.map_eq_some_iff.mp (Option.mem_toList.mp hsign)
    exact .inr ⟨sign, rfl⟩

lemma isSegmentLetter_of_mem_text {t : WrittenTone} {c : Char} (h : c ∈ t.text) :
    isSegmentLetter c = true := by
  rcases mem_text h with ⟨letter, rfl⟩ | ⟨sign, rfl⟩
  · cases letter with
    | none => decide
    | some l => cases l <;> decide
  · cases sign <;> decide

lemma isPlain_of_mem_text {t : WrittenTone} {c : Char} (h : c ∈ t.text) : IsPlain c := by
  rcases mem_text h with ⟨letter, rfl⟩ | ⟨sign, rfl⟩
  · cases letter with
    | none => rfl
    | some l => cases l <;> rfl
  · cases sign <;> rfl

lemma tie_not_mem_text (t : WrittenTone) : '&' ∉ t.text := by
  intro h
  have := isSegmentLetter_of_mem_text h
  revert this
  decide

end WrittenTone

namespace WrittenSegment

variable (s : WrittenSegment)

lemma isSegmentLetter_of_mem_letters : ∀ c ∈ s.letters, isSegmentLetter c = true := by
  intro c hc
  obtain ⟨t, -, ht⟩ := List.mem_flatMap.mp hc
  exact WrittenTone.isSegmentLetter_of_mem_text ht

lemma letters_ne : s.letters ≠ [] := by
  obtain ⟨t, ht⟩ := List.exists_mem_of_ne_nil _ s.tones_ne
  have : WrittenTone.symbol t.letter ∈ s.letters :=
    List.mem_flatMap.mpr ⟨t, ht, List.mem_cons_self⟩
  exact List.ne_nil_of_mem this

lemma mem_point {c : Char} (h : c ∈ s.point) : c = '.' := by
  unfold point at h
  split at h
  · exact List.mem_singleton.mp h
  · cases h

lemma isPlain_of_mem_text : ∀ c ∈ s.text, IsPlain c := by
  intro c hc
  simp only [text, List.mem_append] at hc
  rcases hc with (hletter | hdigit) | hpoint
  · obtain ⟨t, -, ht⟩ := List.mem_flatMap.mp hletter
    exact WrittenTone.isPlain_of_mem_text ht
  · exact isPlain_of_digit (s.isDigit c hdigit)
  · rw [s.mem_point hpoint]
    rfl

lemma tie_not_mem_text : '&' ∉ s.text := by
  intro h
  simp only [text, List.mem_append] at h
  rcases h with (hletter | hdigit) | hpoint
  · obtain ⟨t, -, ht⟩ := List.mem_flatMap.mp hletter
    exact t.tie_not_mem_text ht
  · have := s.isDigit _ hdigit
    revert this
    decide
  · have := s.mem_point hpoint
    revert this
    decide

/-- The letters end where the digits begin. -/
lemma takeWhile_letters : s.text.takeWhile isSegmentLetter = s.letters := by
  obtain ⟨d, rest, hd⟩ := List.exists_cons_of_ne_nil s.digits_ne
  have hdigit : isSegmentLetter d = false :=
    not_isSegmentLetter_of_digit (s.isDigit d (by rw [hd]; exact List.mem_cons_self))
  rw [text, List.append_assoc, List.takeWhile_append_of_pos s.isSegmentLetter_of_mem_letters, hd,
    List.cons_append, List.takeWhile_cons_of_neg (by rw [hdigit]; decide), List.append_nil]

lemma drop_letters : s.text.drop s.letters.length = s.digits ++ s.point := by
  rw [text, List.append_assoc, List.drop_left]

/-- The digits end before the point or with the text. -/
lemma takeWhile_digits : (s.digits ++ s.point).takeWhile isDecimalDigit = s.digits := by
  have hpoint : s.point.takeWhile isDecimalDigit = [] := by
    unfold point
    split
    · decide
    · rfl
  rw [List.takeWhile_append_of_pos s.isDigit, hpoint, List.append_nil]

lemma drop_digits : s.text.drop (s.letters.length + s.digits.length) = s.point := by
  rw [← List.drop_drop, drop_letters, List.drop_left]

/-- A written segment reads as the segment that is meant, unless its code is too long. -/
lemma read_text (raw : String) :
    Segment.read raw s.text =
      if s.isTooLong then .error ⟨.codeTooLong, raw⟩ else .ok s.segment := by
  unfold Segment.read
  dsimp only
  rw [upperLetters_of_plain s.isPlain_of_mem_text, s.takeWhile_letters, s.drop_letters,
    s.takeWhile_digits, s.drop_digits, if_neg]
  · have hdot : decide (s.point.head? = some '.') = s.dotted := by
      unfold point
      cases s.dotted <;> rfl
    rw [hdot, isTooLong]
    simp only [decide_eq_true_eq]
    rfl
  · have hpoint : s.point = [] ∨ s.point = ['.'] := by
      unfold point
      cases s.dotted
      · exact .inl rfl
      · exact .inr rfl
    have hletters := List.isEmpty_eq_false_iff.mpr s.letters_ne
    have hdigits := List.isEmpty_eq_false_iff.mpr s.digits_ne
    rcases hpoint with h | h <;> simp [hletters, hdigits, h]

end WrittenSegment

namespace WrittenNote

variable (n : WrittenNote)

lemma pieces_text : pieces '&' n.text = n.segments.map WrittenSegment.text := by
  have hjoin : n.text = n.first.text ++ (n.tied.map WrittenSegment.text).flatMap ('&' :: ·) := by
    rw [text, List.flatMap_map]
  rw [hjoin, pieces_joined n.first.tie_not_mem_text]
  · rfl
  · intro text htext
    obtain ⟨s, -, rfl⟩ := List.mem_map.mp htext
    exact s.tie_not_mem_text

/-- **A written note comes apart into the segments that are meant**, unless one of its codes is
too long. -/
lemma ofNote_raw :
    Segment.ofNote n.raw =
      if n.segments.any WrittenSegment.isTooLong then .error ⟨.codeTooLong, n.raw⟩
      else .ok (n.segments.map WrittenSegment.segment) := by
  rw [Segment.ofNote, raw, String.toList_ofList, ← raw, pieces_text, List.mapM_map,
    mapM_eq_find? WrittenSegment.isTooLong (fun _ => ⟨.codeTooLong, n.raw⟩)
      WrittenSegment.segment fun s => s.read_text n.raw,
    ← List.isSome_find?]
  cases n.segments.find? WrittenSegment.isTooLong <;> rfl

end WrittenNote

/-! ### Tones -/

namespace WrittenTone

lemma ofLetter?_symbol (letter : Option PitchLetter) (shift : Int) :
    Tone.ofLetter? (symbol letter) shift = some (letter.elim .rest fun l => ⟨some l, shift⟩) := by
  cases letter with
  | none => rfl
  | some l => cases l <;> rfl

lemma ofLetter?_sign (sign : ToneSign) (shift : Int) : Tone.ofLetter? sign.symbol shift = none := by
  cases sign <;> rfl

/-- A sign by itself is no tone. -/
lemma parseTones_sign (sign : ToneSign) (rest : List Char) :
    parseTones (sign.symbol :: rest) = parseTones rest := by
  rw [parseTones, ofLetter?_sign, Option.toList_none, List.nil_append]

lemma accidentalShift?_symbol (letter : Option PitchLetter) :
    accidentalShift? (symbol letter) = none := by
  cases letter with
  | none => rfl
  | some l => cases l <;> rfl

lemma accidentalShift?_sign (sign : ToneSign) : accidentalShift? sign.symbol = some sign.shift := by
  cases sign <;> rfl

/-- No sign stands before the first letter of written tones. -/
lemma head?_bind_accidentalShift? (tones : List WrittenTone) :
    (tones.flatMap text).head?.bind accidentalShift? = none := by
  cases tones with
  | nil => rfl
  | cons t rest => exact accidentalShift?_symbol t.letter

end WrittenTone

/-- The letters of written tones are those of the tones that are meant: a sign belongs to the
letter before it, and the letter after it starts a tone of its own. -/
lemma parseTones_letters (tones : List WrittenTone) :
    parseTones (tones.flatMap WrittenTone.text) = tones.map WrittenTone.tone := by
  induction tones with
  | nil => rfl
  | cons t rest ih =>
      obtain ⟨letter, sign⟩ := t
      rw [List.flatMap_cons, WrittenTone.text, List.cons_append, parseTones,
        WrittenTone.ofLetter?_symbol]
      cases sign with
      | none =>
          rw [Option.map_none, Option.toList_none, List.nil_append,
            WrittenTone.head?_bind_accidentalShift?, ih]
          cases letter <;> rfl
      | some s =>
          simp only [Option.map_some, Option.toList_some, List.singleton_append, List.head?_cons,
            Option.bind_some, WrittenTone.accidentalShift?_sign, WrittenTone.parseTones_sign, ih]
          cases letter <;> rfl

end MusicMacro
