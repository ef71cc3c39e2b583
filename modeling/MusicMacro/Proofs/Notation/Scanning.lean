import MusicMacro.Proofs.Notation.Tokens

/-!
# Scanning loses nothing

A text is tokens with gaps before, between and after them (`Lexeme.joined`).  The cut that
`Lexeme.scan` makes is told by two conditions: no token starts inside a gap, and every token is the
longest one at its place (`Cuts`).  There is exactly one such cut of each text (`scan_joined`), so

* `tokenize` reads the tokens of that cut and warns of its gaps, and finds none only in a text
  that no token is written in (`tokenize_leftmost_longest`);
* tokens that are written one after another, with blanks or without, are read back as they are
  (`tokenize_joined`).
-/

namespace MusicMacro

/-! ## Cuts -/

/-- No token starts inside the gap, when the text goes on like that. -/
def IsGap (gap rest : List Char) : Prop := ∀ k < gap.length, ¬StartsToken ((gap ++ rest).drop k)

/-- Tokens with the gaps before them and the gap at the end, put together. -/
def Lexeme.joined (lexemes : List Lexeme) (tail : List Char) : List Char :=
  match lexemes with
  | [] => tail
  | l :: rest => l.gap ++ (l.token.text ++ joined rest tail)

/-- No token starts inside a gap, and each token is the longest one where it stands. -/
inductive Cuts : List Lexeme → List Char → Prop where
  | tail {tail : List Char} (gap : IsGap tail []) : Cuts [] tail
  | token {l : Lexeme} {rest : List Lexeme} {tail : List Char}
      (gap : IsGap l.gap (l.token.text ++ Lexeme.joined rest tail))
      (longest : l.token.IsLongestAt (l.token.text ++ Lexeme.joined rest tail))
      (more : Cuts rest tail) : Cuts (l :: rest) tail

lemma isGap_nil (rest : List Char) : IsGap [] rest := fun _ hk => absurd hk (Nat.not_lt_zero _)

/-- A gap grows by a character at which no token starts. -/
lemma IsGap.snoc {gap rest : List Char} {c : Char} (h : IsGap gap (c :: rest))
    (hc : ¬StartsToken (c :: rest)) : IsGap (gap ++ [c]) rest := by
  intro k hk
  rw [List.append_assoc, List.singleton_append]
  rw [List.length_append, List.length_singleton] at hk
  rcases Nat.lt_or_eq_of_le (Nat.le_of_lt_succ hk) with hlt | rfl
  · exact h k hlt
  · rwa [List.drop_left]

/-- **What is scanned is a cut of the text**; the gap that was begun before belongs to it. -/
lemma cuts_scan (gap text : List Char) (h : IsGap gap.reverse text) :
    Lexeme.joined (Lexeme.scan gap text).1 (Lexeme.scan gap text).2 = gap.reverse ++ text ∧
      Cuts (Lexeme.scan gap text).1 (Lexeme.scan gap text).2 := by
  fun_induction Lexeme.scan gap text with
  | case1 gap => exact ⟨(List.append_nil _).symm, .tail h⟩
  | case2 gap c rest hnone ih =>
      have hsnoc : IsGap (c :: gap).reverse rest := by
        rw [List.reverse_cons]
        exact h.snoc (tokenAt?_eq_none_iff.mp hnone)
      rw [List.reverse_cons, List.append_assoc, List.singleton_append] at ih
      exact ih (by rwa [List.reverse_cons] at hsnoc)
  | case3 gap c rest kind length hsome more tail hscan ih =>
      obtain ⟨hlongest, hle, hpos⟩ := isLongestAt_of_tokenAt? hsome
      rw [hscan] at ih
      obtain ⟨hjoined, hcuts⟩ := ih (isGap_nil _)
      have hsplit : (c :: rest).take length ++ Lexeme.joined more tail = c :: rest := by
        obtain ⟨n, rfl⟩ := Nat.exists_eq_succ_of_ne_zero (Nat.pos_iff_ne_zero.mp hpos)
        rw [hjoined, List.reverse_nil, List.nil_append, Nat.succ_sub_one, List.take_succ_cons,
          List.cons_append, List.take_append_drop]
      refine ⟨by rw [Lexeme.joined, hsplit], .token ?_ ?_ hcuts⟩
      · dsimp only
        rwa [hsplit]
      · dsimp only
        rwa [hsplit]

/-- A gap is passed over. -/
lemma scan_gap {gap rest : List Char} (h : IsGap gap rest) (before : List Char) :
    Lexeme.scan before (gap ++ rest) = Lexeme.scan (gap.reverse ++ before) rest := by
  induction gap generalizing before with
  | nil => rfl
  | cons c gap ih =>
      have hnone : tokenAt? (c :: (gap ++ rest)) = none :=
        tokenAt?_eq_none_iff.mpr (h 0 (Nat.succ_pos _))
      have hgap : IsGap gap rest := fun k hk => h (k + 1) (Nat.succ_lt_succ hk)
      rw [List.cons_append, Lexeme.scan, hnone, List.reverse_cons, List.append_assoc,
        List.singleton_append]
      exact ih hgap (c :: before)

/-- A token that is the longest one is cut off. -/
lemma scan_token {t : Token} {rest : List Char} (h : t.IsLongestAt (t.text ++ rest))
    (gap : List Char) :
    Lexeme.scan gap (t.text ++ rest) =
      (⟨gap.reverse, t⟩ :: (Lexeme.scan [] rest).1, (Lexeme.scan [] rest).2) := by
  have hfound := h.tokenAt?_eq
  obtain ⟨c, w, hcons⟩ := List.exists_cons_of_ne_nil h.written.ne_nil
  have hdrop : (w ++ rest).drop (t.text.length - 1) = rest := by
    rw [hcons, List.length_cons, Nat.add_sub_cancel, List.drop_left]
  have htake : (c :: (w ++ rest)).take t.text.length = t.text := by
    rw [← List.cons_append, ← hcons, List.take_left]
  rw [hcons, List.cons_append] at hfound ⊢
  rw [Lexeme.scan, hfound]
  dsimp only
  rw [← hcons, hdrop, htake]

/-- **The cut of a text is the one that is scanned.** -/
lemma scan_joined {lexemes : List Lexeme} {tail : List Char} (h : Cuts lexemes tail) :
    Lexeme.scan [] (Lexeme.joined lexemes tail) = (lexemes, tail) := by
  induction h with
  | @tail tail gap =>
      have hscan := scan_gap gap []
      rw [List.append_nil, List.append_nil] at hscan
      rw [Lexeme.joined, hscan, Lexeme.scan, List.reverse_reverse]
  | token gap longest more ih =>
      rw [Lexeme.joined, scan_gap gap, List.append_nil, scan_token longest, ih,
        List.reverse_reverse]

lemma Cuts.scan_ofList {lexemes : List Lexeme} {tail : List Char} (h : Cuts lexemes tail) :
    Lexeme.scan [] (String.ofList (Lexeme.joined lexemes tail)).toList = (lexemes, tail) := by
  rw [String.toList_ofList]
  exact scan_joined h

lemma Cuts.isWritten {lexemes : List Lexeme} {tail : List Char} (h : Cuts lexemes tail) :
    ∀ l ∈ lexemes, l.token.IsWritten := by
  induction h with
  | tail gap => exact List.forall_mem_nil _
  | token gap longest more ih => exact List.forall_mem_cons.mpr ⟨longest.written, ih⟩

/-! ## What a token asks for -/

namespace Token

variable (t : Token)

/-- The token in upper case. -/
def raw : String := String.ofList (upperText t.text)

/-- The digits after the letter of a tempo or an octave. -/
def digits : List Char := t.text.drop 1

/-- Whether the token is a tempo or an octave with more digits than can be read. -/
def isTooLong : Bool :=
  match t.kind with
  | .note => false
  | .tempo | .octave => digitLimit < t.digits.length

/-- Why a tempo or an octave with too many digits is refused. -/
def tooLong : NotationError :=
  match t.kind with
  | .tempo => ⟨.tempoTooLong, t.raw⟩
  | .octave | .note => ⟨.octaveTooLong, t.raw⟩

/-- What the token asks for, its number read from its digits. -/
def directive : Directive :=
  match t.kind with
  | .tempo => .tempo (.whole (digitsValue t.digits)) t.raw
  | .octave => .octave (.whole (digitsValue t.digits)) t.raw
  | .note => .note t.raw

lemma number?_eq :
    t.number? = if digitLimit < t.digits.length then none else some (digitsValue t.digits) := by
  rw [number?, ← digits]
  by_cases h : digitLimit < t.digits.length
  · rw [if_neg (Nat.not_le.mpr h), if_pos h]
  · rw [if_pos (Nat.not_lt.mp h), if_neg h]

lemma ofToken_eq :
    Directive.ofToken t = if t.isTooLong then .error t.tooLong else .ok t.directive := by
  cases hkind : t.kind with
  | note => simp [Directive.ofToken, isTooLong, directive, raw, hkind]
  | tempo =>
      by_cases h : digitLimit < t.digits.length <;>
        simp [Directive.ofToken, number?_eq, isTooLong, tooLong, directive, raw, hkind, h]
  | octave =>
      by_cases h : digitLimit < t.digits.length <;>
        simp [Directive.ofToken, number?_eq, isTooLong, tooLong, directive, raw, hkind, h]

end Token

lemma find?_isTooLong_eq_none {lexemes : List Lexeme} :
    lexemes.find? (·.token.isTooLong) = none ↔ ∀ l ∈ lexemes, l.token.isTooLong = false := by
  simp [List.find?_eq_none]

/-- Lexemes are refused for the first number that cannot be read, if there is one. -/
lemma readLexemes_result (tail : List Char) (lexemes : List Lexeme) :
    (readLexemes tail lexemes).2 =
      match lexemes.find? (·.token.isTooLong) with
      | some l => .error l.token.tooLong
      | none => .ok (lexemes.map (·.token.directive)) := by
  induction lexemes with
  | nil => rfl
  | cons l rest ih =>
      rw [readLexemes, l.token.ofToken_eq, List.find?_cons]
      cases l.token.isTooLong with
      | true => rfl
      | false =>
          dsimp only [Bool.false_eq_true, if_false]
          rw [if_neg Bool.false_ne_true]
          dsimp only
          rw [ih]
          cases rest.find? (·.token.isTooLong) <;> rfl

/-- The gaps of a cut, the one at the end last. -/
def gapsOf (lexemes : List Lexeme) (tail : List Char) : List (List Char) :=
  lexemes.map (·.gap) ++ [tail]

/-- What is left of gaps without the blanks at their ends, where anything is. -/
def skippedTexts (gaps : List (List Char)) : List (List Char) :=
  (gaps.map stripBlanks).filter fun skipped => !skipped.isEmpty

lemma gapWarnings_eq (gap : List Char) :
    gapWarnings gap = (skippedTexts [gap]).map fun g => .skippedText (String.ofList g) := by
  rw [gapWarnings, skippedTexts, List.map_singleton, List.filter_cons]
  cases (stripBlanks gap).isEmpty <;> rfl

/-- Lexemes whose numbers can be read give a warning for each gap with anything in it. -/
lemma readLexemes_warnings {lexemes : List Lexeme}
    (h : ∀ l ∈ lexemes, l.token.isTooLong = false) (tail : List Char) :
    (readLexemes tail lexemes).1 =
      (skippedTexts (gapsOf lexemes tail)).map fun g => .skippedText (String.ofList g) := by
  induction lexemes with
  | nil => exact gapWarnings_eq tail
  | cons l rest ih =>
      obtain ⟨hl, hrest⟩ := List.forall_mem_cons.mp h
      have happend : skippedTexts (gapsOf (l :: rest) tail) =
          skippedTexts [l.gap] ++ skippedTexts (gapsOf rest tail) := by
        rw [skippedTexts, skippedTexts, skippedTexts, ← List.filter_append, ← List.map_append]
        rfl
      rw [readLexemes, l.token.ofToken_eq, hl, if_neg Bool.false_ne_true, happend, List.map_append,
        ← gapWarnings_eq, ← ih hrest]

/-- **Lexemes whose numbers can be read are read**, with a warning for each gap with anything in
it. -/
lemma readLexemes_readable {lexemes : List Lexeme}
    (h : ∀ l ∈ lexemes, l.token.isTooLong = false) (tail : List Char) :
    readLexemes tail lexemes =
      ((skippedTexts (gapsOf lexemes tail)).map fun g => .skippedText (String.ofList g),
        .ok (lexemes.map (·.token.directive))) := by
  have hresult := readLexemes_result tail lexemes
  rw [find?_isTooLong_eq_none.mpr h] at hresult
  exact Prod.ext (readLexemes_warnings h tail) hresult

lemma tokenize_of_scan {text : String} {lexemes : List Lexeme} {tail : List Char}
    (h : Lexeme.scan [] text.toList = (lexemes, tail)) :
    tokenize text =
      if lexemes = [] then ([], .error ⟨.noTokens text, ""⟩) else readLexemes tail lexemes := by
  rw [tokenize, h]
  cases lexemes <;> rfl

/-- **The tokens of a cut are read**, if their numbers can be. -/
lemma Cuts.tokenize_eq {lexemes : List Lexeme} {tail : List Char} (h : Cuts lexemes tail)
    (hne : lexemes ≠ []) (hreadable : ∀ l ∈ lexemes, l.token.isTooLong = false) :
    tokenize (String.ofList (Lexeme.joined lexemes tail)) =
      ((skippedTexts (gapsOf lexemes tail)).map fun g => .skippedText (String.ofList g),
        .ok (lexemes.map (·.token.directive))) := by
  rw [tokenize_of_scan h.scan_ofList, if_neg hne]
  exact readLexemes_readable hreadable tail

/-! ## Tokens of a text -/

/-- The scanned cut of a text. -/
lemma exists_cuts (text : List Char) :
    ∃ lexemes tail, Cuts lexemes tail ∧ Lexeme.joined lexemes tail = text := by
  obtain ⟨hjoined, hcuts⟩ := cuts_scan [] text (isGap_nil text)
  exact ⟨_, _, hcuts, hjoined⟩

/-- A cut has no tokens exactly if none is written in the text. -/
lemma Cuts.eq_nil_iff {lexemes : List Lexeme} {tail : List Char} (h : Cuts lexemes tail) :
    lexemes = [] ↔ ¬∃ t : Token, t.IsWritten ∧ t.text <:+: Lexeme.joined lexemes tail := by
  constructor
  · rintro rfl ⟨t, ht, hinfix⟩
    cases h with
    | tail gap =>
        obtain ⟨before, after, hsplit⟩ := hinfix
        rw [Lexeme.joined] at hsplit
        have hpos := List.length_pos_iff.mpr ht.ne_nil
        refine gap before.length ?_ ⟨t, ht, after, ?_⟩
        · rw [← hsplit, List.length_append, List.length_append]
          omega
        · rw [List.append_nil, ← hsplit, List.append_assoc, List.drop_left]
  · intro hnone
    cases h with
    | tail gap => rfl
    | @token l rest tail gap longest more =>
        exact absurd ⟨l.token, longest.written, l.gap, Lexeme.joined rest tail,
          List.append_assoc _ _ _⟩ hnone

/-- A refusal for a number with too many digits is none for a text without tokens. -/
lemma Token.tooLong_kind (t : Token) : t.tooLong.kind ≠ .text := by
  rw [tooLong]
  split <;> exact ErrorKind.noConfusion

/-- **The scan is leftmost and longest, and loses nothing silently.**  A text is refused for having
no tokens exactly if no part of it is a token.  Any other text is in exactly one way tokens with
gaps around them, such that no token starts inside a gap and every token is the longest one where
it stands; and unless the number of a tempo or an octave has too many digits, what is read are
those tokens in order, in upper case and each with the number its digits spell, and what is
warned of are the gaps, without the blanks at their ends, in which anything is left. -/
theorem tokenize_leftmost_longest (text : String) :
    ((∃ e, (tokenize text).2 = .error e ∧ e.kind = .text) ↔
      ¬∃ t : Token, t.IsWritten ∧ t.text <:+: text.toList) ∧
    ((∃ t : Token, t.IsWritten ∧ t.text <:+: text.toList) →
      ∃ lexemes tail,
        (lexemes ≠ [] ∧ Lexeme.joined lexemes tail = text.toList ∧ Cuts lexemes tail) ∧
        (∀ lexemes' tail', Lexeme.joined lexemes' tail' = text.toList → Cuts lexemes' tail' →
          lexemes' = lexemes ∧ tail' = tail) ∧
        ((∀ l ∈ lexemes, l.token.isTooLong = false) →
          tokenize text =
            ((skippedTexts (gapsOf lexemes tail)).map fun g => .skippedText (String.ofList g),
              .ok (lexemes.map (·.token.directive))))) := by
  obtain ⟨lexemes, tail, hcuts, hjoined⟩ := exists_cuts text.toList
  have hscan := scan_joined hcuts
  rw [hjoined] at hscan
  have htokenize := tokenize_of_scan hscan
  have hnil := hcuts.eq_nil_iff
  rw [hjoined] at hnil
  refine ⟨?_, fun hwritten => ⟨lexemes, tail, ⟨?_, hjoined, hcuts⟩, ?_, fun hreadable => ?_⟩⟩
  · rw [← hnil, htokenize]
    constructor
    · rintro ⟨e, he, hkind⟩
      by_contra hne
      rw [if_neg hne, readLexemes_result] at he
      split at he
      · obtain rfl := Except.error.inj he
        exact Token.tooLong_kind _ hkind
      · cases he
    · intro hempty
      exact ⟨_, by rw [if_pos hempty], rfl⟩
  · exact fun hempty => hnil.mp hempty hwritten
  · intro lexemes' tail' hjoined' hcuts'
    have hscan' := scan_joined hcuts'
    rw [hjoined', hscan] at hscan'
    obtain ⟨rfl, rfl⟩ := Prod.mk.inj hscan'
    exact ⟨rfl, rfl⟩
  · rw [htokenize, if_neg fun hempty => hnil.mp hempty hwritten]
    exact readLexemes_readable hreadable tail

/-! ## Tokens written one after another -/

/-- A gap of blanks. -/
def IsBlankGap (gap : List Char) : Prop := ∀ c ∈ gap, isBlank c = true

instance (gap : List Char) : Decidable (IsBlankGap gap) := List.decidableBAll _ gap

/-- The code points of the blanks outside ASCII. -/
def wideBlanks : List Nat :=
  [0x85, 0xA0, 0x1680, 0x2000, 0x2001, 0x2002, 0x2003, 0x2004, 0x2005, 0x2006, 0x2007, 0x2008,
    0x2009, 0x200A, 0x2028, 0x2029, 0x202F, 0x205F, 0x3000]

lemma isBlank_cases {c : Char} (h : isBlank c = true) :
    c.toNat ≤ 32 ∨ 128 ≤ c.toNat ∧ c.toNat ∈ wideBlanks := by
  simp only [isBlank, Bool.or_eq_true, Bool.and_eq_true, decide_eq_true_eq, beq_iff_eq] at h
  simp only [wideBlanks, List.mem_cons, List.not_mem_nil, or_false]
  omega

/-- No blank is a digit of any script. -/
lemma isDecimalDigit_of_isBlank {c : Char} (h : isBlank c = true) : isDecimalDigit c = false := by
  rw [Bool.eq_false_iff]
  intro hdigit
  rcases isBlank_cases h with hlow | ⟨hwide, hmem⟩
  · have := digit_range hdigit
    omega
  · have happart : (wideBlanks.all fun n =>
        digitZeros.all fun start => n < start || start + 10 ≤ n) = true := by
      decide
    rw [isDecimalDigit, digitValue?, if_neg (Nat.not_lt.mpr hwide), Option.isSome_map,
      List.find?_isSome] at hdigit
    obtain ⟨start, hstart, hrange⟩ := hdigit
    have hout := List.all_eq_true.mp (List.all_eq_true.mp happart _ hmem) start hstart
    simp only [Bool.and_eq_true, Bool.or_eq_true, decide_eq_true_eq] at hrange hout
    omega

lemma continuesToken_of_isBlank {c : Char} (h : isBlank c = true) : continuesToken c = false := by
  have hne {d : Char} (hd : isBlank d = false) : (c == d) = false := by
    rw [beq_eq_false_iff_ne]
    rintro rfl
    rw [h] at hd
    cases hd
  rw [continuesToken, isDecimalDigit_of_isBlank h, hne (d := '.') (by decide),
    hne (d := '&') (by decide)]
  rfl

/-- A letter of ASCII. -/
def IsLetter (c : Char) : Prop := (65 ≤ c.toNat ∧ c.toNat ≤ 90) ∨ (97 ≤ c.toNat ∧ c.toNat ≤ 122)

lemma IsLetter.range {c : Char} (h : IsLetter c) : 65 ≤ c.toNat ∧ c.toNat ≤ 122 := by
  rcases h with h | h <;> omega

lemma continuesToken_of_isLetter {c : Char} (h : IsLetter c) : continuesToken c = false := by
  have hne {d : Char} (hd : d.toNat < 65) : (c == d) = false := by
    rw [beq_eq_false_iff_ne]
    rintro rfl
    rcases h with h | h <;> omega
  have hdigit : isDecimalDigit c = false := by
    rw [Bool.eq_false_iff]
    intro hdigit
    have := digit_range hdigit
    rcases h with h | h <;> omega
  rw [continuesToken, hdigit, hne (d := '.') (by decide), hne (d := '&') (by decide)]
  rfl

/-- A token begins with a letter. -/
lemma StartsToken.exists_letter {text : List Char} (h : StartsToken text) :
    ∃ c, text.head? = some c ∧ IsLetter c := by
  obtain ⟨t, ht, rest, rfl⟩ := h
  obtain ⟨d, w, hcons⟩ := List.exists_cons_of_ne_nil ht.ne_nil
  obtain ⟨c, hc, hrange, -⟩ := TokenKind.exists_letter_of_writes ht
  rw [hcons] at hc ⊢
  obtain rfl := Option.some.inj hc
  refine ⟨d, rfl, ?_⟩
  rcases toUpper_cases d with hsame | ⟨hlow, hhigh, -⟩
  · rw [hsame] at hrange
    exact .inl hrange
  · exact .inr ⟨hlow, hhigh⟩

lemma IsBlankGap.isGap {gap : List Char} (h : IsBlankGap gap) (rest : List Char) :
    IsGap gap rest := by
  intro k hk hstart
  obtain ⟨c, hc, hletter⟩ := hstart.exists_letter
  rw [List.head?_drop, List.getElem?_append_left hk] at hc
  have hrange := hletter.range
  rcases isBlank_cases (h c (List.mem_of_getElem? hc)) with hlow | ⟨hwide, -⟩ <;> omega

lemma ContinuesNone.blank_append {gap rest : List Char} (hgap : IsBlankGap gap)
    (hrest : ContinuesNone rest) : ContinuesNone (gap ++ rest) := by
  cases gap with
  | nil => exact hrest
  | cons c gap =>
      rintro d ⟨⟩
      exact continuesToken_of_isBlank (hgap c List.mem_cons_self)

/-- Nothing in what begins with blanks or a token lengthens the token before it. -/
lemma continuesNone_joined {lexemes : List Lexeme} {tail : List Char}
    (hgaps : ∀ gap ∈ gapsOf lexemes tail, IsBlankGap gap)
    (hwritten : ∀ l ∈ lexemes, l.token.IsWritten) : ContinuesNone (Lexeme.joined lexemes tail) := by
  cases lexemes with
  | nil =>
      have htail : IsBlankGap tail := hgaps tail List.mem_cons_self
      have hnil : ContinuesNone [] := fun c hc => by cases hc
      rw [Lexeme.joined, ← List.append_nil tail]
      exact hnil.blank_append htail
  | cons l rest =>
      refine ContinuesNone.blank_append (hgaps l.gap List.mem_cons_self) fun c hc => ?_
      have hstart : StartsToken (l.token.text ++ Lexeme.joined rest tail) :=
        ⟨l.token, hwritten l List.mem_cons_self, List.prefix_append _ _⟩
      obtain ⟨d, hd, hletter⟩ := hstart.exists_letter
      obtain rfl : d = c := Option.some.inj (hd.symm.trans hc)
      exact continuesToken_of_isLetter hletter

/-- **Tokens with blanks between them are cut where they are joined.** -/
lemma cuts_of_blank {lexemes : List Lexeme} {tail : List Char}
    (hgaps : ∀ gap ∈ gapsOf lexemes tail, IsBlankGap gap)
    (hwritten : ∀ l ∈ lexemes, l.token.IsWritten) : Cuts lexemes tail := by
  induction lexemes with
  | nil => exact .tail ((hgaps tail List.mem_cons_self).isGap [])
  | cons l rest ih =>
      have hgaps' : ∀ gap ∈ gapsOf rest tail, IsBlankGap gap :=
        fun gap hgap => hgaps gap (List.mem_cons_of_mem _ hgap)
      obtain ⟨hl, hrest⟩ := List.forall_mem_cons.mp hwritten
      exact .token ((hgaps l.gap List.mem_cons_self).isGap _)
        (hl.isLongestAt (continuesNone_joined hgaps' hrest)) (ih hgaps' hrest)

lemma skippedTexts_blank {gaps : List (List Char)} (h : ∀ gap ∈ gaps, IsBlankGap gap) :
    skippedTexts gaps = [] := by
  rw [skippedTexts, List.filter_eq_nil_iff]
  intro skipped hskipped
  obtain ⟨gap, hgap, rfl⟩ := List.mem_map.mp hskipped
  have hdrop : gap.dropWhile isBlank = [] := by
    rw [← List.append_nil gap, List.dropWhile_append_of_pos (h gap hgap), List.dropWhile_nil]
  rw [stripBlanks, hdrop]
  decide

/-! ### Letter case -/

lemma toUpper_toUpper (c : Char) : c.toUpper.toUpper = c.toUpper := by
  rcases toUpper_cases c with hsame | ⟨hlow, hhigh, hshift⟩
  · rw [hsame, hsame]
  · exact (toUpper_cases c.toUpper).resolve_right fun hlower => by omega

lemma upperText_upperText (text : List Char) : upperText (upperText text) = upperText text := by
  rw [upperText, upperText, List.map_map]
  exact List.map_congr_left fun c _ => toUpper_toUpper c

/-- The token with its letters in upper case. -/
def Token.upper (t : Token) : Token := ⟨t.kind, upperText t.text⟩

namespace Token

variable {t : Token}

lemma isWritten_upper : t.upper.IsWritten ↔ t.IsWritten := by
  rw [IsWritten, IsWritten, upper, upperText_upperText]

lemma raw_upper : t.upper.raw = t.raw := by rw [raw, raw, upper, upperText_upperText]

lemma isTooLong_upper : t.upper.isTooLong = t.isTooLong := by
  simp [isTooLong, digits, upper, upperText]

/-- Letter case changes nothing in what a token asks for. -/
lemma directive_upper (h : t.IsWritten) : t.upper.directive = t.directive := by
  have hdigits {letter : Char} (hnumbered : IsNumbered letter (upperText t.text)) :
      t.upper.digits = t.digits := by
    obtain ⟨digits, -, hdigits, htext⟩ := hnumbered
    obtain ⟨c, w, hcons, -, hw⟩ := List.map_eq_cons_iff.mp htext
    have hsame := eq_of_upperText_digits hdigits hw
    rw [Token.digits, Token.digits, upper, htext, hcons, hsame]
    rfl
  have hkind : t.upper.kind = t.kind := rfl
  rw [directive, directive, raw_upper, hkind]
  rw [IsWritten] at h
  cases hkind : t.kind with
  | tempo => rw [hdigits (by rwa [hkind] at h)]
  | octave => rw [hdigits (by rwa [hkind] at h)]
  | note => rfl

end Token

/-- The directives of written tokens can be told from their upper case. -/
lemma directives_upper {lexemes : List Lexeme} (hwritten : ∀ l ∈ lexemes, l.token.IsWritten) :
    lexemes.map (·.token.directive) = (lexemes.map (·.token.upper)).map Token.directive := by
  rw [List.map_map]
  exact List.map_congr_left fun l hl => (Token.directive_upper (hwritten l hl)).symm

lemma tokenize_of_blank {lexemes : List Lexeme} {tail : List Char} (hne : lexemes ≠ [])
    (hgaps : ∀ gap ∈ gapsOf lexemes tail, IsBlankGap gap)
    (hwritten : ∀ l ∈ lexemes, l.token.IsWritten)
    (hreadable : ∀ l ∈ lexemes, l.token.isTooLong = false) :
    tokenize (String.ofList (Lexeme.joined lexemes tail)) =
      ([], .ok (lexemes.map (·.token.directive))) := by
  rw [(cuts_of_blank hgaps hwritten).tokenize_eq hne hreadable, skippedTexts_blank hgaps]
  rfl

/-- **Tokens that are written one after another are read back**, in order, in upper case and
without a warning, whatever blanks stand before, between and after them.  Neither the blanks nor
the letter case matter: tokens that are the same in upper case give the same. -/
theorem tokenize_joined {lexemes : List Lexeme} {tail : List Char} (hne : lexemes ≠ [])
    (hgaps : ∀ gap ∈ gapsOf lexemes tail, IsBlankGap gap)
    (hwritten : ∀ l ∈ lexemes, l.token.IsWritten)
    (hreadable : ∀ l ∈ lexemes, l.token.isTooLong = false) :
    tokenize (String.ofList (Lexeme.joined lexemes tail)) =
      ([], .ok (lexemes.map (·.token.directive))) ∧
    ∀ lexemes' tail', (∀ gap ∈ gapsOf lexemes' tail', IsBlankGap gap) →
      lexemes'.map (·.token.upper) = lexemes.map (·.token.upper) →
      tokenize (String.ofList (Lexeme.joined lexemes' tail')) =
        tokenize (String.ofList (Lexeme.joined lexemes tail)) := by
  refine ⟨tokenize_of_blank hne hgaps hwritten hreadable, fun lexemes' tail' hgaps' hupper => ?_⟩
  have hsame {l' : Lexeme} (hl' : l' ∈ lexemes') :
      ∃ l ∈ lexemes, l.token.upper = l'.token.upper :=
    List.mem_map.mp (hupper ▸ List.mem_map_of_mem hl')
  have hwritten' : ∀ l' ∈ lexemes', l'.token.IsWritten := by
    intro l' hl'
    obtain ⟨l, hl, heq⟩ := hsame hl'
    rw [← Token.isWritten_upper, ← heq, Token.isWritten_upper]
    exact hwritten l hl
  have hreadable' : ∀ l' ∈ lexemes', l'.token.isTooLong = false := by
    intro l' hl'
    obtain ⟨l, hl, heq⟩ := hsame hl'
    rw [← Token.isTooLong_upper, ← heq, Token.isTooLong_upper]
    exact hreadable l hl
  have hne' : lexemes' ≠ [] := by
    rintro rfl
    exact hne (List.map_eq_nil_iff.mp hupper.symm)
  rw [tokenize_of_blank hne hgaps hwritten hreadable,
    tokenize_of_blank hne' hgaps' hwritten' hreadable', directives_upper hwritten,
    directives_upper hwritten', hupper]

/-- A tempo, an octave and a tied note run together after blanks, in mixed case. -/
theorem tempo_octave_note_joined :
    tokenize " t120O4c4.&D8\n" =
      ([], .ok [.tempo (.whole 120) "T120", .octave (.whole 4) "O4", .note "C4.&D8"]) := by
  have htempo : Token.IsWritten ⟨.tempo, ['t', '1', '2', '0']⟩ :=
    ⟨['1', '2', '0'], by decide, List.all_eq_true.mp (by decide), rfl⟩
  have hoctave : Token.IsWritten ⟨.octave, ['O', '4']⟩ :=
    ⟨['4'], by decide, List.all_eq_true.mp (by decide), rfl⟩
  have hnote : Token.IsWritten ⟨.note, ['c', '4', '.', '&', 'D', '8']⟩ :=
    ⟨⟨⟨[⟨some .c, none⟩], ['4'], true, by decide, by decide, List.all_eq_true.mp (by decide)⟩,
      [⟨[⟨some .d, none⟩], ['8'], false, by decide, by decide,
        List.all_eq_true.mp (by decide)⟩]⟩, rfl⟩
  exact (@tokenize_joined
    [⟨[' '], ⟨.tempo, ['t', '1', '2', '0']⟩⟩, ⟨[], ⟨.octave, ['O', '4']⟩⟩,
      ⟨[], ⟨.note, ['c', '4', '.', '&', 'D', '8']⟩⟩] ['\n'] (by decide) (by decide)
    (by simpa using ⟨htempo, hoctave, hnote⟩) (by decide)).1

end MusicMacro
