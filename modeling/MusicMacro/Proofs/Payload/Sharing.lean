import MusicMacro.Proofs.Notation.TokenDigits
import MusicMacro.Proofs.Payload.Reimport

/-!
# Shared notation

A text that is sent as a payload and read again has the references that it spells replaced by their
characters (`readBack`).  A reference is part of no token, and of the characters that can replace it
only the digits of other scripts mean anything in notation.  So the music changes only where such a
digit is spelt that ends a token with what stands before it (`SpellsTokenDigit`), as `T12` and the
reference to a zero do.

Unless that happens the tokens of the text are those of what is read back (`tokensOf_readBack`): a
token in what is read back stood in the text as it is, for otherwise the first character that was
put into it would have ended a token, which may end behind each of its digits.  If it does happen,
the tokens have more digits than before (`tokenDigits_lt_readBack`).  Both together tell exactly
which texts keep their directives (`tokenize_readBack`), and with the directives they keep the music
(`sharing_keeps_music`).
-/

namespace MusicMacro

/-! ## Reading back -/

/-- What is read from the payload of a text. -/
def readBack (text : List Char) : List Char := unescapeText (escapeText text)

lemma readBack_nil : readBack [] = [] := by
  rw [readBack, escapeText, List.flatMap_nil, unescapeText]

lemma readBack_literal {c : Char} {rest : List Char} (h : ¬StartsReference (c :: rest)) :
    readBack (c :: rest) = c :: readBack rest :=
  unescapeText_escapeText_cons h

lemma readBack_reference {digits : List Char} (h : IsReferenceCode digits) (after : List Char) :
    readBack ('&' :: '#' :: digits ++ ';' :: after) =
      charOfCode (digitsValue digits) :: readBack after :=
  h.unescapeText_escapeText after

/-- A text is literal characters and references. -/
@[elab_as_elim]
theorem reference_induction {motive : List Char → Prop} (nil : motive [])
    (literal : ∀ c rest, ¬StartsReference (c :: rest) → motive rest → motive (c :: rest))
    (reference : ∀ digits after, IsReferenceCode digits → motive after →
      motive ('&' :: '#' :: digits ++ ';' :: after)) (text : List Char) : motive text := by
  induction hn : text.length using Nat.strongRecOn generalizing text with
  | ind n ih =>
      subst hn
      by_cases hstart : StartsReference text
      · obtain ⟨digits, after, hcode, rfl⟩ := hstart
        exact reference digits after hcode (ih after.length (by simp; omega) after rfl)
      · cases text with
        | nil => exact nil
        | cons c rest => exact literal c rest hstart (ih rest.length (by simp) rest rfl)

/-- What stands in front of what is read back stood in the text, up to the first character that a
reference was replaced by. -/
lemma prefix_readBack {text w : List Char} (h : w <+: readBack text) :
    w <+: text ∨ ∃ front digits after, IsReferenceCode digits ∧
      text = front ++ ('&' :: '#' :: digits ++ ';' :: after) ∧
      front ++ [charOfCode (digitsValue digits)] <+: w := by
  induction text using reference_induction generalizing w with
  | nil =>
      rw [readBack_nil] at h
      exact .inl h
  | literal c rest hstart ih =>
      rw [readBack_literal hstart] at h
      rcases List.prefix_cons_iff.mp h with rfl | ⟨w, rfl, hw⟩
      · exact .inl List.nil_prefix
      · rcases ih hw with hrest | ⟨front, digits, after, hcode, rfl, hfront⟩
        · exact .inl ((List.prefix_cons_inj c).mpr hrest)
        · exact .inr ⟨c :: front, digits, after, hcode, rfl, (List.prefix_cons_inj c).mpr hfront⟩
  | reference digits after hcode ih =>
      rw [readBack_reference hcode] at h
      rcases List.prefix_cons_iff.mp h with rfl | ⟨w, rfl, -⟩
      · exact .inl List.nil_prefix
      · exact .inr ⟨[], digits, after, hcode, rfl, by simp⟩

/-- No reference stands in a token, and none begins there. -/
lemma readBack_token {t : Token} (ht : t.IsWritten) (rest : List Char) :
    readBack (t.text ++ rest) = t.text ++ readBack rest := by
  have hgo (w v : List Char) (htext : t.text = w ++ v) :
      readBack (v ++ rest) = v ++ readBack rest := by
    induction v generalizing w with
    | nil => rfl
    | cons c v ih =>
        have hstart : ¬StartsReference (c :: (v ++ rest)) := by
          rintro ⟨digits, after, -, href⟩
          obtain ⟨rfl, hv⟩ := List.cons.inj href
          obtain ⟨d, v', rfl, hd⟩ := ht.letter_of_tie htext
          rw [(List.cons.inj hv).1] at hd
          cases hd
        rw [List.cons_append, readBack_literal hstart, ih (w ++ [c]) (by simpa using htext)]
        rfl
  exact hgo [] t.text rfl

/-! ## Digits spelt by references -/

/-- A reference stands in the text where its character ends a token with what stands before it. -/
def SpellsTokenDigit (text : List Char) : Prop :=
  ∃ before digits after, IsReferenceCode digits ∧
    text = before ++ ('&' :: '#' :: digits ++ ';' :: after) ∧
    EndsToken (before ++ [charOfCode (digitsValue digits)])

lemma SpellsTokenDigit.append {text : List Char} (h : SpellsTokenDigit text) (front : List Char) :
    SpellsTokenDigit (front ++ text) := by
  obtain ⟨before, digits, after, hcode, rfl, hends⟩ := h
  refine ⟨front ++ before, digits, after, hcode, by rw [List.append_assoc], ?_⟩
  rw [List.append_assoc]
  exact hends.mono (List.suffix_append _ _)

/-- A character beyond the first 256 is a digit where it stands in a token. -/
lemma Token.IsWritten.isDecimalDigit_of_lt {t : Token} (ht : t.IsWritten) {c : Char}
    (hc : c ∈ t.text) (hbeyond : 0xFF < c.toNat) : isDecimalDigit c = true := by
  rcases ht.mem_cases hc with hdigit | ⟨hlow, -⟩
  · exact hdigit
  · omega

lemma EndsToken.isDecimalDigit_of_lt {before : List Char} {c : Char}
    (h : EndsToken (before ++ [c])) (hbeyond : 0xFF < c.toNat) : isDecimalDigit c = true := by
  obtain ⟨t, ht, hsuffix⟩ := h
  rcases List.suffix_concat_iff.mp hsuffix with hnil | ⟨u, htext, -⟩
  · exact absurd hnil ht.ne_nil
  · exact ht.isDecimalDigit_of_lt (by rw [htext]; simp) hbeyond

/-- A token in front of what is read back stood in front of the text. -/
lemma prefix_of_readBack {text : List Char} (hspells : ¬SpellsTokenDigit text) {t : Token}
    (ht : t.IsWritten) (hhead : t.text <+: readBack text) : t.text <+: text := by
  rcases prefix_readBack hhead with hsame | ⟨front, digits, after, hcode, rfl, v, hv⟩
  · exact hsame
  · rw [List.append_assoc, List.singleton_append] at hv
    have hbeyond := lt_toNat_charOfCode hcode.beyond hcode.within
    have hdigit := ht.isDecimalDigit_of_lt (by rw [← hv]; simp) hbeyond
    exact absurd ⟨front, digits, after, hcode, rfl, _, ht.upToDigit hv.symm hdigit,
      List.suffix_refl _⟩ hspells

lemma startsToken_readBack {text : List Char} (hspells : ¬SpellsTokenDigit text) :
    StartsToken (readBack text) ↔ StartsToken text := by
  constructor
  · rintro ⟨t, ht, hhead⟩
    exact ⟨t, ht, prefix_of_readBack hspells ht hhead⟩
  · rintro ⟨t, ht, rest, rfl⟩
    exact ⟨t, ht, readBack rest, (readBack_token ht rest).symm⟩

lemma isLongestAt_readBack {t : Token} {rest : List Char}
    (hspells : ¬SpellsTokenDigit (t.text ++ rest)) (h : t.IsLongestAt (t.text ++ rest)) :
    t.IsLongestAt (t.text ++ readBack rest) := by
  refine ⟨h.written, List.prefix_append _ _, fun t' ht' hhead => ?_⟩
  rw [← readBack_token h.written] at hhead
  exact h.longest t' ht' (prefix_of_readBack hspells ht' hhead)

/-- A reference has no tokens, and neither has the character that it is replaced by. -/
lemma tokensOf_reference {digits : List Char} (h : IsReferenceCode digits) (after : List Char) :
    tokensOf ('&' :: '#' :: digits ++ ';' :: after) = tokensOf after := by
  have hno : ∀ c ∈ '&' :: '#' :: digits ++ [';'], ¬IsLetter c := by
    intro c hc hletter
    have hlow := h.toNat_lt c hc
    have hrange := hletter.range
    omega
  simpa using tokensOf_append hno after

lemma tokensOf_charOfCode {digits : List Char} (h : IsReferenceCode digits) (rest : List Char) :
    tokensOf (charOfCode (digitsValue digits) :: rest) = tokensOf rest := by
  have hbeyond := lt_toNat_charOfCode h.beyond h.within
  have hno : ∀ c ∈ [charOfCode (digitsValue digits)], ¬IsLetter c := by
    intro c hc hletter
    have hrange := hletter.range
    rw [List.mem_singleton.mp hc] at hrange
    omega
  exact tokensOf_append hno rest

/-- **Unless a digit of a token is spelt by a reference, the tokens are those of the text.** -/
lemma tokensOf_readBack {text : List Char} (hspells : ¬SpellsTokenDigit text) :
    tokensOf (readBack text) = tokensOf text := by
  -- a token takes many characters at once, and so does a reference
  induction hn : text.length using Nat.strongRecOn generalizing text with
  | ind n ih =>
      subst hn
      by_cases hstart : StartsToken text
      · obtain ⟨t, rest, rfl, hlongest⟩ := exists_isLongestAt hstart
        have hpos := List.length_pos_iff.mpr hlongest.written.ne_nil
        rw [readBack_token hlongest.written, tokensOf_token hlongest,
          tokensOf_token (isLongestAt_readBack hspells hlongest),
          ih rest.length (by rw [List.length_append]; omega) (fun h => hspells (h.append _)) rfl]
      by_cases href : StartsReference text
      · obtain ⟨digits, after, hcode, rfl⟩ := href
        have hafter : ¬SpellsTokenDigit after := fun h =>
          hspells (by simpa using h.append ('&' :: '#' :: digits ++ [';']))
        rw [readBack_reference hcode, tokensOf_charOfCode hcode, tokensOf_reference hcode,
          ih after.length (by simp; omega) hafter rfl]
      · cases text with
        | nil => rw [readBack_nil]
        | cons c rest =>
            have hread := (startsToken_readBack hspells).not.mpr hstart
            rw [readBack_literal href] at hread ⊢
            rw [tokensOf_skip hread, tokensOf_skip hstart,
              ih rest.length (by simp) (fun h => hspells (h.append [c])) rfl]

/-! ## Digits that are put into tokens -/

/-- What a token begins with before a place of the text stands before that place of what is read
back, too. -/
def Carries (before read : List Char) : Prop :=
  ∀ (t : Token) (u v : List Char), t.IsWritten → t.text = u ++ v → u <:+ before → u <:+ read

lemma Carries.literal {before read : List Char} (h : Carries before read) (c : Char) :
    Carries (before ++ [c]) (read ++ [c]) := by
  intro t u v ht htext hsuffix
  rcases List.suffix_concat_iff.mp hsuffix with rfl | ⟨u, rfl, hbefore⟩
  · exact List.nil_suffix
  · have hread := h t u (c :: v) ht (by simpa using htext) hbefore
    exact List.suffix_concat_iff.mpr (.inr ⟨u, rfl, hread⟩)

/-- Nothing begins in a reference or goes on beyond it. -/
lemma carries_reference (digits before read : List Char) :
    Carries (before ++ ('&' :: '#' :: digits ++ [';'])) read := by
  intro t u v ht htext hsuffix
  rw [← List.append_assoc] at hsuffix
  rcases List.suffix_concat_iff.mp hsuffix with rfl | ⟨u, rfl, -⟩
  · exact List.nil_suffix
  · have hmem : ';' ∈ t.text := by rw [htext]; simp
    rcases ht.mem_cases hmem with hdigit | ⟨-, hne⟩
    · cases hdigit
    · exact absurd rfl hne

lemma Carries.endsToken {before read : List Char} (h : Carries before read) {c : Char}
    (hends : EndsToken (before ++ [c])) : EndsToken (read ++ [c]) := by
  obtain ⟨t, ht, hsuffix⟩ := hends
  refine ⟨t, ht, ?_⟩
  rcases List.suffix_concat_iff.mp hsuffix with hnil | ⟨u, htext, hbefore⟩
  · rw [hnil]
    exact List.nil_suffix
  · exact List.suffix_concat_iff.mpr (.inr ⟨u, htext, h t u [c] ht htext hbefore⟩)

/-- No token ends in a reference. -/
lemma not_endsToken_reference {before w : List Char} (h : ∀ c ∈ w, c.toNat < 65) :
    ¬EndsToken (before ++ '&' :: '#' :: w) := by
  rintro ⟨t, ht, a, ha⟩
  rcases List.append_eq_append_iff.mp ha with ⟨v, -, htext⟩ | ⟨v, -, hinside⟩
  · obtain ⟨c, rest, hcons, hc⟩ := ht.letter_of_tie htext
    rw [← (List.cons.inj hcons).1] at hc
    cases hc
  · obtain ⟨c, hc, hletter⟩ : ∃ c, t.text.head? = some c ∧ IsLetter c :=
      StartsToken.exists_letter ⟨t, ht, List.prefix_refl _⟩
    have hmem : c ∈ '&' :: '#' :: w := by
      rw [hinside]
      exact List.mem_append_right _ (List.mem_of_head? hc)
    have hlow : ∀ c ∈ '&' :: '#' :: w, c.toNat < 65 :=
      List.forall_mem_cons.mpr ⟨by decide, List.forall_mem_cons.mpr ⟨by decide, h⟩⟩
    have hlt := hlow c hmem
    have hrange := hletter.range
    omega

lemma tokenDigits_reference {digits : List Char} (h : IsReferenceCode digits)
    (before after : List Char) :
    tokenDigits before ('&' :: '#' :: digits ++ ';' :: after) =
      tokenDigits (before ++ ('&' :: '#' :: digits ++ [';'])) after := by
  have hnone : ∀ w c v, digits ++ [';'] = w ++ c :: v → isDecimalDigit c = true →
      ¬EndsToken (before ++ ['&'] ++ ['#'] ++ w ++ [c]) := by
    intro w c v hsplit _
    have hlow : ∀ d ∈ w ++ [c], d.toNat < 65 := fun d hd => by
      have hmem : d ∈ digits ++ [';'] := by
        rw [hsplit, List.append_cons]
        exact List.mem_append_left _ hd
      exact h.toNat_lt d (List.mem_cons_of_mem _ (List.mem_cons_of_mem _ hmem))
    simpa using not_endsToken_reference hlow
  have hgap := tokenDigits_append hnone after
  rw [List.cons_append, List.cons_append, tokenDigits, tokenDigit_eq_zero (fun h => by cases h),
    tokenDigits, tokenDigit_eq_zero (fun h => by cases h), Nat.zero_add, Nat.zero_add]
  simpa using hgap

/-- Reading back takes no digit from the tokens. -/
lemma tokenDigits_le_readBack {before read text : List Char} (h : Carries before read) :
    tokenDigits before text ≤ tokenDigits read (readBack text) := by
  induction text using reference_induction generalizing before read with
  | nil =>
      rw [readBack_nil]
      exact Nat.le_refl _
  | literal c rest hstart ih =>
      rw [readBack_literal hstart, tokenDigits, tokenDigits]
      exact Nat.add_le_add (tokenDigit_mono h.endsToken) (ih (h.literal c))
  | reference digits after hcode ih =>
      rw [readBack_reference hcode, tokenDigits_reference hcode, tokenDigits]
      exact Nat.le_trans (ih (carries_reference digits before _)) (Nat.le_add_left _ _)

/-- A reference stands in the text where its character ends a token with what stands before it,
which may begin before the text. -/
def SpellsTokenDigitAfter (before text : List Char) : Prop :=
  ∃ front digits after, IsReferenceCode digits ∧
    text = front ++ ('&' :: '#' :: digits ++ ';' :: after) ∧
    EndsToken (before ++ front ++ [charOfCode (digitsValue digits)])

lemma SpellsTokenDigitAfter.literal {before rest : List Char} {c : Char}
    (h : SpellsTokenDigitAfter before (c :: rest)) (hstart : ¬StartsReference (c :: rest)) :
    SpellsTokenDigitAfter (before ++ [c]) rest := by
  obtain ⟨front, digits, after, hcode, htext, hends⟩ := h
  cases front with
  | nil => exact absurd ⟨digits, after, hcode, htext⟩ hstart
  | cons d front =>
      obtain ⟨rfl, rfl⟩ := List.cons.inj htext
      exact ⟨front, digits, after, hcode, rfl, by simpa using hends⟩

/-- A reference stands where one stands that the text begins with, or behind it. -/
lemma SpellsTokenDigitAfter.reference {before digits after : List Char}
    (h : SpellsTokenDigitAfter before ('&' :: '#' :: digits ++ ';' :: after))
    (hcode : IsReferenceCode digits) :
    EndsToken (before ++ [charOfCode (digitsValue digits)]) ∨
      SpellsTokenDigitAfter (before ++ ('&' :: '#' :: digits ++ [';'])) after := by
  obtain ⟨front, digits', after', hcode', htext, hends⟩ := h
  have hsplit : ('&' :: '#' :: digits ++ [';']) ++ after =
      front ++ '&' :: ('#' :: digits' ++ ';' :: after') := by simpa using htext
  rcases split_append hsplit with ⟨a, hinside, -⟩ | ⟨a, rfl, hafter⟩
  · cases front with
    | nil =>
        have hread := hcode.reference?_eq after
        rw [htext, List.nil_append, hcode'.reference?_eq after'] at hread
        rw [(Prod.mk.inj (Option.some.inj hread)).1, List.append_nil] at hends
        exact .inl hends
    | cons d front =>
        have hmem : '&' ∈ '#' :: digits ++ [';'] := by
          rw [show '#' :: digits ++ [';'] = front ++ '&' :: a from (List.cons.inj hinside).2]
          simp
        exact absurd hmem hcode.ampersand_not_mem
  · exact .inr ⟨a, digits', after', hcode', hafter, by simpa using hends⟩

/-- **Reading back puts a digit into a token if a reference spells one.** -/
lemma tokenDigits_lt_readBack {before read text : List Char} (h : Carries before read)
    (hspells : SpellsTokenDigitAfter before text) :
    tokenDigits before text < tokenDigits read (readBack text) := by
  induction text using reference_induction generalizing before read with
  | nil =>
      obtain ⟨front, digits, after, -, hnil, -⟩ := hspells
      simp at hnil
  | literal c rest hstart ih =>
      rw [readBack_literal hstart, tokenDigits, tokenDigits]
      exact Nat.add_lt_add_of_le_of_lt (tokenDigit_mono h.endsToken)
        (ih (h.literal c) (hspells.literal hstart))
  | reference digits after hcode ih =>
      have hcarries := carries_reference digits before (read ++ [charOfCode (digitsValue digits)])
      rw [readBack_reference hcode, tokenDigits_reference hcode, tokenDigits]
      rcases hspells.reference hcode with hends | hafter
      · have hdigit := hends.isDecimalDigit_of_lt (lt_toNat_charOfCode hcode.beyond hcode.within)
        rw [tokenDigit_eq_one hdigit (h.endsToken hends), Nat.add_comm]
        exact Nat.lt_succ_of_le (tokenDigits_le_readBack hcarries)
      · exact Nat.lt_of_lt_of_le (ih hcarries hafter) (Nat.le_add_left _ _)

/-! ## Music -/

/-- **Reading back keeps the directives exactly if no digit of a token is spelt by a reference.** -/
lemma tokenize_readBack {text read : String} (hread : read.toList = readBack text.toList)
    {directives : List Directive} (h : (tokenize text).2 = .ok directives) :
    (tokenize read).2 = (tokenize text).2 ↔ ¬SpellsTokenDigit text.toList := by
  obtain ⟨hne, rfl⟩ := tokensOf_of_tokenize h
  constructor
  · intro hsame hspells
    rw [h] at hsame
    have hdigits := digits_of_directives (tokensOf_of_tokenize hsame).2
    rw [digits_tokensOf (noneAcross_nil _), digits_tokensOf (noneAcross_nil _), hread] at hdigits
    have hcarries : Carries [] [] := fun _ _ _ _ _ hsuffix => hsuffix
    exact Nat.ne_of_lt (tokenDigits_lt_readBack hcarries hspells) hdigits
  · intro hspells
    have hsame : tokensOf read.toList = tokensOf text.toList := by
      rw [hread, tokensOf_readBack hspells]
    rw [tokenize_result (by rwa [hsame]), tokenize_result hne, hsame]

/-- What a text compiles to is told by its directives. -/
lemma compileText_congr {text text' : String} (h : (tokenize text).2 = (tokenize text').2) :
    (compileText text).2 = (compileText text').2 := by
  rw [compileText, compileText]
  cases htext : tokenize text with
  | mk log result =>
      cases htext' : tokenize text' with
      | mk log' result' =>
          rw [htext, htext'] at h
          obtain rfl : result = result' := h
          cases result <;> rfl

/-- **Sharing keeps the music, unless a digit of a token is spelt by a reference.**  The payload of
a text that compiles can be read.  What is read compiles to the same events, whatever references
the text spells, unless one of them stands where its character ends a tempo, an octave or a note
together with what stands before it.  And exactly then what is read has other directives. -/
theorem sharing_keeps_music {text : String} {events : List Event}
    (h : (compileText text).2 = .ok events) :
    ∃ read, importText (exportText text) = .ok read ∧
      (¬SpellsTokenDigit text.toList → (compileText read).2 = .ok events) ∧
      ((tokenize read).2 = (tokenize text).2 ↔ ¬SpellsTokenDigit text.toList) := by
  obtain ⟨_, hdirectives, -⟩ := exists_instructions_of_compileText h
  have hiff := tokenize_readBack (String.toList_ofList (l := readBack text.toList)) hdirectives
  refine ⟨_, importText_exportText text, fun hspells => ?_, hiff⟩
  rw [← h]
  exact compileText_congr (hiff.mpr hspells)

/-- A sign between notes and a digit behind a point, both spelt by references. -/
theorem shared_signs_keep_music :
    importText (exportText "T60 O4 C4 &#9834; D4.&#1632;") = .ok "T60 O4 C4 ♪ D4.٠" ∧
      ¬SpellsTokenDigit "T60 O4 C4 &#9834; D4.&#1632;".toList ∧
      ∃ events, (compileText "T60 O4 C4 &#9834; D4.&#1632;").2 = .ok events ∧
        (compileText "T60 O4 C4 ♪ D4.٠").2 = .ok events := by
  have himport : importText (exportText "T60 O4 C4 &#9834; D4.&#1632;") =
      .ok "T60 O4 C4 ♪ D4.٠" := by
    decide +kernel
  have hsame : (tokenize "T60 O4 C4 ♪ D4.٠").2 = (tokenize "T60 O4 C4 &#9834; D4.&#1632;").2 := by
    decide +kernel
  have hevents := eq_ok_of_isOk (x := (compileText "T60 O4 C4 &#9834; D4.&#1632;").2)
    (by decide +kernel) []
  obtain ⟨read, hread, hkeeps, hiff⟩ := sharing_keeps_music hevents
  obtain rfl := Except.ok.inj (hread.symm.trans himport)
  exact ⟨himport, hiff.mp hsame, _, hevents, hkeeps (hiff.mp hsame)⟩

/-- A whole note that a reference to a six follows is read back as a sixteenth. -/
theorem shared_length_changes :
    importText (exportText "T60 O4 C1&#1638;") = .ok "T60 O4 C1٦" ∧
      ∃ events, (compileText "T60 O4 C1&#1638;").2 = .ok events ∧
        (compileText "T60 O4 C1٦").2 ≠ .ok events := by
  have hevents := eq_ok_of_isOk (x := (compileText "T60 O4 C1&#1638;").2) (by decide +kernel) []
  have hshared := eq_ok_of_isOk (x := (compileText "T60 O4 C1٦").2) (by decide +kernel) []
  refine ⟨by decide +kernel, _, hevents, fun hsame => ?_⟩
  have hlengths := congrArg (List.map (·.duration)) (Except.ok.inj (hshared.symm.trans hsame))
  revert hlengths
  decide +kernel

end MusicMacro
