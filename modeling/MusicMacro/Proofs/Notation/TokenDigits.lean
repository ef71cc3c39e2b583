import MusicMacro.Proofs.Notation.Overlaps

/-!
# Which digits belong to tokens

Whether a digit of a text belongs to one of its tokens is told by what stands before it: it does
exactly if some written token ends with it (`EndsToken`).  The tokens of a text have as many digits
as stand there like that (`digits_tokensOf`).

The scan is followed from place to place.  No written token ever begins before the place where the
scan stands and ends behind it (`NoneAcross`), for it would have been the one that was cut off, or
would have made that one longer.

The directives of a text are those of its tokens (`tokensOf_of_tokenize`) and show their digits
(`digits_of_directives`).
-/

namespace MusicMacro

/-! ## Scanning, place by place -/

/-- The tokens of a text, in order. -/
def tokensOf (text : List Char) : List Token := (Lexeme.scan [] text).1.map (·.token)

lemma exists_isLongestAt {text : List Char} (h : StartsToken text) :
    ∃ (t : Token) (rest : List Char), text = t.text ++ rest ∧ t.IsLongestAt text := by
  obtain ⟨t, ht, hhead⟩ := h
  obtain ⟨kind, length, hfound⟩ := exists_tokenAt?_of_atHead ht hhead
  exact ⟨_, _, (List.take_append_drop length text).symm, (isLongestAt_of_tokenAt? hfound).1⟩

/-- At each place of a text, either no token starts there or the longest one is cut off. -/
@[elab_as_elim]
theorem scan_induction {motive : List Char → Prop} (nil : motive [])
    (skip : ∀ c rest, ¬StartsToken (c :: rest) → motive rest → motive (c :: rest))
    (token : ∀ t rest, Token.IsLongestAt t (t.text ++ rest) → motive rest →
      motive (t.text ++ rest)) (text : List Char) : motive text := by
  induction hn : text.length using Nat.strongRecOn generalizing text with
  | ind n ih =>
      subst hn
      by_cases hstart : StartsToken text
      · obtain ⟨t, rest, rfl, hlongest⟩ := exists_isLongestAt hstart
        have hpos := List.length_pos_iff.mpr hlongest.written.ne_nil
        exact token t rest hlongest (ih rest.length (by rw [List.length_append]; omega) rest rfl)
      · cases text with
        | nil => exact nil
        | cons c rest => exact skip c rest hstart (ih rest.length (by simp) rest rfl)

lemma scan_skip {c : Char} {rest : List Char} (h : ¬StartsToken (c :: rest)) (gap : List Char) :
    Lexeme.scan gap (c :: rest) = Lexeme.scan (c :: gap) rest := by
  rw [Lexeme.scan, tokenAt?_eq_none_iff.mpr h]

/-- What was passed over before does not matter for the tokens. -/
lemma tokens_scan (gap text : List Char) :
    (Lexeme.scan gap text).1.map (·.token) = tokensOf text := by
  induction text using scan_induction generalizing gap with
  | nil => rw [tokensOf, Lexeme.scan, Lexeme.scan]
  | skip c rest hstart ih => rw [tokensOf, scan_skip hstart, scan_skip hstart, ih, ih]
  | token t rest hlongest ih => rw [tokensOf, scan_token hlongest, scan_token hlongest]; rfl

lemma tokensOf_nil : tokensOf [] = [] := by
  rw [tokensOf, Lexeme.scan]
  rfl

lemma tokensOf_skip {c : Char} {rest : List Char} (h : ¬StartsToken (c :: rest)) :
    tokensOf (c :: rest) = tokensOf rest := by
  rw [tokensOf, scan_skip h, tokens_scan]

lemma tokensOf_token {t : Token} {rest : List Char} (h : t.IsLongestAt (t.text ++ rest)) :
    tokensOf (t.text ++ rest) = t :: tokensOf rest := by
  rw [tokensOf, scan_token h]
  rfl

/-- A gap without letters is passed over. -/
lemma tokensOf_append {gap : List Char} (h : ∀ c ∈ gap, ¬IsLetter c) (rest : List Char) :
    tokensOf (gap ++ rest) = tokensOf rest := by
  induction gap with
  | nil => rfl
  | cons c gap ih =>
      obtain ⟨hc, hgap⟩ := List.forall_mem_cons.mp h
      rw [List.cons_append, tokensOf_skip, ih hgap]
      intro hstart
      obtain ⟨d, hd, hletter⟩ := hstart.exists_letter
      obtain rfl := Option.some.inj hd
      exact hc hletter

/-! ## Digits of tokens -/

/-- The text ends with a written token. -/
def EndsToken (text : List Char) : Prop := ∃ t : Token, t.IsWritten ∧ t.text <:+ text

lemma EndsToken.mono {text text' : List Char} (h : EndsToken text) (hsuffix : text <:+ text') :
    EndsToken text' := by
  obtain ⟨t, ht, hend⟩ := h
  exact ⟨t, ht, hend.trans hsuffix⟩

/-- No written token begins before a place and ends behind it. -/
def NoneAcross (before text : List Char) : Prop :=
  ∀ (t : Token) (u v : List Char), t.text = u ++ v → u ≠ [] → v ≠ [] → u <:+ before → v <+: text →
    ¬t.IsWritten

lemma noneAcross_nil (text : List Char) : NoneAcross [] text := fun _ _ _ _ hu _ hsuffix _ =>
  absurd (List.suffix_nil.mp hsuffix) hu

/-- Behind a character at which no token starts nothing has begun that had not before it. -/
lemma NoneAcross.skip {before rest : List Char} {c : Char} (h : NoneAcross before (c :: rest))
    (hstart : ¬StartsToken (c :: rest)) : NoneAcross (before ++ [c]) rest := by
  intro t u v htext hu _ hsuffix hhead ht
  rcases List.suffix_concat_iff.mp hsuffix with rfl | ⟨u, rfl, hbefore⟩
  · exact hu rfl
  have htoken : t.text = u ++ c :: v := by rw [htext, List.append_assoc, List.singleton_append]
  have hhead : c :: v <+: c :: rest := (List.prefix_cons_inj c).mpr hhead
  by_cases hnil : u = []
  · exact hstart ⟨t, ht, by rw [htoken, hnil]; exact hhead⟩
  · exact h t u (c :: v) htoken hnil (List.cons_ne_nil _ _) hbefore hhead ht

/-- Behind the longest token at a place nothing has begun, for what begins inside the token and goes
on would make it longer. -/
lemma NoneAcross.token {t : Token} {before rest : List Char}
    (h : NoneAcross before (t.text ++ rest)) (ht : t.IsLongestAt (t.text ++ rest)) :
    NoneAcross (before ++ t.text) rest := by
  intro t' u v htext hu hv hsuffix hhead ht'
  have hlonger (t' : Token) (ht' : t'.IsWritten) (htext : t'.text = t.text ++ v) : False := by
    have hle := ht.longest t' ht' (by rw [htext]; exact (List.prefix_append_right_inj _).mpr hhead)
    have hpos := List.length_pos_iff.mpr hv
    rw [htext, List.length_append] at hle
    omega
  obtain ⟨a, ha⟩ := hsuffix
  rcases List.append_eq_append_iff.mp ha with ⟨w, hbefore, rfl⟩ | ⟨w, -, hinside⟩
  · rw [List.append_assoc] at htext
    by_cases hw : w = []
    · exact hlonger t' ht' (by rw [htext, hw, List.nil_append])
    · exact h t' w (t.text ++ v) htext hw (by simp [hv]) ⟨a, hbefore.symm⟩
        ((List.prefix_append_right_inj _).mpr hhead) ht'
  · by_cases hw : w = []
    · exact hlonger t' ht' (by rw [htext, hinside, hw, List.nil_append])
    · exact hlonger _ (ht.written.extend ht' hinside htext hw hu)
        (by rw [hinside, List.append_assoc])

/-! ### Counting -/

open Classical in
/-- One for a digit that ends a written token together with what stands before it, and zero for any
other character. -/
noncomputable def tokenDigit (before : List Char) (c : Char) : Nat :=
  if isDecimalDigit c = true ∧ EndsToken (before ++ [c]) then 1 else 0

/-- How many digits of a text end a written token, which may begin in what stands before. -/
noncomputable def tokenDigits (before : List Char) : List Char → Nat
  | [] => 0
  | c :: rest => tokenDigit before c + tokenDigits (before ++ [c]) rest

section

variable {before read : List Char} {c : Char}

lemma tokenDigit_eq_one (hc : isDecimalDigit c = true) (hends : EndsToken (before ++ [c])) :
    tokenDigit before c = 1 := if_pos ⟨hc, hends⟩

lemma tokenDigit_eq_zero (h : isDecimalDigit c = true → ¬EndsToken (before ++ [c])) :
    tokenDigit before c = 0 := if_neg fun hboth => h hboth.1 hboth.2

lemma tokenDigit_mono (h : EndsToken (before ++ [c]) → EndsToken (read ++ [c])) :
    tokenDigit before c ≤ tokenDigit read c := by
  by_cases hboth : isDecimalDigit c = true ∧ EndsToken (before ++ [c])
  · rw [tokenDigit_eq_one hboth.1 hboth.2, tokenDigit_eq_one hboth.1 (h hboth.2)]
  · rw [tokenDigit_eq_zero fun hc hends => hboth ⟨hc, hends⟩]
    exact Nat.zero_le _

end

/-- The digits of a token that stands in a text end written tokens. -/
lemma tokenDigits_token {t : Token} (ht : t.IsWritten) (before rest : List Char) :
    tokenDigits before (t.text ++ rest) =
      t.text.countP isDecimalDigit + tokenDigits (before ++ t.text) rest := by
  have hgo (w v : List Char) (htext : t.text = w ++ v) :
      tokenDigits (before ++ w) (v ++ rest) =
        v.countP isDecimalDigit + tokenDigits (before ++ t.text) rest := by
    induction v generalizing w with
    | nil => rw [List.append_nil] at htext; rw [htext]; simp
    | cons c v ih =>
        have hnext := ih (w ++ [c]) (by simpa using htext)
        rw [← List.append_assoc] at hnext
        rw [List.cons_append, tokenDigits, hnext, List.countP_cons]
        by_cases hc : isDecimalDigit c = true
        · have hends : EndsToken (before ++ w ++ [c]) :=
            ⟨_, ht.upToDigit htext hc, before, by rw [List.append_assoc]⟩
          rw [tokenDigit_eq_one hc hends, if_pos hc]
          omega
        · rw [tokenDigit_eq_zero fun h => absurd h hc, if_neg hc]
          omega
  simpa using hgo [] t.text rfl

/-- Where no digit ends a written token, none is counted. -/
lemma tokenDigits_append {before gap : List Char}
    (h : ∀ w c v, gap = w ++ c :: v → isDecimalDigit c = true → ¬EndsToken (before ++ w ++ [c]))
    (rest : List Char) : tokenDigits before (gap ++ rest) = tokenDigits (before ++ gap) rest := by
  induction gap generalizing before with
  | nil => rw [List.nil_append, List.append_nil]
  | cons c gap ih =>
      have hnext : ∀ w d v, gap = w ++ d :: v → isDecimalDigit d = true →
          ¬EndsToken (before ++ [c] ++ w ++ [d]) := by
        rintro w d v rfl hd
        simpa using h (c :: w) d v rfl hd
      have hfirst : isDecimalDigit c = true → ¬EndsToken (before ++ [c]) := fun hc => by
        simpa using h [] c gap rfl hc
      rw [List.cons_append, tokenDigits, tokenDigit_eq_zero hfirst, ih hnext, Nat.zero_add,
        List.append_assoc]
      rfl

/-- **The digits of tokens are those that end a written token.** -/
lemma digits_tokensOf {before text : List Char} (h : NoneAcross before text) :
    ((tokensOf text).map (·.text.countP isDecimalDigit)).sum = tokenDigits before text := by
  induction text using scan_induction generalizing before with
  | nil => rw [tokensOf_nil]; rfl
  | skip c rest hstart ih =>
      have hends : ¬EndsToken (before ++ [c]) := by
        rintro ⟨t, ht, hsuffix⟩
        rcases List.suffix_concat_iff.mp hsuffix with hnil | ⟨u, htext, hbefore⟩
        · exact ht.ne_nil hnil
        · by_cases hnil : u = []
          · exact hstart ⟨t, ht, rest, by rw [htext, hnil]; rfl⟩
          · exact h t u [c] htext hnil (List.cons_ne_nil _ _) hbefore ⟨rest, rfl⟩ ht
      rw [tokensOf_skip hstart, ih (h.skip hstart), tokenDigits, tokenDigit_eq_zero fun _ => hends,
        Nat.zero_add]
  | token t rest hlongest ih =>
      rw [tokensOf_token hlongest, List.map_cons, List.sum_cons, ih (h.token hlongest),
        tokenDigits_token hlongest.written]

/-! ## Directives -/

/-- A text with tokens is read as its tokens are. -/
lemma tokenize_result {text : String} (hne : tokensOf text.toList ≠ []) :
    (tokenize text).2 =
      match (tokensOf text.toList).find? (·.isTooLong) with
      | some t => .error t.tooLong
      | none => .ok ((tokensOf text.toList).map (·.directive)) := by
  unfold tokensOf at hne ⊢
  obtain ⟨⟨lexemes, tail⟩, hscan⟩ : ∃ cut, Lexeme.scan [] text.toList = cut := ⟨_, rfl⟩
  rw [hscan] at hne ⊢
  have hfind : (lexemes.map (·.token)).find? (·.isTooLong) =
      (lexemes.find? (·.token.isTooLong)).map (·.token) := List.find?_map
  rw [tokenize_of_scan hscan, if_neg fun hnil => hne (by rw [hnil]; rfl), readLexemes_result, hfind,
    List.map_map]
  cases lexemes.find? (·.token.isTooLong) <;> rfl

/-- The directives of a text that can be read are those of its tokens. -/
lemma tokensOf_of_tokenize {text : String} {directives : List Directive}
    (h : (tokenize text).2 = .ok directives) :
    tokensOf text.toList ≠ [] ∧ directives = (tokensOf text.toList).map (·.directive) := by
  have hne : tokensOf text.toList ≠ [] := by
    intro hnil
    rw [tokensOf] at hnil
    obtain ⟨⟨lexemes, tail⟩, hscan⟩ : ∃ cut, Lexeme.scan [] text.toList = cut := ⟨_, rfl⟩
    rw [hscan, List.map_eq_nil_iff] at hnil
    rw [tokenize_of_scan hscan, if_pos hnil] at h
    cases h
  rw [tokenize_result hne] at h
  split at h
  · cases h
  · exact ⟨hne, (Except.ok.inj h).symm⟩

/-- The text of the token that a directive comes from. -/
def Directive.raw : Directive → String
  | tempo _ raw => raw
  | octave _ raw => raw
  | note raw => raw

lemma Token.raw_directive (t : Token) : t.directive.raw = t.raw := by
  rw [directive]
  cases t.kind <;> rfl

lemma isDecimalDigit_toUpper (c : Char) : isDecimalDigit c.toUpper = isDecimalDigit c := by
  by_cases h : isDecimalDigit c.toUpper = true
  · rw [isDecimalDigit_of_toUpper h]
  · by_cases hc : isDecimalDigit c = true
    · rw [toUpper_of_digit hc]
    · rw [eq_false_of_ne_true h, eq_false_of_ne_true hc]

/-- Directives show how many digits their tokens have. -/
lemma digits_of_directives {tokens tokens' : List Token}
    (h : tokens.map (·.directive) = tokens'.map (·.directive)) :
    (tokens.map (·.text.countP isDecimalDigit)).sum =
      (tokens'.map (·.text.countP isDecimalDigit)).sum := by
  have hshown (tokens : List Token) : tokens.map (·.text.countP isDecimalDigit) =
      (tokens.map (·.directive)).map (·.raw.toList.countP isDecimalDigit) := by
    rw [List.map_map]
    refine List.map_congr_left fun t _ => ?_
    rw [Function.comp_apply, t.raw_directive, Token.raw, String.toList_ofList, upperText,
      List.countP_map]
    exact List.countP_congr fun c _ => by rw [Function.comp_apply, isDecimalDigit_toUpper]
  rw [hshown, hshown, h]

end MusicMacro
