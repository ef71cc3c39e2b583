import MusicMacro.Proofs.Notation.Compilation
import MusicMacro.Proofs.Notation.Scanning

/-!
# Which error of a text is reported

A text is read in two passes: numbers are read while it is cut into tokens, and everything else is
checked when the directives are compiled.  Within either pass the leftmost error is the one that
is reported.  Between them it is not: a number with too many digits is reported before an error of
the second pass, even if that stands to the left of it.

To find the leftmost error, the text is cut off behind each of its tokens in turn
(`Lexeme.upTo`).  The whole text is refused with the error of the first of those texts that does
not compile, exactly if no number to the right of the cut hides it (`reported_error`).
-/

namespace MusicMacro

/-! ## Texts that are cut off -/

/-- The text up to the end of its `n`-th token. -/
def Lexeme.upTo (lexemes : List Lexeme) (n : Nat) : String :=
  String.ofList (joined (lexemes.take n) [])

lemma StartsToken.mono {text text' : List Char} (h : StartsToken text) (hpre : text <+: text') :
    StartsToken text' := by
  obtain ⟨t, ht, hhead⟩ := h
  exact ⟨t, ht, hhead.trans hpre⟩

lemma Token.IsLongestAt.shorten {t : Token} {text text' : List Char} (h : t.IsLongestAt text')
    (hhead : t.text <+: text) (hpre : text <+: text') : t.IsLongestAt text :=
  ⟨h.written, hhead, fun t' ht' hhead' => h.longest t' ht' (hhead'.trans hpre)⟩

lemma IsGap.shorten {gap rest rest' : List Char} (h : IsGap gap rest') (hpre : rest <+: rest') :
    IsGap gap rest := fun k hk hstart =>
  h k hk (hstart.mono (((List.prefix_append_right_inj gap).mpr hpre).drop k))

lemma joined_take_isHead (lexemes : List Lexeme) (tail : List Char) (n : Nat) :
    Lexeme.joined (lexemes.take n) [] <+: Lexeme.joined lexemes tail := by
  induction lexemes generalizing n with
  | nil =>
      rw [List.take_nil]
      exact List.nil_prefix
  | cons l rest ih =>
      cases n with
      | zero => exact List.nil_prefix
      | succ n =>
          rw [List.take_succ_cons, Lexeme.joined, Lexeme.joined]
          exact (List.prefix_append_right_inj _).mpr ((List.prefix_append_right_inj _).mpr (ih n))

/-- A text that is cut off behind a token has the tokens of the whole one up to there. -/
lemma Cuts.take {lexemes : List Lexeme} {tail : List Char} (h : Cuts lexemes tail) (n : Nat) :
    Cuts (lexemes.take n) [] := by
  induction h generalizing n with
  | tail gap =>
      rw [List.take_nil]
      exact .tail (isGap_nil _)
  | @token l rest tail gap longest more ih =>
      cases n with
      | zero => exact .tail (isGap_nil _)
      | succ n =>
          have hpre : l.token.text ++ Lexeme.joined (rest.take n) [] <+:
              l.token.text ++ Lexeme.joined rest tail :=
            (List.prefix_append_right_inj _).mpr (joined_take_isHead rest tail n)
          exact .token (gap.shorten hpre)
            (longest.shorten (List.prefix_append _ _) hpre) (ih n)

/-! ## Compiling lexemes -/

/-- What a text with the given tokens compiles to. -/
def compileLexemes (lexemes : List Lexeme) : Except CompileError (List Event) :=
  match lexemes.find? (·.token.isTooLong) with
  | some l => .error (.refused l.token.tooLong)
  | none => compileDirectives (lexemes.map (·.token.directive))

lemma compileText_of_scan {text : String} {lexemes : List Lexeme} {tail : List Char}
    (hscan : Lexeme.scan [] text.toList = (lexemes, tail)) (hne : lexemes ≠ []) :
    (compileText text).2 = compileLexemes lexemes := by
  have hresult := readLexemes_result tail lexemes
  rw [compileText, tokenize_of_scan hscan, if_neg hne, compileLexemes]
  cases hread : readLexemes tail lexemes with
  | mk log directives =>
      rw [hread] at hresult
      dsimp only at hresult
      subst hresult
      cases lexemes.find? (·.token.isTooLong) <;> rfl

lemma compileText_upTo {lexemes : List Lexeme} {tail : List Char} (h : Cuts lexemes tail)
    {n : Nat} (hne : lexemes.take n ≠ []) :
    (compileText (Lexeme.upTo lexemes n)).2 = compileLexemes (lexemes.take n) := by
  exact compileText_of_scan (h.take n).scan_ofList hne

/-- Directives that cannot be compiled cannot be with others after them, for the same reason. -/
lemma compileFrom_append {state : CompileState} {ds : List Directive} {e : CompileError}
    (h : compileFrom state ds = .error e) (more : List Directive) :
    compileFrom state (ds ++ more) = .error e := by
  fun_induction compileFrom state ds with
  | case1 => cases h
  | case2 state bpm raw rest e' he' =>
      rw [List.cons_append, compileFrom, he']
      exact h
  | case3 state bpm raw rest seconds hseconds ih =>
      rw [List.cons_append, compileFrom, hseconds]
      exact ih h
  | case4 state value raw rest hvalue =>
      rw [List.cons_append, compileFrom, if_pos hvalue]
      exact h
  | case5 state value raw rest hvalue ih =>
      rw [List.cons_append, compileFrom, if_neg hvalue]
      exact ih h
  | case6 state raw rest e' he' =>
      rw [List.cons_append, compileFrom, he']
      exact h
  | case7 state raw rest event state' hnote ih =>
      rw [List.cons_append, compileFrom, hnote]
      dsimp only
      cases hrest : compileFrom state' rest with
      | ok events =>
          rw [hrest] at h
          cases h
      | error e' =>
          rw [hrest] at h
          rw [ih (by rw [hrest]; exact congrArg _ (Except.error.inj h))]
          rfl

/-! ## The token of an error -/

lemma Token.tooLong_token (t : Token) : t.tooLong.token = t.raw := by
  rw [tooLong]
  split <;> rfl

/-- A token with a number that cannot be read is not one, in either case, with a number that
can. -/
lemma Token.raw_ne {t t' : Token} (h : t.IsWritten) (h' : t'.IsWritten)
    (hread : t.isTooLong = false) (hlong : t'.isTooLong = true) : t.raw ≠ t'.raw := by
  intro hraw
  have htext : upperText t.text = upperText t'.text := String.ofList_injective hraw
  have hkind : t.kind = t'.kind := TokenKind.eq_of_writes h h' (congrArg List.head? htext)
  have hupper : t.upper = t'.upper := congrArg₂ Token.mk hkind htext
  rw [← isTooLong_upper, hupper, isTooLong_upper, hlong] at hread
  cases hread

lemma Instruction.fault?_token {before : List Instruction} {i : Instruction} {e : NotationError}
    (h : i.fault? before = some (.refused e)) : e.token = i.raw := by
  have htoken {cause : NotationCause} {raw : String}
      (heq : some (CompileError.refused ⟨cause, raw⟩) = some (.refused e)) : e.token = raw := by
    obtain rfl := CompileError.refused.inj (Option.some.inj heq)
    rfl
  unfold fault? at h
  split at h
  · split at h
    · exact htoken h
    split at h
    · exact htoken h
    · cases h
  · split at h
    · exact htoken h
    · cases h
  · split at h
    · exact htoken h
    · exact htoken h
    · rcases WrittenNote.faultAt?_cases _ h with ⟨cause, -, he⟩ | ⟨s, -, -, he⟩ | ⟨-, -, he⟩
      · exact htoken (congrArg some he.symm)
      · exact htoken (congrArg some he.symm)
      · cases he

lemma Token.raw_of_directive {t : Token} {i : Instruction} (h : t.directive = i.directive) :
    i.raw = t.raw := by
  rw [directive] at h
  cases i with
  | tempo bpm raw =>
      split at h
      · exact (Directive.tempo.inj h).2.symm
      · cases h
      · cases h
  | octave value raw =>
      split at h
      · cases h
      · exact (Directive.octave.inj h).2.symm
      · cases h
  | note n =>
      split at h
      · cases h
      · cases h
      · exact (Directive.note.inj h).symm

/-- What is refused when directives are compiled is one of the tokens. -/
lemma exists_token_of_refused {lexemes : List Lexeme} {tail : List Char} (h : Cuts lexemes tail)
    (hreadable : ∀ l ∈ lexemes, l.token.isTooLong = false) {e : NotationError}
    (herror : compileDirectives (lexemes.map (·.token.directive)) = .error (.refused e)) :
    ∃ l ∈ lexemes, e.token = l.token.raw := by
  have hne : lexemes ≠ [] := by
    rintro rfl
    cases herror
  have htokenize := h.tokenize_eq hne hreadable
  obtain ⟨is, his, -⟩ := exists_instructions_of_tokenize (congrArg Prod.snd htokenize)
  rw [← his, compileDirectives_instructions] at herror
  obtain ⟨k, i, hfirst⟩ := exists_isFirstFault herror
  have hi : i.directive ∈ lexemes.map (·.token.directive) :=
    his ▸ List.mem_map_of_mem (List.mem_of_getElem? hfirst.place)
  obtain ⟨l, hl, hdirective⟩ := List.mem_map.mp hi
  exact ⟨l, hl, (Instruction.fault?_token hfirst.fault).trans (Token.raw_of_directive hdirective)⟩

/-! ## The error that is reported -/

lemma compileLexemes_readable {lexemes : List Lexeme}
    (h : ∀ l ∈ lexemes, l.token.isTooLong = false) :
    compileLexemes lexemes = compileDirectives (lexemes.map (·.token.directive)) := by
  rw [compileLexemes, find?_isTooLong_eq_none.mpr h]

/-- The first number that cannot be read is reported, whatever else is wrong. -/
lemma compileLexemes_tooLong {front : List Lexeme} {l : Lexeme} (rest : List Lexeme)
    (hfront : ∀ l' ∈ front, l'.token.isTooLong = false) (hl : l.token.isTooLong = true) :
    compileLexemes (front ++ l :: rest) = .error (.refused l.token.tooLong) := by
  have hfind : (front ++ l :: rest).find? (·.token.isTooLong) = some l := by
    rw [List.find?_append, find?_isTooLong_eq_none.mpr hfront, List.find?_cons_of_pos (by exact hl)]
    rfl
  rw [compileLexemes, hfind]

/-- What does not compile does not with readable tokens after it, for the same reason. -/
lemma compileLexemes_append {lexemes more : List Lexeme} {e : CompileError}
    (hreadable : ∀ l ∈ lexemes, l.token.isTooLong = false)
    (hmore : ∀ l ∈ more, l.token.isTooLong = false) (h : compileLexemes lexemes = .error e) :
    compileLexemes (lexemes ++ more) = .error e := by
  rw [compileLexemes_readable hreadable] at h
  rw [compileLexemes_readable (List.forall_mem_append.mpr ⟨hreadable, hmore⟩), List.map_append]
  exact compileFrom_append h _

/-- Lexemes that compile have numbers that can be read. -/
lemma readable_of_compileLexemes {lexemes : List Lexeme} {events : List Event}
    (h : compileLexemes lexemes = .ok events) : ∀ l ∈ lexemes, l.token.isTooLong = false := by
  rw [compileLexemes] at h
  split at h
  · cases h
  · rename_i hfind
    exact find?_isTooLong_eq_none.mp hfind

/-- If the tokens do not compile, there is a first one up to which they do not. -/
lemma exists_first_failing {lexemes : List Lexeme} {e : CompileError}
    (h : compileLexemes lexemes = .error e) :
    ∃ j l err, lexemes[j]? = some l ∧ compileLexemes (lexemes.take (j + 1)) = .error err ∧
      ∀ i ≤ j, ∃ events, compileLexemes (lexemes.take i) = .ok events := by
  classical
  have hfails : ∃ n err, compileLexemes (lexemes.take n) = .error err :=
    ⟨lexemes.length, e, by rw [List.take_length, h]⟩
  obtain ⟨err, herr⟩ := Nat.find_spec hfails
  have hbefore {i : Nat} (hi : i < Nat.find hfails) :
      ∃ events, compileLexemes (lexemes.take i) = .ok events := by
    cases hcompile : compileLexemes (lexemes.take i) with
    | ok events => exact ⟨events, rfl⟩
    | error err' => exact absurd ⟨err', hcompile⟩ (Nat.find_min hfails hi)
  generalize Nat.find hfails = n at herr hbefore
  cases n with
  | zero => cases herr
  | succ j =>
      have hj : j < lexemes.length := by
        -- behind the last token there is nothing more to cut off
        by_contra hend
        obtain ⟨events, hok⟩ := hbefore (Nat.lt_succ_self j)
        rw [List.take_of_length_le (by omega)] at hok herr
        rw [hok] at herr
        cases herr
      exact ⟨j, lexemes[j], err, List.getElem?_eq_getElem hj, herr,
        fun i hi => hbefore (Nat.lt_succ_of_le hi)⟩

/-- The text up to the token at place `j` does not compile, and no shorter one that ends with a
token fails to. -/
structure IsFirstFailing (lexemes : List Lexeme) (j : Nat) (l : Lexeme) (err : CompileError) :
    Prop where
  place : lexemes[j]? = some l
  before : ∀ i, 0 < i → i ≤ j → ∃ events, (compileText (Lexeme.upTo lexemes i)).2 = .ok events
  fails : (compileText (Lexeme.upTo lexemes (j + 1))).2 = .error err

/-- Instead of an error that comes before these tokens, the first number among them that cannot
be read is reported, with a token of its own. -/
def IsHiddenBy (lexemes : List Lexeme) (err : CompileError) (e : NotationError) : Prop :=
  ∃ front l rest, lexemes = front ++ l :: rest ∧
    (∀ l' ∈ front, l'.token.isTooLong = false) ∧ l.token.isTooLong = true ∧
    e = l.token.tooLong ∧ ∀ e', err = .refused e' → e'.token ≠ e.token

/-- Of refused tokens that can be read the error is hidden by the first number behind them that
cannot. -/
lemma isHiddenBy_of_find? {shown more : List Lexeme} {tail : List Char} {l : Lexeme}
    {err : CompileError} {e : NotationError} (hcuts : Cuts (shown ++ more) tail)
    (hreadable : ∀ l ∈ shown, l.token.isTooLong = false) (herr : compileLexemes shown = .error err)
    (hfind : more.find? (·.token.isTooLong) = some l)
    (h : compileLexemes (shown ++ more) = .error (.refused e)) : IsHiddenBy more err e := by
  obtain ⟨hl, front, rest, rfl, hnone⟩ := List.find?_eq_some_iff_append.mp hfind
  have hbetween : ∀ l' ∈ front, l'.token.isTooLong = false :=
    fun l' hl' => by simpa using hnone l' hl'
  rw [← List.append_assoc, compileLexemes_tooLong rest
    (List.forall_mem_append.mpr ⟨hreadable, hbetween⟩) hl] at h
  obtain rfl := CompileError.refused.inj (Except.error.inj h)
  refine ⟨front, l, rest, rfl, hbetween, hl, rfl, fun e' he' => ?_⟩
  have hshown := hcuts.take shown.length
  rw [List.take_left] at hshown
  rw [compileLexemes_readable hreadable, he'] at herr
  obtain ⟨l', hmem, htoken⟩ := exists_token_of_refused hshown hreadable herr
  rw [htoken, Token.tooLong_token]
  exact Token.raw_ne (hshown.isWritten _ hmem)
    (hcuts.isWritten _ (List.mem_append_right _ (List.mem_append_right _ List.mem_cons_self)))
    (hreadable _ hmem) hl

/-- **Which error is reported.**  If a text with tokens is refused, it has a first token up to
which it does not compile.  The error there is the error of the whole text, if it is a number that
cannot be read or if all numbers to the right can be; else the first number to the right that
cannot be read is reported instead. -/
theorem reported_error {text : String} {lexemes : List Lexeme} {tail : List Char}
    {e : NotationError} (hscan : Lexeme.scan [] text.toList = (lexemes, tail))
    (hne : lexemes ≠ []) (h : (compileText text).2 = .error (.refused e)) :
    ∃ j l err, IsFirstFailing lexemes j l err ∧
      ((l.token.isTooLong = true ∨ ∀ l' ∈ lexemes.drop (j + 1), l'.token.isTooLong = false) ∧
          err = .refused e ∨
        l.token.isTooLong = false ∧ IsHiddenBy (lexemes.drop (j + 1)) err e) := by
  have hcuts : Cuts lexemes tail := by
    have := (cuts_scan [] text.toList (isGap_nil _)).2
    rwa [hscan] at this
  rw [compileText_of_scan hscan hne] at h
  obtain ⟨j, l, err, hplace, herr, hbefore⟩ := exists_first_failing h
  obtain ⟨hj, rfl⟩ := List.getElem?_eq_some_iff.mp hplace
  have htake {n : Nat} (hn : 0 < n) : lexemes.take n ≠ [] := by
    rw [Ne, List.take_eq_nil_iff]
    exact fun hempty => hempty.elim (Nat.pos_iff_ne_zero.mp hn) hne
  have hfirst : IsFirstFailing lexemes j lexemes[j] err :=
    { place := hplace
      before := fun i hi hle => by
        rw [compileText_upTo hcuts (htake hi)]
        exact hbefore i hle
      fails := by rw [compileText_upTo hcuts (htake (Nat.succ_pos j)), herr] }
  refine ⟨j, _, err, hfirst, ?_⟩
  obtain ⟨events, hok⟩ := hbefore j (Nat.le_refl j)
  have hfront := readable_of_compileLexemes hok
  have hupTo : lexemes.take (j + 1) = lexemes.take j ++ [lexemes[j]] :=
    List.take_succ_eq_append_getElem hj
  cases hlong : lexemes[j].token.isTooLong with
  | true =>
      have hsplit : lexemes = lexemes.take j ++ lexemes[j] :: lexemes.drop (j + 1) := by
        rw [← List.drop_eq_getElem_cons hj, List.take_append_drop]
      rw [hupTo, compileLexemes_tooLong [] hfront hlong] at herr
      rw [hsplit, compileLexemes_tooLong _ hfront hlong] at h
      exact .inl ⟨.inl rfl, (Except.error.inj herr).symm.trans (Except.error.inj h)⟩
  | false =>
      have hreadable : ∀ l ∈ lexemes.take (j + 1), l.token.isTooLong = false := by
        rw [hupTo, List.forall_mem_append]
        exact ⟨hfront, List.forall_mem_singleton.mpr hlong⟩
      cases hfind : (lexemes.drop (j + 1)).find? (·.token.isTooLong) with
      | none =>
          have hdrop := find?_isTooLong_eq_none.mp hfind
          have hwhole := compileLexemes_append hreadable hdrop herr
          rw [List.take_append_drop, h] at hwhole
          exact .inl ⟨.inr hdrop, (Except.error.inj hwhole).symm⟩
      | some l' =>
          rw [← List.take_append_drop (j + 1) lexemes] at hcuts h
          exact .inr ⟨rfl, isHiddenBy_of_find? hcuts hreadable herr hfind h⟩

/-- A tempo of one digit more than can be read. -/
def longTempo : Token := ⟨.tempo, 'T' :: List.replicate (digitLimit + 1) '1'⟩

/-- A note before any tempo, and then a tempo that cannot be read. -/
def noteBeforeLongTempo : List Lexeme := [⟨[], ⟨.note, ['C', '4']⟩⟩, ⟨[' '], longTempo⟩]

lemma longTempo_isTooLong : longTempo.isTooLong = true := by
  rw [Token.isTooLong, longTempo, Token.digits]
  exact decide_eq_true (by rw [List.drop_one, List.tail_cons, List.length_replicate]; omega)

lemma longTempo_isWritten : longTempo.IsWritten := by
  have hdigit : ∀ c ∈ List.replicate (digitLimit + 1) '1', isDecimalDigit c = true := by
    intro c hc
    rw [List.eq_of_mem_replicate hc]
    decide
  exact ⟨_, by rw [Ne, List.replicate_eq_nil_iff]; exact Nat.succ_ne_zero _, hdigit,
    congrArg ('T' :: ·) (upperText_of_digits hdigit)⟩

/-- The note without a tempo is the first error, and the tempo to its right is reported. -/
theorem long_tempo_hides_missing_tempo :
    (compileText (Lexeme.upTo noteBeforeLongTempo 1)).2 =
        .error (.refused ⟨.missingTempo, "C4"⟩) ∧
      (compileText (Lexeme.upTo noteBeforeLongTempo 2)).2 = .error (.refused longTempo.tooLong) ∧
      ∃ j l err, IsFirstFailing noteBeforeLongTempo j l err ∧
        ((l.token.isTooLong = true ∨
              ∀ l' ∈ noteBeforeLongTempo.drop (j + 1), l'.token.isTooLong = false) ∧
            err = .refused longTempo.tooLong ∨
          l.token.isTooLong = false ∧
            IsHiddenBy (noteBeforeLongTempo.drop (j + 1)) err longTempo.tooLong) := by
  have hnote : Token.IsWritten ⟨.note, ['C', '4']⟩ :=
    ⟨⟨⟨[⟨some .c, none⟩], ['4'], false, by decide, by decide, List.all_eq_true.mp (by decide)⟩,
      []⟩, rfl⟩
  have hcuts : Cuts noteBeforeLongTempo [] := by
    refine cuts_of_blank ?_ ?_
    · simp [noteBeforeLongTempo, gapsOf, IsBlankGap, isBlank]
    · simpa [noteBeforeLongTempo] using ⟨hnote, longTempo_isWritten⟩
  have hscan : Lexeme.scan [] (Lexeme.upTo noteBeforeLongTempo 2).toList =
      (noteBeforeLongTempo, []) := hcuts.scan_ofList
  have herror : (compileText (Lexeme.upTo noteBeforeLongTempo 2)).2 =
      .error (.refused longTempo.tooLong) := by
    rw [compileText_of_scan hscan (List.cons_ne_nil _ _)]
    exact @compileLexemes_tooLong [⟨[], ⟨.note, ['C', '4']⟩⟩] ⟨[' '], longTempo⟩ []
      (List.forall_mem_singleton.mpr rfl) longTempo_isTooLong
  refine ⟨?_, herror, reported_error hscan (List.cons_ne_nil _ _) herror⟩
  have hcut : noteBeforeLongTempo.take 1 ≠ [] := List.cons_ne_nil _ _
  rw [compileText_upTo hcuts hcut]
  rfl

end MusicMacro
