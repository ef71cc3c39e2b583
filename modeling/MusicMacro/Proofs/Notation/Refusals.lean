import MusicMacro.Proofs.Notation.Compilation

/-!
# A text compiles or is refused

Of the ways in which compiling may end (`CompileError`) a notation string meets only one: the
notation is at fault (`compileText_compiles_or_refuses`).  The other ones stand for failures of
the functions that the compiler calls, each of which is ruled out by a check that comes first:

* a tempo that is not positive, a length that is not positive and an event whose duration or
  start is out of range, by the checks for which a text is refused;
* a sum of lengths beyond every double, by the length of the text, which must be below `2^63`
  characters;
* a frequency that cannot be computed, because the compiler refuses the pitch; the only
  failures of that kind are overflows (`frequency_error`).

What a refusal has to show must itself be possible to show: a number in a message has no more
digits than a number may have in a text (`NotationCause.IsShowable`).
-/

namespace MusicMacro

/-! ## Numbers in messages -/

namespace NotationCause

/-- The number that the message shows. -/
def shown? : NotationCause → Option Number
  | tempoNotPositive number | octaveNegative number => some number
  | unsupportedCode code => some (.whole code)
  | noTokens _ | tempoTooLong | octaveTooLong | tempoTooFast | missingTempo | missingOctave
  | malformedSegment _ | codeTooLong | belowLowestPitch | aboveHighestPitch => none

/-- Every number in the message is whole and has no more digits than a text may give it. -/
def IsShowable (cause : NotationCause) : Prop :=
  ∀ number, cause.shown? = some number → ∃ n : Int, number = .whole n ∧ n.natAbs < 10 ^ digitLimit

lemma isShowable_of_none {cause : NotationCause} (h : cause.shown? = none) : cause.IsShowable := by
  intro number hnumber
  rw [h] at hnumber
  cases hnumber

lemma isShowable_of_whole {cause : NotationCause} {n : Int} (h : cause.shown? = some (.whole n))
    (hlt : n.natAbs < 10 ^ digitLimit) : cause.IsShowable := by
  intro number hnumber
  rw [h] at hnumber
  exact ⟨n, (Option.some.inj hnumber).symm, hlt⟩

end NotationCause

/-- A code that is not too long can be shown. -/
lemma WrittenSegment.code_lt {s : WrittenSegment} (h : s.isTooLong = false) :
    (s.code : Int).natAbs < 10 ^ digitLimit := by
  have hlength : s.digits.length ≤ digitLimit := by simpa [isTooLong] using h
  exact Nat.lt_of_lt_of_le (digitsValue_lt s.digits) (Nat.pow_le_pow_right (by decide) hlength)

lemma WrittenNote.faultAt?_isShowable {n : WrittenNote} {bpm octave : Int} {e : NotationError}
    (h : n.faultAt? bpm octave = some (.refused e)) : e.cause.IsShowable := by
  rcases n.faultAt?_cases h with ⟨cause, hcause, he⟩ | ⟨s, -, hs, he⟩ | ⟨-, -, he⟩
  · obtain rfl := CompileError.refused.inj he
    refine NotationCause.isShowable_of_none ?_
    simp only [List.mem_cons, List.not_mem_nil, or_false] at hcause
    rcases hcause with rfl | rfl | rfl | rfl <;> rfl
  · obtain rfl := CompileError.refused.inj he
    exact NotationCause.isShowable_of_whole rfl (WrittenSegment.code_lt hs)
  · cases he

/-- What an instruction of a text is refused for can be shown. -/
lemma Instruction.fault?_isShowable {before : List Instruction} {i : Instruction} {length : Nat}
    {e : NotationError} (hfits : i.FitsIn digitLimit length)
    (h : i.fault? before = some (.refused e)) : e.cause.IsShowable := by
  unfold fault? at h
  split at h
  · split at h
    · obtain rfl := CompileError.refused.inj (Option.some.inj h)
      exact NotationCause.isShowable_of_whole rfl hfits.2
    split at h
    · obtain rfl := CompileError.refused.inj (Option.some.inj h)
      exact NotationCause.isShowable_of_none rfl
    · cases h
  · split at h
    · obtain rfl := CompileError.refused.inj (Option.some.inj h)
      exact NotationCause.isShowable_of_whole rfl hfits.2
    · cases h
  · split at h
    · obtain rfl := CompileError.refused.inj (Option.some.inj h)
      exact NotationCause.isShowable_of_none rfl
    · obtain rfl := CompileError.refused.inj (Option.some.inj h)
      exact NotationCause.isShowable_of_none rfl
    · exact WrittenNote.faultAt?_isShowable h

/-- What a text is refused for before anything is compiled shows no number. -/
lemma tokenize_isShowable {text : String} {e : NotationError} (h : (tokenize text).2 = .error e) :
    e.cause.IsShowable := by
  have htoken {t : Token} {e' : NotationError} (ht : Directive.ofToken t = .error e') :
      e'.cause.IsShowable := by
    unfold Directive.ofToken at ht
    dsimp only at ht
    split at ht
    · cases ht
    · split at ht
      · cases ht
      · obtain rfl := Except.error.inj ht
        exact NotationCause.isShowable_of_none rfl
    · split at ht
      · cases ht
      · obtain rfl := Except.error.inj ht
        exact NotationCause.isShowable_of_none rfl
  have hread {tail : List Char} {lexemes : List Lexeme}
      (hlexemes : (readLexemes tail lexemes).2 = .error e) : e.cause.IsShowable := by
    induction lexemes with
    | nil => cases hlexemes
    | cons lexeme rest ih =>
        unfold readLexemes at hlexemes
        split at hlexemes
        · rename_i e' he'
          obtain rfl := Except.error.inj hlexemes
          exact htoken he'
        · cases hrest : readLexemes tail rest with
          | mk log directives =>
              rw [hrest] at hlexemes ih
              cases directives with
              | error e' => exact ih (by exact congrArg _ (Except.error.inj hlexemes))
              | ok more => cases hlexemes
  unfold tokenize at h
  dsimp only at h
  split at h
  · obtain rfl := Except.error.inj h
    exact NotationCause.isShowable_of_none rfl
  · exact hread h

/-! ## Frequencies -/

lemma doubleOfInt_error {n : Int} {e : NumberError} (h : doubleOfInt n = .error e) :
    e = .tooLargeForDouble := by
  rw [doubleOfInt_eq] at h
  generalize Double.ofInt? n = x? at h
  cases x? with
  | some x => cases h
  | none => exact (Except.error.inj h).symm

lemma map_error_iff {α β ε : Type} {x : Except ε α} {f : α → β} {e : ε} :
    x.map f = .error e ↔ x = .error e := by
  cases x with
  | error e' =>
      rw [Except.map]
      exact ⟨fun h => congrArg _ (Except.error.inj h), fun h => congrArg _ (Except.error.inj h)⟩
  | ok a => exact ⟨fun h => (by cases h), fun h => (by cases h)⟩

lemma ratioPower_error {n : Int} {e : NumberError} (h : ratioPower n = .error e) :
    e = .tooLargeForDouble ∨ e = .powerOutOfRange := by
  unfold ratioPower at h
  split at h
  · cases hn : doubleOfInt n with
    | error e' =>
        rw [hn] at h
        obtain rfl := Except.error.inj h
        exact .inl (doubleOfInt_error hn)
    | ok x =>
        rw [hn] at h
        exact .inr (Except.error.inj h).symm
  split at h
  · exact .inl (doubleOfInt_error (map_error_iff.mp h))
  · dsimp only at h
    split at h
    · cases h
    · exact .inr (Except.error.inj h).symm

/-- A frequency that cannot be computed is beyond the largest double, by its index or by the power
of the semitone ratio. -/
lemma frequency_error {index : Int} {e : NumberError} (h : frequency index = .error e) :
    e = .tooLargeForDouble ∨ e = .powerOutOfRange :=
  ratioPower_error (map_error_iff.mp h)

/-! ## Texts -/

/-- Instructions of a text that do not compile are refused, for a cause that can be shown. -/
lemma compileDirectives_refused {is : List Instruction} {length : Nat} {e : CompileError}
    (hlength : length < 2 ^ 63) (hfits : ∀ i ∈ is, i.FitsIn digitLimit length)
    (h : compileDirectives (is.map (·.directive)) = .error e) :
    ∃ e', e = .refused e' ∧ e'.cause.IsShowable := by
  rw [compileDirectives_instructions] at h
  obtain ⟨k, i, hfirst⟩ := exists_isFirstFault h
  have hi := hfits i (List.mem_of_getElem? hfirst.place)
  have hnote (n : WrittenNote) (hn : i = .note n) : n.text.length < 2 ^ 63 := by
    rw [hn] at hi
    exact Nat.lt_of_le_of_lt hi hlength
  obtain ⟨cause, rfl⟩ := Instruction.fault?_refused hnote hfirst.fault
  exact ⟨_, rfl, Instruction.fault?_isShowable hi hfirst.fault⟩

lemma compileText_outcome {text : String} (h : text.length < 2 ^ 63) :
    (∃ events, (compileText text).2 = .ok events) ∨
      ∃ e, (compileText text).2 = .error (.refused e) ∧ e.cause.IsShowable := by
  have htokens (e : NotationError) (he : (tokenize text).2 = .error e) : e.cause.IsShowable :=
    tokenize_isShowable he
  have hinstructions (ds : List Directive) (hds : (tokenize text).2 = .ok ds) :=
    exists_instructions_of_tokenize hds
  unfold compileText
  cases htext : tokenize text with
  | mk log result =>
      rw [htext] at htokens hinstructions
      cases result with
      | error e => exact .inr ⟨e, rfl, htokens e rfl⟩
      | ok ds =>
          obtain ⟨is, rfl, hfits⟩ := hinstructions ds rfl
          cases hcompile : compileDirectives (is.map Instruction.directive) with
          | ok events => exact .inl ⟨events, hcompile⟩
          | error e =>
              obtain ⟨e', rfl, he'⟩ := compileDirectives_refused h hfits hcompile
              exact .inr ⟨e', hcompile, he'⟩

/-- **A text of less than `2^63` characters compiles or is refused**, for a cause that can be
shown; and where a pitch is refused because its frequency cannot be computed, that is for an
overflow. -/
theorem compileText_compiles_or_refuses {text : String} (h : text.length < 2 ^ 63) :
    ((∃ events, (compileText text).2 = .ok events) ∨
      ∃ e, (compileText text).2 = .error (.refused e) ∧ e.cause.IsShowable) ∧
    ∀ index e, frequency index = .error e → e = .tooLargeForDouble ∨ e = .powerOutOfRange :=
  ⟨compileText_outcome h, fun _ _ he => frequency_error he⟩

/-- A pitch so high that its frequency overflows is refused like any other fault. -/
theorem high_octave_compiles_or_refuses :
    "T60 O99999 C4".length < 2 ^ 63 ∧
      ((∃ events, (compileText "T60 O99999 C4").2 = .ok events) ∨
        ∃ e, (compileText "T60 O99999 C4").2 = .error (.refused e) ∧ e.cause.IsShowable) ∧
      ∀ index e, frequency index = .error e → e = .tooLargeForDouble ∨ e = .powerOutOfRange :=
  ⟨by decide, compileText_compiles_or_refuses (by decide)⟩

end MusicMacro
