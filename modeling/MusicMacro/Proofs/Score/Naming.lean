import MusicMacro.Proofs.Notation.Strays
import MusicMacro.Proofs.Score
import MusicMacro.Proofs.Score.Acceptance
import MusicMacro.Proofs.Text.Digits

/-!
# Names of pitches

An index is named by a tone and an octave (`spell`), and the document of a score has the names
beside the indices of its events.  Names are counted from A on, octaves from C on, and in an octave
A and B lie beyond twelve.  The two counts must agree across the border between B and C, and below
the first C too, where octave 0 has three indices.

They do: the tone of a name, in the octave of the name, has the index that was named
(`isToneName_spell`).  What is named can be read from the name: the tone is the only one in it, and
the octave is the number behind it.  So a name belongs to one index alone (`IsNameOf.unique`), and
the names in a score tell its indices (`names_tell_indices`).
-/

namespace MusicMacro

/-! ## Reading a name -/

/-- The text is a tone, which has at most a sharp, and an octave.  The tone is all that is read from
it, and in the octave it has the index. -/
structure IsToneName (text : String) (tone : Tone) (octave : Nat) (index : Int) : Prop where
  text_eq : text = tone.text ++ toString octave
  accidental : tone.accidental = 0 ∨ tone.accidental = 1
  sounds : tone.isRest = false
  read : parseTones tone.text.toList = [tone]
  readWhole : parseTones text.toList = [tone]
  index_eq : tone.indexIn octave = .ok index

/-- The text names the index, or a rest. -/
def IsNameOf (text : String) : Option Nat → Prop
  | none => text = "R"
  | some index => ∃ tone octave, IsToneName text tone octave index

lemma toString_injective {n m : Nat} (h : toString n = toString m) : n = m := by
  rw [Nat.toString_eq_ofList_toDigits, Nat.toString_eq_ofList_toDigits, String.ofList_inj] at h
  rw [← digitsValue_toDigits n, h, digitsValue_toDigits]

/-- A name has one index. -/
lemma IsToneName.unique {text : String} {tone tone' : Tone} {octave octave' : Nat}
    {index index' : Int} (h : IsToneName text tone octave index)
    (h' : IsToneName text tone' octave' index') : index = index' := by
  obtain rfl : tone = tone' := (List.cons.inj (h.readWhole.symm.trans h'.readWhole)).1
  have htext := h.text_eq.symm.trans h'.text_eq
  obtain rfl := toString_injective ((String.append_right_inj _).mp htext)
  exact Except.ok.inj (h.index_eq.symm.trans h'.index_eq)

lemma IsToneName.ne_rest {text : String} {tone : Tone} {octave : Nat} {index : Int}
    (h : IsToneName text tone octave index) : text ≠ "R" := by
  rintro rfl
  have hrest : parseTones "R".toList = [.rest] := by decide
  obtain rfl : tone = .rest := (List.cons.inj (h.readWhole.symm.trans hrest)).1
  cases h.sounds

/-- **A name belongs to one index alone.** -/
lemma IsNameOf.unique {text : String} {index? index?' : Option Nat} (h : IsNameOf text index?)
    (h' : IsNameOf text index?') : index? = index?' := by
  cases index? with
  | none =>
      cases index?' with
      | none => rfl
      | some index =>
          obtain ⟨_, _, hname⟩ := h'
          exact absurd h hname.ne_rest
  | some index =>
      obtain ⟨_, _, hname⟩ := h
      cases index?' with
      | none => exact absurd h' hname.ne_rest
      | some index' =>
          obtain ⟨_, _, hname'⟩ := h'
          exact congrArg some (Int.ofNat_inj.mp (hname.unique hname'))

/-! ## Naming an index -/

/-- The tones that the twelve indices from an A on are named by. -/
def sharpTones : List Tone :=
  [⟨some .a, 0⟩, ⟨some .a, 1⟩, ⟨some .b, 0⟩, ⟨some .c, 0⟩, ⟨some .c, 1⟩, ⟨some .d, 0⟩,
    ⟨some .d, 1⟩, ⟨some .e, 0⟩, ⟨some .f, 0⟩, ⟨some .f, 1⟩, ⟨some .g, 0⟩, ⟨some .g, 1⟩]

lemma sharpNames_eq : sharpNames = sharpTones.map (·.text) := by decide

/-- In octave 1 the first three of the tones have the indices from twelve on, as they come after the
others. -/
lemma sharpTones_indexIn : ∀ r : Fin 12, ∃ tone ∈ sharpTones[r.val]?,
    tone.indexIn 1 = .ok (if r.val < 3 then (r.val : Int) + 12 else r.val) := by
  decide

lemma sharpTones_read : ∀ tone ∈ sharpTones, (tone.accidental = 0 ∨ tone.accidental = 1) ∧
    tone.isRest = false ∧ parseTones tone.text.toList = [tone] := by
  decide

/-- From octave to octave a tone rises by twelve. -/
lemma Tone.indexIn_eq {tone : Tone} {index : Int} (h : tone.indexIn 1 = .ok index) (octave : Int) :
    tone.indexIn octave = .ok (12 * (octave - 1) + index) := by
  unfold indexIn at h ⊢
  cases hletter : tone.letter with
  | none =>
      rw [hletter] at h
      cases h
  | some l =>
      rw [hletter] at h
      obtain rfl := Except.ok.inj h
      refine congrArg Except.ok ?_
      unfold PitchLetter.indexIn
      omega

lemma ofLetter?_of_isDecimalDigit {d : Char} (h : isDecimalDigit d = true) (shift : Int) :
    Tone.ofLetter? d shift = none := by
  rw [← Option.not_isSome_iff_eq_none, isSome_ofLetter?, (digit_ends_tones h).1]
  exact Bool.false_ne_true

lemma accidentalShift?_of_isDecimalDigit {d : Char} (h : isDecimalDigit d = true) :
    accidentalShift? d = none := by
  unfold accidentalShift?
  split
  · cases h
  · cases h
  · cases h
  · rfl

section

variable {digits : List Char} (h : ∀ d ∈ digits, isDecimalDigit d = true)

include h

lemma parseTones_eq_nil : parseTones digits = [] := by
  induction digits with
  | nil => rfl
  | cons d rest ih =>
      obtain ⟨hd, hrest⟩ := List.forall_mem_cons.mp h
      rw [parseTones, ofLetter?_of_isDecimalDigit hd, ih hrest]
      rfl

/-- Digits behind tones are passed over. -/
lemma parseTones_digits (letters : List Char) :
    parseTones (letters ++ digits) = parseTones letters := by
  induction letters with
  | nil => exact parseTones_eq_nil h
  | cons c rest ih =>
      -- only the last letter could take its accidental from a digit, and a digit is none
      have hshift : (rest ++ digits).head?.bind accidentalShift? =
          rest.head?.bind accidentalShift? := by
        cases rest with
        | cons d more => rfl
        | nil =>
            cases digits with
            | nil => rfl
            | cons d more => exact accidentalShift?_of_isDecimalDigit (h d List.mem_cons_self)
      rw [List.cons_append, parseTones, parseTones, hshift, ih]

end

lemma spell_eq (index : Nat) :
    spell index = (sharpNames[index % 12]?).getD "" ++ toString ((index + 9) / 12) := by
  have hmod : (index : Int).fmod 12 = ((index % 12 : Nat) : Int) := by
    rw [Int.fmod_eq_emod_of_nonneg _ (by decide)]
    rfl
  have hdiv : ((index : Int) - 3).fdiv 12 + 1 = (((index + 9) / 12 : Nat) : Int) := by
    rw [Int.fdiv_eq_ediv_of_nonneg _ (by decide)]
    omega
  rw [spell, hmod, hdiv]
  rfl

/-- **The tone of a name has, in the octave of the name, the index that was named.** -/
lemma isToneName_spell (index : Nat) :
    ∃ tone, IsToneName (spell index) tone ((index + 9) / 12) index := by
  obtain ⟨tone, hmem, hindex⟩ := sharpTones_indexIn ⟨index % 12, Nat.mod_lt _ (by decide)⟩
  dsimp only at hmem hindex
  obtain ⟨haccidental, hsounds, hread⟩ := sharpTones_read tone (List.mem_of_getElem? hmem)
  have hname : spell index = tone.text ++ toString ((index + 9) / 12) := by
    rw [spell_eq, sharpNames_eq, List.getElem?_map, hmem]
    rfl
  refine ⟨tone, hname, haccidental, hsounds, hread, ?_, ?_⟩
  · rw [hname, String.toList_append, Nat.toString_eq_ofList_toDigits, String.toList_ofList,
      parseTones_digits fun d hd => isDecimalDigit_of_isDigit (isDigit_of_mem_toDigits d hd), hread]
  · rw [Tone.indexIn_eq hindex]
    refine congrArg Except.ok ?_
    split <;> omega

example : (List.range 4).map (spell ·) = ["A0", "A#0", "B0", "C1"] := by decide

lemma isNameOf_indexName (index? : Option Nat) : IsNameOf (ScorePart.indexName index?) index? := by
  cases index? with
  | none => rfl
  | some index =>
      obtain ⟨tone, hname⟩ := isToneName_spell index
      exact ⟨tone, _, hname⟩

lemma isNameOf_indexName_iff {index? index?' : Option Nat} :
    IsNameOf (ScorePart.indexName index?) index?' ↔ index? = index?' := by
  constructor
  · exact (isNameOf_indexName index?).unique
  · rintro rfl
    exact isNameOf_indexName index?

/-! ## Names in a score -/

/-- The indices in the document of an event are its own, and so are those of the names there and of
no others. -/
structure Event.NamesTell (e : Event) (d : Document) : Prop where
  indices : ∃ given, d.HasItems "indices" given ∧ List.Forall₂ Document.MeansIndex given e.indices
  names : ∃ names : List String, d.HasItems "names" (names.map .text) ∧
    ∀ indices, List.Forall₂ IsNameOf names indices ↔ indices = e.indices

lemma Event.namesTell (e : Event) : e.NamesTell (.map (e.entries ++
    [("names", .list (e.indices.map fun i => .text (ScorePart.indexName i)))])) := by
  constructor
  case indices =>
    refine ⟨_, ⟨_, ⟨_, rfl, rfl⟩, rfl⟩, ?_⟩
    rw [List.forall₂_map_left_iff, List.forall₂_same]
    exact fun index? _ => Document.toIndex_eq_ok_iff.mp (toIndex_indexDocument index?)
  case names =>
    refine ⟨e.indices.map ScorePart.indexName, ⟨_, ⟨_, rfl, rfl⟩, ?_⟩, fun indices => ?_⟩
    · rw [List.map_map]
      rfl
    · simp only [List.forall₂_map_left_iff, isNameOf_indexName_iff, List.forall₂_eq_eq_eq]
      exact eq_comm

/-- The names in the document of a part tell the indices of its events, one by one. -/
def ScorePart.NamesTell (p : ScorePart) (d : Document) : Prop :=
  ∃ given, d.HasItems "events" given ∧ List.Forall₂ Event.NamesTell p.events given

lemma ScorePart.namesTell (p : ScorePart) : p.NamesTell p.toDocument := by
  refine ⟨_, ⟨_, ⟨_, rfl, rfl⟩, rfl⟩, ?_⟩
  rw [List.forall₂_map_right_iff, List.forall₂_same]
  exact fun e _ => e.namesTell

/-- **Names can be read back.**  The name of an index is a tone, which has no flat, and an octave,
whose numeral has no more digits than can be read if the index has not.  The tone is all that is
read from the name, and in the octave it has the index.  So no two indices have one name, nor has
any the name of a rest, and in the document of a score each event has its indices and beside them
names that are names of those and of no others. -/
theorem names_tell_indices :
    (∀ index : Nat, ∃ tone octave, IsToneName (spell index) tone octave index ∧
      (index < 10 ^ digitLimit → (toString octave).length ≤ digitLimit)) ∧
    Function.Injective ScorePart.indexName ∧
    ∀ s : Score, s.sortedParts.Perm s.parts ∧
      ∃ given, s.toDocument.HasItems "parts" given ∧
        List.Forall₂ ScorePart.NamesTell s.sortedParts given := by
  refine ⟨fun index => ?_, fun index? index?' h => ?_, fun s => ⟨List.mergeSort_perm _ _, ?_⟩⟩
  · obtain ⟨tone, hname⟩ := isToneName_spell index
    refine ⟨tone, _, hname, fun hlt => ?_⟩
    rw [Nat.toString_eq_ofList_toDigits, String.length_ofList,
      Nat.length_toDigits_le_iff (by decide) (by decide)]
    omega
  · rw [← isNameOf_indexName_iff, h]
    exact isNameOf_indexName index?'
  · refine ⟨_, ⟨_, ⟨_, rfl, rfl⟩, rfl⟩, ?_⟩
    rw [List.forall₂_map_right_iff, List.forall₂_same]
    exact fun p _ => p.namesTell

end MusicMacro
