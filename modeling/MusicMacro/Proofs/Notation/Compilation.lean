import MusicMacro.Proofs.Notation.Lengths

/-!
# The compiler computes the reference

`compileDirectives_eq_reference`: on instructions the compiler returns what the reference says,
whatever they are.  The loop is followed by `stateAfter`, the state in which instructions at no
fault leave the compiler, told by the reference alone; one step is
`Instruction.compileFrom_directive`, and it stands on the one lemma about notes,
`WrittenNote.compileNote_raw`.
-/

namespace MusicMacro

/-! ## Pitches -/

/-- A folded index that is no rest is refused where it has no finite frequency. -/
lemma soundingPosition_eq (raw : String) (index? : Option Int) :
    soundingPosition raw index? =
      if isAboveRange index? then .error (.refused ⟨.aboveHighestPitch, raw⟩)
      else .ok (positionOf index?) := by
  cases index? with
  | none => rfl
  | some index =>
      rw [soundingPosition, isAboveRange, Option.any_some, positionOf, pitchFrequency]
      cases frequency index with
      | error e => rfl
      | ok f =>
          change (if f.isFinite = true then _ else _) = if (!f.isFinite) = true then _ else _
          cases f.isFinite <;> rfl

lemma mapM_soundingPosition (raw : String) (indices : List (Option Int)) :
    indices.mapM (soundingPosition raw) =
      if indices.any isAboveRange then .error (.refused ⟨.aboveHighestPitch, raw⟩)
      else .ok (indices.map positionOf) := by
  rw [mapM_eq_find? isAboveRange (fun _ => CompileError.refused ⟨.aboveHighestPitch, raw⟩)
    positionOf (soundingPosition_eq raw), ← List.isSome_find?]
  cases indices.find? isAboveRange <;> rfl

lemma any_below_eq_false_iff {indices : List (Option Int)} :
    (indices.any fun index? => index?.any (· < 0)) = false ↔
      ∀ index? ∈ indices, ∀ index ∈ index?, 0 ≤ index := by
  rw [List.any_eq_false]
  refine forall₂_congr fun index? _ => ?_
  cases index? with
  | none => simp
  | some index => simp

/-! ## Notes -/

namespace WrittenNote

variable (n : WrittenNote)

lemma chordIndices_letters (octave : Int) :
    chordIndices (parseTones n.first.segment.letters) octave = n.indices octave := by
  rw [chordIndices, WrittenSegment.segment, WrittenSegment.letters, parseTones_letters,
    List.map_map]
  rfl

/-- An event that starts at an unsigned time and takes a positive one passes the checks. -/
lemma make_event {positions : List Position} {start seconds stop : Double}
    (hstart : start.IsUnsigned) (hseconds : Double.zero.less seconds = true) :
    Event.make positions (.real start) (.real seconds) (.real stop) =
      .ok ⟨positions, .real start, .real seconds, .real stop⟩ := by
  rw [Event.make, Event.checkDuration, Event.checkStart, Number.real_atMost_zero,
    Number.real_less_zero, Double.not_atMost_of_less hseconds, hstart.not_less_zero]
  rfl

/-- The positions and seconds of a note whose codes can all be read. -/
lemma resolveNote_segments {bpm octave : Int} (hbpm : 0 < bpm)
    (hcodes : n.segments.any (·.isTooLong) = false) :
    resolveNote n.raw (beatSeconds bpm) (.whole octave) n.first.segment
        (n.tied.map WrittenSegment.segment) =
      match n.faultAt? bpm octave with
      | some e => .error e
      | none => .ok ((n.indices octave).map positionOf, n.seconds bpm) := by
  rw [resolveNote, faultAt?, hcodes, if_neg Bool.false_ne_true]
  dsimp only
  rw [n.chordIndices_letters, n.noteSeconds_segments hbpm, mapM_soundingPosition]
  cases (n.indices octave).any fun index? => index?.any (· < 0) with
  | true => rfl
  | false =>
      cases n.segments.find? (!·.isSupported) with
      | some s => rfl
      | none =>
          cases (Double.ofRat n.beats).isFinite with
          | false => rfl
          | true =>
              by_cases hzero : n.seconds bpm = .zero
              · simp only [Bool.not_true, Bool.false_eq_true, if_false, if_pos hzero]
                rfl
              · simp only [Bool.not_true, Bool.false_eq_true, if_false, if_neg hzero]
                cases (n.indices octave).any isAboveRange <;> rfl

/-- What is right of a note that is at no fault at a tempo and in an octave. -/
structure IsFaultless (bpm octave : Int) : Prop where
  supported : ∀ s ∈ n.segments, s.isSupported = true
  finite_beats : (Double.ofRat n.beats).isFinite = true
  takes_time : n.seconds bpm ≠ .zero
  not_below : ∀ index? ∈ n.indices octave, ∀ index ∈ index?, 0 ≤ index
  not_above : ∀ index? ∈ n.indices octave, isAboveRange index? = false

lemma isFaultless_of_faultAt? {bpm octave : Int} (h : n.faultAt? bpm octave = none) :
    n.IsFaultless bpm octave := by
  unfold faultAt? at h
  split at h
  · cases h
  split at h
  · cases h
  rename_i hlow
  split at h
  · cases h
  rename_i hfind
  split at h
  · cases h
  rename_i hfinite
  split at h
  · cases h
  rename_i hzero
  split at h
  · cases h
  rename_i hhigh
  exact
    { supported := fun s hs => by simpa using List.find?_eq_none.mp hfind s hs
      finite_beats := by simpa using hfinite
      takes_time := hzero
      not_below := any_below_eq_false_iff.mp (Bool.eq_false_iff.mpr hlow)
      not_above := fun index? hmem => by
        simpa using List.any_eq_false.mp (Bool.not_eq_true _ ▸ hhigh) _ hmem }

/-- A note that is at no fault takes some time. -/
lemma seconds_of_faultAt? {bpm octave : Int} (hbpm : 0 < bpm)
    (h : n.faultAt? bpm octave = none) :
    (n.seconds bpm).IsUnsigned ∧ n.seconds bpm ≠ .zero := by
  have hright := n.isFaultless_of_faultAt? h
  exact ⟨n.seconds_isUnsigned hbpm hright.supported hright.finite_beats, hright.takes_time⟩

/-- **Compiling a note** after a tempo and an octave gives its first fault, or its event and the
time at which that stops. -/
lemma compileNote_raw {bpm octave : Int} {cursor : Double} (hbpm : 0 < bpm)
    (hcursor : cursor.IsUnsigned) :
    compileNote n.raw ⟨some (beatSeconds bpm), some (.whole octave), cursor⟩ =
      match n.faultAt? bpm octave with
      | some e => .error e
      | none => .ok (n.event bpm octave cursor,
          ⟨some (beatSeconds bpm), some (.whole octave), cursor + n.seconds bpm⟩) := by
  unfold compileNote
  dsimp only
  rw [n.ofNote_raw]
  cases hcodes : n.segments.any (·.isTooLong) with
  | true =>
      have hfault : n.faultAt? bpm octave = some (.refused ⟨.codeTooLong, n.raw⟩) := if_pos hcodes
      rw [hfault]
      rfl
  | false =>
      rw [if_neg Bool.false_ne_true, mapError_ok, ok_bind, segments, List.map_cons]
      dsimp only
      rw [n.resolveNote_segments hbpm hcodes]
      cases hfault : n.faultAt? bpm octave with
      | some e => rfl
      | none =>
          obtain ⟨hsign, hzero⟩ := n.seconds_of_faultAt? hbpm hfault
          have hless := hsign.zero_less_iff.mpr hzero
          rw [event]
          -- with a name for the seconds nothing tries to compute them
          generalize n.seconds bpm = seconds at hless ⊢
          dsimp only
          rw [ok_bind, make_event hcursor hless, mapError_ok, ok_bind]
          rfl

end WrittenNote

/-! ## The loop -/

/-- The state in which the compiler has read instructions that are at no fault. -/
def stateAfter (is : List Instruction) : CompileState where
  perBeat := (tempoBefore is).map beatSeconds
  octave := (octaveBefore is).map .whole
  cursor := endOf is

/-- What instructions that are at no fault leave to later ones. -/
structure Instruction.Sound (is : List Instruction) : Prop where
  tempo : ∀ bpm, tempoBefore is = some bpm → 0 < bpm
  cursor : (endOf is).IsUnsigned

namespace Instruction

lemma sound_nil : Sound [] := ⟨fun _ h => (by cases h), Double.zero_isUnsigned⟩

/-- One more instruction at no fault. -/
lemma Sound.snoc {before : List Instruction} {i : Instruction} (h : Sound before)
    (hfault : i.fault? before = none) : Sound (before ++ [i]) := by
  cases i with
  | tempo bpm raw =>
      have hbpm : 0 < bpm := by
        by_contra hcon
        rw [fault?, if_pos (Int.not_lt.mp hcon)] at hfault
        cases hfault
      refine ⟨fun bpm' hbpm' => ?_, ?_⟩
      · rw [tempoBefore_snoc] at hbpm'
        obtain rfl := Option.some.inj hbpm'
        exact hbpm
      · rw [endOf_snoc]
        exact h.cursor
  | octave value raw =>
      refine ⟨fun bpm hbpm => h.tempo bpm ?_, ?_⟩
      · rwa [tempoBefore_snoc] at hbpm
      · rw [endOf_snoc]
        exact h.cursor
  | note n =>
      refine ⟨fun bpm hbpm => h.tempo bpm ?_, ?_⟩
      · rwa [tempoBefore_snoc] at hbpm
      · rw [endOf_snoc, seconds?]
        cases htempo : tempoBefore before with
        | none => exact h.cursor
        | some bpm =>
            rw [fault?, htempo] at hfault
            cases hoctave : octaveBefore before with
            | none =>
                rw [hoctave] at hfault
                cases hfault
            | some value =>
                rw [hoctave] at hfault
                exact h.cursor.add (n.seconds_of_faultAt? (h.tempo bpm htempo) hfault).1

end Instruction

lemma compileTempo_whole (bpm : Int) (raw : String) :
    compileTempo (.whole bpm) raw =
      if bpm ≤ 0 then .error (.refused ⟨.tempoNotPositive (.whole bpm), raw⟩)
      else if beatSeconds bpm = .zero then .error (.refused ⟨.tempoTooFast, raw⟩)
      else .ok (beatSeconds bpm) := by
  have hsign : (beatSeconds bpm).IsUnsigned := by
    rw [beatSeconds, Double.ofFraction, decide_eq_false (by decide)]
    exact Double.isUnsigned_ofUnits _ _
  rw [compileTempo, secondsPerBeat, Number.whole_atMost_zero]
  by_cases hbpm : bpm ≤ 0
  · simp only [hbpm, decide_true, if_true]
  · simp only [hbpm, decide_false, Bool.false_eq_true, if_false]
    rw [← beatSeconds]
    by_cases hzero : beatSeconds bpm = .zero
    · rw [if_pos hzero, if_neg fun hless => hsign.zero_less_iff.mp hless hzero]
    · rw [if_neg hzero, if_pos (hsign.zero_less_iff.mpr hzero)]

namespace Instruction

/-- **One step of the compiler**: an instruction is refused for its fault, or adds its event and
leaves the state to the ones after it. -/
lemma compileFrom_directive {before : List Instruction} (h : Sound before) (i : Instruction)
    (rest : List Directive) :
    compileFrom (stateAfter before) (i.directive :: rest) =
      match i.fault? before with
      | some e => .error e
      | none =>
        (compileFrom (stateAfter (before ++ [i])) rest).map ((i.event? before).toList ++ ·) := by
  have hid (x : Except CompileError (List Event)) : x.map (([] : List Event) ++ ·) = x := by
    cases x <;> rfl
  cases i with
  | tempo bpm raw =>
      rw [directive, compileFrom, compileTempo_whole, fault?]
      by_cases hbpm : bpm ≤ 0
      · rw [if_pos hbpm, if_pos hbpm]
      by_cases hzero : beatSeconds bpm = .zero
      · rw [if_neg hbpm, if_neg hbpm, if_pos hzero, if_pos hzero]
      · rw [if_neg hbpm, if_neg hbpm, if_neg hzero, if_neg hzero]
        dsimp only
        rw [event?, Option.toList_none, hid, stateAfter, stateAfter, tempoBefore_snoc,
          octaveBefore_snoc, endOf_snoc]
        rfl
  | octave value raw =>
      rw [directive, compileFrom, Number.whole_less_zero, fault?]
      by_cases hvalue : value < 0
      · rw [if_pos (decide_eq_true hvalue), if_pos hvalue]
      · rw [decide_eq_false hvalue, if_neg Bool.false_ne_true, if_neg hvalue]
        dsimp only
        rw [event?, Option.toList_none, hid, stateAfter, stateAfter, tempoBefore_snoc,
          octaveBefore_snoc, endOf_snoc]
        rfl
  | note n =>
      rw [directive, compileFrom, fault?, event?, stateAfter, stateAfter, tempoBefore_snoc,
        octaveBefore_snoc, endOf_snoc, seconds?]
      cases htempo : tempoBefore before with
      | none => rfl
      | some bpm =>
          cases hoctave : octaveBefore before with
          | none => rfl
          | some value =>
              dsimp only [Option.map_some]
              rw [n.compileNote_raw (h.tempo bpm htempo) h.cursor]
              cases hfault : n.faultAt? bpm value with
              | some e => rfl
              | none => rfl

end Instruction

/-- The compiler reads instructions after others as the reference does. -/
lemma compileFrom_stateAfter {before : List Instruction} (h : Instruction.Sound before)
    (is : List Instruction) :
    compileFrom (stateAfter before) (is.map (·.directive)) =
      match (placesFrom before is).findSome? fun (before, i) => i.fault? before with
      | some e => .error e
      | none => .ok ((placesFrom before is).filterMap fun (before, i) => i.event? before) := by
  induction is generalizing before with
  | nil => rfl
  | cons i rest ih =>
      rw [List.map_cons, i.compileFrom_directive h, placesFrom, List.findSome?_cons]
      dsimp only
      cases hfault : i.fault? before with
      | some e => rfl
      | none =>
          dsimp only
          rw [ih (h.snoc hfault)]
          cases (placesFrom (before ++ [i]) rest).findSome? fun (before, i) => i.fault? before with
          | some e => rfl
          | none =>
              cases hevent : i.event? before with
              | none => rw [List.filterMap_cons_none (by exact hevent)]; rfl
              | some e => rw [List.filterMap_cons_some (by exact hevent)]; rfl

lemma compileDirectives_instructions (is : List Instruction) :
    compileDirectives (is.map (·.directive)) = reference is :=
  compileFrom_stateAfter Instruction.sound_nil is

/-! ## One event for each note -/

/-- The note of an instruction. -/
def Instruction.note? : Instruction → Option WrittenNote
  | note n => some n
  | _ => none

/-- The event is that of the note, which is at no fault, at some tempo and in some octave. -/
def WrittenNote.Makes (n : WrittenNote) (e : Event) : Prop :=
  ∃ bpm octave start, n.faultAt? bpm octave = none ∧ e = n.event bpm octave start

/-- The events of instructions at no fault are those of their notes, one by one. -/
lemma events_of_notes {before : List Instruction} {is : List Instruction}
    (h : ((placesFrom before is).findSome? fun (before, i) => i.fault? before) = none) :
    List.Forall₂ WrittenNote.Makes (is.filterMap (·.note?))
      ((placesFrom before is).filterMap fun (before, i) => i.event? before) := by
  induction is generalizing before with
  | nil => exact .nil
  | cons i rest ih =>
      rw [placesFrom, List.findSome?_cons] at h
      rw [placesFrom]
      cases hfault : i.fault? before with
      | some e =>
          simp only [hfault] at h
          cases h
      | none =>
          simp only [hfault] at h
          have hrest := ih h
          cases i with
          | tempo bpm raw =>
              rw [List.filterMap_cons_none rfl, List.filterMap_cons_none rfl]
              exact hrest
          | octave value raw =>
              rw [List.filterMap_cons_none rfl, List.filterMap_cons_none rfl]
              exact hrest
          | note n =>
              rw [Instruction.fault?] at hfault
              cases htempo : tempoBefore before with
              | none =>
                  rw [htempo] at hfault
                  cases hfault
              | some bpm =>
                  cases hoctave : octaveBefore before with
                  | none =>
                      rw [htempo, hoctave] at hfault
                      cases hfault
                  | some value =>
                      rw [htempo, hoctave] at hfault
                      have hevent : (Instruction.note n).event? before =
                          some (n.event bpm value (endOf before)) := by
                        rw [Instruction.event?, htempo, hoctave]
                      have hnote : (Instruction.note n).note? = some n := rfl
                      rw [List.filterMap_cons_some hnote,
                        List.filterMap_cons_some (by exact hevent)]
                      exact .cons ⟨bpm, value, endOf before, hfault, rfl⟩ hrest

lemma length_filterMap_note? (is : List Instruction) :
    (is.filterMap (·.note?)).length = is.countP (·.isNote) := by
  rw [List.length_filterMap_eq_countP]
  congr 1
  funext i
  cases i <;> rfl

lemma length_events {before : List Instruction} {is : List Instruction}
    (h : ((placesFrom before is).findSome? fun (before, i) => i.fault? before) = none) :
    ((placesFrom before is).filterMap fun (before, i) => i.event? before).length =
      is.countP (·.isNote) := by
  rw [← (events_of_notes h).length_eq, length_filterMap_note?]

/-- **The events of a text are those of the notes that are cut from it**, one by one. -/
lemma exists_instructions_of_compileText {text : String} {events : List Event}
    (h : (compileText text).2 = .ok events) :
    ∃ is : List Instruction, (tokenize text).2 = .ok (is.map (·.directive)) ∧
      List.Forall₂ WrittenNote.Makes (is.filterMap (·.note?)) events := by
  unfold compileText at h
  split at h
  · cases h
  · rename_i log directives htokens
    obtain ⟨is, rfl, -⟩ := exists_instructions_of_tokenize (congrArg Prod.snd htokens)
    rw [compileDirectives_instructions, reference] at h
    refine ⟨is, congrArg Prod.snd htokens, ?_⟩
    split at h
    · cases h
    · rename_i hnone
      obtain rfl := Except.ok.inj h
      exact events_of_notes hnone

/-! ## Faults -/

namespace WrittenNote

variable (n : WrittenNote)

/-- Why a note may be at fault. -/
lemma faultAt?_cases {bpm octave : Int} {e : CompileError} (h : n.faultAt? bpm octave = some e) :
    (∃ cause ∈ [.codeTooLong, .belowLowestPitch, .tempoTooFast, .aboveHighestPitch],
      e = .refused ⟨cause, n.raw⟩) ∨
    (∃ s ∈ n.segments, s.isTooLong = false ∧ e = .refused ⟨.unsupportedCode s.code, n.raw⟩) ∨
    (∀ s ∈ n.segments, s.isSupported = true) ∧ (Double.ofRat n.beats).isFinite = false ∧
      e = .number .quotientTooLarge := by
  unfold faultAt? at h
  split at h
  · exact .inl ⟨_, by decide, (Option.some.inj h).symm⟩
  rename_i hcodes
  split at h
  · exact .inl ⟨_, by decide, (Option.some.inj h).symm⟩
  split at h
  · rename_i s hfind
    have hs := List.mem_of_find?_eq_some hfind
    have hcode : s.isTooLong = false := by
      simpa using List.any_eq_false.mp (Bool.not_eq_true _ ▸ hcodes) s hs
    exact .inr (.inl ⟨s, hs, hcode, (Option.some.inj h).symm⟩)
  rename_i hfind
  split at h
  · rename_i hfinite
    refine .inr (.inr ⟨fun s hs => ?_, by simpa using hfinite, (Option.some.inj h).symm⟩)
    simpa using List.find?_eq_none.mp hfind s hs
  split at h
  · exact .inl ⟨_, by decide, (Option.some.inj h).symm⟩
  split at h
  · exact .inl ⟨_, by decide, (Option.some.inj h).symm⟩
  · cases h

/-- A note of less than `2^63` characters is at no fault but for a reason to refuse it. -/
lemma faultAt?_refused {bpm octave : Int} {e : CompileError} (hlength : n.text.length < 2 ^ 63)
    (h : n.faultAt? bpm octave = some e) : ∃ cause, e = .refused ⟨cause, n.raw⟩ := by
  rcases n.faultAt?_cases h with ⟨cause, -, rfl⟩ | ⟨s, -, -, rfl⟩ | ⟨hall, hinfinite, -⟩
  · exact ⟨cause, rfl⟩
  · exact ⟨_, rfl⟩
  · rw [n.isFinite_beats hall hlength] at hinfinite
    cases hinfinite

end WrittenNote

/-- The fault of an instruction refuses its text. -/
lemma Instruction.fault?_refused {before : List Instruction} {i : Instruction} {e : CompileError}
    (hlength : ∀ n, i = .note n → n.text.length < 2 ^ 63) (h : i.fault? before = some e) :
    ∃ cause, e = .refused ⟨cause, i.raw⟩ := by
  unfold fault? at h
  split at h
  · split at h
    · exact ⟨_, (Option.some.inj h).symm⟩
    split at h
    · exact ⟨_, (Option.some.inj h).symm⟩
    · cases h
  · split at h
    · exact ⟨_, (Option.some.inj h).symm⟩
    · cases h
  · split at h
    · exact ⟨_, (Option.some.inj h).symm⟩
    · exact ⟨_, (Option.some.inj h).symm⟩
    · exact WrittenNote.faultAt?_refused _ (hlength _ rfl) h

/-- The first instruction at fault, with its place and its fault. -/
structure Instruction.IsFirstFault (is : List Instruction) (k : Nat) (i : Instruction)
    (e : CompileError) : Prop where
  place : is[k]? = some i
  fault : i.fault? (is.take k) = some e
  before : ∀ j < k, ∀ i' : Instruction, is[j]? = some i' → i'.fault? (is.take j) = none

/-- What the reference refuses has a first instruction at fault. -/
lemma exists_isFirstFault {is : List Instruction} {e : CompileError} (h : reference is = .error e) :
    ∃ k i, Instruction.IsFirstFault is k i e := by
  unfold reference at h
  split at h
  · rename_i e' hfind
    obtain rfl := Except.error.inj h
    obtain ⟨front, ⟨before, i⟩, rest, hplaces, hfault, hfront⟩ := List.findSome?_eq_some_iff.mp hfind
    have hget (j : Nat) : (front ++ (before, i) :: rest)[j]? = is[j]?.map (is.take j, ·) := by
      rw [← hplaces, places, getElem?_placesFrom, List.nil_append]
    have hplace := hget front.length
    rw [List.getElem?_append_right (Nat.le_refl _), Nat.sub_self, List.getElem?_cons_zero] at hplace
    obtain ⟨i', hi', heq⟩ := Option.map_eq_some_iff.mp hplace.symm
    obtain ⟨rfl, rfl⟩ := Prod.mk.inj heq
    refine ⟨front.length, i', hi', hfault, fun j hj i'' hi'' => ?_⟩
    have hj' := hget j
    rw [List.getElem?_append_left hj, hi'', Option.map_some] at hj'
    exact hfront _ (List.mem_of_getElem? hj')
  · cases h

/-- **The compiler computes the reference.**  What is read from a notation string are
instructions, and on any instructions

* the compiler returns what the reference says: the events of the notes, each with its length at
  the last tempo and its pitches in the last octave before it and with its start where the notes
  before it end, or else the first fault;
* if there is no fault there is one event for each note;
* if there is one, and no note is longer than a text can be, then the text is refused for the
  cause that comes first at the first place at fault, and with the token at that place. -/
theorem compileDirectives_eq_reference :
    (∀ text directives, (tokenize text).2 = .ok directives →
      ∃ is : List Instruction, directives = is.map (·.directive)) ∧
    ∀ is : List Instruction,
      compileDirectives (is.map (·.directive)) = reference is ∧
      (∀ events, reference is = .ok events → events.length = is.countP (·.isNote)) ∧
      ∀ e, reference is = .error e → (∀ n, .note n ∈ is → n.text.length < 2 ^ 63) →
        ∃ k i cause, Instruction.IsFirstFault is k i e ∧ e = .refused ⟨cause, i.raw⟩ := by
  refine ⟨fun text directives h => ?_, fun is =>
    ⟨compileDirectives_instructions is, fun events h => ?_, fun e h hlength => ?_⟩⟩
  · obtain ⟨is, his, -⟩ := exists_instructions_of_tokenize h
    exact ⟨is, his.symm⟩
  · unfold reference at h
    split at h
    · cases h
    · rename_i hnone
      obtain rfl := Except.ok.inj h
      exact length_events hnone
  · obtain ⟨k, i, hfirst⟩ := exists_isFirstFault h
    have hi := List.mem_of_getElem? hfirst.place
    obtain ⟨cause, rfl⟩ := Instruction.fault?_refused (fun n hn => hlength n (by rwa [hn] at hi))
      hfirst.fault
    exact ⟨k, i, cause, hfirst, rfl⟩

end MusicMacro
