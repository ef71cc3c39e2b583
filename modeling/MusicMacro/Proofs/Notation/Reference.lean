import Mathlib.Algebra.Field.Rat
import MusicMacro.Notation.Compile
import MusicMacro.Proofs.Notation.Grammar

/-!
# The meaning of a notation string without a state

The compiler threads a tempo, an octave and a cursor through the directives.  Here every
instruction is given its meaning from the instructions before it alone (`places`):

* the tempo and the octave of a note are the last ones before it (`tempoBefore`,
  `octaveBefore`), its seconds are those of the exact sum of its segments at that tempo
  (`WrittenNote.seconds`), and it starts where the notes before it end (`endOf`), whose seconds
  are added one by one from the first;
* an instruction is at fault for the first of the reasons that hold of it, in a fixed order
  (`Instruction.fault?`).

`reference` is the first fault of the instructions, or else the events of the notes.

## Lengths that no double holds

The sum of a note's lengths has a nearest double as long as it is below `2^1024` beats.  The
reference tells the contrary as a fault of its own, although no note of less than `2^63`
characters comes near it (`WrittenNote.isFinite_beats`).
-/

namespace MusicMacro

/-! ## What a note asks for -/

/-- The double nearest to a fraction. -/
def Double.ofRat (r : Rat) : Double := .ofFraction r.num r.den

/-- Seconds of a quarter note at a tempo above zero. -/
def beatSeconds (bpm : Int) : Double := .ofFraction 60 bpm.natAbs

/-- The frequency of an index, infinite where it has none. -/
def pitchFrequency (index : Int) : Double := (frequency index).toOption.getD (.infinite false)

namespace WrittenSegment

/-- The exact length in quarter notes. -/
def beats (s : WrittenSegment) : Rat := 4 / s.code * (if s.dotted then 3 / 2 else 1)

def isSupported (s : WrittenSegment) : Bool := s.code ∈ Duration.supportedCodes

end WrittenSegment

namespace WrittenNote

/-- The exact length in quarter notes, ties included. -/
def beats (n : WrittenNote) : Rat := (n.segments.map WrittenSegment.beats).sum

/-- The length in seconds at a tempo. -/
def seconds (n : WrittenNote) (bpm : Int) : Double := .ofRat n.beats * beatSeconds bpm

/-- The folded indices in an octave; only the first segment has pitches. -/
def indices (n : WrittenNote) (octave : Int) : List (Option Int) :=
  foldChord (n.first.tones.map (·.tone.index? octave))

end WrittenNote

/-- The position of a folded index. -/
def positionOf : Option Int → Position
  | none => ⟨none, .zero⟩
  | some index => ⟨some index.toNat, pitchFrequency index⟩

/-- Whether a folded index sounds at no finite frequency. -/
def isAboveRange (index? : Option Int) : Bool := index?.any fun i => !(pitchFrequency i).isFinite

namespace WrittenNote

/-- The event of a note that is at no fault. -/
def event (n : WrittenNote) (bpm octave : Int) (start : Double) : Event where
  positions := (n.indices octave).map positionOf
  start := .real start
  duration := .real (n.seconds bpm)
  stop := .real (start + n.seconds bpm)

/-- The first reason why a note is at fault at a tempo and in an octave. -/
def faultAt? (n : WrittenNote) (bpm octave : Int) : Option CompileError :=
  if n.segments.any (·.isTooLong) then some (.refused ⟨.codeTooLong, n.raw⟩)
  else if (n.indices octave).any (·.any (· < 0)) then some (.refused ⟨.belowLowestPitch, n.raw⟩)
  else
    match n.segments.find? (!·.isSupported) with
    | some s => some (.refused ⟨.unsupportedCode s.code, n.raw⟩)
    | none =>
      if !(Double.ofRat n.beats).isFinite then some (.number .quotientTooLarge)
      else if n.seconds bpm = .zero then some (.refused ⟨.tempoTooFast, n.raw⟩)
      else if (n.indices octave).any isAboveRange then some (.refused ⟨.aboveHighestPitch, n.raw⟩)
      else none

end WrittenNote

/-! ## What stands before an instruction -/

/-- Each of the instructions that follow others, with all those before it. -/
def placesFrom (before : List Instruction) : List Instruction → List (List Instruction × Instruction)
  | [] => []
  | i :: rest => (before, i) :: placesFrom (before ++ [i]) rest

/-- Each instruction with all those before it. -/
def places (is : List Instruction) : List (List Instruction × Instruction) := placesFrom [] is

namespace Instruction

def bpm? : Instruction → Option Int
  | tempo bpm _ => some bpm
  | _ => none

def octave? : Instruction → Option Int
  | .octave value _ => some value
  | _ => none

def isNote : Instruction → Bool
  | note _ => true
  | _ => false

/-- The text that messages show. -/
def raw : Instruction → String
  | tempo _ raw => raw
  | .octave _ raw => raw
  | note n => n.raw

end Instruction

/-- The last tempo among instructions. -/
def tempoBefore (before : List Instruction) : Option Int := (before.filterMap (·.bpm?)).getLast?

/-- The last octave among instructions. -/
def octaveBefore (before : List Instruction) : Option Int := (before.filterMap (·.octave?)).getLast?

/-- The seconds of a note after other instructions. -/
def Instruction.seconds? (before : List Instruction) : Instruction → Option Double
  | .tempo _ _ | .octave _ _ => none
  | .note n => (tempoBefore before).map n.seconds

/-- Where the notes of instructions end: their seconds, added one by one. -/
def endOf (is : List Instruction) : Double :=
  ((places is).filterMap fun (before, i) => i.seconds? before).foldl (· + ·) .zero

namespace Instruction

/-- The event of a note after other instructions. -/
def event? (before : List Instruction) : Instruction → Option Event
  | tempo _ _ | .octave _ _ => none
  | note n =>
    match tempoBefore before, octaveBefore before with
    | some bpm, some value => some (n.event bpm value (endOf before))
    | _, _ => none

/-- Why an instruction is at fault after other ones. -/
def fault? (before : List Instruction) : Instruction → Option CompileError
  | tempo bpm raw =>
    if bpm ≤ 0 then some (.refused ⟨.tempoNotPositive (.whole bpm), raw⟩)
    else if beatSeconds bpm = .zero then some (.refused ⟨.tempoTooFast, raw⟩)
    else none
  | .octave value raw =>
    if value < 0 then some (.refused ⟨.octaveNegative (.whole value), raw⟩) else none
  | note n =>
    match tempoBefore before, octaveBefore before with
    | none, _ => some (.refused ⟨.missingTempo, n.raw⟩)
    | some _, none => some (.refused ⟨.missingOctave, n.raw⟩)
    | some bpm, some value => n.faultAt? bpm value

end Instruction

/-- The first fault among instructions, or the events of their notes. -/
def reference (is : List Instruction) : Except CompileError (List Event) :=
  match (places is).findSome? fun (before, i) => i.fault? before with
  | some e => .error e
  | none => .ok ((places is).filterMap fun (before, i) => i.event? before)

/-! ## Instructions in order -/

lemma placesFrom_append (before is is' : List Instruction) :
    placesFrom before (is ++ is') = placesFrom before is ++ placesFrom (before ++ is) is' := by
  induction is generalizing before with
  | nil => rw [List.nil_append, List.append_nil]; rfl
  | cons i rest ih =>
      rw [List.cons_append, placesFrom, ih, List.append_assoc, List.singleton_append]
      rfl

/-- The instruction at a place stands after exactly the ones at the places before it. -/
lemma getElem?_placesFrom (before is : List Instruction) (k : Nat) :
    (placesFrom before is)[k]? = is[k]?.map (before ++ is.take k, ·) := by
  induction is generalizing before k with
  | nil => rfl
  | cons i rest ih =>
      cases k with
      | zero => simp [placesFrom]
      | succ k => simp [placesFrom, ih]

lemma tempoBefore_snoc (before : List Instruction) (i : Instruction) :
    tempoBefore (before ++ [i]) = i.bpm?.or (tempoBefore before) := by
  rw [tempoBefore, List.filterMap_append]
  cases i with
  | tempo bpm raw => exact List.getLast?_concat
  | octave value raw => exact congrArg List.getLast? (List.append_nil _)
  | note n => exact congrArg List.getLast? (List.append_nil _)

lemma octaveBefore_snoc (before : List Instruction) (i : Instruction) :
    octaveBefore (before ++ [i]) = i.octave?.or (octaveBefore before) := by
  rw [octaveBefore, List.filterMap_append]
  cases i with
  | tempo bpm raw => exact congrArg List.getLast? (List.append_nil _)
  | octave value raw => exact List.getLast?_concat
  | note n => exact congrArg List.getLast? (List.append_nil _)

lemma endOf_snoc (before : List Instruction) (i : Instruction) :
    endOf (before ++ [i]) = (i.seconds? before).elim (endOf before) (endOf before + ·) := by
  have hplaces : places (before ++ [i]) = places before ++ [(before, i)] := by
    rw [places, placesFrom_append]
    rfl
  rw [endOf, hplaces, List.filterMap_append, List.foldl_append, ← endOf]
  cases h : i.seconds? before with
  | none => rw [List.filterMap_cons_none (by exact h)]; rfl
  | some seconds => rw [List.filterMap_cons_some (by exact h)]; rfl

end MusicMacro
