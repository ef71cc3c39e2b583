import Mathlib.Algebra.Order.Field.Basic
import Mathlib.Algebra.Order.Field.Rat
import Mathlib.Tactic.FieldSimp
import Mathlib.Tactic.Linarith
import Mathlib.Tactic.NormNum
import Mathlib.Tactic.Positivity
import Mathlib.Tactic.Ring
import MusicMacro.Proofs.Midi.Boundaries
import MusicMacro.Proofs.Midi.Encoding

/-!
# Playback against the grid

Ticks are counted at the tempo of a grid in beats per minute, and a file is played at the whole
microseconds of its quarter notes, from which the rest of `60000000` divided by the tempo is
dropped (`floor_nearestUnits`).  Each second of a file thus lacks the part `TickGrid.loss` of
itself, and the lack adds up.

A tick lies within half a tick, and the rounding of a quotient to a double, of the exact place of
a whole number of seconds (`TickGrid.ticks_near`).  So the time at which a file plays it is off by
what the file has lost until then, up to half a tick and that rounding
(`file_keeps_time_up_to_loss`); a loss and a rounding of at most another half a tick leave it within
one tick.
-/

namespace MusicMacro

/-! ## The error of a rounded quotient -/

namespace Magnitude

/-- A quotient of at least `2^52` units is rounded by at most the part `2^-53` of itself. -/
lemma nearestUnits_near {num den : Nat} (hden : 0 < den) (h : 2 ^ 52 ≤ num / den) :
    2 ^ 53 * (nearestUnits num den * den) ≤ 2 ^ 53 * num + num ∧
      2 ^ 53 * num ≤ 2 ^ 53 * (nearestUnits num den * den) + num := by
  have hstep : 2 ^ 52 * (den * spacing (num / den)) ≤ num := by
    have hlog : 52 ≤ (num / den).log2 := (Nat.le_log2 (by omega)).mpr h
    have hpower : 2 ^ 52 * spacing (num / den) ≤ num / den := by
      rw [spacing_eq, ← Nat.pow_add, Nat.add_sub_cancel' hlog]
      exact Nat.log2_self_le (by omega)
    calc 2 ^ 52 * (den * spacing (num / den)) = 2 ^ 52 * spacing (num / den) * den := by ring
      _ ≤ num / den * den := Nat.mul_le_mul_right _ hpower
      _ ≤ num := Nat.div_mul_le_self _ _
  obtain ⟨hlow, hhigh⟩ := roundDiv_near (Nat.mul_pos hden (spacing_pos (num / den))) num
  have hunits : nearestUnits num den * den =
      roundDiv num (den * spacing (num / den)) * (den * spacing (num / den)) := by
    rw [nearestUnits]
    ring
  rw [hunits]
  omega

lemma two_pow_le_unitsPerWhole : 2 ^ 100 ≤ unitsPerWhole := by
  have hexponents : 100 ≤ 1074 := by decide
  unfold unitsPerWhole
  generalize 1074 = k at hexponents ⊢
  exact Nat.pow_le_pow_right (by decide) hexponents

/-- The quotient of `60000000` stays below the next whole number by more than it is rounded. -/
lemma floor_nearestUnits_of_le {bpm : Nat} (hbpm : 0 < bpm) (hle : bpm ≤ 2 ^ 27) :
    nearestUnits (60000000 * unitsPerWhole) bpm / unitsPerWhole = 60000000 / bpm := by
  have hquotient := Nat.div_add_mod 60000000 bpm
  have hrest := Nat.mod_lt 60000000 hbpm
  have hsmall : 60000000 / bpm ≤ 60000000 := Nat.div_le_self _ _
  have hfloor := nearestUnits_whole (n := 60000000 / bpm) (by omega)
  have hlarge := two_pow_le_unitsPerWhole
  have hwhole := Double.unitsPerWhole_pos
  generalize unitsPerWhole = whole at hfloor hlarge hwhole ⊢
  generalize 60000000 / bpm = quotient at *
  have hlow : quotient * whole ≤ nearestUnits (60000000 * whole) bpm := by
    rw [← hfloor]
    refine nearestUnits_mono Nat.one_pos hbpm ?_
    calc quotient * whole * bpm = bpm * quotient * whole := by ring
      _ ≤ 60000000 * whole := Nat.mul_le_mul_right _ (by omega)
      _ = 60000000 * whole * 1 := (Nat.mul_one _).symm
  have hhigh : nearestUnits (60000000 * whole) bpm < (quotient + 1) * whole := by
    have hnear := (@nearestUnits_near (60000000 * whole) _ hbpm
      ((Nat.le_div_iff_mul_le hbpm).mpr (by omega))).1
    have hnext : 60000001 * whole ≤ (quotient + 1) * whole * bpm := by
      calc 60000001 * whole ≤ (bpm * quotient + bpm) * whole := Nat.mul_le_mul_right _ (by omega)
        _ = (quotient + 1) * whole * bpm := by ring
    exact Nat.lt_of_mul_lt_mul_right (a := bpm) (by omega)
  exact Nat.div_eq_of_lt_le hlow hhigh

/-- The whole part of the double nearest to `60000000 / bpm` is that of the quotient itself. -/
lemma floor_nearestUnits {bpm : Nat} (hbpm : 0 < bpm) :
    nearestUnits (60000000 * unitsPerWhole) bpm / unitsPerWhole = 60000000 / bpm := by
  rcases Nat.le_total bpm (2 ^ 27) with hle | hle
  · exact floor_nearestUnits_of_le hbpm hle
  · have hzero : nearestUnits (60000000 * unitsPerWhole) (2 ^ 27) / unitsPerWhole =
        60000000 / 2 ^ 27 := floor_nearestUnits_of_le (by decide) (Nat.le_refl _)
    have hmono : nearestUnits (60000000 * unitsPerWhole) bpm ≤
        nearestUnits (60000000 * unitsPerWhole) (2 ^ 27) :=
      nearestUnits_mono hbpm (by decide) (Nat.mul_le_mul_left _ hle)
    have hnone : 60000000 / bpm = 0 := Nat.div_eq_of_lt (by omega)
    rw [hnone, ← Nat.le_zero]
    exact (Nat.div_le_div_right hmono).trans hzero.le

end Magnitude

/-! ## The tick of a whole number of seconds -/

namespace TickGrid

open Magnitude

/-- The whole number nearest to the double nearest to the sixtieth part of a number. -/
def sixtieth (n : Nat) : Nat := roundDiv (nearestUnits (n * unitsPerWhole) 60) unitsPerWhole

/-- A sixtieth is off by at most a half and the error of the quotient. -/
lemma sixtieth_near (n : Nat) :
    2 ^ 53 * (60 * sixtieth n) ≤ 2 ^ 53 * (n + 30) + n ∧
      2 ^ 53 * n ≤ 2 ^ 53 * (60 * sixtieth n + 30) + n := by
  have hlarge := two_pow_le_unitsPerWhole
  have hwhole := Double.unitsPerWhole_pos
  rw [sixtieth]
  generalize unitsPerWhole = whole at hlarge hwhole ⊢
  obtain ⟨hlow, hhigh⟩ := roundDiv_near hwhole (nearestUnits (n * whole) 60)
  have hnearest : 2 ^ 53 * (nearestUnits (n * whole) 60 * 60) ≤ 2 ^ 53 * (n * whole) + n * whole ∧
      2 ^ 53 * (n * whole) ≤ 2 ^ 53 * (nearestUnits (n * whole) 60 * 60) + n * whole := by
    rcases Nat.eq_zero_or_pos n with rfl | hpos
    · rw [Nat.zero_mul, nearestUnits_zero]
      decide
    · refine nearestUnits_near (by decide) ?_
      have := Nat.le_mul_of_pos_left whole hpos
      omega
  generalize nearestUnits (n * whole) 60 = units at *
  generalize roundDiv units whole = tick at *
  constructor
  · refine Nat.le_of_mul_le_mul_right (c := whole) ?_ hwhole
    have hleft : 2 ^ 53 * (60 * tick) * whole = 2 ^ 53 * 60 * (tick * whole) := by ring
    have hright : (2 ^ 53 * (n + 30) + n) * whole =
        2 ^ 53 * (n * whole) + 2 ^ 53 * 30 * whole + n * whole := by ring
    omega
  · refine Nat.le_of_mul_le_mul_right (c := whole) ?_ hwhole
    have hleft : 2 ^ 53 * n * whole = 2 ^ 53 * (n * whole) := by ring
    have hright : (2 ^ 53 * (60 * tick + 30) + n) * whole =
        2 ^ 53 * 60 * (tick * whole) + 2 ^ 53 * 30 * whole + n * whole := by ring
    omega

lemma doubleOfQuotient_sixty (n : Nat) :
    doubleOfQuotient n 60 =
      if (Double.ofUnits false (n * unitsPerWhole) 60).isFinite then
        .ok (Double.ofUnits false (n * unitsPerWhole) 60)
      else .error .quotientTooLarge := by
  have hsign : (decide ((n : Int) < 0) != decide ((60 : Int) < 0)) = false := by
    rw [decide_eq_false (Int.not_lt.mpr (Int.natCast_nonneg n))]
    rfl
  have hsize : (60 : Int).natAbs = 60 := rfl
  rw [doubleOfQuotient, if_neg (by decide), hsign, Int.natAbs_natCast, hsize]

/-- A product with a quotient by sixty within the doubles has a sixtieth. -/
lemma exists_ofUnits_sixty {n : Nat} (h : n < 60 * 2 ^ 1023) :
    ∃ m, Double.ofUnits false (n * unitsPerWhole) 60 = .finite false m := by
  refine Double.isFinite_ofUnits false ?_
  have hlimit : halfLimit = 2 ^ 1023 * unitsPerWhole := by
    have hexponents : 1023 + 1074 = 2097 := by decide
    unfold halfLimit unitsPerWhole
    generalize 1023 = a, 1074 = b, 2097 = c at hexponents ⊢
    rw [Nat.pow_eq, Nat.pow_eq, ← Nat.pow_add, hexponents]
  have hwhole := Double.unitsPerWhole_pos
  rw [hlimit]
  generalize 2 ^ 1023 = bound, unitsPerWhole = whole at *
  calc n * whole < 60 * bound * whole := Nat.mul_lt_mul_of_pos_right h hwhole
    _ = bound * whole * 60 := by ring

section

variable {resolution bpm seconds : Nat}

lemma ticks_whole : ticks ⟨resolution, bpm⟩ (.whole seconds) =
    (doubleOfQuotient (seconds * resolution * bpm : Nat) 60 >>= fun quotient =>
      quotient.round.mapError .notWhole) := by
  have hbeats : (Number.whole seconds).multiply (.whole resolution) =
      .ok (.whole (seconds * resolution)) := rfl
  have hminutes : (Number.whole (seconds * resolution)).multiply (.whole bpm) =
      .ok (.whole (seconds * resolution * bpm)) := rfl
  have hdivide : (Number.whole (seconds * resolution * bpm)).divide (.whole 60) =
      doubleOfQuotient (seconds * resolution * bpm) 60 := rfl
  unfold ticks
  rw [hbeats, ok_bind, hminutes, ok_bind, hdivide, Nat.cast_mul, Nat.cast_mul]

lemma eq_sixtieth_of_ticks_whole {tick : Int}
    (h : ticks ⟨resolution, bpm⟩ (.whole seconds) = .ok tick) :
    tick = sixtieth (seconds * resolution * bpm) := by
  rw [ticks_whole, doubleOfQuotient_sixty] at h
  obtain ⟨quotient, hquotient, h⟩ := bind_eq_ok h
  split at hquotient
  · obtain rfl := Except.ok.inj hquotient
    obtain ⟨s, m, hfinite, rfl⟩ := Double.round_eq_ok (mapError_eq_ok h)
    obtain ⟨rfl, hunits⟩ := Double.ofUnits_eq_finite_iff.mp hfinite
    rw [sixtieth, hunits, if_neg Bool.false_ne_true]
  · cases hquotient

lemma exists_ticks_whole (h : seconds * resolution * bpm < 60 * 2 ^ 1023) :
    ∃ tick, ticks ⟨resolution, bpm⟩ (.whole seconds) = .ok tick := by
  obtain ⟨m, hm⟩ := exists_ofUnits_sixty h
  rw [ticks_whole, doubleOfQuotient_sixty, hm]
  exact ⟨_, rfl⟩

/-- Whole numbers that the doubles hold exactly. -/
lemma exists_doubleOfInt {n : Nat} (h : n ≤ 2 ^ 53) :
    ∃ m, doubleOfInt n = .ok (.finite false m) ∧ m.units = n * unitsPerWhole := by
  have hsmall : (n : Int).natAbs < 2 ^ 100 * 1 := by
    rw [Int.natAbs_natCast]
    omega
  obtain ⟨m, hm⟩ := Double.isFinite_ofFraction hsmall
  obtain ⟨-, hunits⟩ := Double.ofUnits_eq_finite_iff.mp hm
  rw [decide_eq_false (Int.not_lt.mpr (Int.natCast_nonneg n))] at hm
  rw [Int.natAbs_natCast, nearestUnits_whole h] at hunits
  exact ⟨m, doubleOfInt_eq_ok_iff.mpr ⟨hm, rfl⟩, hunits.symm⟩

/-- The product of two whole numbers, where the doubles hold it exactly. -/
lemma mul_of_units {m n : Nat} {a b c : Magnitude} (ha : a.units = m * unitsPerWhole)
    (hb : b.units = n * unitsPerWhole) (hc : c.units = m * n * unitsPerWhole) (h : m * n ≤ 2 ^ 53) :
    Double.finite false a * .finite false b = .finite false c := by
  rw [Double.finite_mul_finite]
  refine Double.ofUnits_eq_finite_iff.mpr ⟨rfl, ?_⟩
  have hexact := nearestUnits_mul_right Nat.one_pos Double.unitsPerWhole_pos (m * n * unitsPerWhole)
  rw [nearestUnits_whole h, Nat.one_mul] at hexact
  have hproduct : m * unitsPerWhole * (n * unitsPerWhole) =
      m * n * unitsPerWhole * unitsPerWhole := by
    generalize unitsPerWhole = whole
    ring
  rw [ha, hb, hc, hproduct, hexact]

/-- A whole number of seconds as a double has the same tick, as long as the doubles hold its
products exactly. -/
lemma ticks_real_eq_ticks_whole {x : Double} (hresolution : 0 < resolution) (hbpm : 0 < bpm)
    (hseconds : 0 < seconds) (h : seconds * resolution * bpm ≤ 2 ^ 53)
    (hx : doubleOfInt seconds = .ok x) :
    ticks ⟨resolution, bpm⟩ (.real x) = ticks ⟨resolution, bpm⟩ (.whole seconds) := by
  have hbeats : seconds * resolution ≤ 2 ^ 53 := (Nat.le_mul_of_pos_right _ hbpm).trans h
  have hsecondsle : seconds ≤ 2 ^ 53 := (Nat.le_mul_of_pos_right _ hresolution).trans hbeats
  have hresolutionle : resolution ≤ 2 ^ 53 := (Nat.le_mul_of_pos_left _ hseconds).trans hbeats
  have hbpmle : bpm ≤ 2 ^ 53 :=
    (Nat.le_mul_of_pos_left _ (Nat.mul_pos hseconds hresolution)).trans h
  obtain ⟨a, ha, haunits⟩ := exists_doubleOfInt hsecondsle
  obtain ⟨b, hb, hbunits⟩ := exists_doubleOfInt hresolutionle
  obtain ⟨c, hc, hcunits⟩ := exists_doubleOfInt hbpmle
  obtain ⟨ab, -, habunits⟩ := exists_doubleOfInt hbeats
  obtain ⟨abc, -, habcunits⟩ := exists_doubleOfInt h
  obtain ⟨sixty, hsixty, hpos⟩ := exists_sixty
  obtain rfl := Except.ok.inj (ha.symm.trans hx)
  have hlarge : 2 ^ 54 ≤ 2 ^ 1023 := by
    have hexponents : 54 ≤ 1023 := by decide
    generalize 1023 = k at hexponents ⊢
    exact Nat.pow_le_pow_right (by decide) hexponents
  obtain ⟨m, hm⟩ := exists_ofUnits_sixty (n := seconds * resolution * bpm) (by
    generalize 2 ^ 1023 = bound at hlarge ⊢
    omega)
  have hround : ticks ⟨resolution, bpm⟩ (.whole seconds) =
      .ok (roundDivInt (Double.signedUnits false m) unitsPerWhole) := by
    rw [ticks_whole, doubleOfQuotient_sixty, hm]
    rfl
  have hsteps : Double.finite false a * .finite false b * .finite false c / .finite false sixty =
      .finite false m := by
    rw [mul_of_units haunits hbunits habunits hbeats, mul_of_units habunits hcunits habcunits h,
      Double.finite_div_finite _ _ _ (Nat.ne_of_gt hpos)]
    refine Double.ofUnits_eq_finite_iff.mpr ⟨rfl, ?_⟩
    rw [habcunits, units_of_sixty hsixty,
      nearestUnits_mul_right (by decide) Double.unitsPerWhole_pos]
    exact (Double.ofUnits_eq_finite_iff.mp hm).2
  rw [hround]
  exact ticks_of_steps hb hc hsixty hpos (by rw [hsteps]; rfl)

end

end TickGrid

/-! ## Playback -/

/-- The part of its time that a file loses because its quarter notes have whole microseconds. -/
def TickGrid.loss (grid : TickGrid) : ℚ := (60000000 % grid.bpm : Int) / 60000000

/-- The time in seconds at which a file plays a tick. -/
def MidiFile.secondsAt (file : MidiFile) (tick : Int) : ℚ :=
  tick * file.track.tempo / (file.ticksPerBeat * 1000000)

/-- The file plays a whole number of seconds on the grid at its time, but for what it has lost. -/
structure MidiFile.KeepsTime (file : MidiFile) (grid : TickGrid) (seconds : Nat) : Prop where
  has_tick : (seconds : Int) * grid.ticksPerBeat * grid.bpm < 60 * 2 ^ 1023 →
    ∃ tick, grid.ticks (.whole seconds) = .ok tick
  /-- Up to `2^53` the double that a note starts at has the tick of the whole number. -/
  same_tick : 0 < seconds → (seconds : Int) * grid.ticksPerBeat * grid.bpm ≤ 2 ^ 53 →
    ∀ x, doubleOfInt seconds = .ok x → grid.ticks (.real x) = grid.ticks (.whole seconds)
  /-- The time at which the tick is played is early by the loss, up to half a tick and the error of
  a quotient. -/
  early : ∀ tick, grid.ticks (.whole seconds) = .ok tick →
    |seconds - file.secondsAt tick - seconds * grid.loss| ≤
      30 / (grid.bpm * grid.ticksPerBeat) + seconds / 2 ^ 53
  /-- It is within one tick of its time as long as the loss and the error are within half a tick. -/
  within_tick : ∀ tick, grid.ticks (.whole seconds) = .ok tick →
    seconds * grid.loss + seconds / 2 ^ 53 ≤ 30 / (grid.bpm * grid.ticksPerBeat) →
    |file.secondsAt tick - seconds| ≤ 60 / (grid.bpm * grid.ticksPerBeat)

/-- The tick of a whole number of seconds, against its exact place. -/
lemma TickGrid.ticks_near {resolution bpm seconds : Nat} {tick : Int}
    (h : ticks ⟨resolution, bpm⟩ (.whole seconds) = .ok tick) :
    |(60 * tick - seconds * resolution * bpm : ℚ)| ≤
      30 + seconds * resolution * bpm / 2 ^ 53 := by
  obtain ⟨hlow, hhigh⟩ := sixtieth_near (seconds * resolution * bpm)
  rw [eq_sixtieth_of_ticks_whole h]
  generalize sixtieth (seconds * resolution * bpm) = nearest at *
  have hlow' : (2 ^ 53 * (60 * nearest) : ℚ) ≤
      2 ^ 53 * (seconds * resolution * bpm + 30) + seconds * resolution * bpm := by
    exact_mod_cast hlow
  have hhigh' : (2 ^ 53 * (seconds * resolution * bpm) : ℚ) ≤
      2 ^ 53 * (60 * nearest + 30) + seconds * resolution * bpm := by
    exact_mod_cast hhigh
  rw [Int.cast_natCast, abs_le]
  constructor <;> linarith

/-- Playing a tick at the whole microseconds of a beat. -/
lemma abs_early_le {resolution bpm tempo rest seconds tick : ℚ} (hresolution : 0 < resolution)
    (hbpm : 0 < bpm) (htempo : 0 ≤ tempo) (hrest : 0 ≤ rest) (hbeat : tempo * bpm + rest = 60000000)
    (hnear : |60 * tick - seconds * resolution * bpm| ≤
      30 + seconds * resolution * bpm / 2 ^ 53) :
    |seconds - tick * tempo / (resolution * 1000000) - seconds * (rest / 60000000)| ≤
      30 / (bpm * resolution) + seconds / 2 ^ 53 := by
  have hshare : tempo / (60000000 * resolution) ≤ 1 / (bpm * resolution) := by
    rw [div_le_div_iff₀ (by positivity) (by positivity)]
    nlinarith
  have hsame : seconds - tick * tempo / (resolution * 1000000) - seconds * (rest / 60000000) =
      -(tempo / (60000000 * resolution)) * (60 * tick - seconds * resolution * bpm) := by
    rw [eq_sub_of_add_eq' hbeat]
    field_simp
    ring
  rw [hsame, abs_mul, abs_neg, abs_of_nonneg (by positivity)]
  calc tempo / (60000000 * resolution) * |60 * tick - seconds * resolution * bpm|
      ≤ 1 / (bpm * resolution) * (30 + seconds * resolution * bpm / 2 ^ 53) :=
        mul_le_mul hshare hnear (abs_nonneg _) (by positivity)
    _ = 30 / (bpm * resolution) + seconds / 2 ^ 53 := by
        field_simp

/-- The tempo of the file of parts is the whole part of the quotient. -/
lemma MidiFile.tempo_of_ofParts {grid : TickGrid} {velocity : Int}
    {parts : List (Int × List Event)} {file : MidiFile} (hbpm : 0 < grid.bpm)
    (h : MidiFile.ofParts grid velocity parts = .ok file) :
    ((file.track.tempo : Nat) : Int) = 60000000 / grid.bpm := by
  obtain ⟨notes, -, htrack⟩ := MidiFile.exists_notes_of_ofParts h
  have htempo := MidiTrack.microseconds_of_ofNotes htrack
  rw [microseconds_eq hbpm, Magnitude.floor_nearestUnits (by omega)] at htempo
  rw [← Except.ok.inj htempo, Int.natCast_ediv, Int.natCast_natAbs, abs_of_pos hbpm]
  rfl

lemma MidiFile.secondsAt_of_ofParts {grid : TickGrid} {velocity : Int}
    {parts : List (Int × List Event)} {file : MidiFile} (hbpm : 0 < grid.bpm)
    (h : MidiFile.ofParts grid velocity parts = .ok file) (tick : Int) :
    file.secondsAt tick = tick * (60000000 / grid.bpm : Int) / (grid.ticksPerBeat * 1000000) := by
  have htempo : (((file.track.tempo : Nat) : Int) : ℚ) = (60000000 / grid.bpm : Int) :=
    congrArg Int.cast (MidiFile.tempo_of_ofParts hbpm h)
  rw [MidiFile.secondsAt, ticksPerBeat_of_ofParts h, ← Int.cast_natCast, htempo]

/-- **A file keeps the time of its grid up to what its quarter notes lose**: the file of parts on a
grid with ticks and a tempo has the whole part of `60000000` divided by the tempo as its length of
a quarter note.  Every whole number of seconds has a tick as long as its quotient does not
overflow, the one that a note starting there gets, and the file plays this tick early by
the loss of the seconds before it, up to half a tick and the part `2^-53` of the seconds; so
it plays it within one tick of its time if the loss and that part are within half a tick. -/
theorem file_keeps_time_up_to_loss {grid : TickGrid} {velocity : Int}
    {parts : List (Int × List Event)} {file : MidiFile} (hresolution : 0 < grid.ticksPerBeat)
    (hbpm : 0 < grid.bpm) (h : MidiFile.ofParts grid velocity parts = .ok file) :
    ((file.track.tempo : Nat) : Int) = 60000000 / grid.bpm ∧
      ∀ seconds, file.KeepsTime grid seconds := by
  refine ⟨MidiFile.tempo_of_ofParts hbpm h, fun seconds => ?_⟩
  have hplays := MidiFile.secondsAt_of_ofParts hbpm h
  obtain ⟨resolution, bpm⟩ := grid
  obtain ⟨resolution, rfl⟩ := Int.eq_ofNat_of_zero_le hresolution.le
  obtain ⟨bpm, rfl⟩ := Int.eq_ofNat_of_zero_le hbpm.le
  dsimp only at hresolution hbpm hplays
  have hresolution' := Int.natCast_pos.mp hresolution
  have hbpm' := Int.natCast_pos.mp hbpm
  have hbeat : ((60000000 / (bpm : Int) : Int) : ℚ) * bpm + (60000000 % (bpm : Int) : Int) =
      60000000 := by
    exact_mod_cast Int.ediv_mul_add_emod 60000000 (bpm : Int)
  have hlength : (0 : ℚ) ≤ (60000000 / (bpm : Int) : Int) :=
    Int.cast_nonneg (Int.ediv_nonneg (by decide) hbpm.le)
  have hrest : (0 : ℚ) ≤ (60000000 % (bpm : Int) : Int) :=
    Int.cast_nonneg (Int.emod_nonneg _ hbpm.ne')
  have hearly (tick : Int) (htick : TickGrid.ticks ⟨resolution, bpm⟩ (.whole seconds) = .ok tick) :
      |seconds - file.secondsAt tick - seconds * TickGrid.loss ⟨resolution, bpm⟩| ≤
        30 / ((bpm : ℚ) * resolution) + seconds / 2 ^ 53 := by
    rw [hplays]
    exact abs_early_le (Nat.cast_pos.mpr hresolution') (Nat.cast_pos.mpr hbpm') hlength hrest hbeat
      (TickGrid.ticks_near htick)
  have hloss : (0 : ℚ) ≤ seconds * TickGrid.loss ⟨resolution, bpm⟩ :=
    mul_nonneg (Nat.cast_nonneg _) (div_nonneg hrest (by norm_num))
  refine ⟨fun hlt => ?_, fun hpos hle x hx => ?_, fun tick htick => ?_, fun tick htick hhalf => ?_⟩
  · refine TickGrid.exists_ticks_whole ?_
    generalize 1023 = k at hlt ⊢
    dsimp only at hlt
    exact_mod_cast hlt
  · dsimp only at hle
    exact TickGrid.ticks_real_eq_ticks_whole hresolution' hbpm' hpos (by exact_mod_cast hle) hx
  · dsimp only
    rw [Int.cast_natCast, Int.cast_natCast]
    exact hearly tick htick
  · dsimp only at hhalf ⊢
    rw [Int.cast_natCast, Int.cast_natCast] at hhalf ⊢
    have hsplit : (60 : ℚ) / (bpm * resolution) =
        30 / (bpm * resolution) + 30 / (bpm * resolution) := by
      rw [← add_div]
      norm_num
    have htick := abs_le.mp (hearly tick htick)
    rw [hsplit, abs_le]
    constructor <;> linarith [htick.1, htick.2]

/-- At a tempo of `130` a quarter note loses six thirteenths of a microsecond, and the file of a
note keeps the time of its first minute. -/
theorem first_minute_is_kept :
    ∃ events file, (compileText "T60 O4 C4").2 = .ok events ∧
      MidiFile.ofParts ⟨480, 130⟩ standardVelocity [(0, events)] = .ok file ∧
      ((file.track.tempo : Nat) : Int) = 461538 ∧
      TickGrid.ticks ⟨480, 130⟩ (.whole 60) = .ok 62400 ∧
      |file.secondsAt 62400 - 60| ≤ 60 / (130 * 480) := by
  have hevents := eq_ok_of_isOk (x := (compileText "T60 O4 C4").2) (by decide +kernel) []
  have hfile := eq_ok_of_isOk (x := MidiFile.ofParts ⟨480, 130⟩ standardVelocity
    [(0, (compileText "T60 O4 C4").2.toOption.getD [])]) (by decide +kernel) ⟨0, ⟨0, by decide⟩, []⟩
  have htick : TickGrid.ticks ⟨480, 130⟩ (.whole (60 : Nat)) = .ok 62400 := by decide +kernel
  obtain ⟨htempo, hkeeps⟩ := file_keeps_time_up_to_loss (by decide) (by decide) hfile
  have hhalf : ((60 : Nat) : ℚ) * TickGrid.loss ⟨480, 130⟩ + (60 : Nat) / 2 ^ 53 ≤
      30 / ((130 : Int) * (480 : Int)) := by
    norm_num [TickGrid.loss]
  have hnear := (hkeeps 60).within_tick 62400 htick hhalf
  refine ⟨_, _, hevents, hfile, htempo, htick, ?_⟩
  norm_num at hnear ⊢
  exact hnear

/-- After twenty minutes the same tempo has lost more than a tick, and a note that starts there is
played too early.  A tempo that loses nothing is a second off where doubles are 2048 ticks apart. -/
theorem long_times_are_not_kept :
    (∃ events file, (compileText "T1 O4 R1R1R1R1R1C4").2 = .ok events ∧
      events.getLast?.map (·.start) = some (.real (.ofFraction 1200 1)) ∧
      MidiFile.ofParts ⟨480, 130⟩ standardVelocity [(0, events)] = .ok file ∧
      file.track.timed.head?.map (·.time) = some 1248000 ∧
      TickGrid.ticks ⟨480, 130⟩ (.whole 1200) = .ok 1248000 ∧
      ¬|file.secondsAt 1248000 - 1200| ≤ 60 / (130 * 480)) ∧
    ∃ file, MidiFile.ofParts ⟨480, 120⟩ standardVelocity [] = .ok file ∧
      TickGrid.ticks ⟨480, 120⟩ (.whole 18014398509481985) = .ok 17293822569102704640 ∧
      ¬|file.secondsAt 17293822569102704640 - 18014398509481985| ≤ 60 / (120 * 480) := by
  constructor
  · have hevents := eq_ok_of_isOk (x := (compileText "T1 O4 R1R1R1R1R1C4").2) (by decide +kernel) []
    generalize hmade : (compileText "T1 O4 R1R1R1R1R1C4").2.toOption.getD [] = events at hevents
    have hnotes : (notesOfParts ⟨480, 130⟩ standardVelocity [(0, events)]).toOption =
        some [⟨60, 1248000, 62400, 100, 0⟩] := by
      rw [← hmade]
      decide +kernel
    have hfile := eq_ok_of_isOk (x := MidiFile.ofParts ⟨480, 130⟩ standardVelocity [(0, events)])
      (by rw [← hmade]; decide +kernel) ⟨0, ⟨0, by decide⟩, []⟩
    obtain ⟨notes, hnotes', htrack⟩ := MidiFile.exists_notes_of_ofParts hfile
    rw [hnotes'] at hnotes
    obtain rfl := Option.some.inj hnotes
    refine ⟨events, _, hevents, by rw [← hmade]; decide +kernel, hfile, ?_, by decide +kernel, ?_⟩
    · rw [MidiTrack.timed_of_ofNotes htrack]
      cbv
    · rw [MidiFile.secondsAt_of_ofParts (by decide) hfile]
      norm_num [abs_of_neg]
  · have hfile := eq_ok_of_isOk (x := MidiFile.ofParts ⟨480, 120⟩ standardVelocity [])
      (by decide +kernel) ⟨0, ⟨0, by decide⟩, []⟩
    refine ⟨_, hfile, by decide +kernel, ?_⟩
    rw [MidiFile.secondsAt_of_ofParts (by decide) hfile]
    norm_num [abs_of_neg]

end MusicMacro
