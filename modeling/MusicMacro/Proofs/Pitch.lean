import MusicMacro.Pitch
import MusicMacro.Proofs.Number.Rounding

/-!
# Chords and frequencies

Folding a chord moves tones and leaves the rests where they are (`map_isNone_foldChord`).

No pitch from index 0 on sounds below the lowest one (`size_referenceFrequency_le`).  The power of
the semitone ratio is a quotient of at least one, and from there on both neighbours of a quotient
among the doubles are at least one (`Magnitude.unitsPerWhole_le_of_steps`), so that it does not
matter which of the two a power is rounded to; the product with the lowest frequency is rounded once
more, and rounding keeps the order.
-/

namespace MusicMacro

/-! ## Chords -/

lemma map_isNone_foldChordBy {α : Type} (atMost : α → α → Bool) (lower : α → α)
    (indices : List (Option α)) :
    (foldChordBy atMost lower indices).map Option.isNone = indices.map Option.isNone := by
  unfold foldChordBy
  split
  · simp only [List.map_cons, List.map_map, List.cons.injEq, true_and]
    refine List.map_congr_left fun index? _ => ?_
    rw [Function.comp_apply, Option.isNone_map]
  · rfl

lemma length_foldChordBy {α : Type} (atMost : α → α → Bool) (lower : α → α)
    (indices : List (Option α)) : (foldChordBy atMost lower indices).length = indices.length := by
  have hlength := congrArg List.length (map_isNone_foldChordBy atMost lower indices)
  rwa [List.length_map, List.length_map] at hlength

/-- Rests stay where they are in a folded chord. -/
lemma map_isNone_foldChord (indices : List (Option Int)) :
    (foldChord indices).map Option.isNone = indices.map Option.isNone :=
  map_isNone_foldChordBy _ _ indices

lemma length_foldChord (indices : List (Option Int)) :
    (foldChord indices).length = indices.length :=
  length_foldChordBy _ _ indices

lemma foldChord_cons (first : Int) (rest : List (Option Int)) :
    foldChord (some first :: rest) =
      some first :: rest.map (·.map fun i => if first ≤ i then i - 12 else i) := by
  simp only [foldChord, foldChordBy, decide_eq_true_eq]

/-! ## Powers of the semitone ratio -/

lemma div_le_roundAway (num den : Nat) : num / den ≤ roundAway num den := by
  have := roundDiv_le_div_succ num den
  unfold roundAway
  omega

namespace Magnitude

lemma units_of_ofSteps? {q count : Nat} {h : count ≤ q / spacing q + 1} {m : Magnitude}
    (hm : ofSteps? q count h = some m) : m.units = count * spacing q := by
  unfold ofSteps? at hm
  split at hm
  · rw [← Option.some.inj hm]
  · cases hm

/-- A quotient of at least one whole, rounded to a step of its grid that is no further down than
the next, is at least one whole: the grid of such a size has a step at every whole power of two. -/
lemma unitsPerWhole_le_of_steps {q count : Nat} (hq : unitsPerWhole ≤ q)
    (hcount : q / spacing q ≤ count) : unitsPerWhole ≤ count * spacing q := by
  have hne : q ≠ 0 := Nat.ne_of_gt (Nat.lt_of_lt_of_le Double.unitsPerWhole_pos hq)
  have hlow : unitsPerWhole ≤ 2 ^ q.log2 := by
    unfold unitsPerWhole at hq ⊢
    generalize 1074 = k at hq ⊢
    rw [Nat.pow_eq] at hq ⊢
    exact Nat.pow_le_pow_right (by decide) ((Nat.le_log2 hne).mpr hq)
  obtain ⟨steps, hsteps⟩ : spacing q ∣ 2 ^ q.log2 := by
    rw [spacing_eq]
    exact Nat.pow_dvd_pow 2 (Nat.sub_le _ _)
  have hle : steps ≤ q / spacing q := by
    rw [Nat.le_div_iff_mul_le (spacing_pos q), Nat.mul_comm, ← hsteps]
    exact Nat.log2_self_le hne
  calc unitsPerWhole ≤ 2 ^ q.log2 := hlow
    _ = steps * spacing q := by rw [hsteps, Nat.mul_comm]
    _ ≤ count * spacing q := Nat.mul_le_mul_right _ (Nat.le_trans hle hcount)

lemma unitsPerWhole_le_ofQuotient? {num den : Nat} {m : Magnitude} (hq : unitsPerWhole ≤ num / den)
    (h : ofQuotient? num den = some m) : unitsPerWhole ≤ m.units := by
  rw [units_of_ofSteps? h]
  refine unitsPerWhole_le_of_steps hq ?_
  rw [Nat.div_div_eq_div_mul]
  exact div_le_roundDiv _ _

lemma unitsPerWhole_le_ofQuotientAway? {num den : Nat} {m : Magnitude}
    (hq : unitsPerWhole ≤ num / den) (h : ofQuotientAway? num den = some m) :
    unitsPerWhole ≤ m.units := by
  rw [units_of_ofSteps? h]
  refine unitsPerWhole_le_of_steps hq ?_
  rw [Nat.div_div_eq_div_mul]
  exact div_le_roundAway _ _

end Magnitude

/-- From the zeroth on, a power of the ratio is at least one. -/
lemma exists_ratioPower {index : Int} {x : Double} (hindex : 0 ≤ index)
    (h : ratioPower index = .ok x) :
    ∃ m : Magnitude, x = .finite false m ∧ Magnitude.unitsPerWhole ≤ m.units := by
  obtain ⟨n, rfl⟩ := Int.eq_ofNat_of_zero_le hindex
  unfold ratioPower at h
  split at h
  · cases hn : doubleOfInt n with
    | error e =>
        rw [hn] at h
        cases h
    | ok y =>
        rw [hn] at h
        cases h
  rw [if_neg (by unfold powerFloor; omega)] at h
  dsimp only at h
  split at h
  · rename_i m hm
    refine ⟨m, (Except.ok.inj h).symm, ?_⟩
    have hq : Magnitude.unitsPerWhole ≤
        ratioNumerator.pow (n : Int).toNat * Nat.pow 2 (52 * (-(n : Int)).toNat) *
          Magnitude.unitsPerWhole /
        (ratioNumerator.pow (-(n : Int)).toNat * Nat.pow 2 (52 * (n : Int).toNat)) := by
      simp only [Nat.pow_eq, Int.toNat_natCast, Int.toNat_neg_natCast, Nat.mul_zero, Nat.pow_zero,
        Nat.mul_one, Nat.one_mul]
      rw [Nat.le_div_iff_mul_le (Nat.two_pow_pos _), Nat.mul_comm, Nat.pow_mul]
      exact Nat.mul_le_mul_right _ (Nat.pow_le_pow_left (by decide) n)
    split at hm
    · exact Magnitude.unitsPerWhole_le_ofQuotientAway? hq hm
    · exact Magnitude.unitsPerWhole_le_ofQuotient? hq hm
  · cases h

/-! ## Frequencies -/

lemma exists_referenceFrequency : ∃ m : Magnitude, referenceFrequency = .finite false m :=
  Double.isFinite_ofFraction (by decide)

lemma zero_less_referenceFrequency : Double.zero.less referenceFrequency = true := by
  decide +kernel

/-- **No index from zero on sounds below the lowest pitch.** -/
lemma size_referenceFrequency_le {index : Int} {f : Double} (hindex : 0 ≤ index)
    (h : frequency index = .ok f) :
    f.IsUnsigned ∧ referenceFrequency.size ≤ f.size := by
  unfold frequency at h
  cases hpower : ratioPower index with
  | error e =>
      rw [hpower] at h
      cases h
  | ok x =>
      rw [hpower] at h
      obtain rfl := Except.ok.inj h
      obtain ⟨m, rfl, hm⟩ := exists_ratioPower hindex hpower
      obtain ⟨a, ha⟩ := exists_referenceFrequency
      dsimp only
      rw [ha]
      refine ⟨Double.isUnsigned_mul a m, ?_⟩
      rw [Double.finite_mul_finite, bne_self_eq_false, Double.size_ofUnits, Double.size_finite]
      refine Nat.le_min.mpr ⟨?_, Nat.le_of_lt a.bounded⟩
      calc a.units = Magnitude.nearestUnits a.units 1 := (Magnitude.nearestUnits_units a).symm
        _ ≤ Magnitude.nearestUnits (a.units * m.units) Magnitude.unitsPerWhole := by
          refine Magnitude.nearestUnits_mono Nat.one_pos Double.unitsPerWhole_pos ?_
          rw [Nat.mul_one]
          exact Nat.mul_le_mul_left _ hm

end MusicMacro
