import MusicMacro.Number.Decimal
import MusicMacro.Proofs.Number.Rounding

/-!
# The interval of a magnitude

A decimal reads back to a magnitude if it lies between the midpoints to its two neighbours, ends
included when the last bit of the magnitude is even.  `Magnitude.Covers` says so of any quotient,
and what it says is right: such a quotient is rounded to the magnitude (`Covers.nearestUnits_eq`).

Almost everywhere the quotient lies on the magnitude's own grid, at most half a step away, and at
half a step only if the magnitude is an even number of steps.  The grid changes below a power of
two, where the neighbour is half a step away and the power is twice as many steps of the narrower
grid (`Covers.nearestUnits_below_power`).
-/

namespace MusicMacro

namespace Magnitude

/-! ## The interval of a magnitude -/

/-- The distance to the neighbour below, as the shortest decimal counts it. -/
def gapBelow (m : Magnitude) : Nat :=
  if 1 < spacing m.units ∧ m.units = Nat.pow 2 m.units.log2 then spacing m.units / 2
  else spacing m.units

/-- Whether a quotient lies between the midpoints to the neighbours, which count if the last bit is
even. -/
def Covers (m : Magnitude) (num den : Nat) : Prop :=
  if m.units / spacing m.units % 2 = 0 then
    (4 * m.units - 2 * m.gapBelow) * den ≤ 4 * num ∧
      4 * num ≤ (4 * m.units + 2 * spacing m.units) * den
  else
    (4 * m.units - 2 * m.gapBelow) * den < 4 * num ∧
      4 * num < (4 * m.units + 2 * spacing m.units) * den

section

variable {m : Magnitude} {num den : Nat}

lemma gapBelow_le (m : Magnitude) : m.gapBelow ≤ spacing m.units := by
  unfold gapBelow
  split
  · exact Nat.div_le_self _ _
  · exact Nat.le_refl _

lemma log2_eq_of_between {q k : Nat} (hlow : 2 ^ k ≤ q) (hhigh : q < 2 ^ (k + 1)) : q.log2 = k := by
  have hne : q ≠ 0 := by
    have := Nat.two_pow_pos k
    omega
  exact (Nat.log2_eq_iff hne).mpr ⟨hlow, hhigh⟩

/-- The next power of two is at least a step of the grid away. -/
lemma units_add_spacing_le (m : Magnitude) :
    m.units + spacing m.units ≤ 2 ^ (m.units.log2 + 1) := by
  obtain ⟨steps, hsteps⟩ := m.onGrid
  obtain ⟨top, htop⟩ := spacing_dvd_two_pow (Nat.lt_log2_self (n := m.units))
  have hlt : spacing m.units * steps < spacing m.units * top := by
    rw [← hsteps, ← htop]
    exact Nat.lt_log2_self
  calc m.units + spacing m.units = spacing m.units * (steps + 1) := by
        rw [Nat.mul_succ, ← hsteps]
    _ ≤ spacing m.units * top := Nat.mul_le_mul_left _ (Nat.lt_of_mul_lt_mul_left hlt)
    _ = 2 ^ (m.units.log2 + 1) := htop.symm

/-- A power of two below a magnitude of its size is at least a step of the grid away. -/
lemma two_pow_add_spacing_le (hne : m.units ≠ 2 ^ m.units.log2) (hm : m.units ≠ 0) :
    2 ^ m.units.log2 + spacing m.units ≤ m.units := by
  obtain ⟨steps, hsteps⟩ := m.onGrid
  have hdvd : spacing m.units ∣ 2 ^ m.units.log2 := by
    rw [spacing_eq]
    exact Nat.pow_dvd_pow 2 (Nat.sub_le _ _)
  obtain ⟨bottom, hbottom⟩ := hdvd
  have hlt : spacing m.units * bottom < spacing m.units * steps := by
    rw [← hsteps, ← hbottom]
    exact Nat.lt_of_le_of_ne (Nat.log2_self_le hm) hne.symm
  calc 2 ^ m.units.log2 + spacing m.units = spacing m.units * (bottom + 1) := by
        rw [Nat.mul_succ, ← hbottom]
    _ ≤ spacing m.units * steps := Nat.mul_le_mul_left _ (Nat.lt_of_mul_lt_mul_left hlt)
    _ = m.units := hsteps.symm

/-- The bounds of the interval, without the question of its ends. -/
lemma Covers.bounds (h : m.Covers num den) :
    4 * (m.units * den) ≤ 4 * num + 2 * (m.gapBelow * den) ∧
      4 * num ≤ 4 * (m.units * den) + 2 * (spacing m.units * den) := by
  unfold Covers at h
  have hlow : (4 * m.units - 2 * m.gapBelow) * den =
      4 * (m.units * den) - 2 * (m.gapBelow * den) := by
    rw [Nat.sub_mul, Nat.mul_assoc, Nat.mul_assoc]
  have hhigh : (4 * m.units + 2 * spacing m.units) * den =
      4 * (m.units * den) + 2 * (spacing m.units * den) := by
    rw [Nat.add_mul, Nat.mul_assoc, Nat.mul_assoc]
  rw [hlow, hhigh] at h
  split at h <;> omega

/-- At an end of the interval the last bit is even. -/
lemma Covers.even_of_end (h : m.Covers num den)
    (hend : 4 * (m.units * den) = 4 * num + 2 * (m.gapBelow * den) ∨
      4 * num = 4 * (m.units * den) + 2 * (spacing m.units * den)) :
    m.units / spacing m.units % 2 = 0 := by
  refine Decidable.byContradiction fun hodd => ?_
  unfold Covers at h
  rw [if_neg hodd, Nat.sub_mul, Nat.add_mul, Nat.mul_assoc, Nat.mul_assoc, Nat.mul_assoc] at h
  omega

/-- On the magnitude's own grid the interval is rounded to the magnitude. -/
lemma Covers.nearestUnits_of_spacing (h : m.Covers num den) (hden : 0 < den)
    (hspacing : spacing (num / den) = spacing m.units) : nearestUnits num den = m.units := by
  have hgap := spacing_pos m.units
  have hbelow := Nat.mul_le_mul_right den (gapBelow_le m)
  have hcomm : den * spacing m.units = spacing m.units * den := Nat.mul_comm _ _
  have hsteps : m.units / spacing m.units * (den * spacing m.units) = m.units * den := by
    rw [hcomm, ← Nat.mul_assoc, Nat.div_mul_cancel m.onGrid]
  obtain ⟨hlow, hhigh⟩ := h.bounds
  have hround : roundDiv num (den * spacing m.units) = m.units / spacing m.units := by
    refine roundDiv_eq_of_near ?_ ?_ (fun htie => h.even_of_end ?_) (Nat.mul_pos hden hgap)
    · rw [hsteps, hcomm]
      omega
    · rw [hsteps, hcomm]
      omega
    · rw [hsteps, hcomm] at htie
      omega
  rw [nearestUnits, hspacing, hround, Nat.div_mul_cancel m.onGrid]

/-- Above the magnitude its interval has its size. -/
lemma Covers.log2_of_le (h : m.Covers num den) (hden : 0 < den) (hm : m.units ≠ 0)
    (hle : m.units * den ≤ num) : (num / den).log2 = m.units.log2 := by
  obtain ⟨-, hhigh⟩ := h.bounds
  refine log2_eq_of_between ?_ ?_
  · rw [Nat.le_div_iff_mul_le hden]
    exact Nat.le_trans (Nat.mul_le_mul_right _ (Nat.log2_self_le hm)) hle
  · refine Nat.lt_of_lt_of_le ?_ (units_add_spacing_le m)
    rw [Nat.div_lt_iff_lt_mul hden, Nat.add_mul]
    have := Nat.mul_pos (spacing_pos m.units) hden
    omega

/-- Below the magnitude its interval is on the magnitude's grid, unless the magnitude is the power of
two at which a wider grid starts. -/
lemma Covers.spacing_of_lt (h : m.Covers num den) (hden : 0 < den) (hm : m.units ≠ 0)
    (hlt : num < m.units * den)
    (hpower : ¬(1 < spacing m.units ∧ m.units = Nat.pow 2 m.units.log2)) :
    spacing (num / den) = spacing m.units := by
  have hquot : num / den < m.units := (Nat.div_lt_iff_lt_mul hden).mpr hlt
  by_cases hgap : 1 < spacing m.units
  · have hne : m.units ≠ 2 ^ m.units.log2 := fun heq => hpower ⟨hgap, heq⟩
    have hstep := Nat.mul_le_mul_right den (two_pow_add_spacing_le hne hm)
    have hbelow := Nat.mul_le_mul_right den (gapBelow_le m)
    obtain ⟨hlow, -⟩ := h.bounds
    have hlog : (num / den).log2 = m.units.log2 := by
      refine log2_eq_of_between ?_ (Nat.lt_trans hquot Nat.lt_log2_self)
      rw [Nat.le_div_iff_mul_le hden]
      rw [Nat.add_mul] at hstep
      omega
    rw [spacing_eq, spacing_eq, hlog]
  · have hone : spacing m.units = 1 := Nat.le_antisymm (Nat.le_of_not_lt hgap) (spacing_pos _)
    have hsmall : m.units.log2 ≤ 52 := by
      refine Nat.le_of_not_lt fun hlarge => hgap ?_
      rw [spacing_eq]
      exact Nat.one_lt_two_pow (by omega)
    have hlog : (num / den).log2 ≤ 52 := by
      rcases Nat.eq_zero_or_pos (num / den) with hz | hpos
      · rw [hz]
        decide
      · refine Nat.le_of_lt_succ ((Nat.log2_lt (Nat.ne_of_gt hpos)).mpr ?_)
        refine Nat.lt_trans hquot ((Nat.log2_lt hm).mp (Nat.lt_succ_of_le hsmall))
    rw [hone, spacing_eq, Nat.sub_eq_zero_of_le hlog, Nat.pow_zero]

/-- The powers of two at which a wider grid starts. -/
lemma exists_power (hpower : 1 < spacing m.units ∧ m.units = Nat.pow 2 m.units.log2) :
    ∃ k, m.units = 2 ^ 53 * 2 ^ k ∧ spacing m.units = 2 * 2 ^ k := by
  obtain ⟨hgap, hunits⟩ := hpower
  rw [Nat.pow_eq] at hunits
  have hlarge : 53 ≤ m.units.log2 := by
    refine Nat.le_of_not_lt fun hsmall => ?_
    rw [spacing_eq, Nat.sub_eq_zero_of_le (by omega)] at hgap
    exact Nat.lt_irrefl 1 hgap
  obtain ⟨k, hk⟩ := Nat.exists_eq_add_of_le hlarge
  refine ⟨k, ?_, ?_⟩
  · rw [hunits, hk, Nat.pow_add]
  · rw [spacing_eq, hk, show 53 + k - 52 = k + 1 by omega, Nat.pow_succ, Nat.mul_comm]

/-- Below a power of two at which a wider grid starts the interval is on the narrower grid, where the
power of two is twice as many steps. -/
lemma Covers.nearestUnits_below_power (h : m.Covers num den) (hden : 0 < den)
    (hlt : num < m.units * den)
    (hpower : 1 < spacing m.units ∧ m.units = Nat.pow 2 m.units.log2) :
    nearestUnits num den = m.units := by
  obtain ⟨hlow, -⟩ := h.bounds
  have hbelow : m.gapBelow = spacing m.units / 2 := if_pos hpower
  obtain ⟨k, hwhole, hspacing⟩ := exists_power hpower
  have hhalf : spacing m.units / 2 = 2 ^ k := by
    rw [hspacing, Nat.mul_div_cancel_left _ (by decide)]
  rw [hbelow, hhalf] at hlow
  -- the size of the interval is one less than that of the magnitude
  have hquot : (num / den).log2 = 52 + k := by
    refine log2_eq_of_between ?_ ?_
    · rw [Nat.le_div_iff_mul_le hden, Nat.pow_add, Nat.mul_assoc]
      rw [hwhole, Nat.mul_assoc] at hlow
      have := Nat.mul_pos (Nat.two_pow_pos k) hden
      omega
    · rw [Nat.div_lt_iff_lt_mul hden, show 52 + k + 1 = 53 + k by omega, Nat.pow_add, ← hwhole]
      exact hlt
  have hnarrow : spacing (num / den) = 2 ^ k := by
    rw [spacing_eq, hquot, Nat.add_sub_cancel_left]
  have hround : roundDiv num (den * 2 ^ k) = 2 ^ 53 := by
    have hcomm : den * 2 ^ k = 2 ^ k * den := Nat.mul_comm _ _
    rw [hwhole, Nat.mul_assoc] at hlow hlt
    refine roundDiv_eq_of_near ?_ ?_ (fun _ => by decide) (Nat.mul_pos hden (Nat.two_pow_pos k))
    · rw [hcomm]
      omega
    · rw [hcomm]
      omega
  rw [nearestUnits, hnarrow, hround, hwhole]

/-- A magnitude is at most `2 ^ 53` times as far from zero as from its neighbour below. -/
lemma units_le_gapBelow (m : Magnitude) : m.units ≤ 2 ^ 53 * m.gapBelow := by
  unfold gapBelow
  split
  · obtain ⟨k, hwhole, hspacing⟩ := exists_power ‹_›
    rw [hspacing, Nat.mul_div_cancel_left _ (by decide)]
    exact Nat.le_of_eq hwhole
  · have hsteps := div_spacing_lt m.units
    rw [Nat.pow_eq] at hsteps
    calc m.units = m.units / spacing m.units * spacing m.units :=
          (Nat.div_mul_cancel m.onGrid).symm
      _ ≤ 2 ^ 53 * spacing m.units := Nat.mul_le_mul_right _ (Nat.le_of_lt hsteps)

/-- What lies in the interval of a magnitude is rounded to the magnitude. -/
theorem Covers.nearestUnits_eq (h : m.Covers num den) (hden : 0 < den) (hm : m.units ≠ 0) :
    nearestUnits num den = m.units := by
  rcases Nat.lt_or_ge num (m.units * den) with hlt | hle
  · by_cases hpower : 1 < spacing m.units ∧ m.units = Nat.pow 2 m.units.log2
    · exact h.nearestUnits_below_power hden hlt hpower
    · exact h.nearestUnits_of_spacing hden (h.spacing_of_lt hden hm hlt hpower)
  · refine h.nearestUnits_of_spacing hden ?_
    rw [spacing_eq, spacing_eq, h.log2_of_le hden hm hle]

end

end Magnitude

end MusicMacro
