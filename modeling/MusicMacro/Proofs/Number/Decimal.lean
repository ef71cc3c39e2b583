import MusicMacro.Proofs.Number.Shortest

/-!
# The shortest decimal of a magnitude

The shortest decimal of a positive magnitude lies in its interval (`isDecimal_shortest`), and a
decimal that does is read as the magnitude (`IsDecimal.ofDecimal_eq`), with zeros behind its digits
or without them (`isDecimal_mul_pow`).

The search for the shortest decimal ends with one because the place of a seventeenth digit is finer
than the grid of any magnitude (`seventeenth_place_fine`).  The reader does not evaluate decimals
far beyond the greatest and far below the least positive magnitude, and no decimal of a magnitude is
that far away (`IsDecimal.place_lt`, `IsDecimal.lt_place`).
-/

namespace MusicMacro

/-! ## Digits -/

lemma decimalLength_pos (n : Nat) : 0 < decimalLength n := by
  unfold decimalLength
  split <;> omega

lemma lt_pow_decimalLength (n : Nat) : n < 10 ^ decimalLength n := by
  induction n using Nat.strongRecOn with
  | ind n ih =>
      unfold decimalLength
      split
      · omega
      · have := ih (n / 10) (by omega)
        rw [Nat.pow_succ]
        omega

/-- A positive number has a digit at the place that its length tells. -/
lemma pow_decimalLength_le {n : Nat} (hn : 0 < n) : 10 ^ (decimalLength n - 1) ≤ n := by
  induction n using Nat.strongRecOn with
  | ind n ih =>
      unfold decimalLength
      split
      · rw [Nat.sub_self, Nat.pow_zero]
        exact hn
      · have hten := ih (n / 10) (by omega) (by omega)
        have hsucc : decimalLength (n / 10) = decimalLength (n / 10) - 1 + 1 := by
          have := decimalLength_pos (n / 10)
          omega
        rw [Nat.add_sub_cancel, hsucc, Nat.pow_succ]
        omega

lemma stripZeros_eq (n : Nat) : (stripZeros n).1 * 10 ^ (stripZeros n).2 = n := by
  induction n using Nat.strongRecOn with
  | ind n ih =>
      unfold stripZeros
      split
      · have hten := ih (n / 10) (by omega)
        rw [Nat.pow_succ, ← Nat.mul_assoc, hten]
        omega
      · simp

namespace Magnitude

/-! ## Decimals that read back -/

/-- A decimal in units, as a quotient by `decimalDen`. -/
def decimalNum (count : Nat) (place : Int) : Nat := count * 10 ^ place.toNat * unitsPerWhole

def decimalDen (place : Int) : Nat := 10 ^ (-place).toNat

/-- Whether a decimal is rounded to the magnitude. -/
def IsDecimal (m : Magnitude) (count : Nat) (place : Int) : Prop :=
  m.Covers (decimalNum count place) (decimalDen place)

variable {m : Magnitude} {count : Nat} {place : Int}

lemma decimalDen_pos (place : Int) : 0 < decimalDen place := Nat.pow_pos (by decide)

lemma isDecimal_iff_readsBack : m.IsDecimal count place ↔ m.readsBack count place = true := by
  have hscaled : 4 * count * unitsPerWhole * Nat.pow 10 place.toNat = 4 * decimalNum count place := by
    rw [decimalNum, Nat.pow_eq]
    generalize unitsPerWhole = whole
    ac_rfl
  unfold readsBack IsDecimal Covers decimalDen gapBelow
  rw [hscaled]
  generalize decimalNum count place = num
  dsimp only [Nat.pow_eq]
  by_cases heven : m.units / spacing m.units % 2 = 0
  · rw [if_pos heven, if_pos heven, Bool.and_eq_true, decide_eq_true_eq, decide_eq_true_eq]
  · rw [if_neg heven, if_neg heven, Bool.and_eq_true, decide_eq_true_eq, decide_eq_true_eq]

lemma covers_congr {num den num' den' : Nat} (hden : 0 < den) (hden' : 0 < den')
    (h : num * den' = num' * den) : m.Covers num den ↔ m.Covers num' den' := by
  have hcross : 4 * num * den' = 4 * num' * den := by
    rw [Nat.mul_assoc, h, Nat.mul_assoc]
  have hle (a : Nat) : a * den ≤ 4 * num ↔ a * den' ≤ 4 * num' := by
    rw [← Nat.mul_le_mul_right_iff hden', hcross, Nat.mul_right_comm a, Nat.mul_le_mul_right_iff hden]
  have hge (a : Nat) : 4 * num ≤ a * den ↔ 4 * num' ≤ a * den' := by
    rw [← Nat.mul_le_mul_right_iff hden', hcross, Nat.mul_right_comm a, Nat.mul_le_mul_right_iff hden]
  unfold Covers
  rw [hle, hge, ← Nat.not_le, ← Nat.not_le, hge, hle, Nat.not_le, Nat.not_le]

/-- Zeros behind the digits and the place of the last one make up for each other. -/
lemma isDecimal_mul_pow (k : Nat) :
    m.IsDecimal (count * 10 ^ k) place ↔ m.IsDecimal count (place + k) := by
  refine covers_congr (decimalDen_pos _) (decimalDen_pos _) ?_
  have hplaces : k + place.toNat + (-(place + k)).toNat = (place + k).toNat + (-place).toNat := by
    omega
  have hpow : (10 : Nat) ^ k * 10 ^ place.toNat * 10 ^ (-(place + k)).toNat =
      10 ^ (place + k).toNat * 10 ^ (-place).toNat := by
    rw [← Nat.pow_add, ← Nat.pow_add, ← Nat.pow_add, hplaces]
  unfold decimalNum decimalDen
  generalize unitsPerWhole = whole
  calc count * 10 ^ k * 10 ^ place.toNat * whole * 10 ^ (-(place + k)).toNat
      = count * whole * (10 ^ k * 10 ^ place.toNat * 10 ^ (-(place + k)).toNat) := by ac_rfl
    _ = count * whole * (10 ^ (place + k).toNat * 10 ^ (-place).toNat) := by rw [hpow]
    _ = count * 10 ^ (place + k).toNat * whole * 10 ^ (-place).toNat := by ac_rfl

/-! ## Reading decimals -/

lemma unitsPerWhole_lt : unitsPerWhole < 10 ^ decimalShift := by decide +kernel

lemma two_mul_limit_le : 2 * limit ≤ 10 ^ 309 * unitsPerWhole := by decide +kernel

/-- A decimal of a magnitude is not above the greatest finite value by much. -/
lemma IsDecimal.place_lt (h : m.IsDecimal count place) (hm : m.units ≠ 0) (hcount : 0 < count) :
    place + decimalLength count ≤ 309 := by
  obtain ⟨-, hhigh⟩ := Covers.bounds h
  have hgap := Nat.mul_le_mul_right (decimalDen place) (spacing_le hm)
  have hlimit := Nat.mul_lt_mul_of_pos_right m.bounded (decimalDen_pos place)
  have hdigits := pow_decimalLength_le hcount
  have hlength := decimalLength_pos count
  have hwhole := Double.unitsPerWhole_pos
  have hlarge := two_mul_limit_le
  unfold decimalNum decimalDen at *
  generalize unitsPerWhole = whole at *
  generalize limit = bound at *
  have hpower : 10 ^ (decimalLength count - 1 + place.toNat) * whole <
      10 ^ (309 + (-place).toNat) * whole := by
    calc 10 ^ (decimalLength count - 1 + place.toNat) * whole
        = 10 ^ (decimalLength count - 1) * (10 ^ place.toNat * whole) := by
          rw [Nat.pow_add, Nat.mul_assoc]
      _ ≤ count * (10 ^ place.toNat * whole) := Nat.mul_le_mul_right _ hdigits
      _ = count * 10 ^ place.toNat * whole := (Nat.mul_assoc _ _ _).symm
      _ < 2 * (bound * 10 ^ (-place).toNat) := by omega
      _ = 2 * bound * 10 ^ (-place).toNat := (Nat.mul_assoc _ _ _).symm
      _ ≤ 10 ^ 309 * whole * 10 ^ (-place).toNat := Nat.mul_le_mul_right _ hlarge
      _ = 10 ^ (309 + (-place).toNat) * whole := by rw [Nat.pow_add, Nat.mul_right_comm]
  have := (Nat.pow_lt_pow_iff_right (by decide : 1 < 10)).mp (Nat.lt_of_mul_lt_mul_right hpower)
  omega

/-- A decimal of a magnitude is not below the least positive value by much. -/
lemma IsDecimal.lt_place (h : m.IsDecimal count place) (hm : m.units ≠ 0) :
    -325 < place + decimalLength count := by
  obtain ⟨hlow, -⟩ := Covers.bounds h
  have hbelow := Nat.mul_le_mul_right (decimalDen place) (gapBelow_le m)
  have hgap := Nat.mul_le_mul_right (decimalDen place) (spacing_le hm)
  have hone := Nat.mul_le_mul_right (decimalDen place) (Nat.pos_of_ne_zero hm)
  have hdigits := lt_pow_decimalLength count
  have hwhole := Double.unitsPerWhole_pos
  have hsmall := unitsPerWhole_lt
  have hshift : decimalShift = 324 := rfl
  unfold decimalNum decimalDen at *
  generalize unitsPerWhole = whole at *
  generalize decimalShift = shift at *
  have hpower : 10 ^ (-place).toNat < 10 ^ (shift + 1 + decimalLength count + place.toNat) := by
    calc 10 ^ (-place).toNat ≤ 2 * (count * 10 ^ place.toNat * whole) := by omega
      _ ≤ 10 * (count * 10 ^ place.toNat * 10 ^ shift) :=
          Nat.mul_le_mul (by decide) (Nat.mul_le_mul_left _ (Nat.le_of_lt hsmall))
      _ = count * (10 ^ place.toNat * (10 ^ shift * 10)) := by
          rw [Nat.mul_comm 10, Nat.mul_assoc, Nat.mul_assoc]
      _ < 10 ^ decimalLength count * (10 ^ place.toNat * (10 ^ shift * 10)) :=
          Nat.mul_lt_mul_of_pos_right hdigits (Nat.mul_pos (Nat.pow_pos (by decide))
            (Nat.mul_pos (Nat.pow_pos (by decide)) (by decide)))
      _ = 10 ^ (shift + 1 + decimalLength count + place.toNat) := by
          rw [← Nat.pow_succ, ← Nat.pow_add, ← Nat.pow_add]
          exact congrArg _ (by omega)
  have := (Nat.pow_lt_pow_iff_right (by decide : 1 < 10)).mp hpower
  omega

lemma IsDecimal.count_pos (h : m.IsDecimal count place) (hm : m.units ≠ 0) : 0 < count := by
  refine Nat.pos_of_ne_zero fun hzero => ?_
  obtain ⟨hlow, -⟩ := Covers.bounds h
  have hbelow := Nat.mul_le_mul_right (decimalDen place) (gapBelow_le m)
  have hgap := Nat.mul_le_mul_right (decimalDen place) (spacing_le hm)
  have hpos := Nat.mul_pos (Nat.pos_of_ne_zero hm) (decimalDen_pos place)
  have hnum : decimalNum count place = 0 := by simp only [decimalNum, hzero, Nat.zero_mul]
  omega

/-- A decimal of a magnitude is read as the magnitude. -/
theorem IsDecimal.ofDecimal_eq (h : m.IsDecimal count place) (hm : m.units ≠ 0) (s : Bool) :
    Double.ofDecimal s count place = .finite s m := by
  have hcount := h.count_pos hm
  have hhigh := h.place_lt hm hcount
  have hlow := h.lt_place hm
  have hround := Covers.nearestUnits_eq h (decimalDen_pos place) hm
  have hunits : Double.ofUnits s (count * Nat.pow 10 place.toNat * unitsPerWhole)
      (Nat.pow 10 (-place).toNat) = .finite s m := Double.ofUnits_eq_finite_iff.mpr ⟨rfl, hround⟩
  unfold Double.ofDecimal
  rw [if_neg (Nat.ne_of_gt hcount), if_neg (by omega), if_neg (by omega), hunits]

/-! ## Seventeen digits -/

/-- The decimal nearest to the magnitude is one of it if the place is finer than its grid. -/
lemma isDecimal_nearest (hm : m.units ≠ 0)
    (hfine : unitsPerWhole * 10 ^ place.toNat < m.gapBelow * decimalDen place) :
    m.IsDecimal (roundDiv (m.units * decimalDen place) (unitsPerWhole * 10 ^ place.toNat)) place := by
  have hden : 0 < unitsPerWhole * 10 ^ place.toNat :=
    Nat.mul_pos Double.unitsPerWhole_pos (Nat.pow_pos (by decide))
  have hnum (count : Nat) : decimalNum count place = count * (unitsPerWhole * 10 ^ place.toNat) := by
    rw [decimalNum, Nat.mul_assoc, Nat.mul_comm unitsPerWhole]
  have hnear := roundDiv_near hden (m.units * decimalDen place)
  have hbelow := Nat.mul_le_mul_right (decimalDen place) (gapBelow_le m)
  have hgap := Nat.mul_le_mul_right (decimalDen place) (spacing_le hm)
  unfold IsDecimal Covers
  rw [hnum, Nat.sub_mul, Nat.add_mul, Nat.mul_assoc, Nat.mul_assoc, Nat.mul_assoc]
  split <;> omega

/-- The place of the first digit is not above the magnitude. -/
lemma pow_decimalExponent_le (hm : m.units ≠ 0) :
    ∃ k : Nat, m.decimalExponent = k - decimalShift ∧
      10 ^ k * unitsPerWhole ≤ m.units * 10 ^ decimalShift := by
  have hwhole := Double.unitsPerWhole_pos
  have hpos : 0 < m.units * 10 ^ decimalShift / unitsPerWhole := by
    refine Nat.div_pos ?_ hwhole
    exact Nat.le_trans (Nat.le_of_lt unitsPerWhole_lt)
      (Nat.le_mul_of_pos_left _ (Nat.pos_of_ne_zero hm))
  refine ⟨decimalLength (m.units * 10 ^ decimalShift / unitsPerWhole) - 1, ?_, ?_⟩
  · have hlength := decimalLength_pos (m.units * 10 ^ decimalShift / unitsPerWhole)
    rw [decimalExponent, Nat.pow_eq]
    generalize decimalLength _ = length at hlength ⊢
    omega
  · calc 10 ^ (decimalLength (m.units * 10 ^ decimalShift / unitsPerWhole) - 1) * unitsPerWhole
        ≤ m.units * 10 ^ decimalShift / unitsPerWhole * unitsPerWhole :=
          Nat.mul_le_mul_right _ (pow_decimalLength_le hpos)
      _ ≤ m.units * 10 ^ decimalShift := Nat.div_mul_le_self _ _

/-- The place of the seventeenth digit is finer than the grid, for `2 ^ 53 < 10 ^ 16`. -/
lemma seventeenth_place_fine (hm : m.units ≠ 0) (hplace : place = m.decimalExponent - 16) :
    unitsPerWhole * 10 ^ place.toNat < m.gapBelow * decimalDen place := by
  obtain ⟨k, hexponent, hfirst⟩ := pow_decimalExponent_le hm
  have hsteps := units_le_gapBelow m
  have hpos : 0 < m.gapBelow := by omega
  unfold decimalDen
  generalize unitsPerWhole = whole at *
  generalize decimalShift = shift at *
  have hten : 0 < (10 : Nat) ^ shift * 10 ^ (-place).toNat :=
    Nat.mul_pos (Nat.pow_pos (by decide)) (Nat.pow_pos (by decide))
  have hplaces : place.toNat + (16 + shift) = k + (-place).toNat := by omega
  refine Nat.lt_of_mul_lt_mul_right (a := 10 ^ (16 + shift)) ?_
  calc whole * 10 ^ place.toNat * 10 ^ (16 + shift)
      = 10 ^ k * whole * 10 ^ (-place).toNat := by
        rw [Nat.mul_assoc, ← Nat.pow_add, hplaces, Nat.pow_add, Nat.mul_comm (10 ^ k) whole,
          Nat.mul_assoc]
    _ ≤ m.units * 10 ^ shift * 10 ^ (-place).toNat := Nat.mul_le_mul_right _ hfirst
    _ = m.units * (10 ^ shift * 10 ^ (-place).toNat) := Nat.mul_assoc _ _ _
    _ < 10 ^ 16 * m.gapBelow * (10 ^ shift * 10 ^ (-place).toNat) :=
        Nat.mul_lt_mul_of_pos_right (by omega) hten
    _ = m.gapBelow * 10 ^ (-place).toNat * 10 ^ (16 + shift) := by
        rw [pow_add]
        ac_rfl

lemma isDecimal_of_decimalAt? (h : m.decimalAt? place = some count) : m.IsDecimal count place := by
  rw [isDecimal_iff_readsBack]
  unfold decimalAt? at h
  dsimp only at h
  generalize roundDiv _ _ = nearest at h
  generalize roundAway _ _ = other at h
  by_cases hnearest : m.readsBack nearest place = true
  · rw [if_pos hnearest, Option.some.injEq] at h
    exact h ▸ hnearest
  · rw [if_neg hnearest] at h
    by_cases hother : m.readsBack other place = true
    · rw [if_pos hother, Option.some.injEq] at h
      exact h ▸ hother
    · rw [if_neg hother] at h
      cases h

/-- A search that meets a place with a decimal ends with one. -/
lemma isDecimal_shortestFrom {fuel digits : Nat}
    (h : ∃ d, digits ≤ d ∧ d < digits + fuel ∧ m.decimalAt? (m.decimalExponent - d + 1) ≠ none) :
    m.IsDecimal (m.shortestFrom fuel digits).1 (m.shortestFrom fuel digits).2 := by
  induction fuel generalizing digits with
  | zero => omega
  | succ fuel ih =>
      rw [shortestFrom]
      cases hcount : m.decimalAt? (m.decimalExponent - digits + 1) with
      | none =>
          obtain ⟨d, hlow, hhigh, hd⟩ := h
          have hne : d ≠ digits := fun heq => hd (heq ▸ hcount)
          exact ih ⟨d, by omega, by omega, hd⟩
      | some count => exact isDecimal_of_decimalAt? hcount

/-- **The shortest decimal of a magnitude is one of it**: seventeen digits always suffice. -/
theorem isDecimal_shortest (hm : m.units ≠ 0) : m.IsDecimal m.shortest.1 m.shortest.2 := by
  have hfound : m.decimalAt? (m.decimalExponent - (17 : Nat) + 1) ≠ none := by
    have hplace : m.decimalExponent - (17 : Nat) + 1 = m.decimalExponent - 16 := by omega
    have hnearest := isDecimal_iff_readsBack.mp
      (isDecimal_nearest hm (seventeenth_place_fine hm hplace))
    unfold decimalAt?
    dsimp only
    rw [decimalDen] at hnearest
    rw [Nat.pow_eq, Nat.pow_eq, if_pos hnearest]
    exact Option.some_ne_none _
  have hdecimal : m.IsDecimal (m.shortestFrom 17 1).1 (m.shortestFrom 17 1).2 :=
    isDecimal_shortestFrom ⟨17, by omega, by omega, hfound⟩
  unfold shortest
  dsimp only
  rw [← isDecimal_mul_pow, stripZeros_eq]
  exact hdecimal

end Magnitude

end MusicMacro
