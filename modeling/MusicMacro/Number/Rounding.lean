/-!
# Rounding a quotient

The one rounding rule of this library: a quotient of natural numbers goes to the nearest whole
number, and a quotient in the middle goes to the even neighbour (`roundDiv`).  Floating-point
results, tick counts and decimal places are all this rule at a chosen unit.
-/

namespace MusicMacro

/-- `num / den` rounded to the nearest whole number, a half to the even neighbour. -/
def roundDiv (num den : Nat) : Nat :=
  if 2 * (num % den) < den then num / den
  else if den < 2 * (num % den) then num / den + 1
  else num / den + num / den % 2

/-- The neighbour of `num / den` that `roundDiv` does not choose, when the quotient is not
whole. -/
def roundAway (num den : Nat) : Nat :=
  2 * (num / den) + 1 - roundDiv num den

theorem div_le_roundDiv (num den : Nat) : num / den ≤ roundDiv num den := by
  unfold roundDiv; split
  · exact Nat.le_refl _
  · split <;> omega

theorem roundDiv_le_div_succ (num den : Nat) : roundDiv num den ≤ num / den + 1 := by
  unfold roundDiv; split
  · omega
  · split <;> omega

theorem roundAway_le_div_succ (num den : Nat) : roundAway num den ≤ num / den + 1 := by
  have := div_le_roundDiv num den
  unfold roundAway; omega

/-- A whole quotient is its own rounding. -/
theorem roundDiv_of_dvd {num den : Nat} (pos : 0 < den) (h : den ∣ num) :
    roundDiv num den = num / den := by
  have hr : num % den = 0 := Nat.mod_eq_zero_of_dvd h
  simp [roundDiv, hr, pos]

/-- `num / den` rounded to the nearest whole number, a half to the even neighbour, with the
sign of `num`. -/
def roundDivInt (num : Int) (den : Nat) : Int :=
  if num < 0 then -(roundDiv num.natAbs den : Int) else roundDiv num.natAbs den

end MusicMacro
