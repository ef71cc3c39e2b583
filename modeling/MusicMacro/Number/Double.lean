import MusicMacro.Number.Rounding

/-!
# Floating-point numbers

A `Double` is a binary floating-point number with 53 significant bits.  Its finite values are
whole multiples of the least positive one, `2^-1074`, so a magnitude is a natural number of
these units that lies on the grid of its own size (`Magnitude`).  Every operation computes the
exact result in units and rounds once (`Magnitude.ofQuotient?`), to the nearest value and
midway to the even one; a magnitude from `2^1024` on becomes infinite.
-/

namespace MusicMacro

/-! ## Magnitudes -/

namespace Magnitude

/-- Units in one whole: the least positive value is `2^-1074`. -/
def unitsPerWhole : Nat := Nat.pow 2 1074

/-- Finite magnitudes lie below this number of units, which is `2^1024`. -/
def limit : Nat := Nat.pow 2 2098

theorem pow_two_pos (n : Nat) : 0 < Nat.pow 2 n := Nat.two_pow_pos n

theorem limit_pos : 0 < limit := by
  unfold limit
  generalize 2098 = n
  exact pow_two_pos n

/-- The distance in units between neighbouring values near `units`: the weight of the last of
53 significant bits, and one unit for the small values. -/
def spacing (units : Nat) : Nat := Nat.pow 2 (units.log2 - 52)

end Magnitude

/-- A finite magnitude: a number of units on the grid of its own size. -/
structure Magnitude where
  /-- The multiple of `2^-1074`. -/
  units : Nat
  onGrid : Magnitude.spacing units ∣ units
  bounded : units < Magnitude.limit
deriving DecidableEq

namespace Magnitude

theorem log2_mul_two_pow {m : Nat} (k : Nat) (h : m ≠ 0) :
    (m * Nat.pow 2 k).log2 = m.log2 + k := by
  rw [Nat.pow_eq]
  have low : m * 2 ^ k ≠ 0 := Nat.mul_ne_zero h (Nat.ne_of_gt (Nat.two_pow_pos k))
  rw [Nat.log2_eq_iff low, Nat.pow_add, Nat.add_right_comm, Nat.pow_add 2 (m.log2 + 1)]
  exact ⟨Nat.mul_le_mul_right _ (Nat.log2_self_le h),
    Nat.mul_lt_mul_of_pos_right Nat.lt_log2_self (Nat.two_pow_pos k)⟩

theorem spacing_dvd_mul {m : Nat} (k : Nat) (h : m ≤ Nat.pow 2 53) :
    spacing (m * Nat.pow 2 k) ∣ m * Nat.pow 2 k := by
  rcases Nat.eq_zero_or_pos m with rfl | pos
  · simp
  unfold spacing
  rw [log2_mul_two_pow k (by omega)]
  simp only [Nat.pow_eq] at h ⊢
  rcases Nat.lt_or_eq_of_le h with hlt | rfl
  · have : m.log2 < 53 := (Nat.log2_lt (by omega)).2 hlt
    exact Nat.dvd_trans (Nat.pow_dvd_pow 2 (by omega)) (Nat.dvd_mul_left _ _)
  · rw [← Nat.pow_add, Nat.log2_two_pow]
    exact Nat.pow_dvd_pow 2 (by omega)

theorem div_spacing_lt (q : Nat) : q / spacing q < Nat.pow 2 53 := by
  unfold spacing
  simp only [Nat.pow_eq]
  rw [Nat.div_lt_iff_lt_mul (Nat.two_pow_pos _), ← Nat.pow_add]
  rcases Nat.eq_zero_or_pos q with rfl | pos
  · exact Nat.two_pow_pos _
  · exact (Nat.log2_lt (by omega)).1 (by omega)

/-- The candidate `count` steps of the grid at `q`, if it is finite. -/
def ofSteps? (q count : Nat) (h : count ≤ q / spacing q + 1) : Option Magnitude :=
  if bounded : count * spacing q < limit then
    some ⟨count * spacing q, spacing_dvd_mul _ (by have := div_spacing_lt q; omega), bounded⟩
  else none

/-- The magnitude nearest to `num / den` units, midway the one with an even last bit; `none`
when it would reach the limit. -/
def ofQuotient? (num den : Nat) : Option Magnitude :=
  ofSteps? (num / den) (roundDiv num (den * spacing (num / den)))
    (by rw [Nat.div_div_eq_div_mul]; exact roundDiv_le_div_succ _ _)

/-- The neighbour of `num / den` units that `ofQuotient?` does not choose. -/
def ofQuotientAway? (num den : Nat) : Option Magnitude :=
  ofSteps? (num / den) (roundAway num (den * spacing (num / den)))
    (by rw [Nat.div_div_eq_div_mul]; exact roundAway_le_div_succ _ _)

def zero : Magnitude := ⟨0, Nat.dvd_zero _, limit_pos⟩

end Magnitude

/-! ## Doubles -/

/-- A floating-point number with 53 significant bits.  There are two zeros and one value that
is not a number. -/
inductive Double where
  | finite (negative : Bool) (magnitude : Magnitude)
  | infinite (negative : Bool)
  | nan
deriving DecidableEq

namespace Double

def zero : Double := .finite false .zero

/-- The value of this sign nearest to `num / den` units, infinite beyond the finite ones. -/
def ofUnits (negative : Bool) (num den : Nat) : Double :=
  match Magnitude.ofQuotient? num den with
  | some m => .finite negative m
  | none => .infinite negative

/-- The value nearest to the fraction `num / den`. -/
def ofFraction (num : Int) (den : Nat) : Double :=
  ofUnits (num < 0) (num.natAbs * Magnitude.unitsPerWhole) den

def isFinite : Double → Bool
  | .finite .. => true
  | _ => false

/-- The double nearest to a whole number, if that is finite. -/
def ofInt? (n : Int) : Option Double :=
  let x := ofFraction n 1
  if x.isFinite then some x else none

/-- A finite value in units, with its sign. -/
def signedUnits (negative : Bool) (m : Magnitude) : Int :=
  if negative then -(m.units : Int) else m.units

/-! ## Arithmetic -/

/-- The value nearest to a whole number of units; an exact zero takes the given sign. -/
def ofSignedUnits (total : Int) (zeroNegative : Bool) : Double :=
  if total = 0 then .finite zeroNegative .zero
  else ofUnits (total < 0) total.natAbs 1

def add : Double → Double → Double
  | .nan, _ | _, .nan => .nan
  | .infinite s, .infinite t => if s = t then .infinite s else .nan
  | .infinite s, .finite .. | .finite .., .infinite s => .infinite s
  | .finite s a, .finite t b => ofSignedUnits (signedUnits s a + signedUnits t b) (s && t)

def mul : Double → Double → Double
  | .nan, _ | _, .nan => .nan
  | .infinite s, .infinite t => .infinite (s != t)
  | .infinite s, .finite t b | .finite t b, .infinite s =>
    if b.units = 0 then .nan else .infinite (s != t)
  | .finite s a, .finite t b => ofUnits (s != t) (a.units * b.units) Magnitude.unitsPerWhole

def div : Double → Double → Double
  | .nan, _ | _, .nan => .nan
  | .infinite _, .infinite _ => .nan
  | .infinite s, .finite t _ => .infinite (s != t)
  | .finite s _, .infinite t => .finite (s != t) .zero
  | .finite s a, .finite t b =>
    if b.units = 0 then (if a.units = 0 then .nan else .infinite (s != t))
    else ofUnits (s != t) (a.units * Magnitude.unitsPerWhole) b.units

instance : Add Double := ⟨add⟩
instance : Mul Double := ⟨mul⟩
instance : Div Double := ⟨div⟩

/-! ## Order

A value that is not a number compares with nothing, and the two zeros are equal. -/

/-- Exact comparison; `none` when a side is not a number. -/
def compare? : Double → Double → Option Ordering
  | .nan, _ | _, .nan => none
  | .infinite s, .infinite t => some (compare t.toNat s.toNat)
  | .infinite s, .finite .. => some (if s then .lt else .gt)
  | .finite .., .infinite s => some (if s then .gt else .lt)
  | .finite s a, .finite t b => some (compare (signedUnits s a) (signedUnits t b))

def less (x y : Double) : Bool := compare? x y = some .lt

def atMost (x y : Double) : Bool := compare? x y = some .lt || compare? x y = some .eq

def equal (x y : Double) : Bool := compare? x y = some .eq

/-! ## Whole numbers -/

/-- Why a value has no whole-number form. -/
inductive WholeError where
  | infinite
  | nan
deriving DecidableEq, Repr

def WholeError.message : WholeError → String
  | .infinite => "cannot convert float infinity to integer"
  | .nan => "cannot convert float NaN to integer"

/-- The whole number left when the fraction is dropped. -/
def truncate : Double → Except WholeError Int
  | .nan => .error .nan
  | .infinite _ => .error .infinite
  | .finite s m => .ok ((signedUnits s m).tdiv Magnitude.unitsPerWhole)

/-- The nearest whole number, a half to the even neighbour. -/
def round : Double → Except WholeError Int
  | .nan => .error .nan
  | .infinite _ => .error .infinite
  | .finite s m => .ok (roundDivInt (signedUnits s m) Magnitude.unitsPerWhole)

/-- The value nearest to `x` rounded to a number of decimal places, a half to the even digit. -/
def roundPlaces (places : Nat) : Double → Double
  | .finite s m =>
    ofUnits s (roundDiv (m.units * Nat.pow 10 places) Magnitude.unitsPerWhole * Magnitude.unitsPerWhole)
      (Nat.pow 10 places)
  | x => x

end Double

end MusicMacro
