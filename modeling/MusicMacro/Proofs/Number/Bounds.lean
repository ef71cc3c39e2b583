import Mathlib.Algebra.Group.Nat.Defs
import MusicMacro.Number.Basic
import MusicMacro.Proofs.Number.Double

/-!
# Signs and sizes of rounded results

A rounded quotient has the sign that it was asked for (`Double.ofUnits_cases`) and is finite as
long as the exact quotient stays below half the limit (`Double.isFinite_ofUnits`); the half is
far from sharp, but it spares the case that rounding carries into the next power of two.

The values from zero on (`Double.IsUnsigned`) are closed under sums, and one of them that does
not carry a sign is positive unless it is the zero (`Double.zero_less_iff`).
-/

namespace MusicMacro

/-! ## Finite results -/

namespace Magnitude

/-- Half the limit, `2^1023`. -/
def halfLimit : Nat := Nat.pow 2 2097

lemma limit_eq : limit = halfLimit * 2 := by
  have hsucc (n : Nat) : Nat.pow 2 (n + 1) = Nat.pow 2 n * 2 := rfl
  unfold limit halfLimit
  rw [show 2098 = 2097 + 1 from rfl]
  generalize 2097 = n
  exact hsucc n

lemma spacing_le {q : Nat} (h : q ≠ 0) : spacing q ≤ q := by
  refine Nat.le_trans ?_ (Nat.log2_self_le h)
  rw [spacing, Nat.pow_eq]
  exact Nat.pow_le_pow_right (by decide) (Nat.sub_le _ _)

/-- A candidate next to a quotient below half the limit is finite. -/
lemma steps_lt_limit {q count : Nat} (hq : q < halfLimit) (h : count ≤ q / spacing q + 1) :
    count * spacing q < limit := by
  have hsteps : count * spacing q ≤ q + spacing q := by
    calc count * spacing q ≤ (q / spacing q + 1) * spacing q := Nat.mul_le_mul_right _ h
      _ = q / spacing q * spacing q + spacing q := Nat.succ_mul _ _
      _ ≤ q + spacing q := Nat.add_le_add_right (Nat.div_mul_le_self _ _) _
  rw [limit_eq]
  rcases Nat.eq_zero_or_pos q with rfl | hpos
  · have hone : spacing 0 = 1 := rfl
    omega
  · have := spacing_le (Nat.ne_of_gt hpos)
    omega

/-- A quotient below half the limit has a nearest magnitude. -/
lemma ofQuotient?_isSome {num den : Nat} (h : num < halfLimit * den) :
    (ofQuotient? num den).isSome = true := by
  have hq : num / den < halfLimit := Nat.div_lt_of_lt_mul (by rwa [Nat.mul_comm])
  have hcount : roundDiv num (den * spacing (num / den)) ≤ num / den / spacing (num / den) + 1 := by
    rw [Nat.div_div_eq_div_mul]
    exact roundDiv_le_div_succ _ _
  rw [ofQuotient?, ofSteps?, dif_pos (steps_lt_limit hq hcount)]
  rfl

end Magnitude

namespace Double

/-- A rounded result has the sign that was asked for. -/
lemma ofUnits_cases (s : Bool) (num den : Nat) :
    (∃ m, ofUnits s num den = finite s m) ∨ ofUnits s num den = infinite s := by
  unfold ofUnits
  cases Magnitude.ofQuotient? num den with
  | none => exact .inr rfl
  | some m => exact .inl ⟨m, rfl⟩

/-- A quotient below half the limit rounds to a finite value. -/
lemma isFinite_ofUnits (s : Bool) {num den : Nat} (h : num < Magnitude.halfLimit * den) :
    ∃ m, ofUnits s num den = finite s m := by
  obtain ⟨m, hm⟩ := Option.isSome_iff_exists.mp (Magnitude.ofQuotient?_isSome h)
  refine ⟨m, ?_⟩
  unfold ofUnits
  rw [hm]

lemma unitsPerWhole_pos : 0 < Magnitude.unitsPerWhole := by
  unfold Magnitude.unitsPerWhole
  generalize 1074 = n
  exact Magnitude.pow_two_pos n

lemma unitsPerWhole_mul_le : Magnitude.unitsPerWhole * 2 ^ 100 ≤ Magnitude.halfLimit := by
  have hexponents : 1074 + 100 ≤ 2097 := by decide
  unfold Magnitude.unitsPerWhole Magnitude.halfLimit
  -- with names for the exponents nothing tries to write the powers out
  generalize 1074 = a, 2097 = c at hexponents ⊢
  rw [Nat.pow_eq, Nat.pow_eq, ← Nat.pow_add]
  exact Nat.pow_le_pow_right (by decide) hexponents

/-- A fraction below `2^100`, which is far below the limit, rounds to a finite value. -/
lemma isFinite_ofFraction {num : Int} {den : Nat} (h : num.natAbs < 2 ^ 100 * den) :
    ∃ m, ofFraction num den = finite (num < 0) m := by
  refine isFinite_ofUnits _ ?_
  calc num.natAbs * Magnitude.unitsPerWhole
      < 2 ^ 100 * den * Magnitude.unitsPerWhole := Nat.mul_lt_mul_of_pos_right h unitsPerWhole_pos
    _ = Magnitude.unitsPerWhole * 2 ^ 100 * den := by
      rw [Nat.mul_comm, Nat.mul_assoc]
    _ ≤ Magnitude.halfLimit * den := Nat.mul_le_mul_right _ unitsPerWhole_mul_le

lemma finite_mul_finite (s t : Bool) (a b : Magnitude) :
    finite s a * finite t b = ofUnits (s != t) (a.units * b.units) Magnitude.unitsPerWhole := by
  show mul _ _ = _
  rw [mul]

/-! ## Values without a sign -/

/-- A number from zero on that is not the negative zero. -/
def IsUnsigned (x : Double) : Prop := (∃ m, x = finite false m) ∨ x = infinite false

variable {x y : Double}

lemma isUnsigned_ofUnits (num den : Nat) : (ofUnits false num den).IsUnsigned :=
  ofUnits_cases false num den

lemma zero_isUnsigned : zero.IsUnsigned := .inl ⟨.zero, rfl⟩

/-- The product of an unsigned finite value with another one is unsigned. -/
lemma isUnsigned_mul (a b : Magnitude) : (finite false a * finite false b).IsUnsigned := by
  rw [finite_mul_finite]
  exact isUnsigned_ofUnits _ _

lemma IsUnsigned.add (hx : x.IsUnsigned) (hy : y.IsUnsigned) : (x + y).IsUnsigned := by
  rcases hx with ⟨a, rfl⟩ | rfl
  · rcases hy with ⟨b, rfl⟩ | rfl
    · change (ofSignedUnits ((a.units : Int) + b.units) false).IsUnsigned
      rw [ofSignedUnits]
      have hsign : decide ((a.units : Int) + b.units < 0) = false := by
        rw [decide_eq_false_iff_not]
        omega
      split
      · exact zero_isUnsigned
      · rw [hsign]
        exact isUnsigned_ofUnits _ _
    · exact .inr rfl
  · rcases hy with ⟨b, rfl⟩ | rfl
    · exact .inr rfl
    · exact .inr rfl

/-- An unsigned value is positive unless it is zero. -/
lemma IsUnsigned.zero_less_iff (hx : x.IsUnsigned) : zero.less x = true ↔ x ≠ zero := by
  rcases hx with ⟨m, rfl⟩ | rfl
  · have hless : zero.less (finite false m) = decide (0 < m.units) := by
      rw [less, zero, compare?, decide_eq_decide, Option.some.injEq, signedUnits, signedUnits,
        if_neg Bool.false_ne_true, if_neg Bool.false_ne_true, Int.compare_eq_lt]
      exact Int.ofNat_lt
    rw [hless, decide_eq_true_iff, zero, ne_eq, finite.injEq, not_and]
    constructor
    · rintro hpos - rfl
      exact Nat.lt_irrefl 0 hpos
    · intro hne
      refine Nat.pos_of_ne_zero fun hz => hne rfl ?_
      obtain ⟨units, hgrid, hbound⟩ := m
      obtain rfl : units = 0 := hz
      rfl
  · exact ⟨fun _ => by decide, fun _ => rfl⟩

lemma IsUnsigned.not_less_zero (hx : x.IsUnsigned) : x.less zero = false := by
  rcases hx with ⟨m, rfl⟩ | rfl
  · rw [less, zero, compare?, decide_eq_false_iff_not, Option.some.injEq, signedUnits, signedUnits,
      if_neg Bool.false_ne_true, if_neg Bool.false_ne_true, Int.compare_eq_lt]
    exact Int.not_lt.mpr (Int.natCast_nonneg _)
  · rfl

lemma compare?_swap (x y : Double) : x.compare? y = (y.compare? x).map Ordering.swap := by
  cases x with
  | nan => cases y <;> rfl
  | infinite s =>
      cases y with
      | nan => rfl
      | infinite t => exact congrArg some Std.OrientedCmp.eq_swap
      | finite t b => cases s <;> rfl
  | finite s a =>
      cases y with
      | nan => rfl
      | infinite t => cases t <;> rfl
      | finite t b => exact congrArg some Std.OrientedCmp.eq_swap

/-- What lies above another value is not at most that value. -/
lemma not_atMost_of_less (h : x.less y = true) : y.atMost x = false := by
  rw [less, decide_eq_true_eq] at h
  rw [atMost, compare?_swap, h]
  rfl

end Double

/-! ## Whole numbers as doubles -/

lemma doubleOfInt_eq (n : Int) :
    doubleOfInt n = (Double.ofInt? n).elim (.error .tooLargeForDouble) .ok := by
  -- opened as a function: next to its value at `n` its body would be computed
  generalize hfun : doubleOfInt = convert
  delta doubleOfInt at hfun
  subst hfun
  dsimp only
  generalize Double.ofInt? n = x?
  cases x? <;> rfl

/-- A whole number has a double if the nearest one is finite. -/
lemma doubleOfInt_eq_ok_iff {n : Int} {x : Double} :
    doubleOfInt n = .ok x ↔ Double.ofFraction n 1 = x ∧ x.isFinite = true := by
  have hopen : Double.ofInt? n =
      if (Double.ofFraction n 1).isFinite then some (Double.ofFraction n 1) else none := by
    generalize hfun : Double.ofInt? = convert
    delta Double.ofInt? at hfun
    subst hfun
    rfl
  rw [doubleOfInt_eq, hopen]
  generalize Double.ofFraction n 1 = y
  by_cases hfinite : y.isFinite = true
  · rw [if_pos hfinite]
    simp only [Option.elim_some, Except.ok.injEq]
    exact ⟨fun h => ⟨h, h ▸ hfinite⟩, And.left⟩
  · rw [if_neg hfinite]
    simp only [Option.elim_none, reduceCtorEq, false_iff, not_and]
    rintro rfl
    exact hfinite

/-! ## Doubles among numbers -/

namespace Number

/-- Against the whole number zero a double compares as against its own zero. -/
lemma compare?_real_zero (x : Double) : (real x).compare? (whole 0) = x.compare? .zero := by
  cases x with
  | nan => rfl
  | infinite s => cases s <;> rfl
  | finite s m =>
      change some (compare (0 * (Magnitude.unitsPerWhole : Int)) (Double.signedUnits s m)).swap =
        some (compare (Double.signedUnits s m) 0)
      rw [Int.zero_mul, ← Std.OrientedCmp.eq_swap]

lemma real_less_zero (x : Double) : (real x).less (whole 0) = x.less .zero := by
  rw [less, compare?_real_zero, Double.less]

lemma real_atMost_zero (x : Double) : (real x).atMost (whole 0) = x.atMost .zero := by
  rw [atMost, compare?_real_zero, Double.atMost]

lemma whole_less_zero (n : Int) : (whole n).less (whole 0) = decide (n < 0) := by
  rw [less, compare?, decide_eq_decide, Option.some.injEq, Int.compare_eq_lt]

lemma whole_atMost_zero (n : Int) : (whole n).atMost (whole 0) = decide (n ≤ 0) := by
  rw [atMost, compare?, Bool.eq_iff_iff]
  simp only [Option.some.injEq, Bool.or_eq_true, decide_eq_true_eq, Int.compare_eq_lt,
    Int.compare_eq_eq]
  exact Int.le_iff_lt_or_eq.symm

lemma whole_equal (m n : Int) : (whole m).equal (whole n) = decide (m = n) := by
  rw [equal, compare?, decide_eq_decide, Option.some.injEq, Int.compare_eq_eq]

end Number

end MusicMacro
