import MusicMacro.Proofs.Number.Bounds

/-!
# Order and exactness of rounding

A rounded quotient is the whole number that it lies within half of, the even one of two
(`roundDiv_eq_of_near`).  Rounding a quotient to the grid of its own size therefore depends on its
value alone, keeps the order (`Magnitude.nearestUnits_mono`), and leaves a value that is on the
grid as it is (`Magnitude.nearestUnits_units`).  The grids of two sizes share the powers of two
between them, which is all that monotonicity needs where the spacing changes.

For values from zero on, sizes in units (`Double.size`) tell the values apart and order them.
-/

namespace MusicMacro

/-! ## Rounded quotients -/

section

variable {num den num' den' k : Nat}

/-- What lies within half of a quotient is its rounding, if it is even where two are as near. -/
lemma roundDiv_eq_of_near (hlow : 2 * (k * den) ≤ 2 * num + den)
    (hhigh : 2 * num ≤ 2 * (k * den) + den)
    (htie : 2 * (k * den) = 2 * num + den ∨ 2 * num = 2 * (k * den) + den → k % 2 = 0)
    (pos : 0 < den) : roundDiv num den = k := by
  have hnum : num / den * den + num % den = num := by
    rw [Nat.mul_comm]
    exact Nat.div_add_mod num den
  have hrest := Nat.mod_lt num pos
  have hsucc (n : Nat) : (n + 1) * den = n * den + den := Nat.succ_mul n den
  -- the count is the whole part or the next number
  have hfirst : num / den ≤ k := by
    refine Nat.le_of_lt_succ (Nat.lt_of_mul_lt_mul_right (a := den) ?_)
    rw [hsucc]
    omega
  have hlast : k ≤ num / den + 1 := by
    refine Nat.le_of_lt_succ (Nat.lt_of_mul_lt_mul_right (a := den) ?_)
    rw [hsucc, hsucc]
    omega
  have hcases : k = num / den ∨ k = num / den + 1 := by omega
  rw [roundDiv]
  generalize num % den = rest at hnum hrest
  generalize num / den = whole at hnum hcases
  rcases hcases with rfl | rfl
  · grind
  · rw [hsucc] at hlow hhigh htie
    grind

/-- A quotient lies within half of its rounding. -/
lemma roundDiv_near (hden : 0 < den) (num : Nat) :
    2 * (roundDiv num den * den) ≤ 2 * num + den ∧ 2 * num ≤ 2 * (roundDiv num den * den) + den := by
  have hnum : num / den * den + num % den = num := by
    rw [Nat.mul_comm]
    exact Nat.div_add_mod num den
  have hrest := Nat.mod_lt num hden
  have hsucc (n : Nat) : (n + 1) * den = n * den + den := Nat.succ_mul n den
  unfold roundDiv
  split
  · omega
  split
  · rw [hsucc]
    omega
  · rcases Nat.mod_two_eq_zero_or_one (num / den) with heven | hodd
    · rw [heven, Nat.add_zero]
      omega
    · rw [hodd, hsucc]
      omega

lemma roundDiv_mul_right {c : Nat} (hc : 0 < c) (num den : Nat) :
    roundDiv (num * c) (den * c) = roundDiv num den := by
  have hcomm : 2 * (num % den * c) = 2 * (num % den) * c := (Nat.mul_assoc _ _ _).symm
  rw [roundDiv, Nat.mul_div_mul_right _ _ hc, Nat.mul_mod_mul_right, hcomm]
  simp only [Nat.mul_lt_mul_right hc]
  rfl

lemma roundDiv_mono_left (h : num ≤ num') : roundDiv num den ≤ roundDiv num' den := by
  rcases Nat.lt_or_eq_of_le (Nat.div_le_div_right (c := den) h) with hlt | heq
  · calc roundDiv num den ≤ num / den + 1 := roundDiv_le_div_succ _ _
      _ ≤ num' / den := hlt
      _ ≤ roundDiv num' den := div_le_roundDiv _ _
  · have hmod : num % den ≤ num' % den := by
      rw [Nat.mod_def, Nat.mod_def, heq]
      omega
    rw [roundDiv, roundDiv, heq]
    grind

/-- A smaller quotient is rounded to no larger number. -/
lemma roundDiv_mono (hden : 0 < den) (hden' : 0 < den') (h : num * den' ≤ num' * den) :
    roundDiv num den ≤ roundDiv num' den' := by
  calc roundDiv num den = roundDiv (num * den') (den * den') := (roundDiv_mul_right hden' _ _).symm
    _ ≤ roundDiv (num' * den) (den * den') := roundDiv_mono_left h
    _ = roundDiv (num' * den) (den' * den) := by rw [Nat.mul_comm den]
    _ = roundDiv num' den' := roundDiv_mul_right hden _ _

lemma roundDiv_mul_self (hden : 0 < den) (k : Nat) : roundDiv (k * den) den = k := by
  rw [roundDiv_of_dvd hden (Nat.dvd_mul_left _ _), Nat.mul_div_cancel _ hden]

end

/-! ## Rounding to the grid -/

namespace Magnitude

lemma spacing_pos (q : Nat) : 0 < spacing q := pow_two_pos _

lemma spacing_eq (q : Nat) : spacing q = 2 ^ (q.log2 - 52) := Nat.pow_eq ..

/-- The number of units nearest to a quotient on the grid of the quotient's size. -/
def nearestUnits (num den : Nat) : Nat :=
  roundDiv num (den * spacing (num / den)) * spacing (num / den)

@[ext] lemma ext {a b : Magnitude} (h : a.units = b.units) : a = b := by
  cases a
  cases b
  cases h
  rfl

lemma ofQuotient?_eq_some_iff {num den : Nat} {m : Magnitude} :
    ofQuotient? num den = some m ↔ nearestUnits num den = m.units := by
  rw [ofQuotient?, ofSteps?, nearestUnits]
  constructor
  · intro h
    split at h
    · exact congrArg units (Option.some.inj h)
    · cases h
  · intro h
    split
    · exact congrArg some (ext h)
    · exact absurd (h ▸ m.bounded) ‹_›

lemma ofQuotient?_eq_none_iff {num den : Nat} :
    ofQuotient? num den = none ↔ limit ≤ nearestUnits num den := by
  rw [ofQuotient?, ofSteps?, nearestUnits]
  split
  · simp only [reduceCtorEq, false_iff]
    omega
  · simp only [true_iff]
    omega

section

variable {num den num' den' k : Nat}

lemma spacing_dvd_two_pow {q : Nat} (h : q < 2 ^ k) : spacing q ∣ 2 ^ k := by
  rw [spacing_eq]
  refine Nat.pow_dvd_pow 2 ?_
  rcases Nat.eq_zero_or_pos q with rfl | hpos
  · simp
  · have := (Nat.log2_lt (Nat.ne_of_gt hpos)).mpr h
    omega

/-- A quotient below a power of two is not rounded beyond it. -/
lemma nearestUnits_le_two_pow (hden : 0 < den) (h : num < 2 ^ k * den) :
    nearestUnits num den ≤ 2 ^ k := by
  obtain ⟨count, hcount⟩ :=
    spacing_dvd_two_pow (Nat.div_lt_of_lt_mul (by rwa [Nat.mul_comm] : num < den * 2 ^ k))
  have hpos := spacing_pos (num / den)
  have hsteps : roundDiv num (den * spacing (num / den)) ≤ count := by
    rw [← roundDiv_mul_self (Nat.mul_pos hden hpos) count]
    refine roundDiv_mono_left (Nat.le_of_lt ?_)
    calc num < 2 ^ k * den := h
      _ = count * (den * spacing (num / den)) := by rw [hcount]; ac_rfl
  calc nearestUnits num den ≤ count * spacing (num / den) := Nat.mul_le_mul_right _ hsteps
    _ = 2 ^ k := by rw [hcount, Nat.mul_comm]

/-- A quotient from a power of two of its own size on is not rounded below it. -/
lemma two_pow_le_nearestUnits (hden : 0 < den) (h : 2 ^ (num / den).log2 * den ≤ num) :
    2 ^ (num / den).log2 ≤ nearestUnits num den := by
  have hdvd : spacing (num / den) ∣ 2 ^ (num / den).log2 := by
    rw [spacing_eq]
    exact Nat.pow_dvd_pow 2 (Nat.sub_le _ _)
  obtain ⟨count, hcount⟩ := hdvd
  have hsteps : count ≤ roundDiv num (den * spacing (num / den)) := by
    rw [← roundDiv_mul_self (Nat.mul_pos hden (spacing_pos (num / den))) count]
    refine roundDiv_mono_left ?_
    calc count * (den * spacing (num / den)) = 2 ^ (num / den).log2 * den := by rw [hcount]; ac_rfl
      _ ≤ num := h
  calc 2 ^ (num / den).log2 = count * spacing (num / den) := by rw [hcount, Nat.mul_comm]
    _ ≤ nearestUnits num den := Nat.mul_le_mul_right _ hsteps

/-- A smaller quotient is rounded to no larger number of units.  Where the sizes differ, the power
of two at which the larger one starts lies between the results. -/
lemma nearestUnits_mono (hden : 0 < den) (hden' : 0 < den') (h : num * den' ≤ num' * den) :
    nearestUnits num den ≤ nearestUnits num' den' := by
  have hquot : num / den ≤ num' / den' := by
    rw [Nat.le_div_iff_mul_le hden']
    refine Nat.le_of_mul_le_mul_right (c := den) ?_ hden
    calc num / den * den' * den = num / den * den * den' := by ac_rfl
      _ ≤ num * den' := Nat.mul_le_mul_right _ (Nat.div_mul_le_self _ _)
      _ ≤ num' * den := h
  by_cases hlog : (num / den).log2 < (num' / den').log2
  · have hne : num' / den' ≠ 0 := by
      intro hz
      rw [hz] at hlog
      simp at hlog
    have hself := Nat.log2_self_le hne
    calc nearestUnits num den ≤ 2 ^ (num' / den').log2 := by
          refine nearestUnits_le_two_pow hden ?_
          rw [← Nat.div_lt_iff_lt_mul hden]
          rcases Nat.eq_zero_or_pos (num / den) with hz | hpos
          · rw [hz]
            exact Nat.two_pow_pos _
          · exact (Nat.log2_lt (Nat.ne_of_gt hpos)).mp hlog
      _ ≤ nearestUnits num' den' :=
          two_pow_le_nearestUnits hden' ((Nat.le_div_iff_mul_le hden').mp hself)
  · have hspacing : spacing (num / den) = spacing (num' / den') := by
      rcases Nat.eq_zero_or_pos (num / den) with hz | hpos
      · rw [hz] at hlog ⊢
        have : (num' / den').log2 = 0 := by simpa using hlog
        rw [spacing_eq, spacing_eq, this]
        simp
      · have hle : (num / den).log2 ≤ (num' / den').log2 := by
          rw [Nat.le_log2 (by omega)]
          exact Nat.le_trans (Nat.log2_self_le (Nat.ne_of_gt hpos)) hquot
        rw [spacing_eq, spacing_eq, show (num / den).log2 = (num' / den').log2 by omega]
    rw [nearestUnits, nearestUnits, hspacing]
    refine Nat.mul_le_mul_right _ (roundDiv_mono ?_ ?_ ?_)
    · exact Nat.mul_pos hden (spacing_pos _)
    · exact Nat.mul_pos hden' (spacing_pos _)
    · calc num * (den' * spacing (num' / den')) = num * den' * spacing (num' / den') :=
            (Nat.mul_assoc _ _ _).symm
        _ ≤ num' * den * spacing (num' / den') := Nat.mul_le_mul_right _ h
        _ = num' * (den * spacing (num' / den')) := Nat.mul_assoc _ _ _

end

lemma nearestUnits_zero (den : Nat) : nearestUnits 0 den = 0 := by
  simp [nearestUnits, roundDiv]

/-- Equal quotients are rounded alike. -/
lemma nearestUnits_mul_right {den c : Nat} (hden : 0 < den) (hc : 0 < c) (num : Nat) :
    nearestUnits (num * c) (den * c) = nearestUnits num den := by
  have hpos := Nat.mul_pos hden hc
  have heq : num * c * den = num * (den * c) := by
    rw [Nat.mul_assoc, Nat.mul_comm c]
  exact Nat.le_antisymm (nearestUnits_mono hpos hden (Nat.le_of_eq heq))
    (nearestUnits_mono hden hpos (Nat.le_of_eq heq.symm))

/-- A number of units on its grid is rounded to itself. -/
lemma nearestUnits_of_dvd {units : Nat} (h : spacing units ∣ units) :
    nearestUnits units 1 = units := by
  rw [nearestUnits, Nat.div_one, Nat.one_mul, roundDiv_of_dvd (spacing_pos _) h,
    Nat.div_mul_cancel h]

lemma nearestUnits_units (m : Magnitude) : nearestUnits m.units 1 = m.units :=
  nearestUnits_of_dvd m.onGrid

end Magnitude

/-! ## Sizes -/

namespace Double

/-- A finite value's size in units; beyond the finite ones it is the limit. -/
def size : Double → Nat
  | finite _ m => m.units
  | infinite _ => Magnitude.limit
  | nan => Magnitude.limit

lemma size_finite (s : Bool) (m : Magnitude) : (finite s m).size = m.units := rfl

lemma size_ofUnits (s : Bool) (num den : Nat) :
    (ofUnits s num den).size = min (Magnitude.nearestUnits num den) Magnitude.limit := by
  unfold ofUnits
  cases h : Magnitude.ofQuotient? num den with
  | none => exact (Nat.min_eq_right (Magnitude.ofQuotient?_eq_none_iff.mp h)).symm
  | some m =>
      rw [Magnitude.ofQuotient?_eq_some_iff.mp h]
      exact (Nat.min_eq_left (Nat.le_of_lt m.bounded)).symm

/-- A rounded result is finite if the nearest number of units is below the limit. -/
lemma ofUnits_eq_finite_iff {s t : Bool} {num den : Nat} {m : Magnitude} :
    ofUnits s num den = finite t m ↔ s = t ∧ Magnitude.nearestUnits num den = m.units := by
  unfold ofUnits
  constructor
  · intro h
    split at h
    · cases h
      exact ⟨rfl, Magnitude.ofQuotient?_eq_some_iff.mp ‹_›⟩
    · cases h
  · rintro ⟨rfl, h⟩
    rw [Magnitude.ofQuotient?_eq_some_iff.mpr h]

variable {x y : Double}

/-- Among values from zero on the order is that of the sizes. -/
lemma IsUnsigned.less_iff (hx : x.IsUnsigned) (hy : y.IsUnsigned) :
    x.less y = true ↔ x.size < y.size := by
  rw [less, decide_eq_true_eq]
  rcases hx with ⟨a, rfl⟩ | rfl
  · have ha := a.bounded
    rcases hy with ⟨b, rfl⟩ | rfl
    · simp only [compare?, signedUnits, Bool.false_eq_true, if_false, Option.some.injEq,
        Int.compare_eq_lt, Int.ofNat_lt, size_finite]
    · exact iff_of_true rfl ha
  · rcases hy with ⟨b, rfl⟩ | rfl
    · have hb := b.bounded
      exact iff_of_false (by simp [compare?]) (Nat.not_lt.mpr (Nat.le_of_lt hb))
    · exact iff_of_false (by simp [compare?]) (Nat.lt_irrefl _)

lemma IsUnsigned.atMost_iff (hx : x.IsUnsigned) (hy : y.IsUnsigned) :
    x.atMost y = true ↔ x.size ≤ y.size := by
  rcases hx with ⟨a, rfl⟩ | rfl
  · have ha := Nat.le_of_lt a.bounded
    rcases hy with ⟨b, rfl⟩ | rfl
    · rw [finite_atMost_finite, signedUnits, signedUnits, if_neg Bool.false_ne_true,
        if_neg Bool.false_ne_true, Int.isLE_compare, Int.ofNat_le, size_finite, size_finite]
    · exact iff_of_true (by simp) ha
  · rcases hy with ⟨b, rfl⟩ | rfl
    · exact iff_of_false (by simp) (Nat.not_le.mpr b.bounded)
    · exact iff_of_true (by simp) (Nat.le_refl _)

/-- Values from zero on of one size are the same. -/
lemma IsUnsigned.eq_of_size (hx : x.IsUnsigned) (hy : y.IsUnsigned) (h : x.size = y.size) :
    x = y := by
  rcases hx with ⟨a, rfl⟩ | rfl
  · rcases hy with ⟨b, rfl⟩ | rfl
    · rw [Magnitude.ext h]
    · exact absurd h (Nat.ne_of_lt a.bounded)
  · rcases hy with ⟨b, rfl⟩ | rfl
    · exact absurd h.symm (Nat.ne_of_lt b.bounded)
    · rfl

/-- A sum of values from zero on is not smaller than the first of them. -/
lemma IsUnsigned.size_le_add (hx : x.IsUnsigned) (hy : y.IsUnsigned) : x.size ≤ (x + y).size := by
  rcases hx with ⟨a, rfl⟩ | rfl
  · have ha := Nat.le_of_lt a.bounded
    rcases hy with ⟨b, rfl⟩ | rfl
    · change _ ≤ (ofSignedUnits ((a.units : Int) + b.units) false).size
      rw [ofSignedUnits, size_finite]
      split
      · omega
      · rw [size_ofUnits]
        refine Nat.le_min.mpr ⟨?_, ha⟩
        calc a.units = Magnitude.nearestUnits a.units 1 := (Magnitude.nearestUnits_units a).symm
          _ ≤ Magnitude.nearestUnits ((a.units : Int) + b.units).natAbs 1 :=
            Magnitude.nearestUnits_mono Nat.one_pos Nat.one_pos (by omega)
    · exact ha
  · rcases hy with ⟨b, rfl⟩ | rfl
    · exact Nat.le_refl _
    · exact Nat.le_refl _

end Double

end MusicMacro
