import MusicMacro.Midi.Note
import MusicMacro.Proofs.Notation.Lengths
import MusicMacro.Proofs.Notation.Timeline
import MusicMacro.Proofs.Number.Rounding

/-!
# Ticks of rising times

A time in seconds is multiplied by the resolution and the tempo of a grid, divided by sixty and
rounded to a whole tick, with a rounding at every step.  Each step keeps the order, so times from
zero on that do not fall have ticks that do not fall (`TickGrid.ticks_mono_or_nonpos`).  On a grid
whose resolution and tempo have different signs the order is reversed and no such time has a tick
above zero.

A time that comes no later than one with a tick has a tick too (`TickGrid.exists_tick_of_size_le`):
no step can leave the finite values earlier than it does for the larger time.
-/

namespace MusicMacro

namespace Double

/-! ## Finite products and quotients -/

variable {x y : Double} {s t : Bool} {m b : Magnitude}

lemma infinite_mul_finite (s t : Bool) (b : Magnitude) :
    infinite s * finite t b = if b.units = 0 then nan else infinite (s != t) := by
  show mul _ _ = _
  rw [mul]

lemma finite_div_finite (s t : Bool) (a : Magnitude) {b : Magnitude} (hb : b.units ≠ 0) :
    finite s a / finite t b = ofUnits (s != t) (a.units * Magnitude.unitsPerWhole) b.units := by
  show div _ _ = _
  rw [div, if_neg hb]

/-- A product with a finite value is finite only if both sides are. -/
lemma mul_finite (h : x * finite t b = finite s m) :
    ∃ r a, x = finite r a ∧ s = (r != t) ∧
      m.units = Magnitude.nearestUnits (a.units * b.units) Magnitude.unitsPerWhole := by
  cases x with
  | nan => cases h
  | infinite r =>
      rw [infinite_mul_finite] at h
      split at h
      · cases h
      · cases h
  | finite r a =>
      rw [finite_mul_finite] at h
      obtain ⟨hsign, hunits⟩ := ofUnits_eq_finite_iff.mp h
      exact ⟨r, a, rfl, hsign.symm, hunits.symm⟩

/-- A quotient by a finite value other than zero is finite only if both sides are. -/
lemma div_finite (hb : b.units ≠ 0) (h : x / finite t b = finite s m) :
    ∃ r a, x = finite r a ∧ s = (r != t) ∧
      m.units = Magnitude.nearestUnits (a.units * Magnitude.unitsPerWhole) b.units := by
  cases x with
  | nan => cases h
  | infinite r => cases h
  | finite r a =>
      rw [finite_div_finite _ _ _ hb] at h
      obtain ⟨hsign, hunits⟩ := ofUnits_eq_finite_iff.mp h
      exact ⟨r, a, rfl, hsign.symm, hunits.symm⟩

/-- A smaller quotient of a finite rounded one rounds to a finite value as well. -/
lemma exists_ofUnits_le {s t : Bool} {num num' den : Nat} {m : Magnitude} (hden : 0 < den)
    (hle : num' ≤ num) (h : ofUnits s num den = finite t m) :
    ∃ k, ofUnits s num' den = finite t k ∧ k.units ≤ m.units := by
  obtain ⟨rfl, hunits⟩ := ofUnits_eq_finite_iff.mp h
  have hnearest := Magnitude.nearestUnits_mono hden hden (Nat.mul_le_mul_right den hle)
  rw [hunits] at hnearest
  cases hquotient : Magnitude.ofQuotient? num' den with
  | none =>
      have hlimit := Magnitude.ofQuotient?_eq_none_iff.mp hquotient
      have hbounded := m.bounded
      omega
  | some k =>
      have hk := Magnitude.ofQuotient?_eq_some_iff.mp hquotient
      exact ⟨k, ofUnits_eq_finite_iff.mpr ⟨rfl, hk⟩, hk ▸ hnearest⟩

/-- Rounding to a whole number keeps the sign. -/
lemma roundDivInt_signedUnits (s : Bool) (m : Magnitude) :
    roundDivInt (signedUnits s m) Magnitude.unitsPerWhole =
      if s then -(roundDiv m.units Magnitude.unitsPerWhole : Int)
      else roundDiv m.units Magnitude.unitsPerWhole := by
  generalize hwhole : Magnitude.unitsPerWhole = whole
  have hpos : 0 < whole := hwhole ▸ unitsPerWhole_pos
  cases s with
  | false => simp [roundDivInt, signedUnits, Int.not_lt.mpr (Int.natCast_nonneg m.units)]
  | true =>
      by_cases hm : m.units = 0
      · simp [roundDivInt, signedUnits, hm, roundDiv, hpos]
      · have hneg : -(m.units : Int) < 0 := by omega
        rw [roundDivInt, signedUnits, if_pos rfl, if_pos hneg, Int.natAbs_neg, Int.natAbs_natCast,
          if_pos rfl]

lemma round_eq_ok {n : Int} (h : x.round = .ok n) :
    ∃ s m, x = finite s m ∧
      n = if s then -(roundDiv m.units Magnitude.unitsPerWhole : Int)
        else roundDiv m.units Magnitude.unitsPerWhole := by
  cases x with
  | nan => cases h
  | infinite s => cases h
  | finite s m =>
      rw [round, Except.ok.injEq, roundDivInt_signedUnits] at h
      exact ⟨s, m, rfl, h.symm⟩

end Double

lemma doubleOfInt_finite {n : Int} {x : Double} (h : doubleOfInt n = .ok x) :
    ∃ s m, x = .finite s m := by
  obtain ⟨-, hfinite⟩ := doubleOfInt_eq_ok_iff.mp h
  cases x with
  | finite s m => exact ⟨s, m, rfl⟩
  | infinite s => cases hfinite
  | nan => cases hfinite

/-- The double of a number above zero has no sign. -/
lemma sign_of_doubleOfInt {n : Int} {s : Bool} {m : Magnitude} (hn : 0 < n)
    (h : doubleOfInt n = .ok (.finite s m)) : s = false := by
  obtain ⟨hfraction, -⟩ := doubleOfInt_eq_ok_iff.mp h
  obtain ⟨hsign, -⟩ := Double.ofUnits_eq_finite_iff.mp hfraction
  rw [← hsign, decide_eq_false_iff_not]
  omega

/-! ## The steps of a grid -/

namespace TickGrid

open Magnitude

lemma exists_sixty :
    ∃ sixty : Magnitude, doubleOfInt 60 = .ok (.finite false sixty) ∧ 0 < sixty.units := by
  have hsmall : (60 : Int).natAbs < 2 ^ 100 * 1 := by decide
  obtain ⟨m, hm⟩ := Double.isFinite_ofFraction hsmall
  obtain ⟨-, hunits⟩ := Double.ofUnits_eq_finite_iff.mp hm
  refine ⟨m, doubleOfInt_eq_ok_iff.mpr ⟨hm, rfl⟩, ?_⟩
  have hone : nearestUnits 1 1 = 1 := by decide
  have hwhole := Double.unitsPerWhole_pos
  rw [← hunits]
  generalize unitsPerWhole = whole at hwhole ⊢
  calc 1 = nearestUnits 1 1 := hone.symm
    _ ≤ nearestUnits (60 * whole) 1 := nearestUnits_mono Nat.one_pos Nat.one_pos (by omega)

/-- The tick of a time, where the time, the resolution, the tempo and sixty are given in units. -/
def tickOfUnits (resolution tempo sixty units : Nat) : Nat :=
  roundDiv
    (nearestUnits
      (nearestUnits (nearestUnits (units * resolution) unitsPerWhole * tempo) unitsPerWhole *
        unitsPerWhole)
      sixty)
    unitsPerWhole

lemma tickOfUnits_mono (resolution tempo : Nat) {sixty units units' : Nat} (hsixty : 0 < sixty)
    (h : units ≤ units') :
    tickOfUnits resolution tempo sixty units ≤ tickOfUnits resolution tempo sixty units' := by
  have hwhole := Double.unitsPerWhole_pos
  have hscale {n n' : Nat} (k den : Nat) (hle : n ≤ n') : n * k * den ≤ n' * k * den :=
    Nat.mul_le_mul_right _ (Nat.mul_le_mul_right _ hle)
  have hbeats := nearestUnits_mono hwhole hwhole (hscale resolution unitsPerWhole h)
  have hminutes := nearestUnits_mono hwhole hwhole (hscale tempo unitsPerWhole hbeats)
  have hticks := nearestUnits_mono hsixty hsixty (hscale unitsPerWhole sixty hminutes)
  exact roundDiv_mono_left hticks

/-- The steps from a double in seconds to its tick. -/
lemma ticks_real_steps {grid : TickGrid} {x : Double} {n : Int}
    (h : grid.ticks (.real x) = .ok n) :
    ∃ resolution tempo sixty, doubleOfInt grid.ticksPerBeat = .ok resolution ∧
      doubleOfInt grid.bpm = .ok tempo ∧ doubleOfInt 60 = .ok sixty ∧
      (x * resolution * tempo / sixty).round = .ok n := by
  obtain ⟨beats, hbeats, h⟩ := bind_eq_ok h
  obtain ⟨minutes, hminutes, h⟩ := bind_eq_ok h
  obtain ⟨ticks, hticks, hround⟩ := bind_eq_ok h
  obtain ⟨_, hx, hbeats⟩ := bind_eq_ok hbeats
  obtain rfl := Except.ok.inj hx
  obtain ⟨resolution, hresolution, hbeats⟩ := bind_eq_ok hbeats
  obtain rfl := Except.ok.inj hbeats
  obtain ⟨_, hx, hminutes⟩ := bind_eq_ok hminutes
  obtain rfl := Except.ok.inj hx
  obtain ⟨tempo, htempo, hminutes⟩ := bind_eq_ok hminutes
  obtain rfl := Except.ok.inj hminutes
  obtain ⟨_, hx, hticks⟩ := bind_eq_ok hticks
  obtain rfl := Except.ok.inj hx
  obtain ⟨sixty, hsixty, hticks⟩ := bind_eq_ok hticks
  split at hticks
  · cases hticks
  · obtain rfl := Except.ok.inj hticks
    exact ⟨resolution, tempo, sixty, hresolution, htempo, hsixty, mapError_eq_ok hround⟩

/-- The tick of a time from zero on, where it has one. -/
lemma ticks_real {grid : TickGrid} {x : Double} {n : Int} {sixty : Magnitude} (hx : x.IsUnsigned)
    (hsixty : doubleOfInt 60 = .ok (.finite false sixty)) (hpos : 0 < sixty.units)
    (h : grid.ticks (.real x) = .ok n) :
    ∃ r resolution t tempo, doubleOfInt grid.ticksPerBeat = .ok (.finite r resolution) ∧
      doubleOfInt grid.bpm = .ok (.finite t tempo) ∧
      n = if r != t then
          -(tickOfUnits resolution.units tempo.units sixty.units x.size : Int)
        else tickOfUnits resolution.units tempo.units sixty.units x.size := by
  obtain ⟨resolution, tempo, y, hresolution, htempo, hy, hround⟩ := ticks_real_steps h
  obtain rfl := Except.ok.inj (hsixty.symm.trans hy)
  obtain ⟨r, resolution, rfl⟩ := doubleOfInt_finite hresolution
  obtain ⟨t, tempo, rfl⟩ := doubleOfInt_finite htempo
  obtain ⟨s, ticks, hticks, hn⟩ := Double.round_eq_ok hround
  obtain ⟨s₂, minutes, hminutes, rfl, hunits⟩ := Double.div_finite (Nat.ne_of_gt hpos) hticks
  obtain ⟨s₁, beats, hbeats, rfl, hunits₁⟩ := Double.mul_finite hminutes
  obtain ⟨s₀, m, hfinite, rfl, hunits₀⟩ := Double.mul_finite hbeats
  obtain rfl : s₀ = false := by
    rcases hx with ⟨m', rfl⟩ | rfl
    · exact (Double.finite.inj hfinite).1.symm
    · cases hfinite
  have hsign : (((false != r) != t) != false) = (r != t) := by
    cases r <;> cases t <;> rfl
  refine ⟨r, resolution, t, tempo, hresolution, htempo, ?_⟩
  rw [hn, hunits, hunits₁, hunits₀, hfinite, tickOfUnits, Double.size_finite, hsign]

/-- **Ticks rise with time**: either no time from zero on has a tick above zero, or of two such
times the smaller one has no larger tick. -/
theorem ticks_mono_or_nonpos (grid : TickGrid) :
    (∀ x n, x.IsUnsigned → grid.ticks (.real x) = .ok n → n ≤ 0) ∨
      ∀ x y n k, x.IsUnsigned → y.IsUnsigned → x.size ≤ y.size →
        grid.ticks (.real x) = .ok n → grid.ticks (.real y) = .ok k → n ≤ k := by
  obtain ⟨sixty, hsixty, hpos⟩ := exists_sixty
  by_cases hreversed : ∃ r resolution t tempo,
      doubleOfInt grid.ticksPerBeat = .ok (.finite r resolution) ∧
        doubleOfInt grid.bpm = .ok (.finite t tempo) ∧ (r != t) = true
  · obtain ⟨r, resolution, t, tempo, hresolution, htempo, hsigns⟩ := hreversed
    refine .inl fun x n hx h => ?_
    obtain ⟨r', resolution', t', tempo', hresolution', htempo', rfl⟩ :=
      ticks_real hx hsixty hpos h
    cases Except.ok.inj (hresolution.symm.trans hresolution')
    cases Except.ok.inj (htempo.symm.trans htempo')
    rw [if_pos hsigns]
    omega
  · refine .inr fun x y n k hx hy hle h h' => ?_
    obtain ⟨r, resolution, t, tempo, hresolution, htempo, rfl⟩ := ticks_real hx hsixty hpos h
    obtain ⟨r', resolution', t', tempo', hresolution', htempo', rfl⟩ :=
      ticks_real hy hsixty hpos h'
    cases Except.ok.inj (hresolution.symm.trans hresolution')
    cases Except.ok.inj (htempo.symm.trans htempo')
    have hsigns : ¬(r != t) = true := fun hsigns =>
      hreversed ⟨r, resolution, t, tempo, hresolution, htempo, hsigns⟩
    rw [if_neg hsigns, if_neg hsigns]
    exact Int.ofNat_le.mpr (tickOfUnits_mono _ _ hpos hle)

/-! ## Times that have ticks -/

/-- A time whose steps all have values has a tick. -/
lemma ticks_of_steps {grid : TickGrid} {x resolution tempo : Double} {sixty : Magnitude} {n : Int}
    (hresolution : doubleOfInt grid.ticksPerBeat = .ok resolution)
    (htempo : doubleOfInt grid.bpm = .ok tempo)
    (hsixty : doubleOfInt 60 = .ok (.finite false sixty)) (hpos : 0 < sixty.units)
    (hround : (x * resolution * tempo / .finite false sixty).round = .ok n) :
    grid.ticks (.real x) = .ok n := by
  have hnonzero : (Double.finite false sixty).equal .zero = false := by
    have hcompare : compare (Double.signedUnits false sixty)
        (Double.signedUnits false Magnitude.zero) = .gt := by
      rw [Int.compare_eq_gt]
      exact Int.ofNat_lt.mpr hpos
    rw [Double.equal, Double.zero, Double.compare?, hcompare]
    rfl
  have hbeats : (Number.real x).multiply (.whole grid.ticksPerBeat) =
      .ok (.real (x * resolution)) := by
    simp only [Number.multiply, Number.toDouble, hresolution, ok_bind]
    rfl
  have hminutes : (Number.real (x * resolution)).multiply (.whole grid.bpm) =
      .ok (.real (x * resolution * tempo)) := by
    simp only [Number.multiply, Number.toDouble, htempo, ok_bind]
    rfl
  have hticks : (Number.real (x * resolution * tempo)).divide (.whole 60) =
      .ok (x * resolution * tempo / .finite false sixty) := by
    simp only [Number.divide, Number.toDouble, hsixty, ok_bind, hnonzero]
    rfl
  rw [ticks, hbeats, ok_bind, hminutes, ok_bind, hticks, ok_bind, hround]
  rfl

/-- A time no later than one that has a tick has a tick itself. -/
lemma exists_tick_of_size_le {grid : TickGrid} {x y : Double} {n : Int} (hx : x.IsUnsigned)
    (hy : y.IsUnsigned) (hle : x.size ≤ y.size) (h : grid.ticks (.real y) = .ok n) :
    ∃ k, grid.ticks (.real x) = .ok k := by
  obtain ⟨sixty, hsixty, hpos⟩ := exists_sixty
  obtain ⟨resolution, tempo, z, hresolution, htempo, hz, hround⟩ := ticks_real_steps h
  obtain rfl := Except.ok.inj (hsixty.symm.trans hz)
  obtain ⟨r, resolution, rfl⟩ := doubleOfInt_finite hresolution
  obtain ⟨t, tempo, rfl⟩ := doubleOfInt_finite htempo
  obtain ⟨s, ticks, hticks, -⟩ := Double.round_eq_ok hround
  obtain ⟨s₂, minutes, hminutes, rfl, -⟩ := Double.div_finite (Nat.ne_of_gt hpos) hticks
  obtain ⟨s₁, beats, hbeats, rfl, -⟩ := Double.mul_finite hminutes
  obtain ⟨s₀, b, hfinite, -, -⟩ := Double.mul_finite hbeats
  obtain rfl : y = .finite false b := by
    rcases hy with ⟨b', rfl⟩ | rfl
    · rw [(Double.finite.inj hfinite).2]
    · cases hfinite
  obtain ⟨a, rfl⟩ : ∃ a, x = .finite false a := by
    refine hx.resolve_right ?_
    rintro rfl
    have hbounded := b.bounded
    exact absurd hle (Nat.not_le.mpr hbounded)
  rw [Double.size_finite, Double.size_finite] at hle
  -- each step of the earlier time is at most that of the later one, so it stays finite
  rw [hminutes, Double.finite_div_finite _ _ _ (Nat.ne_of_gt hpos)] at hticks
  rw [hbeats, Double.finite_mul_finite] at hminutes
  rw [Double.finite_mul_finite] at hbeats
  obtain ⟨beats', hbeats', hbeatsle⟩ := Double.exists_ofUnits_le Double.unitsPerWhole_pos
    (Nat.mul_le_mul_right resolution.units hle) hbeats
  obtain ⟨minutes', hminutes', hminutesle⟩ := Double.exists_ofUnits_le Double.unitsPerWhole_pos
    (Nat.mul_le_mul_right tempo.units hbeatsle) hminutes
  obtain ⟨ticks', hticks', -⟩ := Double.exists_ofUnits_le hpos
    (Nat.mul_le_mul_right unitsPerWhole hminutesle) hticks
  have hsteps : Double.finite false a * .finite r resolution * .finite t tempo /
      .finite false sixty = .finite ((s₁ != t) != false) ticks' := by
    rw [Double.finite_mul_finite, hbeats', Double.finite_mul_finite, hminutes',
      Double.finite_div_finite _ _ _ (Nat.ne_of_gt hpos), hticks']
  exact ⟨_, ticks_of_steps hresolution htempo hsixty hpos (congrArg Double.round hsteps)⟩

/-- On a grid with ticks and a tempo the ticks of times from zero on are not negative, and of two
such times the smaller one has no larger tick. -/
lemma ticks_le_of_pos {grid : TickGrid} (hresolution : 0 < grid.ticksPerBeat) (hbpm : 0 < grid.bpm)
    {x y : Double} {n k : Int} (hx : x.IsUnsigned) (hy : y.IsUnsigned) (hle : x.size ≤ y.size)
    (h : grid.ticks (.real x) = .ok n) (h' : grid.ticks (.real y) = .ok k) : 0 ≤ n ∧ n ≤ k := by
  obtain ⟨sixty, hsixty, hpos⟩ := exists_sixty
  obtain ⟨r, resolution, t, tempo, hr, ht, hn⟩ := ticks_real hx hsixty hpos h
  obtain ⟨r', resolution', t', tempo', hr', ht', hk⟩ := ticks_real hy hsixty hpos h'
  cases Except.ok.inj (hr.symm.trans hr')
  cases Except.ok.inj (ht.symm.trans ht')
  obtain rfl := sign_of_doubleOfInt hresolution hr
  obtain rfl := sign_of_doubleOfInt hbpm ht
  rw [if_neg (by decide)] at hn hk
  rw [hn, hk]
  exact ⟨Int.natCast_nonneg _, Int.ofNat_le.mpr (tickOfUnits_mono _ _ hpos hle)⟩

end TickGrid

end MusicMacro
