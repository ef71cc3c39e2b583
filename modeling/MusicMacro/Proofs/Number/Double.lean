import Mathlib.Tactic.Lemma
import MusicMacro.Number.Double

/-!
# The order of doubles

`Double.atMost` is transitive (`Double.atMost_trans`), and it holds of a value and itself as soon
as another one is at most the value, for then it is a number (`Double.atMost_self`).
-/

namespace MusicMacro

namespace Double

variable (x : Double) (s t : Bool) (a b : Magnitude)

@[simp] lemma nan_atMost : nan.atMost x = false := by
  cases x <;> rfl

@[simp] lemma atMost_nan : x.atMost nan = false := by
  cases x <;> rfl

@[simp] lemma infinite_atMost_infinite : (infinite s).atMost (infinite t) = (s || !t) := by
  cases s <;> cases t <;> rfl

@[simp] lemma infinite_atMost_finite : (infinite s).atMost (finite t b) = s := by
  cases s <;> rfl

@[simp] lemma finite_atMost_infinite : (finite s a).atMost (infinite t) = !t := by
  cases t <;> rfl

lemma finite_atMost_finite :
    (finite s a).atMost (finite t b) = (compare (signedUnits s a) (signedUnits t b)).isLE := by
  rw [atMost, compare?]
  cases compare (signedUnits s a) (signedUnits t b) <;> rfl

variable {x} {y z : Double}

lemma atMost_trans (h : x.atMost y = true) (h' : y.atMost z = true) : x.atMost z = true := by
  cases x with
  | nan => simp at h
  | infinite s =>
      cases y with
      | nan => simp at h
      | infinite t => cases z <;> cases s <;> simp_all
      | finite t b => cases z <;> simp_all
  | finite s a =>
      cases y with
      | nan => simp at h
      | infinite t => cases z <;> simp_all
      | finite t b =>
          cases z with
          | nan => simp at h'
          | infinite u => simpa using h'
          | finite u c =>
              rw [finite_atMost_finite] at h h' ⊢
              exact Std.TransCmp.isLE_trans h h'

lemma atMost_self (h : y.atMost x = true) : x.atMost x = true := by
  cases x with
  | nan => simp at h
  | infinite s => simp
  | finite s a =>
      rw [finite_atMost_finite, Std.ReflOrd.compare_self]
      rfl

lemma atMost_of_less (h : x.less y = true) : x.atMost y = true := by
  rw [less, decide_eq_true_eq] at h
  simp [atMost, h]

end Double

end MusicMacro
