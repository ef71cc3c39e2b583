import Mathlib.Tactic.Lemma
import Mathlib.Data.List.Nodup
import MusicMacro.Notation.Batch

/-!
# Indices of a batch

The strings of a batch are numbered in order from the first index on, so the parts that are kept
are in index order (`installedParts_pairwise`) and no two of them have one index
(`installedParts_nodup`).
-/

namespace MusicMacro

lemma index_ofText (index : Nat) (text : String) : (PartOutcome.ofText index text).index = index :=
  rfl

lemma le_index_of_mem_outcomesFrom {policy : ErrorPolicy} {index : Nat} {texts : List String} :
    ∀ o ∈ outcomesFrom policy index texts, index ≤ o.index := by
  induction texts generalizing index with
  | nil => simp [outcomesFrom]
  | cons text rest ih =>
      intro o ho
      simp only [outcomesFrom] at ho
      split at ho
      · rw [List.mem_singleton.mp ho]
        exact Nat.le_refl index
      · rcases List.mem_cons.mp ho with rfl | ho
        · exact Nat.le_refl index
        · exact Nat.le_of_succ_le (ih o ho)

/-- The outcomes of a batch are numbered in order. -/
lemma outcomesFrom_pairwise (policy : ErrorPolicy) (index : Nat) (texts : List String) :
    (outcomesFrom policy index texts).Pairwise (·.index < ·.index) := by
  induction texts generalizing index with
  | nil => exact List.Pairwise.nil
  | cons text rest ih =>
      simp only [outcomesFrom]
      split
      · exact List.pairwise_singleton _ _
      · refine List.Pairwise.cons (fun o ho => ?_) (ih (index + 1))
        rw [index_ofText]
        exact le_index_of_mem_outcomesFrom o ho

/-- The parts of a batch are in index order. -/
lemma installedParts_pairwise (policy : ErrorPolicy) (texts : List String) :
    ((installedParts policy (outcomesFrom policy 0 texts)).map (·.1)).Pairwise (· < ·) := by
  unfold installedParts
  split
  · exact List.Pairwise.nil
  · refine List.pairwise_map.mpr (List.pairwise_filterMap.mpr ?_)
    refine (outcomesFrom_pairwise policy 0 texts).imp fun {o o'} hlt => ?_
    intro p hp p' hp'
    obtain ⟨_, _, rfl⟩ := Option.map_eq_some_iff.mp hp
    obtain ⟨_, _, rfl⟩ := Option.map_eq_some_iff.mp hp'
    exact hlt

/-- No two parts of a batch have one index. -/
theorem installedParts_nodup (policy : ErrorPolicy) (texts : List String) :
    ((installedParts policy (outcomesFrom policy 0 texts)).map (·.1)).Nodup :=
  (installedParts_pairwise policy texts).imp fun hlt => Nat.ne_of_lt hlt

end MusicMacro
