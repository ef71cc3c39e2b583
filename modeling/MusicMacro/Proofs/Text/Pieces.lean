import Mathlib.Tactic.Lemma
import MusicMacro.Text.Pieces

/-!
# Splitting at a mark

A text without the mark is a single piece (`pieces_of_not_mem`), and texts without it are the
pieces of what they make up when joined by it (`pieces_joined`).  Any text is its own pieces joined
(`exists_joined_pieces`).
-/

namespace MusicMacro

lemma pieces_of_not_mem {mark : Char} {text : List Char} (h : mark ∉ text) :
    pieces mark text = [text] := by
  induction text with
  | nil => rfl
  | cons c rest ih =>
      rw [List.mem_cons, not_or] at h
      rw [pieces, if_neg (Ne.symm h.1), ih h.2]

lemma pieces_append_mark {mark : Char} {text : List Char} (h : mark ∉ text) (rest : List Char) :
    pieces mark (text ++ mark :: rest) = text :: pieces mark rest := by
  induction text with
  | nil => rw [List.nil_append, pieces, if_pos rfl]
  | cons c more ih =>
      rw [List.mem_cons, not_or] at h
      rw [List.cons_append, pieces, if_neg (Ne.symm h.1), ih h.2]

/-- What has no mark and stands behind a text lengthens its last piece. -/
lemma exists_pieces_append {mark : Char} {ending : List Char} (h : mark ∉ ending)
    (text : List Char) : ∃ init last, pieces mark text = init ++ [last] ∧
      pieces mark (text ++ ending) = init ++ [last ++ ending] := by
  induction text with
  | nil => exact ⟨[], [], rfl, pieces_of_not_mem h⟩
  | cons c rest ih =>
      obtain ⟨init, last, hrest, hlonger⟩ := ih
      rw [List.cons_append, pieces, pieces]
      by_cases hc : c = mark
      · rw [if_pos hc, if_pos hc, hrest, hlonger]
        exact ⟨[] :: init, last, rfl, rfl⟩
      · rw [if_neg hc, if_neg hc, hrest, hlonger]
        cases init with
        | nil => exact ⟨[], c :: last, rfl, rfl⟩
        | cons first more => exact ⟨(c :: first) :: more, last, rfl, rfl⟩

/-- Texts without the mark are the pieces of what they make up when joined by it. -/
lemma pieces_joined {mark : Char} {first : List Char} {more : List (List Char)}
    (hfirst : mark ∉ first) (hmore : ∀ text ∈ more, mark ∉ text) :
    pieces mark (first ++ more.flatMap (mark :: ·)) = first :: more := by
  induction more generalizing first with
  | nil => rw [List.flatMap_nil, List.append_nil, pieces_of_not_mem hfirst]
  | cons text more ih =>
      obtain ⟨htext, hmore⟩ := List.forall_mem_cons.mp hmore
      rw [List.flatMap_cons, List.cons_append, pieces_append_mark hfirst, ih htext hmore]

/-- A text is its pieces joined by the mark. -/
lemma exists_joined_pieces (mark : Char) (text : List Char) : ∃ first more,
    pieces mark text = first :: more ∧ text = first ++ more.flatMap (mark :: ·) := by
  induction text with
  | nil => exact ⟨[], [], rfl, rfl⟩
  | cons c rest ih =>
      obtain ⟨first, more, hpieces, hrest⟩ := ih
      rw [pieces]
      by_cases hc : c = mark
      · rw [if_pos hc, hpieces]
        exact ⟨[], first :: more, rfl, by rw [hc, List.flatMap_cons, hrest]; rfl⟩
      · rw [if_neg hc, hpieces]
        exact ⟨c :: first, more, rfl, by rw [hrest]; rfl⟩

end MusicMacro
