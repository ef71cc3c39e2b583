import Mathlib.Tactic.Lemma

/-!
# Computations that succeed

When a computation gives a result its steps did (`bind_eq_ok`, `mapError_eq_ok`), and a traversal
gives one if and only if it does for every element (`mapM_eq_ok_iff`, `exists_mapM_eq_ok`).
-/

namespace MusicMacro

variable {α β ε ε' : Type}

@[simp] lemma ok_bind (a : α) (f : α → Except ε β) : (Except.ok a >>= f) = f a := rfl

@[simp] lemma mapError_ok (f : ε → ε') (a : α) :
    (Except.ok a : Except ε α).mapError f = .ok a := rfl

lemma bind_eq_ok {x : Except ε α} {f : α → Except ε β} {b : β} (h : (x >>= f) = .ok b) :
    ∃ a, x = .ok a ∧ f a = .ok b := by
  cases x with
  | error e => cases h
  | ok a => exact ⟨a, rfl, h⟩

lemma mapError_eq_ok {f : ε → ε'} {x : Except ε α} {a : α} (h : x.mapError f = .ok a) :
    x = .ok a := by
  cases x with
  | error e => cases h
  | ok b =>
      cases h
      rfl

lemma eq_ok_of_toOption {x : Except ε α} {a : α} (h : x.toOption = some a) :
    x = .ok a := by
  cases x with
  | error e => cases h
  | ok b => exact congrArg Except.ok (Option.some.inj h)

lemma eq_ok_of_isOk {x : Except ε α} (h : x.isOk = true) (default : α) :
    x = .ok (x.toOption.getD default) := by
  cases x with
  | error e => cases h
  | ok a => rfl

/-! ## Traversals -/

variable {f : α → Except ε β} {xs : List α} {ys : List β}

/-- A traversal succeeds with what every element succeeds with. -/
lemma mapM_eq_ok_iff : xs.mapM f = .ok ys ↔ xs.map f = ys.map .ok := by
  induction xs generalizing ys with
  | nil =>
      cases ys with
      | nil => exact ⟨fun _ => rfl, fun _ => rfl⟩
      | cons y more => exact ⟨fun h => (by cases h), fun h => (by cases h)⟩
  | cons x rest ih =>
      rw [List.mapM_cons, List.map_cons]
      constructor
      · intro h
        obtain ⟨y, hy, h⟩ := bind_eq_ok h
        obtain ⟨more, hmore, h⟩ := bind_eq_ok h
        obtain rfl := Except.ok.inj h
        rw [hy, ih.mp hmore, List.map_cons]
      · intro h
        cases ys with
        | nil => cases h
        | cons y more =>
            obtain ⟨hy, hmore⟩ := List.cons.inj h
            rw [hy, ih.mpr hmore]
            rfl

lemma length_of_mapM (h : xs.mapM f = .ok ys) : ys.length = xs.length := by
  have hlength := congrArg List.length (mapM_eq_ok_iff.mp h)
  rwa [List.length_map, List.length_map, eq_comm] at hlength

lemma exists_of_mem_mapM (h : xs.mapM f = .ok ys) {y : β} (hy : y ∈ ys) :
    ∃ x ∈ xs, f x = .ok y := by
  have hmem : Except.ok y ∈ xs.map f := by
    rw [mapM_eq_ok_iff.mp h]
    exact List.mem_map_of_mem hy
  exact List.mem_map.mp hmem

lemma exists_ok_of_mapM (h : xs.mapM f = .ok ys) {x : α} (hx : x ∈ xs) : ∃ y, f x = .ok y := by
  have hmem : f x ∈ ys.map Except.ok := by
    rw [← mapM_eq_ok_iff.mp h]
    exact List.mem_map_of_mem hx
  obtain ⟨y, -, hy⟩ := List.mem_map.mp hmem
  exact ⟨y, hy.symm⟩

/-- What an element succeeds with is among what the traversal succeeds with. -/
lemma mem_of_mapM (h : xs.mapM f = .ok ys) {x : α} (hx : x ∈ xs) {y : β} (hy : f x = .ok y) :
    y ∈ ys := by
  have hmem : f x ∈ ys.map Except.ok := by
    rw [← mapM_eq_ok_iff.mp h]
    exact List.mem_map_of_mem hx
  obtain ⟨z, hz, heq⟩ := List.mem_map.mp hmem
  exact Except.ok.inj (heq.trans hy) ▸ hz

lemma map_eq_of_mapM {γ : Type} {g : β → γ} {k : α → γ} (hf : ∀ a b, f a = .ok b → g b = k a)
    (h : xs.mapM f = .ok ys) : ys.map g = xs.map k := by
  rw [mapM_eq_ok_iff] at h
  induction xs generalizing ys with
  | nil =>
      obtain rfl := List.map_eq_nil_iff.mp h.symm
      rfl
  | cons x rest ih =>
      cases ys with
      | nil => cases h
      | cons y more =>
          obtain ⟨hy, hmore⟩ := List.cons.inj h
          rw [List.map_cons, List.map_cons, hf x y hy, ih hmore]

lemma exists_mapM_eq_ok (h : ∀ x ∈ xs, ∃ y, f x = .ok y) : ∃ ys, xs.mapM f = .ok ys := by
  induction xs with
  | nil => exact ⟨[], rfl⟩
  | cons x rest ih =>
      obtain ⟨hx, hrest⟩ := List.forall_mem_cons.mp h
      obtain ⟨y, hy⟩ := hx
      obtain ⟨ys, hys⟩ := ih hrest
      refine ⟨y :: ys, ?_⟩
      rw [List.mapM_cons, hy, ok_bind, hys]
      rfl

end MusicMacro
