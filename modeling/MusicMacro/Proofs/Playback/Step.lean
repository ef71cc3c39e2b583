import Mathlib.Order.Defs.Unbundled
import Mathlib.Tactic.Lemma
import MusicMacro.Playback.Session

/-!
# Laws of steps

A step changes the session whether or not it fails.  What is said of a step here is said of the
session after it, so one statement covers the run that succeeds and every run that is cut short.

`Step.Leads R` relates the session after a step to the one before; where the relation is reflexive
and transitive this passes through sequences (`Leads.andThen`, `Leads.andAlways`,
`Leads.forEach`).  `Step.Keeps I` is the case of a property that is carried along, and
`Step.Safe I` says in addition that the step does not fail.
-/

namespace MusicMacro

namespace Step

variable {R : Session → Session → Prop} {I : Session → Prop} {first second : Step}

/-! ## How steps compose -/

@[simp] lemma skip_apply (s : Session) : skip s = (s, none) := rfl

@[simp] lemma fail_apply (e : PlaybackError) (s : Session) : fail e s = (s, some e) := rfl

@[simp] lemma change_apply (f : Session → Session) (s : Session) : change f s = (f s, none) := rfl

@[simp] lemma given_apply (f : Session → Step) (s : Session) : given f s = f s s := rfl

@[simp] lemma change_andThen (f : Session → Session) (step : Step) (s : Session) :
    (change f).andThen step s = step (f s) := rfl

lemma andThen_of_none {s : Session} (h : (first s).2 = none) :
    first.andThen second s = second (first s).1 := by
  rcases hf : first s with ⟨s', e⟩
  rw [hf] at h
  cases h
  simp only [andThen, hf]

lemma andThen_of_some {s : Session} {e : PlaybackError} (h : (first s).2 = some e) :
    first.andThen second s = first s := by
  rcases hf : first s with ⟨s', e'⟩
  rw [hf] at h
  cases h
  simp only [andThen, hf]

lemma andAlways_fst (first second : Step) (s : Session) :
    (first.andAlways second s).1 = (second (first s).1).1 := rfl

lemma forEach_map {α β : Type} (f : β → Step) (g : α → β) (l : List α) :
    forEach f (l.map g) = forEach (fun a => f (g a)) l := by
  induction l with
  | nil => rfl
  | cons a rest ih => rw [List.map_cons, forEach, forEach, ih]

/-- Items that all succeed may be taken first. -/
lemma forEach_append_of_none {α : Type} {f : α → Step} {l : List α} {s : Session}
    (h : (forEach f l s).2 = none) (rest : List α) :
    forEach f (l ++ rest) s = forEach f rest (forEach f l s).1 := by
  induction l generalizing s with
  | nil => rfl
  | cons a l ih =>
      rcases hfirst : (f a s).2 with _ | e
      · rw [forEach, andThen_of_none hfirst] at h ⊢
        rw [List.cons_append, forEach, andThen_of_none hfirst]
        exact ih h
      · rw [forEach, andThen_of_some hfirst, hfirst] at h
        cases h

/-- Nothing follows an item that fails. -/
lemma forEach_of_fails {α : Type} {f : α → Step} {before : List α} {a : α} {s : Session}
    (h : (forEach f before s).2 = none) (hfails : (f a (forEach f before s).1).2 ≠ none)
    (after : List α) : forEach f (before ++ a :: after) s = f a (forEach f before s).1 := by
  obtain ⟨e, he⟩ := Option.ne_none_iff_exists'.mp hfails
  rw [forEach_append_of_none h, forEach, andThen_of_some he]

/-- Either all items succeed or there is a first one that fails. -/
lemma forEach_none_or_fails {α : Type} (f : α → Step) (l : List α) (s : Session) :
    (forEach f l s).2 = none ∨ ∃ before a after, l = before ++ a :: after ∧
      (forEach f before s).2 = none ∧ (f a (forEach f before s).1).2 ≠ none := by
  induction l generalizing s with
  | nil => exact Or.inl rfl
  | cons a l ih =>
      rcases hfirst : (f a s).2 with _ | e
      · have hcons : ∀ l', forEach f (a :: l') s = forEach f l' (f a s).1 := fun l' => by
          rw [forEach, andThen_of_none hfirst]
        rcases ih (f a s).1 with hnone | ⟨before, b, after, rfl, hnone, hfails⟩
        · exact Or.inl (by rw [hcons, hnone])
        · refine Or.inr ⟨a :: before, b, after, rfl, ?_, ?_⟩
          · rw [hcons, hnone]
          · rw [hcons]
            exact hfails
      · exact Or.inr ⟨[], a, l, rfl, rfl, by simp [forEach, hfirst]⟩

/-- Where all items succeed, so do the first ones. -/
lemma forEach_none_of_append {α : Type} {f : α → Step} {l rest : List α} {s : Session}
    (h : (forEach f (l ++ rest) s).2 = none) : (forEach f l s).2 = none := by
  rcases forEach_none_or_fails f l s with hnone | ⟨before, a, after, rfl, hnone, hfails⟩
  · exact hnone
  · rw [List.append_assoc, List.cons_append, forEach_of_fails hnone hfails] at h
    exact absurd h hfails

/-! ## Relations from before to after -/

/-- Every session is related to the one after the step. -/
def Leads (R : Session → Session → Prop) (step : Step) : Prop := ∀ s, R s (step s).1

lemma Leads.given {f : Session → Step} (h : ∀ s, (f s).Leads R) : (Step.given f).Leads R :=
  fun s => h s s

section

variable [IsPreorder Session R]

lemma skip_leads : skip.Leads R := fun s => refl_of R s

lemma fail_leads (e : PlaybackError) : (fail e).Leads R := fun s => refl_of R s

lemma Leads.andThen (hf : first.Leads R) (hs : second.Leads R) :
    (first.andThen second).Leads R := by
  intro s
  rcases h : (first s).2 with _ | e
  · rw [andThen_of_none h]
    exact trans_of R (hf s) (hs _)
  · rw [andThen_of_some h]
    exact hf s

/-- From after the first step to the end only the second one matters. -/
lemma Leads.from_first (hs : second.Leads R) (first : Step) (s : Session) :
    R (first s).1 (first.andThen second s).1 := by
  rcases h : (first s).2 with _ | e
  · rw [andThen_of_none h]
    exact hs _
  · rw [andThen_of_some h]
    exact refl_of R _

lemma Leads.andAlways (hf : first.Leads R) (hs : second.Leads R) :
    (first.andAlways second).Leads R := by
  intro s
  rw [andAlways_fst]
  exact trans_of R (hf s) (hs _)

lemma Leads.forEach {α : Type} {f : α → Step} {l : List α} (h : ∀ a ∈ l, (f a).Leads R) :
    (Step.forEach f l).Leads R := by
  induction l with
  | nil => exact skip_leads
  | cons a rest ih =>
      have hrest := ih fun b hb => h b (List.mem_cons_of_mem a hb)
      exact Leads.andThen (h a List.mem_cons_self) hrest

end

/-! ## Properties that are carried along -/

/-- The property holds after the step if it held before, also when the step fails. -/
abbrev Keeps (I : Session → Prop) (step : Step) : Prop := step.Leads fun s s' => I s → I s'

instance keeps_isPreorder : IsPreorder Session fun s s' => I s → I s' where
  refl _ h := h
  trans _ _ _ hab hbc h := hbc (hab h)

/-! ## Steps that do not fail -/

/-- From a session with the property the step succeeds, and the property holds after it. -/
def Safe (I : Session → Prop) (step : Step) : Prop := ∀ s, I s → (step s).2 = none ∧ I (step s).1

lemma Safe.andThen (hf : first.Safe I) (hs : second.Safe I) : (first.andThen second).Safe I := by
  intro s hI
  obtain ⟨hnone, hI'⟩ := hf s hI
  rw [andThen_of_none hnone]
  exact hs _ hI'

lemma Safe.forEach {α : Type} {f : α → Step} {l : List α} (h : ∀ a ∈ l, (f a).Safe I) :
    (Step.forEach f l).Safe I := by
  induction l with
  | nil => exact fun s hI => ⟨rfl, hI⟩
  | cons a rest ih =>
      have hrest := ih fun b hb => h b (List.mem_cons_of_mem a hb)
      exact Safe.andThen (h a List.mem_cons_self) hrest

end Step

end MusicMacro
