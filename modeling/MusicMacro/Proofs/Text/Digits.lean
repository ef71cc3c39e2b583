import Mathlib.Algebra.Group.Nat.Defs
import Mathlib.Data.List.TakeDrop
import Mathlib.Tactic.Lemma
import MusicMacro.Text.Digit

/-!
# Written numerals

The decimal numeral of a number consists of ASCII digits and has the value that was written
(`digitsValue_toDigits`); that of a positive number does not start with a zero
(`head?_toDigits_ne`).  Zeros in front do not change a value and each zero behind multiplies it by
ten.  Among the first 256 characters the ASCII digits are the only ones
(`isDigit_of_isDecimalDigit`).
-/

namespace MusicMacro

variable {c : Char} {digits : List Char}

lemma isDigit_iff : c.isDigit = true ↔ 48 ≤ c.toNat ∧ c.toNat ≤ 57 := by
  simp only [Char.isDigit, Bool.and_eq_true, decide_eq_true_eq]
  exact Iff.rfl

lemma digitValue?_of_isDigit (h : c.isDigit = true) : digitValue? c = some (c.toNat - '0'.toNat) := by
  have hrange := isDigit_iff.mp h
  rw [digitValue?, if_pos (by omega), if_pos]
  · rfl
  · exact hrange

lemma isDecimalDigit_of_isDigit (h : c.isDigit = true) : isDecimalDigit c = true := by
  rw [isDecimalDigit, digitValue?_of_isDigit h]
  rfl

lemma isDigit_of_isDecimalDigit (hlow : c.toNat ≤ 0xFF) (h : isDecimalDigit c = true) :
    c.isDigit = true := by
  have hzeros : ∀ start ∈ digitZeros, start = 48 ∨ 0xFF < start := by decide
  unfold isDecimalDigit digitValue? at h
  split at h
  · split at h
    · rename_i hc
      exact isDigit_iff.mpr hc
    · cases h
  · rw [Option.isSome_map, List.find?_isSome] at h
    obtain ⟨start, hmem, hstart⟩ := h
    simp only [Bool.and_eq_true, decide_eq_true_eq] at hstart
    have := hzeros start hmem
    omega

/-! ## Values -/

lemma digitsValue_eq_ofDigitChars (h : ∀ c ∈ digits, c.isDigit = true) :
    digitsValue digits = Nat.ofDigitChars 10 digits 0 := by
  have hfold : ∀ total, digits.foldl (fun total c => total * 10 + (digitValue? c).getD 0) total =
      Nat.ofDigitChars 10 digits total := by
    induction digits with
    | nil => simp
    | cons c rest ih =>
        intro total
        obtain ⟨hc, hrest⟩ := List.forall_mem_cons.mp h
        rw [List.foldl_cons, ih hrest, Nat.ofDigitChars_cons, digitValue?_of_isDigit hc,
          Option.getD_some, Nat.mul_comm]
  exact hfold 0

lemma isDigit_of_mem_toDigits {n : Nat} : ∀ c ∈ Nat.toDigits 10 n, c.isDigit = true :=
  fun _ hc => Nat.isDigit_of_mem_toDigits (by decide) (by decide) hc

lemma isDigit_of_mem_replicate {k : Nat} : ∀ c ∈ List.replicate k '0', c.isDigit = true := by
  intro c hc
  rw [List.eq_of_mem_replicate hc]
  rfl

/-- A numeral has the value that was written. -/
theorem digitsValue_toDigits (n : Nat) : digitsValue (Nat.toDigits 10 n) = n := by
  rw [digitsValue_eq_ofDigitChars isDigit_of_mem_toDigits, Nat.ofDigitChars_ten_toDigits]

lemma digitsValue_zeros_append (k : Nat) (h : ∀ c ∈ digits, c.isDigit = true) :
    digitsValue (List.replicate k '0' ++ digits) = digitsValue digits := by
  rw [digitsValue_eq_ofDigitChars (List.forall_mem_append.mpr ⟨isDigit_of_mem_replicate, h⟩),
    digitsValue_eq_ofDigitChars h, Nat.ofDigitChars_append, Nat.ofDigitChars_replicate_zero,
    Nat.mul_zero]

lemma digitsValue_append_zeros (k : Nat) (h : ∀ c ∈ digits, c.isDigit = true) :
    digitsValue (digits ++ List.replicate k '0') = digitsValue digits * 10 ^ k := by
  rw [digitsValue_eq_ofDigitChars (List.forall_mem_append.mpr ⟨h, isDigit_of_mem_replicate⟩),
    digitsValue_eq_ofDigitChars h, Nat.ofDigitChars_append, Nat.ofDigitChars_replicate_zero,
    Nat.mul_comm]

/-! ## Numerals in a text -/

lemma span_digits {rest : List Char} (h : ∀ c ∈ digits, c.isDigit = true)
    (hrest : ∀ c ∈ rest.head?, c.isDigit = false) :
    (digits ++ rest).span Char.isDigit = (digits, rest) := by
  have hstop : rest.takeWhile Char.isDigit = [] ∧ rest.dropWhile Char.isDigit = rest := by
    cases rest with
    | nil => exact ⟨rfl, rfl⟩
    | cons c more => simp [hrest c rfl]
  rw [List.span_eq_takeWhile_dropWhile, List.takeWhile_append_of_pos h,
    List.dropWhile_append_of_pos h, hstop.1, hstop.2, List.append_nil]

/-- The numeral of a positive number does not start with a zero. -/
lemma head?_toDigits_ne {n : Nat} (hn : 0 < n) : (Nat.toDigits 10 n).head? ≠ some '0' := by
  have hdigit : ∀ d : Fin 10, 0 < d.val → d.val.digitChar ≠ '0' := by decide
  induction n using Nat.strongRecOn with
  | ind n ih =>
      rw [Nat.toDigits_eq_if (by decide)]
      split
      · rename_i hlt
        simpa using hdigit ⟨n, hlt⟩ hn
      · have hhead := ih (n / 10) (by omega) (by omega)
        cases hfront : Nat.toDigits 10 (n / 10) with
        | nil => exact absurd hfront Nat.toDigits_ne_nil
        | cons c more =>
            rw [hfront] at hhead
            exact hhead

end MusicMacro
