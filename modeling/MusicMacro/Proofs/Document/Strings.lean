import Mathlib.Tactic.Lemma
import MusicMacro.Document.JsonReader
import MusicMacro.Document.JsonWriter

/-!
# Strings read back from JSON

A text is read back from the JSON string it is written as (`readStringBody_flatMap`).  The reader
takes one step for each written character, whichever of its forms is written
(`readString_jsonChar`): itself, a letter after a backslash, one UTF-16 unit, or the two halves of a
surrogate pair.  A character's own number is never a surrogate, so that a unit is never taken for
half of a pair by what happens to follow it (`readUnicodeEscape_single`).
-/

namespace MusicMacro

open JsonReader

variable {n fuel : Nat} {start rest : List Char}

lemma hexValue?_hexDigit (h : n < 16) : hexValue? (hexDigit n) = some n := by
  have hall : ∀ d : Fin 16, hexValue? (hexDigit d.val) = some d.val := by decide
  exact hall ⟨n, h⟩

lemma readUnit?_hexDigits (h : n < 0x10000) : readUnit? (hexDigits 4 n ++ rest) = some (n, rest) := by
  have hdigits : hexDigits 4 n ++ rest = hexDigit (n / 16 / 16 / 16 % 16) ::
      hexDigit (n / 16 / 16 % 16) :: hexDigit (n / 16 % 16) :: hexDigit (n % 16) :: rest := rfl
  have hsum : ((n / 16 / 16 / 16 % 16 * 16 + n / 16 / 16 % 16) * 16 + n / 16 % 16) * 16 + n % 16 =
      n := by
    omega
  rw [hdigits, readUnit?, hexValue?_hexDigit (Nat.mod_lt _ (by decide)),
    hexValue?_hexDigit (Nat.mod_lt _ (by decide)), hexValue?_hexDigit (Nat.mod_lt _ (by decide)),
    hexValue?_hexDigit (Nat.mod_lt _ (by decide))]
  simp only [Option.bind_eq_bind, Option.bind_some, hsum]

lemma isEmpty_drop_hexDigits (hrest : rest ≠ []) :
    ((hexDigits 4 n ++ rest).drop 4).isEmpty = false :=
  List.isEmpty_eq_false_iff.mpr hrest

/-- A unit that is no surrogate is the character of its number. -/
lemma readUnicodeEscape_single (h : n < 0xD800 ∨ 0xE000 ≤ n ∧ n < 0x10000) (hrest : rest ≠ []) :
    readUnicodeEscape (hexDigits 4 n ++ rest) = .ok (Char.ofNat n, rest) := by
  have hcode : charOfCode n = Char.ofNat n := if_neg (by omega)
  have hpair : ¬(0xD800 ≤ n ∧ n < 0xDC00 ∧ (!(rest.drop 6).isEmpty) = true) := by omega
  unfold readUnicodeEscape
  simp only [isEmpty_drop_hexDigits hrest, Bool.false_eq_true, if_false,
    readUnit?_hexDigits (show n < 0x10000 by omega), hcode]
  split
  · rw [if_neg hpair]
  · rfl

/-- Two surrogates are the character that they are the halves of. -/
lemma readUnicodeEscape_pair {high low : Nat} (hhigh : high < 0x400) (hlow : low < 0x400)
    (hrest : rest ≠ []) :
    readUnicodeEscape (hexDigits 4 (0xD800 + high) ++ (jsonUnit (0xDC00 + low) ++ rest)) =
      .ok (Char.ofNat (0x10000 + high * 0x400 + low), rest) := by
  have hunit : jsonUnit (0xDC00 + low) ++ rest =
      '\\' :: 'u' :: (hexDigits 4 (0xDC00 + low) ++ rest) := rfl
  have hmore : (('\\' :: 'u' :: (hexDigits 4 (0xDC00 + low) ++ rest)).drop 6).isEmpty = false :=
    isEmpty_drop_hexDigits (n := 0xDC00 + low) hrest
  have hne : '\\' :: 'u' :: (hexDigits 4 (0xDC00 + low) ++ rest) ≠ [] := List.cons_ne_nil _ _
  rw [hunit]
  unfold readUnicodeEscape
  simp only [isEmpty_drop_hexDigits hne, Bool.false_eq_true, if_false,
    readUnit?_hexDigits (show 0xD800 + high < 0x10000 by omega),
    readUnit?_hexDigits (show 0xDC00 + low < 0x10000 by omega), hmore]
  rw [if_pos ⟨by omega, by omega, rfl⟩, if_pos (by omega), Nat.add_sub_cancel_left,
    Nat.add_sub_cancel_left]

lemma readString_unicode {digits : List Char} {c : Char}
    (h : readUnicodeEscape digits = .ok (c, rest)) :
    readString start (fuel + 1) ('\\' :: 'u' :: digits) =
      (readString start fuel rest).map fun (chars, left) => (c :: chars, left) := by
  rw [readString.eq_def]
  simp only [if_neg (show '\\' ≠ '"' by decide), if_true, h]

/-- A written character is read in one step. -/
lemma readString_jsonChar (c : Char) (hrest : rest ≠ []) :
    readString start (fuel + 1) (jsonChar c ++ rest) =
      (readString start fuel rest).map fun (chars, left) => (c :: chars, left) := by
  have hcode (n : Nat) (h : c.toNat = n) : c = Char.ofNat n := by
    rw [← h, Char.ofNat_toNat]
  unfold jsonChar
  -- the seven characters with a letter of their own, then the printable ones, then the units
  split
  · subst_vars
    rfl
  split
  · subst_vars
    rfl
  split
  · subst_vars
    rfl
  split
  · subst_vars
    rfl
  split
  · subst_vars
    rfl
  split
  · rw [hcode 12 ‹_›]
    rfl
  split
  · rw [hcode 8 ‹_›]
    rfl
  split
  · rename_i hquote hbackslash _ _ _ _ _ hplain
    rw [List.singleton_append, readString.eq_def]
    simp only [if_neg hquote, if_neg hbackslash, if_neg (Nat.not_lt.mpr hplain.1)]
  have hvalid : c.toNat < 0xD800 ∨ 0xDFFF < c.toNat ∧ c.toNat < 0x110000 := c.valid
  split
  · have hread := readUnicodeEscape_single (n := c.toNat) (by omega) hrest
    rw [Char.ofNat_toNat] at hread
    exact readString_unicode hread
  · have hhigh : (c.toNat - 0x10000) / 0x400 < 0x400 := by omega
    have hlow : (c.toNat - 0x10000) % 0x400 < 0x400 := by omega
    have hread := readUnicodeEscape_pair hhigh hlow hrest
    have hsum : 0x10000 + (c.toNat - 0x10000) / 0x400 * 0x400 + (c.toNat - 0x10000) % 0x400 =
        c.toNat := by
      omega
    rw [hsum, Char.ofNat_toNat] at hread
    rw [List.append_assoc]
    exact readString_unicode hread

/-- A string is read back up to its closing quote. -/
lemma readString_flatMap {chars : List Char} (hfuel : chars.length < fuel) :
    readString start fuel (chars.flatMap jsonChar ++ '"' :: rest) = .ok (chars, rest) := by
  induction chars generalizing fuel with
  | nil =>
      cases fuel with
      | zero => omega
      | succ fuel => rfl
  | cons c more ih =>
      cases fuel with
      | zero => omega
      | succ fuel =>
          rw [List.length_cons] at hfuel
          rw [List.flatMap_cons, List.append_assoc,
            readString_jsonChar c (List.append_ne_nil_of_right_ne_nil _ (List.cons_ne_nil _ _)),
            ih (by omega)]
          rfl

lemma length_le_flatMap (chars : List Char) : chars.length ≤ (chars.flatMap jsonChar).length := by
  have hone (c : Char) : 1 ≤ (jsonChar c).length := by
    unfold jsonChar
    repeat' split
    all_goals simp [jsonUnit]
  induction chars with
  | nil => exact Nat.le_refl _
  | cons c more ih =>
      have := hone c
      rw [List.flatMap_cons, List.length_append, List.length_cons]
      omega

lemma toList_jsonString (s : String) :
    (jsonString s).toList = '"' :: (s.toList.flatMap jsonChar ++ ['"']) := String.toList_ofList

/-- A text is read back from its string, whose opening quote has been taken off. -/
lemma readStringBody_flatMap {s : String} (hfuel : (s.toList.flatMap jsonChar).length < fuel) :
    readStringBody fuel (s.toList.flatMap jsonChar ++ '"' :: rest) = .ok (s, rest) := by
  have := length_le_flatMap s.toList
  rw [readStringBody, readString_flatMap (by omega)]
  exact congrArg (fun text => Except.ok (text, rest)) String.ofList_toList

end MusicMacro
