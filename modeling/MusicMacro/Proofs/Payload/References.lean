import Mathlib.Data.List.TakeWhile
import MusicMacro.Payload
import MusicMacro.Proofs.Payload.Base64
import MusicMacro.Proofs.Text.Digits

/-!
# Payloads can be read back

Escaping puts references next to literal text, which may itself hold ampersands, digits and
semicolons; reading replaces references in one pass from the left.  The two undo one another unless
the text already spells a reference to a character beyond the first 256
(`importText_exportText_iff`).

What makes this work is that a reference has its only ampersand in front.  A reference of the
escaped text is therefore either one that the escaping put there or one that stands in the text
as it is: no reference that is put in can complete one that the text has begun, for it starts with
an ampersand itself (`exists_of_escapeText_eq`).  And a reference that stands in the text makes
what is read back shorter than the text (`length_unescapeText_escapeText_lt`).
-/

namespace MusicMacro

/-! ## References -/

/-- Digits that payloads read as the code of a character beyond the first 256. -/
structure IsReferenceCode (digits : List Char) : Prop where
  isDigit : ∀ c ∈ digits, c.isDigit = true
  length_pos : 1 ≤ digits.length
  length_le : digits.length ≤ 7
  beyond : 0xFF < digitsValue digits
  within : digitsValue digits ≤ 0x10FFFF

/-- The text starts with a reference to a character beyond the first 256. -/
def StartsReference (text : List Char) : Prop :=
  ∃ digits after, IsReferenceCode digits ∧ text = '&' :: '#' :: digits ++ ';' :: after

/-- Somewhere in the text stands a reference to a character beyond the first 256. -/
def SpellsReference (text : List Char) : Prop :=
  ∃ before rest, StartsReference rest ∧ text = before ++ rest

lemma StartsReference.spells {text : List Char} (h : StartsReference text) : SpellsReference text :=
  ⟨[], text, h, rfl⟩

lemma spellsReference_cons {c : Char} {text : List Char} (h : ¬StartsReference (c :: text)) :
    SpellsReference (c :: text) ↔ SpellsReference text := by
  constructor
  · rintro ⟨before, rest, hrest, htext⟩
    cases before with
    | nil => exact absurd (htext ▸ hrest) h
    | cons b before => exact ⟨before, rest, hrest, (List.cons.inj htext).2⟩
  · rintro ⟨before, rest, hrest, rfl⟩
    exact ⟨c :: before, rest, hrest, rfl⟩

section

variable {digits : List Char}

lemma takeWhile_digits_append (h : ∀ c ∈ digits, c.isDigit = true) (after : List Char) :
    (digits ++ ';' :: after).takeWhile isDecimalDigit = digits := by
  rw [List.takeWhile_append_of_pos fun c hc => isDecimalDigit_of_isDigit (h c hc),
    List.takeWhile_cons_of_neg (by decide), List.append_nil]

lemma IsReferenceCode.reference?_eq (h : IsReferenceCode digits) (after : List Char) :
    reference? ('&' :: '#' :: digits ++ ';' :: after) =
      some (charOfCode (digitsValue digits), digits.length + 3) := by
  simp only [reference?, List.cons_append, takeWhile_digits_append h.isDigit]
  rw [if_pos]
  refine ⟨h.length_pos, h.length_le, ?_, h.beyond, h.within⟩
  simp

/-- No letter stands in a reference. -/
lemma IsReferenceCode.toNat_lt (h : IsReferenceCode digits) :
    ∀ c ∈ '&' :: '#' :: digits ++ [';'], c.toNat < 65 := by
  simp only [List.cons_append, List.forall_mem_cons, List.forall_mem_append]
  refine ⟨by decide, by decide, fun c hc => ?_, by decide, by simp⟩
  have := isDigit_iff.mp (h.isDigit c hc)
  omega

/-- A reference consists of characters among the first 256. -/
lemma IsReferenceCode.toNat_le (h : IsReferenceCode digits) :
    ∀ c ∈ '&' :: '#' :: digits ++ [';'], c.toNat ≤ 0xFF := fun c hc => by
  have := h.toNat_lt c hc
  omega

/-- The only ampersand of a reference is its first character. -/
lemma IsReferenceCode.ampersand_not_mem (h : IsReferenceCode digits) :
    '&' ∉ '#' :: digits ++ [';'] := by
  simp only [List.cons_append, List.mem_cons, List.mem_append, List.not_mem_nil, not_or]
  refine ⟨by decide, fun hmem => ?_, by decide, not_false⟩
  have := h.isDigit _ hmem
  contradiction

/-- Reading replaces the reference that a text starts with. -/
lemma IsReferenceCode.unescapeText_eq (h : IsReferenceCode digits) (after : List Char) :
    unescapeText ('&' :: '#' :: digits ++ ';' :: after) =
      charOfCode (digitsValue digits) :: unescapeText after := by
  have href := h.reference?_eq after
  rw [List.cons_append] at href ⊢
  rw [unescapeText, href]
  simp

end

/-- Among the first 256 characters a reference is spelt in ASCII digits. -/
lemma startsReference_of_reference? {text : List Char} {r : Char × Nat}
    (h : reference? text = some r) (hlow : ∀ c ∈ text, c.toNat ≤ 0xFF) : StartsReference text := by
  unfold reference? at h
  split at h
  · rename_i rest
    dsimp only at h
    split at h
    · rename_i hcode
      obtain ⟨tail, hrest⟩ : ∃ tail, rest.takeWhile isDecimalDigit ++ tail = rest :=
        List.takeWhile_prefix isDecimalDigit
      have hdigit := fun c (hc : c ∈ rest.takeWhile isDecimalDigit) => List.mem_takeWhile_imp hc
      generalize rest.takeWhile isDecimalDigit = digits at hcode hrest hdigit
      subst hrest
      obtain ⟨hpos, hle, hend, hbeyond, hwithin⟩ := hcode
      have hascii : ∀ c ∈ digits, c.isDigit = true := fun c hc =>
        isDigit_of_isDecimalDigit (hlow c (by simp [hc])) (hdigit c hc)
      rw [List.getElem?_append_right (Nat.le_refl _), Nat.sub_self] at hend
      cases tail with
      | nil => cases hend
      | cons t after =>
          obtain rfl := Option.some.inj hend
          exact ⟨digits, after, ⟨hascii, hpos, hle, hbeyond, hwithin⟩, rfl⟩
    · cases h
  · cases h

lemma unescapeText_cons_of_none {c : Char} {rest : List Char} (h : reference? (c :: rest) = none) :
    unescapeText (c :: rest) = c :: unescapeText rest := by
  rw [unescapeText, h]

/-! ## Escaped text -/

lemma charOfCode_toNat (c : Char) : charOfCode c.toNat = c := by
  have hvalid : c.toNat < 0xD800 ∨ 0xDFFF < c.toNat ∧ c.toNat < 0x110000 := c.valid
  rw [charOfCode, if_neg (by omega), Char.ofNat_toNat]

lemma escapeText_cons_low {c : Char} (h : c.toNat ≤ 0xFF) (rest : List Char) :
    escapeText (c :: rest) = c :: escapeText rest := by
  simp [escapeText, escapeChar, h]

lemma escapeText_cons_high {c : Char} (h : 0xFF < c.toNat) (rest : List Char) :
    escapeText (c :: rest) = '&' :: '#' :: Nat.toDigits 10 c.toNat ++ ';' :: escapeText rest := by
  simp [escapeText, escapeChar, Nat.not_le_of_lt h]

lemma isReferenceCode_toDigits {c : Char} (h : 0xFF < c.toNat) :
    IsReferenceCode (Nat.toDigits 10 c.toNat) where
  isDigit := isDigit_of_mem_toDigits
  length_pos := Nat.length_toDigits_pos
  length_le := by
    have hvalid : c.toNat < 0xD800 ∨ 0xDFFF < c.toNat ∧ c.toNat < 0x110000 := c.valid
    rw [Nat.length_toDigits_le_iff (by decide) (by decide)]
    omega
  beyond := by rwa [digitsValue_toDigits]
  within := by
    have hvalid : c.toNat < 0xD800 ∨ 0xDFFF < c.toNat ∧ c.toNat < 0x110000 := c.valid
    rw [digitsValue_toDigits]
    omega

/-- Escaped text fits in single bytes. -/
lemma toNat_le_of_mem_escapeText {text : List Char} : ∀ c ∈ escapeText text, c.toNat ≤ 0xFF := by
  induction text with
  | nil => simp [escapeText]
  | cons c rest ih =>
      by_cases hc : c.toNat ≤ 0xFF
      · rw [escapeText_cons_low hc]
        exact List.forall_mem_cons.mpr ⟨hc, ih⟩
      · rw [escapeText_cons_high (Nat.lt_of_not_le hc)]
        have hdigits : ∀ d ∈ Nat.toDigits 10 c.toNat, d.toNat ≤ 0xFF := by
          intro d hd
          have := isDigit_iff.mp (isDigit_of_mem_toDigits d hd)
          omega
        simp only [List.cons_append, List.forall_mem_cons, List.forall_mem_append]
        exact ⟨by decide, by decide, hdigits, by decide, ih⟩

lemma escapeText_append {front : List Char} (h : ∀ c ∈ front, c.toNat ≤ 0xFF) (rest : List Char) :
    escapeText (front ++ rest) = front ++ escapeText rest := by
  induction front with
  | nil => rfl
  | cons c front ih =>
      obtain ⟨hc, hfront⟩ := List.forall_mem_cons.mp h
      rw [List.cons_append, escapeText_cons_low hc, ih hfront, List.cons_append]

/-- Where each character is either copied or replaced by what starts with one in `p`, whatever the
result starts with before any in `p` stands in the text itself. -/
lemma exists_of_copied {f : List Char → List Char} {p : Char → Prop} (hnil : f [] = [])
    (hcons : ∀ t rest, f (t :: rest) = t :: f rest ∨ ∃ c more, f (t :: rest) = c :: more ∧ p c)
    {text front tail : List Char} (h : f text = front ++ tail) (hfront : ∀ c ∈ front, ¬p c) :
    ∃ after, text = front ++ after ∧ f after = tail := by
  induction front generalizing text with
  | nil => exact ⟨text, rfl, h⟩
  | cons c front ih =>
      obtain ⟨hc, hmore⟩ := List.forall_mem_cons.mp hfront
      cases text with
      | nil =>
          rw [hnil] at h
          cases h
      | cons t rest =>
          rcases hcons t rest with hcopied | ⟨d, more, hreplaced, hd⟩
          · obtain ⟨rfl, hrest⟩ := List.cons.inj (hcopied.symm.trans h)
            obtain ⟨after, rfl, hafter⟩ := ih hrest hmore
            exact ⟨after, rfl, hafter⟩
          · obtain ⟨rfl, -⟩ := List.cons.inj (hreplaced.symm.trans h)
            exact absurd hd hc

/-- What an escaped text starts with up to the next ampersand stands in the text itself. -/
lemma exists_of_escapeText_eq {text front tail : List Char} (h : escapeText text = front ++ tail)
    (hfront : '&' ∉ front) : ∃ after, text = front ++ after ∧ escapeText after = tail := by
  refine exists_of_copied (p := (· = '&')) rfl (fun t rest => ?_) h fun c hc heq =>
    hfront (heq ▸ hc)
  by_cases ht : t.toNat ≤ 0xFF
  · exact .inl (escapeText_cons_low ht rest)
  · exact .inr ⟨_, _, escapeText_cons_high (Nat.lt_of_not_le ht) rest, rfl⟩

/-- A reference behind a literal ampersand of the escaped text stands in the text itself. -/
lemma StartsReference.of_escapeText {c : Char} {rest : List Char} (hc : c.toNat ≤ 0xFF)
    (h : StartsReference (escapeText (c :: rest))) : StartsReference (c :: rest) := by
  obtain ⟨digits, tail, hcode, htext⟩ := h
  rw [escapeText_cons_low hc] at htext
  obtain ⟨rfl, hrest⟩ := List.cons.inj htext
  have hread : escapeText rest = ('#' :: digits ++ [';']) ++ tail := by simpa using hrest
  obtain ⟨after, rfl, -⟩ := exists_of_escapeText_eq hread hcode.ampersand_not_mem
  exact ⟨digits, after, hcode, by simp⟩

/-! ## Reading escaped text -/

lemma unescapeText_escapeText_high {c : Char} (h : 0xFF < c.toNat) (rest : List Char) :
    unescapeText (escapeText (c :: rest)) = c :: unescapeText (escapeText rest) := by
  rw [escapeText_cons_high h, (isReferenceCode_toDigits h).unescapeText_eq, digitsValue_toDigits,
    charOfCode_toNat]

/-- A character comes back unless it starts a reference that stands in the text. -/
lemma unescapeText_escapeText_cons {c : Char} {rest : List Char}
    (h : ¬StartsReference (c :: rest)) :
    unescapeText (escapeText (c :: rest)) = c :: unescapeText (escapeText rest) := by
  by_cases hc : c.toNat ≤ 0xFF
  · have hnone : reference? (escapeText (c :: rest)) = none := by
      rw [Option.eq_none_iff_forall_ne_some]
      intro r hr
      exact h ((startsReference_of_reference? hr toNat_le_of_mem_escapeText).of_escapeText hc)
    rw [escapeText_cons_low hc] at hnone ⊢
    exact unescapeText_cons_of_none hnone
  · exact unescapeText_escapeText_high (Nat.lt_of_not_le hc) rest

/-- A reference that a text starts with becomes a single character. -/
lemma IsReferenceCode.unescapeText_escapeText {digits : List Char} (h : IsReferenceCode digits)
    (after : List Char) :
    unescapeText (escapeText ('&' :: '#' :: digits ++ ';' :: after)) =
      charOfCode (digitsValue digits) :: unescapeText (escapeText after) := by
  have hescape : escapeText ('&' :: '#' :: digits ++ ';' :: after) =
      '&' :: '#' :: digits ++ ';' :: escapeText after := by
    simpa using escapeText_append h.toNat_le after
  rw [hescape, h.unescapeText_eq]

lemma StartsReference.unescapeText_escapeText {text : List Char} (h : StartsReference text) :
    ∃ c after, after.length + 4 ≤ text.length ∧
      unescapeText (escapeText text) = c :: unescapeText (escapeText after) := by
  obtain ⟨digits, after, hcode, rfl⟩ := h
  refine ⟨charOfCode (digitsValue digits), after, ?_, hcode.unescapeText_escapeText after⟩
  have := hcode.length_pos
  simp only [List.cons_append, List.length_cons, List.length_append]
  omega

lemma unescapeText_escapeText {text : List Char} (h : ¬SpellsReference text) :
    unescapeText (escapeText text) = text := by
  induction text with
  | nil => simp [escapeText, unescapeText]
  | cons c rest ih =>
      have hstart : ¬StartsReference (c :: rest) := fun hstart => h hstart.spells
      rw [unescapeText_escapeText_cons hstart, ih ((spellsReference_cons hstart).not.mp h)]

/-- What is read back is no longer than the text, and shorter if the text spells a reference. -/
lemma length_unescapeText_escapeText (text : List Char) :
    (unescapeText (escapeText text)).length ≤ text.length ∧
      (SpellsReference text → (unescapeText (escapeText text)).length < text.length) := by
  -- a reference takes many characters of the text at once, hence the induction on its length
  induction hn : text.length using Nat.strongRecOn generalizing text with
  | ind n ih =>
      subst hn
      by_cases hstart : StartsReference text
      · obtain ⟨c, after, hlength, hread⟩ := hstart.unescapeText_escapeText
        have hafter := (ih after.length (by omega) after rfl).1
        rw [hread, List.length_cons]
        exact ⟨by omega, fun _ => by omega⟩
      · cases text with
        | nil =>
            refine ⟨by simp [escapeText, unescapeText], fun hspells => ?_⟩
            obtain ⟨before, rest, ⟨digits, after, -, rfl⟩, htext⟩ := hspells
            simp at htext
        | cons c rest =>
            obtain ⟨hle, hlt⟩ := ih rest.length (by simp) rest rfl
            rw [unescapeText_escapeText_cons hstart, List.length_cons, List.length_cons,
              spellsReference_cons hstart]
            exact ⟨by omega, fun hspells => by have := hlt hspells; omega⟩

/-! ## Payloads -/

lemma foreignRun?_encode (bytes : List UInt8) : foreignRun? (Base64.encode bytes) = none := by
  have hall : (Base64.encode bytes).takeWhile (fun c => decide (c.toNat < 128)) =
      Base64.encode bytes :=
    List.takeWhile_eq_self_iff.mpr fun c hc =>
      decide_eq_true (Base64.mem_encode_toNat_lt bytes c hc)
  simp [foreignRun?, hall]

/-- Characters that fit in single bytes are read from them. -/
lemma map_ofNat_toNat {text : List Char} (h : ∀ c ∈ text, c.toNat ≤ 0xFF) :
    ((text.map fun c => UInt8.ofNat c.toNat).map fun b => Char.ofNat b.toNat) = text := by
  rw [List.map_map, List.map_congr_left (g := id), List.map_id]
  intro c hc
  have hbyte : c.toNat < 256 := Nat.lt_succ_of_le (h c hc)
  simp [UInt8.toNat_ofNat', Nat.mod_eq_of_lt hbyte, Char.ofNat_toNat]

lemma importText_exportText (text : String) :
    importText (exportText text) =
      .ok (String.ofList (unescapeText (escapeText text.toList))) := by
  rw [importText, exportText, String.toList_ofList, foreignRun?_encode, Base64.decode_encode]
  dsimp only
  rw [map_ofNat_toNat toNat_le_of_mem_escapeText]

/-- **Payloads come back.**  A text can always be sent: escaped it fits in single bytes, and its
payload can be read.  What is read is the text itself exactly if the text spells no reference to a
character beyond the first 256. -/
theorem importText_exportText_iff (text : String) :
    (∀ c ∈ escapeText text.toList, c.toNat ≤ 0xFF) ∧
      (∃ read, importText (exportText text) = .ok read) ∧
      (importText (exportText text) = .ok text ↔ ¬SpellsReference text.toList) := by
  refine ⟨toNat_le_of_mem_escapeText, ⟨_, importText_exportText text⟩, ?_⟩
  rw [importText_exportText, Except.ok.injEq]
  constructor
  · intro hsame hspells
    have hlt := (length_unescapeText_escapeText text.toList).2 hspells
    rw [← String.toList_ofList (l := unescapeText _), hsame] at hlt
    exact Nat.lt_irrefl _ hlt
  · intro hspells
    rw [unescapeText_escapeText hspells, String.ofList_toList]

end MusicMacro
