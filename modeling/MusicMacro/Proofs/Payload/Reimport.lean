import MusicMacro.Proofs.Payload.References

/-!
# What was read can be shared again

Reading a payload replaces the references of a text in one pass from the left, and nothing looks at
the result a second time.  Nothing needs to: whatever the bytes of the payload spell, with zeros in
front of a code, references side by side or one begun inside another, what is read spells no
reference any more, and so it comes back from a payload of its own
(`imported_text_comes_back`).

A reference consists of characters among the first 256, and reading puts in none of these.  A
reference in the result would have stood in the text as it is (`exists_of_unescapeText_eq`), where
reading replaces it.  The digits of other scripts that reading may put in do not count: sharing the
result turns them into references of their own.
-/

namespace MusicMacro

lemma lt_toNat_charOfCode {code : Nat} (hbeyond : 0xFF < code) (hwithin : code ≤ 0x10FFFF) :
    0xFF < (charOfCode code).toNat := by
  unfold charOfCode
  split
  · decide
  · rename_i hvalid
    have hvalid : code.isValidChar := by
      rw [Nat.isValidChar]
      omega
    rw [Char.ofNat, dif_pos hvalid]
    exact hbeyond

/-- A reference is never read as one of the first 256 characters. -/
lemma lt_toNat_of_reference? {text : List Char} {r : Char × Nat} (h : reference? text = some r) :
    0xFF < r.1.toNat := by
  unfold reference? at h
  split at h
  · dsimp only at h
    split at h
    · rename_i hcode
      rw [← Option.some.inj h]
      exact lt_toNat_charOfCode hcode.2.2.2.1 hcode.2.2.2.2
    · cases h
  · cases h

/-- A run of the first 256 characters that is read stood in the text as it is. -/
lemma exists_of_unescapeText_eq {text front tail : List Char}
    (h : unescapeText text = front ++ tail) (hfront : ∀ c ∈ front, c.toNat ≤ 0xFF) :
    ∃ after, text = front ++ after ∧ unescapeText after = tail := by
  refine exists_of_copied (p := fun c => 0xFF < c.toNat) (by rw [unescapeText])
    (fun t rest => ?_) h fun c hc => Nat.not_lt_of_le (hfront c hc)
  cases hread : reference? (t :: rest) with
  | some r => exact .inr ⟨r.1, _, by rw [unescapeText, hread], lt_toNat_of_reference? hread⟩
  | none => exact .inl (unescapeText_cons_of_none hread)

lemma not_startsReference_unescapeText (text : List Char) :
    ¬StartsReference (unescapeText text) := by
  rintro ⟨digits, tail, hcode, hread⟩
  have hsplit : unescapeText text = ('&' :: '#' :: digits ++ [';']) ++ tail := by simpa using hread
  obtain ⟨after, rfl, -⟩ := exists_of_unescapeText_eq hsplit hcode.toNat_le
  -- there the reference is replaced, by a character that is no ampersand
  have hreplaced : unescapeText ('&' :: '#' :: digits ++ [';'] ++ after) =
      charOfCode (digitsValue digits) :: unescapeText after := by
    simpa using hcode.unescapeText_eq after
  rw [hreplaced] at hread
  have hbeyond := lt_toNat_charOfCode hcode.beyond hcode.within
  rw [(List.cons.inj hread).1] at hbeyond
  revert hbeyond
  decide

/-- **What is read spells no reference.** -/
lemma not_spellsReference_unescapeText (text : List Char) :
    ¬SpellsReference (unescapeText text) := by
  fun_induction unescapeText text with
  | case1 =>
      rintro ⟨before, rest, ⟨digits, after, -, rfl⟩, hnil⟩
      simp at hnil
  | case2 c rest ch length hread ih =>
      have hstart := not_startsReference_unescapeText (c :: rest)
      rw [unescapeText, hread] at hstart
      rwa [spellsReference_cons hstart]
  | case3 c rest hread ih =>
      have hstart := not_startsReference_unescapeText (c :: rest)
      rw [unescapeText_cons_of_none hread] at hstart
      rwa [spellsReference_cons hstart]

lemma exists_of_importText {payload text : String} (h : importText payload = .ok text) :
    ∃ chars, text = String.ofList (unescapeText chars) := by
  unfold importText at h
  split at h
  · cases h
  · split at h
    · cases h
    · exact ⟨_, (Except.ok.inj h).symm⟩

/-- **What was read from a payload can be shared again.**  Whatever payload a text was read from,
one of another maker included, the text spells no reference to a character beyond the first 256,
and the payload that it is given itself is read as the same text. -/
theorem imported_text_comes_back {payload text : String} (h : importText payload = .ok text) :
    ¬SpellsReference text.toList ∧ importText (exportText text) = .ok text := by
  obtain ⟨chars, rfl⟩ := exists_of_importText h
  have hspells := not_spellsReference_unescapeText chars
  rw [String.toList_ofList]
  refine ⟨hspells, ?_⟩
  rw [importText_exportText, String.toList_ofList, unescapeText_escapeText hspells]

/-- A code with a zero in front, digits of another script put in among others, and codes too low and
too long, in a payload of another maker. -/
theorem foreign_payload_comes_back :
    importText "QzQgJiMwMzAwOyAmIzMmIzE2MzI7MDA7ICYjJiMxNjMzOzMwMDsgJiM2NTsgJiM5OTk5OTk5OTs=" =
        .ok "C4 Ĭ &#3٠00; &#١300; &#65; &#99999999;" ∧
      ¬SpellsReference "C4 Ĭ &#3٠00; &#١300; &#65; &#99999999;".toList ∧
      importText (exportText "C4 Ĭ &#3٠00; &#١300; &#65; &#99999999;") =
        .ok "C4 Ĭ &#3٠00; &#١300; &#65; &#99999999;" := by
  have hread : importText
      "QzQgJiMwMzAwOyAmIzMmIzE2MzI7MDA7ICYjJiMxNjMzOzMwMDsgJiM2NTsgJiM5OTk5OTk5OTs=" =
        .ok "C4 Ĭ &#3٠00; &#١300; &#65; &#99999999;" := by
    decide +kernel
  exact ⟨hread, imported_text_comes_back hread⟩

end MusicMacro
