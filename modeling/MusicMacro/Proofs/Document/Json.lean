import MusicMacro.Proofs.Document.Numerals
import MusicMacro.Proofs.Document.Strings

/-!
# Documents read back from JSON

A document is read back from the JSON text it is written as, on one line or indented
(`Document.ofJson_jsonText`), if it is plain (`Document.IsPlain`): it holds no timestamp, no map of
it has two entries of one key, and no whole number of it has too many digits.

`ReadsAs d text` says that the reader takes `text` for `d` whatever follows it that cannot continue
a number.  There is one lemma for each form of document; in those for lists and maps the blanks
between the entries are arbitrary, so that nothing depends on the layout.
-/

namespace MusicMacro

open JsonReader

/-! ## Blanks -/

/-- The text consists of blanks. -/
def IsBlankText (text : List Char) : Prop := ∀ c ∈ text, isJsonBlank c = true

/-- A character that a written value may start with. -/
def StartsValue (c : Char) : Prop := 32 < c.toNat ∧ c.toNat < 127 ∧ c ≠ ']' ∧ c ≠ '\x7d'

instance (c : Char) : Decidable (StartsValue c) := inferInstanceAs (Decidable (_ ∧ _))

section

variable {c : Char} {blanks rest : List Char}

lemma skipBlanks_append (h : IsBlankText blanks) : skipBlanks (blanks ++ rest) = skipBlanks rest :=
  List.dropWhile_append_of_pos h

lemma skipBlanks_cons (hc : isJsonBlank c = false) : skipBlanks (c :: rest) = c :: rest :=
  List.dropWhile_cons_of_neg (by rw [hc]; exact Bool.false_ne_true)

lemma StartsValue.not_blank (h : StartsValue c) : isJsonBlank c = false := by
  obtain ⟨hlow, -, -⟩ := h
  have hne (b : Char) (hb : b.toNat ≤ 32) : (c == b) = false := by
    rw [beq_eq_false_iff_ne]
    rintro rfl
    omega
  rw [isJsonBlank, hne ' ' (by decide), hne '\t' (by decide), hne '\n' (by decide),
    hne '\r' (by decide)]
  rfl

lemma isBlankText_lineBreak (layout : JsonLayout) (depth : Nat) :
    IsBlankText (layout.lineBreak depth).toList := by
  cases layout with
  | line => exact fun c hc => absurd hc List.not_mem_nil
  | indented width =>
      intro c hc
      simp only [JsonLayout.lineBreak, String.toList_append, String.toList_ofList,
        List.mem_append] at hc
      rcases hc with hc | hc
      · obtain rfl := List.mem_singleton.mp hc
        rfl
      · rw [List.eq_of_mem_replicate hc]
        rfl

lemma toList_separator (layout : JsonLayout) (depth : Nat) :
    ∃ blanks, (layout.separator depth).toList = ',' :: blanks ∧ IsBlankText blanks := by
  cases layout with
  | line => exact ⟨[' '], String.toList_ofList, by simp [IsBlankText, isJsonBlank]⟩
  | indented width =>
      refine ⟨_, ?_, isBlankText_lineBreak (.indented width) depth⟩
      rw [JsonLayout.separator, String.toList_append]
      rfl

end

/-! ## Written values -/

/-- The text is read as the document, whatever follows that cannot continue a number. -/
structure ReadsAs (d : Document) (text : List Char) : Prop where
  starts : ∃ c ∈ text.head?, StartsValue c
  readValue : ∀ fuel rest, 2 * text.length ≤ fuel → EndsNumber rest →
    readValue fuel (text ++ rest) = .ok (d, rest)

section

variable {d : Document} {text rest : List Char} {fuel : Nat}

lemma skipBlanks_of_starts (h : ∃ c ∈ text.head?, StartsValue c) : skipBlanks text = text := by
  obtain ⟨c, hc, hstart⟩ := h
  obtain ⟨more, rfl⟩ := List.head?_eq_some_iff.mp hc
  exact skipBlanks_cons hstart.not_blank

lemma starts_append (h : ∃ c ∈ text.head?, StartsValue c) (rest : List Char) :
    ∃ c ∈ (text ++ rest).head?, StartsValue c := by
  obtain ⟨c, hc, hstart⟩ := h
  obtain ⟨more, rfl⟩ := List.head?_eq_some_iff.mp hc
  exact ⟨c, rfl, hstart⟩

/-- Joined texts start as the first of them. -/
lemma starts_intercalate {α : Type} {write : α → List Char} {items : List α} (hne : items ≠ [])
    (h : ∀ item ∈ items, ∃ c ∈ (write item).head?, StartsValue c) (separator : List Char) :
    ∃ c ∈ (List.intercalate separator (items.map write)).head?, StartsValue c := by
  cases items with
  | nil => contradiction
  | cons item more =>
      have hitem := h item List.mem_cons_self
      cases more with
      | nil =>
          rw [List.map_cons, List.map_nil, List.intercalate_singleton]
          exact hitem
      | cons next others =>
          rw [List.map_cons, List.map_cons, List.intercalate_cons_cons, List.append_assoc]
          exact starts_append hitem _

/-! ### Scalars -/

lemma readValue_scalar {c : Char} (hquote : c ≠ '"') (hlist : c ≠ '[') (hmap : c ≠ '\x7b') :
    readValue (fuel + 1) (c :: rest) = readScalar (c :: rest) := by
  rw [readValue]
  · exact fun _ heq => hquote (List.cons.inj heq).1
  · exact fun _ heq => hlist (List.cons.inj heq).1
  · exact fun _ heq => hmap (List.cons.inj heq).1

lemma exists_digit_of_readWholeDigits? {result : List Char × List Char}
    (h : readWholeDigits? text = some result) : ∃ c more, c.isDigit = true ∧ text = c :: more := by
  unfold readWholeDigits? at h
  split at h
  · exact ⟨'0', _, rfl, rfl⟩
  · cases text with
    | nil => cases h
    | cons c more =>
        cases hc : c.isDigit with
        | true => exact ⟨c, more, hc, rfl⟩
        | false =>
            rw [List.span_eq_takeWhile_dropWhile, List.takeWhile_cons_of_neg (by simp [hc])] at h
            cases h

/-- A text that is read as a number starts with a digit, or with a sign and a digit. -/
lemma exists_digit_of_readNumber? {result : Except JsonRefusal (Document × List Char)}
    (h : readNumber? text = some result) :
    ∃ s c more, c.isDigit = true ∧ text = signChars s ++ c :: more := by
  unfold readNumber? at h
  obtain ⟨whole, hwhole, -⟩ := Option.bind_eq_some_iff.mp h
  by_cases hsign : text.head? = some '-'
  · obtain ⟨more, rfl⟩ := List.head?_eq_some_iff.mp hsign
    rw [if_pos hsign] at hwhole
    obtain ⟨c, more, hc, rfl⟩ := exists_digit_of_readWholeDigits? hwhole
    exact ⟨true, c, more, hc, rfl⟩
  · rw [if_neg hsign] at hwhole
    obtain ⟨c, more, hc, rfl⟩ := exists_digit_of_readWholeDigits? hwhole
    exact ⟨false, c, more, hc, rfl⟩

/-- No name of a value starts with a digit, or with a sign and a digit. -/
lemma readScalar_of_digit {c : Char} (hc : c.isDigit = true) (s : Bool) :
    readScalar (signChars s ++ c :: rest) =
      (readNumber? (signChars s ++ c :: rest)).getD
        (.error (.fault .value (signChars s ++ c :: rest).length)) := by
  have hne (b : Char) (hb : b.isDigit = false) : b ≠ c := ne_of_isDigit hb hc
  unfold readScalar
  rw [List.find?_eq_none.mpr]
  cases s <;> simp [names, signChars, hne]

lemma readsAs_scalar {c : Char} {more : List Char} (hstart : StartsValue c)
    (hother : c ≠ '"' ∧ c ≠ '[' ∧ c ≠ '\x7b')
    (h : ∀ rest, EndsNumber rest → readScalar (c :: (more ++ rest)) = .ok (d, rest)) :
    ReadsAs d (c :: more) where
  starts := ⟨c, rfl, hstart⟩
  readValue := fun fuel rest hfuel hrest => by
    cases fuel with
    | zero =>
        rw [List.length_cons] at hfuel
        omega
    | succ fuel => exact (readValue_scalar hother.1 hother.2.1 hother.2.2).trans (h rest hrest)

/-- A number that is read back is a value that is read back. -/
lemma readsAs_number
    (h : ∀ rest, EndsNumber rest → readNumber? (text ++ rest) = some (.ok (d, rest))) :
    ReadsAs d text := by
  have hend : EndsNumber [] := fun c hc => by cases hc
  obtain ⟨s, c, more, hc, htext⟩ := exists_digit_of_readNumber? (h [] hend)
  rw [List.append_nil] at htext
  subst htext
  have hscalar (rest : List Char) (hrest : EndsNumber rest) :
      readScalar (signChars s ++ c :: (more ++ rest)) = .ok (d, rest) := by
    have hread := h rest hrest
    rw [List.append_assoc, List.cons_append] at hread
    rw [readScalar_of_digit hc, hread, Option.getD_some]
  cases s with
  | false =>
      have hrange := isDigit_iff.mp hc
      have hother (b : Char) (hb : b.isDigit = false) : c ≠ b := (ne_of_isDigit hb hc).symm
      exact readsAs_scalar ⟨by omega, by omega, hother _ rfl, hother _ rfl⟩
        ⟨hother _ rfl, hother _ rfl, hother _ rfl⟩ hscalar
  | true => exact readsAs_scalar (by decide) (by decide) hscalar

lemma readsAs_null : ReadsAs .null "null".toList :=
  readsAs_scalar (by decide) (by decide) fun _ _ => rfl

lemma readsAs_bool (b : Bool) : ReadsAs (.bool b) (if b then "true" else "false").toList := by
  cases b with
  | false => exact readsAs_scalar (by decide) (by decide) fun _ _ => rfl
  | true => exact readsAs_scalar (by decide) (by decide) fun _ _ => rfl

lemma readsAs_whole {n : Int} (hn : decimalLength n.natAbs ≤ digitLimit) :
    ReadsAs (.whole n) (toString n).toList :=
  readsAs_number fun _ hrest => readNumber?_whole hn hrest

lemma readsAs_real (x : Double) : ReadsAs (.real x) (jsonReal x).toList := by
  cases x with
  | finite s m => exact readsAs_number fun _ hrest => readNumber?_text hrest
  | infinite s =>
      cases s with
      | false => exact readsAs_scalar (by decide) (by decide) fun _ _ => rfl
      | true => exact readsAs_scalar (by decide) (by decide) fun _ _ => rfl
  | nan => exact readsAs_scalar (by decide) (by decide) fun _ _ => rfl

lemma readsAs_text (s : String) : ReadsAs (.text s) (jsonString s).toList := by
  rw [toList_jsonString]
  refine ⟨⟨'"', rfl, by decide⟩, fun fuel rest hfuel hrest => ?_⟩
  rw [List.length_cons, List.length_append] at hfuel
  cases fuel with
  | zero => omega
  | succ fuel =>
      rw [List.cons_append, List.append_assoc]
      show (readStringBody fuel _).map _ = _
      rw [List.singleton_append, readStringBody_flatMap (by omega)]
      rfl

/-! ### Lists -/

lemma endsNumber_cons {c : Char} (hc : c.isDigit = false ∧ c ≠ '.' ∧ c ≠ 'e' ∧ c ≠ 'E') :
    EndsNumber (c :: rest) :=
  fun _ hb => Option.some.inj hb ▸ hc

/-- Blanks cannot continue a number. -/
lemma IsBlankText.endsNumber {blanks : List Char} (hblanks : IsBlankText blanks)
    (hrest : EndsNumber rest) : EndsNumber (blanks ++ rest) := by
  cases blanks with
  | nil => exact hrest
  | cons blank more =>
      have hblank := hblanks blank List.mem_cons_self
      simp only [isJsonBlank, Bool.or_eq_true, beq_iff_eq] at hblank
      refine endsNumber_cons ?_
      obtain ((rfl | rfl) | rfl) | rfl := hblank
      all_goals decide

lemma readItems_last {after : List Char} (hread : readValue fuel text = .ok (d, after))
    (hafter : skipBlanks after = ']' :: rest) : readItems (fuel + 1) text = .ok ([d], rest) := by
  rw [readItems.eq_def]
  simp only [hread, hafter]

lemma readItems_next {after more : List Char} {items : List Document}
    (hread : readValue fuel text = .ok (d, after)) (hafter : skipBlanks after = ',' :: more)
    (hmore : readItems fuel (skipBlanks more) = .ok (items, rest)) :
    readItems (fuel + 1) text = .ok (d :: items, rest) := by
  rw [readItems.eq_def]
  simp only [hread, hafter, hmore]
  rfl

/-- Items are read back, with any blanks after the commas and before the bracket. -/
lemma readItems_intercalate {write : Document → List Char} {blanks last : List Char}
    {items : List Document} (hblanks : IsBlankText blanks) (hlast : IsBlankText last)
    (hne : items ≠ []) (hitems : ∀ item ∈ items, ReadsAs item (write item))
    (hfuel : 2 * (List.intercalate (',' :: blanks) (items.map write)).length < fuel) :
    readItems fuel
        (List.intercalate (',' :: blanks) (items.map write) ++ (last ++ ']' :: rest)) =
      .ok (items, rest) := by
  induction items generalizing fuel with
  | nil => contradiction
  | cons item more ih =>
      obtain ⟨hitem, hmore⟩ := List.forall_mem_cons.mp hitems
      cases fuel with
      | zero => omega
      | succ fuel =>
          cases more with
          | nil =>
              rw [List.map_cons, List.map_nil, List.intercalate_singleton] at hfuel ⊢
              have hend : EndsNumber (last ++ ']' :: rest) :=
                hlast.endsNumber (endsNumber_cons (by decide))
              exact readItems_last (hitem.readValue _ _ (by omega) hend) (skipBlanks_append hlast)
          | cons next others =>
              have hstart := starts_append (starts_intercalate (List.cons_ne_nil next others)
                (fun item hitem => (hmore item hitem).starts) (',' :: blanks)) (last ++ ']' :: rest)
              have hjoined : (next :: others).map write ≠ [] := List.cons_ne_nil _ _
              rw [List.map_cons, List.intercalate_cons_of_ne_nil hjoined] at hfuel ⊢
              rw [List.length_append, List.length_append, List.length_cons] at hfuel
              have hrest := @ih fuel (List.cons_ne_nil _ _) hmore (by omega)
              rw [List.append_assoc, List.append_assoc, List.cons_append]
              refine readItems_next (hitem.readValue _ _ (by omega) ?_) rfl ?_
              · exact endsNumber_cons (by decide)
              · rw [skipBlanks_append hblanks, skipBlanks_of_starts hstart, hrest]

/-! ### Maps -/

/-- An entry as it is written: its key, a colon, a blank and its value. -/
def entryChars (key : String) (value : List Char) : List Char :=
  (jsonString key).toList ++ ':' :: ' ' :: value

lemma starts_entryChars (key : String) (value : List Char) :
    ∃ c ∈ (entryChars key value).head?, StartsValue c := by
  rw [entryChars, toList_jsonString]
  exact ⟨'"', rfl, by decide⟩

lemma insertEntry_fresh {key : String} {entries : List (String × Document)}
    (h : key ∉ entries.map (·.1)) : Document.insertEntry key d entries = entries ++ [(key, d)] := by
  induction entries with
  | nil => rfl
  | cons entry more ih =>
      rw [List.map_cons, List.mem_cons, not_or] at h
      rw [Document.insertEntry, if_neg (Ne.symm h.1), ih h.2]
      rfl

section

variable {key : String} {entries : List (String × Document)} {after : List Char}

/-- The key and the value of an entry are read. -/
lemma readEntry (hread : ReadsAs d text) (hfuel : 2 * (entryChars key text).length ≤ fuel)
    (hend : EndsNumber after) :
    ∃ tail colon, entryChars key text ++ after = '"' :: tail ∧
      readStringBody fuel tail = .ok (key, ':' :: colon) ∧
      readValue fuel (skipBlanks colon) = .ok (d, after) := by
  rw [entryChars, List.length_append, List.length_cons, List.length_cons, toList_jsonString,
    List.length_cons, List.length_append] at hfuel
  refine ⟨key.toList.flatMap jsonChar ++ '"' :: (':' :: ' ' :: (text ++ after)),
    ' ' :: (text ++ after), ?_, readStringBody_flatMap (by omega), ?_⟩
  · rw [entryChars, toList_jsonString]
    simp only [List.cons_append, List.append_assoc, List.nil_append]
  · have hskip : skipBlanks (' ' :: (text ++ after)) = text ++ after :=
      skipBlanks_of_starts (starts_append hread.starts _)
    rw [hskip]
    exact hread.readValue fuel after (by omega) hend

lemma readEntries_last (hread : ReadsAs d text) (hfuel : 2 * (entryChars key text).length ≤ fuel)
    (hend : EndsNumber after) (hafter : skipBlanks after = '\x7d' :: rest) :
    readEntries (fuel + 1) entries (entryChars key text ++ after) =
      .ok (Document.insertEntry key d entries, rest) := by
  obtain ⟨tail, colon, htext, hkey, hvalue⟩ := readEntry hread hfuel hend
  have hcolon : skipBlanks (':' :: colon) = ':' :: colon := rfl
  rw [htext, readEntries.eq_def]
  simp only [hkey, hcolon, hvalue, hafter]

lemma readEntries_next {more : List Char} (hread : ReadsAs d text)
    (hfuel : 2 * (entryChars key text).length ≤ fuel)
    (hend : EndsNumber after) (hafter : skipBlanks after = ',' :: more) :
    readEntries (fuel + 1) entries (entryChars key text ++ after) =
      readEntries fuel (Document.insertEntry key d entries) (skipBlanks more) := by
  obtain ⟨tail, colon, htext, hkey, hvalue⟩ := readEntry hread hfuel hend
  have hcolon : skipBlanks (':' :: colon) = ':' :: colon := rfl
  rw [htext, readEntries.eq_def]
  simp only [hkey, hcolon, hvalue, hafter]

end

/-- Entries of different keys are read back behind those already read, with any blanks after the
commas and before the brace. -/
lemma readEntries_intercalate {write : Document → List Char} {blanks last : List Char}
    {entries done : List (String × Document)} (hblanks : IsBlankText blanks)
    (hlast : IsBlankText last) (hne : entries ≠ [])
    (hentries : ∀ entry ∈ entries, ReadsAs entry.2 (write entry.2))
    (hkeys : ((done ++ entries).map (·.1)).Nodup)
    (hfuel : 2 * (List.intercalate (',' :: blanks)
      (entries.map fun entry => entryChars entry.1 (write entry.2))).length < fuel) :
    readEntries fuel done
        (List.intercalate (',' :: blanks)
          (entries.map fun entry => entryChars entry.1 (write entry.2)) ++ (last ++ '\x7d' :: rest)) =
      .ok (done ++ entries, rest) := by
  induction entries generalizing fuel done with
  | nil => contradiction
  | cons entry more ih =>
      obtain ⟨hentry, hmore⟩ := List.forall_mem_cons.mp hentries
      have hfresh : entry.1 ∉ done.map (·.1) := by
        rw [List.map_append, List.map_cons, List.nodup_append] at hkeys
        exact fun hmem => hkeys.2.2 _ hmem _ List.mem_cons_self rfl
      rw [List.append_cons done entry more] at hkeys ⊢
      cases fuel with
      | zero => omega
      | succ fuel =>
          cases more with
          | nil =>
              rw [List.map_cons, List.map_nil, List.intercalate_singleton] at hfuel ⊢
              have hend : EndsNumber (last ++ '\x7d' :: rest) :=
                hlast.endsNumber (endsNumber_cons (by decide))
              rw [readEntries_last hentry (by omega) hend (skipBlanks_append hlast),
                insertEntry_fresh hfresh, List.append_nil]
          | cons next others =>
              have hstart := starts_append (starts_intercalate (List.cons_ne_nil next others)
                (fun entry _ => starts_entryChars entry.1 (write entry.2)) (',' :: blanks))
                (last ++ '\x7d' :: rest)
              have hjoined : (next :: others).map
                  (fun entry => entryChars entry.1 (write entry.2)) ≠ [] := List.cons_ne_nil _ _
              rw [List.map_cons, List.intercalate_cons_of_ne_nil hjoined] at hfuel ⊢
              rw [List.length_append, List.length_append, List.length_cons] at hfuel
              have hrest := @ih fuel _ (List.cons_ne_nil _ _) hmore hkeys (by omega)
              rw [List.append_assoc, List.append_assoc, List.cons_append,
                readEntries_next hentry (by omega) (endsNumber_cons (by decide)) rfl,
                skipBlanks_append hblanks, skipBlanks_of_starts hstart, insertEntry_fresh hfresh,
                hrest]

/-! ### Brackets -/

section

variable {first : List Char} {after : List Char}

lemma readValue_list {items : List Document} (hfirst : IsBlankText first)
    (hstart : ∃ c ∈ text.head?, StartsValue c) (h : readItems fuel text = .ok (items, after)) :
    readValue (fuel + 1) ('[' :: (first ++ text)) = .ok (.list items, after) := by
  have hskip : skipBlanks (first ++ text) = text := by
    rw [skipBlanks_append hfirst, skipBlanks_of_starts hstart]
  obtain ⟨c, hc, -, -, hbracket, -⟩ := hstart
  obtain ⟨more, rfl⟩ := List.head?_eq_some_iff.mp hc
  rw [readValue.eq_def]
  simp only [hskip]
  split
  · rename_i heq
    exact absurd (List.cons.inj heq).1 hbracket
  · rw [h]
    rfl

lemma readValue_map {entries : List (String × Document)} (hfirst : IsBlankText first)
    (hstart : ∃ c ∈ text.head?, StartsValue c)
    (h : readEntries fuel [] text = .ok (entries, after)) :
    readValue (fuel + 1) ('\x7b' :: (first ++ text)) = .ok (.map entries, after) := by
  have hskip : skipBlanks (first ++ text) = text := by
    rw [skipBlanks_append hfirst, skipBlanks_of_starts hstart]
  obtain ⟨c, hc, -, -, -, hbrace⟩ := hstart
  obtain ⟨more, rfl⟩ := List.head?_eq_some_iff.mp hc
  rw [readValue.eq_def]
  simp only [hskip]
  split
  · rename_i heq
    exact absurd (List.cons.inj heq).1 hbrace
  · rw [h]
    rfl

end

section

variable (write : Document → List Char) {first blanks last : List Char}

/-- Items between brackets are read as the list of them. -/
lemma readsAs_items {items : List Document} (hfirst : IsBlankText first)
    (hblanks : IsBlankText blanks) (hlast : IsBlankText last) (hne : items ≠ [])
    (hitems : ∀ item ∈ items, ReadsAs item (write item)) :
    ReadsAs (.list items)
      ('[' :: (first ++
        (List.intercalate (',' :: blanks) (items.map write) ++ (last ++ [']'])))) := by
  refine ⟨⟨'[', rfl, by decide⟩, fun fuel rest hfuel _ => ?_⟩
  simp only [List.length_cons, List.length_append] at hfuel
  simp only [List.cons_append, List.append_assoc, List.nil_append]
  cases fuel with
  | zero => omega
  | succ fuel =>
      have hstart := starts_intercalate hne (fun item hitem => (hitems item hitem).starts)
        (',' :: blanks)
      exact readValue_list hfirst (starts_append hstart _)
        (readItems_intercalate hblanks hlast hne hitems (by omega))

/-- Entries of different keys between braces are read as the map of them. -/
lemma readsAs_entries {entries : List (String × Document)} (hfirst : IsBlankText first)
    (hblanks : IsBlankText blanks) (hlast : IsBlankText last) (hne : entries ≠ [])
    (hkeys : (entries.map (·.1)).Nodup)
    (hentries : ∀ entry ∈ entries, ReadsAs entry.2 (write entry.2)) :
    ReadsAs (.map entries)
      ('\x7b' :: (first ++ (List.intercalate (',' :: blanks)
        (entries.map fun entry => entryChars entry.1 (write entry.2)) ++ (last ++ ['\x7d'])))) := by
  refine ⟨⟨'\x7b', rfl, by decide⟩, fun fuel rest hfuel _ => ?_⟩
  simp only [List.length_cons, List.length_append] at hfuel
  simp only [List.cons_append, List.append_assoc, List.nil_append]
  cases fuel with
  | zero => omega
  | succ fuel =>
      have hstart := starts_intercalate hne
        (fun entry _ => starts_entryChars entry.1 (write entry.2)) (',' :: blanks)
      exact readValue_map hfirst (starts_append hstart _)
        (readEntries_intercalate hblanks hlast hne hentries hkeys (by omega))

end

lemma toList_enclose_nil (layout : JsonLayout) (depth : Nat) (opening closing : String) :
    (layout.enclose depth opening closing []).toList = opening.toList ++ closing.toList := by
  rw [JsonLayout.enclose, List.isEmpty_nil, if_pos rfl, String.toList_append]

lemma toList_enclose (layout : JsonLayout) (depth : Nat) (opening closing : String)
    {entries : List String} (hne : entries ≠ []) :
    ∃ first blanks last, IsBlankText first ∧ IsBlankText blanks ∧ IsBlankText last ∧
      (layout.enclose depth opening closing entries).toList = opening.toList ++ (first ++
        (List.intercalate (',' :: blanks) (entries.map String.toList) ++
          (last ++ closing.toList))) := by
  obtain ⟨blanks, hseparator, hblanks⟩ := toList_separator layout (depth + 1)
  refine ⟨_, blanks, _, isBlankText_lineBreak layout (depth + 1), hblanks,
    isBlankText_lineBreak layout depth, ?_⟩
  rw [JsonLayout.enclose, if_neg (by rwa [List.isEmpty_iff])]
  simp only [String.toList_append, String.toList_intercalate, hseparator, List.append_assoc]

end

/-! ## Documents -/

namespace Document

/-- The document has a JSON form that is read back: it holds no timestamp, no map with two entries
of one key and no whole number with too many digits. -/
inductive IsPlain : Document → Prop
  | null : IsPlain .null
  | bool (b : Bool) : IsPlain (.bool b)
  | whole {n : Int} (h : decimalLength n.natAbs ≤ digitLimit) : IsPlain (.whole n)
  | real (x : Double) : IsPlain (.real x)
  | text (s : String) : IsPlain (.text s)
  | list {items : List Document} (h : ∀ item ∈ items, IsPlain item) : IsPlain (.list items)
  | map {entries : List (String × Document)} (hkeys : (entries.map (·.1)).Nodup)
      (h : ∀ entry ∈ entries, IsPlain entry.2) : IsPlain (.map entries)

variable {layout : JsonLayout}

lemma jsonItems_eq_map (depth : Nat) (items : List Document) :
    jsonItems layout depth items = items.map (·.jsonAt layout depth) := by
  induction items with
  | nil => rfl
  | cons item more ih => rw [jsonItems, ih, List.map_cons]

lemma jsonEntries_eq_map (depth : Nat) (entries : List (String × Document)) :
    jsonEntries layout depth entries =
      entries.map fun entry => jsonString entry.1 ++ ": " ++ entry.2.jsonAt layout depth := by
  induction entries with
  | nil => rfl
  | cons entry more ih => rw [jsonEntries, ih, List.map_cons]

lemma readsAs_list {items : List Document}
    (h : ∀ item ∈ items, ∀ depth, ReadsAs item (item.jsonAt layout depth).toList) (depth : Nat) :
    ReadsAs (.list items) ((list items).jsonAt layout depth).toList := by
  rw [jsonAt, jsonItems_eq_map]
  by_cases hne : items = []
  · subst hne
    rw [List.map_nil, toList_enclose_nil]
    refine ⟨⟨'[', rfl, by decide⟩, fun fuel rest hfuel _ => ?_⟩
    cases fuel with
    | zero => cases hfuel
    | succ fuel => rfl
  have htexts : items.map (·.jsonAt layout (depth + 1)) ≠ [] := by
    rwa [ne_eq, List.map_eq_nil_iff]
  obtain ⟨first, blanks, last, hfirst, hblanks, hlast, htext⟩ :=
    toList_enclose layout depth "[" "]" htexts
  rw [htext, List.map_map]
  exact readsAs_items (fun d => (d.jsonAt layout (depth + 1)).toList) hfirst hblanks hlast hne
    fun item hitem => h item hitem (depth + 1)

lemma readsAs_map {entries : List (String × Document)} (hkeys : (entries.map (·.1)).Nodup)
    (h : ∀ entry ∈ entries, ∀ depth, ReadsAs entry.2 (entry.2.jsonAt layout depth).toList)
    (depth : Nat) : ReadsAs (.map entries) ((map entries).jsonAt layout depth).toList := by
  rw [jsonAt, jsonEntries_eq_map]
  by_cases hne : entries = []
  · subst hne
    rw [List.map_nil, toList_enclose_nil]
    refine ⟨⟨'\x7b', rfl, by decide⟩, fun fuel rest hfuel _ => ?_⟩
    cases fuel with
    | zero => cases hfuel
    | succ fuel => rfl
  have htexts : entries.map (fun entry => jsonString entry.1 ++ ": " ++
      entry.2.jsonAt layout (depth + 1)) ≠ [] := by
    rwa [ne_eq, List.map_eq_nil_iff]
  obtain ⟨first, blanks, last, hfirst, hblanks, hlast, htext⟩ :=
    toList_enclose layout depth "\x7b" "\x7d" htexts
  have hentry : (String.toList ∘ fun entry : String × Document => jsonString entry.1 ++ ": " ++
      entry.2.jsonAt layout (depth + 1)) =
      fun entry => entryChars entry.1 (entry.2.jsonAt layout (depth + 1)).toList := by
    funext entry
    rw [Function.comp_apply, String.toList_append, String.toList_append, List.append_assoc]
    rfl
  rw [htext, List.map_map, hentry]
  exact readsAs_entries (fun d => (d.jsonAt layout (depth + 1)).toList) hfirst hblanks hlast hne
    hkeys fun entry hentry => h entry hentry (depth + 1)

/-- A plain document is read from its text, at any depth. -/
lemma IsPlain.readsAs {d : Document} (h : d.IsPlain) (depth : Nat) :
    ReadsAs d (d.jsonAt layout depth).toList := by
  induction h generalizing depth with
  | null => exact readsAs_null
  | bool b => exact readsAs_bool b
  | whole hn => exact readsAs_whole hn
  | real x => exact readsAs_real x
  | text s => exact readsAs_text s
  | list _ ih => exact readsAs_list ih depth
  | map hkeys _ ih => exact readsAs_map hkeys ih depth

/-- **A plain document is read back from its JSON text.** -/
theorem ofJson_jsonText {d : Document} (h : d.IsPlain) (layout : JsonLayout) :
    ofJson (d.jsonText layout) = .ok d := by
  have hread : ReadsAs d (d.jsonAt layout 0).toList := h.readsAs 0
  have hend : EndsNumber [] := fun c hc => by cases hc
  unfold ofJson jsonText
  generalize (d.jsonAt layout 0).toList = text at hread ⊢
  have hvalue := hread.readValue (2 * text.length + 2) [] (Nat.le_add_right _ _) hend
  have hskip := skipBlanks_of_starts hread.starts
  obtain ⟨c, hc, -, hascii, -⟩ := hread.starts
  have hmark : text.head? ≠ some (Char.ofNat 0xFEFF) := by
    rw [hc]
    intro h
    obtain rfl := Option.some.inj h
    exact absurd hascii (by decide)
  rw [List.append_nil] at hvalue
  rw [readText, if_neg hmark, hskip]
  simp only [hvalue]
  rfl

end Document

end MusicMacro
