import Mathlib.Data.Nat.Digits.Defs
import MusicMacro.Proofs.Text.Digits
import MusicMacro.Timestamp

/-!
# Timestamps read back

A clock gives a day of the calendar and a time of that day, at universal time
(`Timestamp.IsReading`).  The text of such a moment is a date of ten characters, one character
between, the time of day and the offset; each is read back as the numbers that were padded
(`takeDigits?_padded`), so that the text is read as the moment (`read_isoText`).
-/

namespace MusicMacro

/-! ## Padded numbers -/

lemma toList_padded (width n : Nat) : (padded width n).toList =
    List.replicate (width - (Nat.toDigits 10 n).length) '0' ++ Nat.toDigits 10 n := by
  have hdigits : (toString n).toList = Nat.toDigits 10 n := by
    simp
  rw [padded, String.toList_append, String.toList_ofList, hdigits, ← hdigits, String.length_toList]

lemma isDigit_of_mem_padded {width n : Nat} {c : Char} (h : c ∈ (padded width n).toList) :
    c.isDigit = true := by
  rw [toList_padded, List.mem_append] at h
  obtain h | h := h
  · exact isDigit_of_mem_replicate c h
  · exact isDigit_of_mem_toDigits c h

lemma length_padded {width n : Nat} (hwidth : 0 < width) (h : n < 10 ^ width) :
    (padded width n).toList.length = width := by
  rw [toList_padded, List.length_append, List.length_replicate]
  exact Nat.sub_add_cancel (Nat.toDigits_length 10 n width hwidth h)

lemma digitsValue_padded (width n : Nat) : digitsValue (padded width n).toList = n := by
  rw [toList_padded, digitsValue_zeros_append _ isDigit_of_mem_toDigits, digitsValue_toDigits]

namespace Timestamp

lemma takeDigits?_append {digits : List Char} (h : ∀ c ∈ digits, c.isDigit = true) (value : Nat)
    (rest : List Char) : takeDigits? digits.length value (digits ++ rest) =
      some (Nat.ofDigitChars 10 digits value, rest) := by
  induction digits generalizing value with
  | nil => simp [takeDigits?]
  | cons c more ih =>
      obtain ⟨hc, hmore⟩ := List.forall_mem_cons.mp h
      rw [List.length_cons, List.cons_append, takeDigits?, if_pos hc, ih hmore,
        Nat.ofDigitChars_cons, Nat.mul_comm]
      rfl

/-- A padded number is read in the width it was padded to, with nothing taken of what follows. -/
lemma takeDigits?_padded {width n : Nat} (hwidth : 0 < width) (h : n < 10 ^ width)
    (rest : List Char) :
    takeDigits? width 0 ((padded width n).toList ++ rest) = some (n, rest) := by
  have hread : takeDigits? (padded width n).toList.length 0 ((padded width n).toList ++ rest) =
      some (Nat.ofDigitChars 10 (padded width n).toList 0, rest) :=
    takeDigits?_append (fun _ => isDigit_of_mem_padded) 0 rest
  rw [length_padded hwidth h, ← digitsValue_eq_ofDigitChars fun _ => isDigit_of_mem_padded,
    digitsValue_padded] at hread
  exact hread

/-! ## Moments of a clock -/

/-- A moment as a clock at universal time gives it. -/
structure IsReading (t : Timestamp) : Prop where
  year : 1 ≤ t.year ∧ t.year ≤ 9999
  month : 1 ≤ t.month ∧ t.month ≤ 12
  day : 1 ≤ t.day ∧ t.day ≤ daysInMonth t.year t.month
  hour : t.hour ≤ 23
  minute : t.minute ≤ 59
  second : t.second ≤ 59
  microsecond : t.microsecond ≤ 999999
  offset : t.offset = some 0

lemma daysInMonth_le (year month : Nat) : daysInMonth year month ≤ 31 := by
  unfold daysInMonth
  split
  · split <;> decide
  · split <;> decide

/-- Two digits. -/
def two (n : Nat) : List Char := (padded 2 n).toList

/-- The date in the text of a timestamp. -/
def dateText (t : Timestamp) : List Char :=
  (padded 4 t.year).toList ++ '-' :: (two t.month ++ '-' :: two t.day)

/-- The time of day in the text of a timestamp, with what follows it. -/
def clockText (t : Timestamp) (rest : List Char) : List Char :=
  two t.hour ++ ':' :: (two t.minute ++ ':' :: (two t.second ++
    ((fractionText t.microsecond).toList ++ rest)))

/-- Universal time as an offset. -/
def universal : List Char := ['+', '0', '0', ':', '0', '0']

variable {t : Timestamp}

lemma toList_isoText (h : t.IsReading) :
    t.isoText.toList = t.dateText ++ 'T' :: t.clockText universal := by
  have hzone : ((t.offset.map offsetText).getD "").toList = universal := by
    rw [h.offset]
    decide
  simp only [isoText, textWith, String.toList_append, hzone, dateText, clockText, two]
  simp

lemma takeDigits?_two {n : Nat} (h : n < 100) (rest : List Char) :
    takeDigits? 2 0 (two n ++ rest) = some (n, rest) :=
  takeDigits?_padded (by decide) h rest

lemma length_two {n : Nat} (h : n < 100) : (two n).length = 2 := length_padded (by decide) h

/-- What starts with digits starts with none of the marks. -/
lemma next_ne {n : Nat} (h : n < 100) (rest : List Char) {mark : Char}
    (hmark : mark.isDigit = false) : next (two n ++ rest) ≠ mark := by
  have hlength := length_two h
  cases hdigits : two n with
  | nil =>
      rw [hdigits] at hlength
      cases hlength
  | cons c more =>
      have hmem : c ∈ two n := by
        rw [hdigits]
        exact List.mem_cons_self
      have hc : c.isDigit = true := isDigit_of_mem_padded hmem
      rintro rfl
      rw [show next (c :: more ++ rest) = c from rfl, hc] at hmark
      cases hmark

/-! ## The date -/

lemma length_dateText (h : t.IsReading) : t.dateText.length = 10 := by
  have hyear : (padded 4 t.year).toList.length = 4 :=
    length_padded (by decide) (Nat.lt_of_le_of_lt h.year.2 (by decide))
  have hday := h.day.2.trans (daysInMonth_le t.year t.month)
  simp only [dateText, List.length_append, List.length_cons, hyear,
    length_two (Nat.lt_of_le_of_lt h.month.2 (by decide)),
    length_two (Nat.lt_of_le_of_lt hday (by decide))]

lemma dateLength?_of_hyphen {text : List Char} (hlength : text.length ≠ 7)
    (hhyphen : text[4]? = some '-') (hweek : text[5]? ≠ some 'W') : dateLength? text = some 10 := by
  simp [dateLength?, hlength, hhyphen, hweek]

lemma getElem?_zero_eq_next {text : List Char} (h : text ≠ []) : text[0]? = some (next text) := by
  cases text with
  | nil => contradiction
  | cons c rest => rfl

lemma dateLength?_dateText (h : t.IsReading) (rest : List Char) :
    dateLength? (t.dateText ++ rest) = some 10 := by
  have hyear : (padded 4 t.year).toList.length = 4 :=
    length_padded (by decide) (Nat.lt_of_le_of_lt h.year.2 (by decide))
  have hmonth : t.month < 100 := Nat.lt_of_le_of_lt h.month.2 (by decide)
  have hlength := length_dateText h
  apply dateLength?_of_hyphen
  · rw [List.length_append]
    omega
  · rw [dateText, List.append_assoc, List.getElem?_append_right (by rw [hyear]), hyear]
    rfl
  · rw [dateText, List.append_assoc, List.getElem?_append_right (by omega), hyear,
      List.cons_append, List.append_assoc, List.getElem?_cons_succ, getElem?_zero_eq_next]
    · exact fun hw => next_ne hmonth _ (by decide) (Option.some.inj hw)
    · have := length_two hmonth
      simp [← List.length_eq_zero_iff, this]

lemma readDate?_dateText (h : t.IsReading) :
    readDate? t.dateText = some (t.year, t.month, t.day) := by
  have hyear : t.year < 10 ^ 4 := Nat.lt_of_le_of_lt h.year.2 (by decide)
  have hmonth : t.month < 100 := Nat.lt_of_le_of_lt h.month.2 (by decide)
  have hday : t.day < 100 :=
    Nat.lt_of_le_of_lt (h.day.2.trans (daysInMonth_le t.year t.month)) (by decide)
  have hdayText : takeDigits? 2 0 (two t.day) = some (t.day, []) := by
    simpa using takeDigits?_two hday []
  have hnext : next ('-' :: two t.day) = '-' := rfl
  have hweek : next (two t.month ++ '-' :: two t.day) ≠ 'W' := next_ne hmonth _ (by decide)
  simp only [readDate?, dateText, takeDigits?_padded (by decide) hyear, Option.bind_eq_bind,
    Option.bind_some]
  rw [show next ('-' :: (two t.month ++ '-' :: two t.day)) = '-' from rfl]
  simp only [decide_true, if_true, List.drop_succ_cons, List.drop_zero, if_neg hweek,
    takeDigits?_two hmonth, Option.bind_some, hnext, hdayText]
  simp

/-! ## The time of day -/

lemma readClock?_zero : readClock? universal.tail universal.tail.length =
    some ⟨0, 0, 0, 0, false⟩ := by
  rfl

/-- With a colon after hour and minute, the seconds come next. -/
lemma readClock?_of_colons {text afterHour afterMinute : List Char} {length hour minute : Nat}
    (hhour : takeDigits? 2 0 text = some (hour, ':' :: afterHour))
    (hminute : takeDigits? 2 0 afterHour = some (minute, ':' :: afterMinute))
    (hlength : 6 < length) :
    readClock? text length = readClock?.readSeconds? length afterMinute 6 hour minute true := by
  have hcolon : ∀ rest, next (':' :: rest) = ':' := fun _ => rfl
  have hpastHour : ¬ length ≤ 3 := by omega
  have hpastMinute : ¬ length ≤ 6 := by omega
  simp [readClock?, hhour, hminute, hcolon, hpastHour, hpastMinute]

/-- A fraction is read as the number it was padded from, and what follows it is noticed. -/
lemma readFraction?_padded {microsecond : Nat} (h : microsecond < 10 ^ 6) (rest : List Char)
    (hnext : (next rest).isDigit = false) (hfollowed : next rest ≠ '\x00')
    (hour minute second : Nat) :
    readFraction? ((padded 6 microsecond).toList ++ rest) 6 hour minute second =
      some ⟨hour, minute, second, microsecond, true⟩ := by
  have hrest : rest.dropWhile Char.isDigit = rest := by
    cases rest with
    | nil => rfl
    | cons c more => exact List.dropWhile_cons_of_neg (Bool.eq_false_iff.mp hnext)
  simp [readFraction?, takeDigits?_padded (by decide) h, hrest, hfollowed]

lemma readSeconds?_fractionText {second microsecond : Nat} (hsecond : second < 100)
    (hmicrosecond : microsecond < 10 ^ 6) (hour minute : Nat) :
    readClock?.readSeconds? (8 + (fractionText microsecond).toList.length)
      (two second ++ ((fractionText microsecond).toList ++ universal)) 6 hour minute true =
        some ⟨hour, minute, second, microsecond, true⟩ := by
  simp only [readClock?.readSeconds?, takeDigits?_two hsecond, Option.bind_eq_bind,
    Option.bind_some]
  by_cases hzero : microsecond = 0
  · rw [hzero]
    rfl
  · have htext : (fractionText microsecond).toList = '.' :: (padded 6 microsecond).toList := by
      rw [fractionText, if_neg hzero, String.toList_append]
      rfl
    rw [htext, List.length_cons, length_padded (by decide) hmicrosecond]
    exact readFraction?_padded hmicrosecond universal rfl (by decide) hour minute second

lemma readClock?_clockText (h : t.IsReading) :
    readClock? (t.clockText universal) (t.clockText []).length =
      some ⟨t.hour, t.minute, t.second, t.microsecond, true⟩ := by
  have hhour : t.hour < 100 := Nat.lt_of_le_of_lt h.hour (by decide)
  have hminute : t.minute < 100 := Nat.lt_of_le_of_lt h.minute (by decide)
  have hsecond : t.second < 100 := Nat.lt_of_le_of_lt h.second (by decide)
  have hlength : (t.clockText []).length = 8 + (fractionText t.microsecond).toList.length := by
    simp only [clockText, List.length_append, List.length_cons, length_two hhour,
      length_two hminute, length_two hsecond, List.length_nil]
    omega
  rw [hlength, clockText, readClock?_of_colons (takeDigits?_two hhour _)
    (takeDigits?_two hminute _) (by omega)]
  exact readSeconds?_fractionText hsecond (Nat.lt_of_le_of_lt h.microsecond (by decide)) _ _

lemma clockText_append (t : Timestamp) (rest : List Char) :
    t.clockText rest = t.clockText [] ++ rest := by
  simp [clockText]

/-- No character of the time of day starts an offset. -/
lemma no_sign_of_mem_clockText {c : Char} (h : c ∈ t.clockText []) :
    c ≠ '+' ∧ c ≠ '-' ∧ c ≠ 'Z' := by
  have hmark : c.isDigit = true ∨ c = ':' ∨ c = '.' := by
    have hfraction : c ∈ (fractionText t.microsecond).toList → c.isDigit = true ∨ c = '.' := by
      unfold fractionText
      split
      · simp
      · intro hc
        obtain hc | hc := List.mem_append.mp (String.toList_append ▸ hc)
        · exact .inr (List.mem_singleton.mp hc)
        · exact .inl (isDigit_of_mem_padded hc)
    have htwo : ∀ n, c ∈ two n → c.isDigit = true := fun n => isDigit_of_mem_padded
    simp only [clockText, List.mem_append, List.mem_cons, List.append_nil] at h
    grind
  refine ⟨?_, ?_, ?_⟩ <;>
  · rintro rfl
    revert hmark
    decide

lemma takeWhile_clockText (t : Timestamp) :
    (t.clockText universal).takeWhile (fun c => c ≠ '+' ∧ c ≠ '-' ∧ c ≠ 'Z') = t.clockText [] := by
  rw [clockText_append, List.takeWhile_append_of_pos]
  · rw [show universal.takeWhile _ = [] from rfl, List.append_nil]
  · exact fun c hc => decide_eq_true (no_sign_of_mem_clockText hc)

lemma readTime?_clockText (h : t.IsReading) : readTime? (t.clockText universal) =
    some (⟨t.hour, t.minute, t.second, t.microsecond, true⟩, some 0) := by
  have hdrop : (t.clockText universal).drop (t.clockText []).length =
      '+' :: universal.tail := by
    rw [clockText_append t universal, List.drop_left]
    rfl
  simp only [readTime?, takeWhile_clockText, readClock?_clockText h, Option.bind_eq_bind,
    Option.bind_some, hdrop]
  change (readClock? universal.tail universal.tail.length).bind _ = _
  rw [readClock?_zero, Option.bind_some]
  rfl

/-! ## The whole text -/

lemma ofFields_eq_ok (h : t.IsReading) :
    ofFields t.year t.month t.day t.hour t.minute t.second t.microsecond (some 0) = .ok t := by
  have hyear := h.year
  have hmonth := h.month
  have hday := h.day
  rw [ofFields, if_neg (by decide), if_neg (by omega), if_neg (by omega), if_neg (by omega),
    if_neg (Nat.not_lt.mpr h.hour), if_neg (Nat.not_lt.mpr h.minute),
    if_neg (Nat.not_lt.mpr h.second), ← h.offset]

/-- A reading of the clock is read back from its text. -/
theorem read_isoText (h : t.IsReading) : Timestamp.read t.isoText = .ok t := by
  have hlength := length_dateText h
  have hlong : ¬ (t.dateText ++ 'T' :: t.clockText universal).length < 7 := by
    rw [List.length_append]
    omega
  have hbeyond : ¬ (t.dateText ++ 'T' :: t.clockText universal).length ≤ 10 := by
    rw [List.length_append, List.length_cons]
    omega
  have htake : (t.dateText ++ 'T' :: t.clockText universal).take 10 = t.dateText :=
    List.take_left' hlength
  have hdrop : (t.dateText ++ 'T' :: t.clockText universal).drop (10 + 1) =
      t.clockText universal := by
    rw [← List.drop_drop, List.drop_left' hlength]
    rfl
  simp only [read, toList_isoText h, if_neg hlong, dateLength?_dateText h, htake,
    readDate?_dateText h, if_neg hbeyond, hdrop, readTime?_clockText h, Option.bind_eq_bind,
    Option.bind_some, ofFields_eq_ok h]

end Timestamp

end MusicMacro
