import MusicMacro.Document.JsonReader
import MusicMacro.Proofs.Number.Decimal
import MusicMacro.Proofs.Text.Digits

/-!
# Numbers read from their text

A whole number of at most `digitLimit` digits and a finite double are read back from the text they
are written as, wherever a character follows that cannot continue a number
(`readNumber?_whole`, `readNumber?_text`).  A double is written in one of three layouts of its
shortest decimal; each of them is read as the digits of the decimal, with some zeros behind them and
the place moved by as many (`readNumber?_layOutDecimal`).
-/

namespace MusicMacro

open JsonReader

/-- The text does not continue a number. -/
def EndsNumber (rest : List Char) : Prop :=
  ∀ c ∈ rest.head?, c.isDigit = false ∧ c ≠ '.' ∧ c ≠ 'e' ∧ c ≠ 'E'

/-- The sign of a number as it is written. -/
def signChars (negative : Bool) : List Char := if negative then ['-'] else []

/-! ## Numerals -/

lemma ne_of_isDigit {b c : Char} (hb : b.isDigit = false) (hc : c.isDigit = true) : b ≠ c := by
  rintro rfl
  rw [hc] at hb
  cases hb

lemma length_toDigits (n : Nat) : (Nat.toDigits 10 n).length = decimalLength n := by
  induction n using Nat.strongRecOn with
  | ind n ih =>
      rw [Nat.toDigits_eq_if (by decide), decimalLength]
      split
      · rfl
      · rw [List.length_append, ih (n / 10) (by omega)]
        rfl

lemma toList_toString_int (n : Int) :
    (toString n).toList = signChars (decide (n < 0)) ++ Nat.toDigits 10 n.natAbs := by
  show n.repr.toList = _
  rw [Int.repr_eq_if]
  split
  · rename_i h
    have habs : n.toNat = n.natAbs := by omega
    rw [Nat.toList_repr, decide_eq_false (Int.not_lt.mpr h), habs]
    rfl
  · rename_i h
    have habs : (-n).toNat = n.natAbs := by omega
    rw [String.toList_append, Nat.toList_repr, decide_eq_true (Int.lt_of_not_ge h), habs]
    rfl

section

variable {digits rest : List Char}

/-- Digits that do not start with a zero are read to their end. -/
lemma readWholeDigits?_append (hne : digits ≠ []) (hdigits : ∀ c ∈ digits, c.isDigit = true)
    (hzero : digits.head? ≠ some '0') (hrest : ∀ c ∈ rest.head?, c.isDigit = false) :
    readWholeDigits? (digits ++ rest) = some (digits, rest) := by
  unfold readWholeDigits?
  split
  · rename_i tail htext
    cases digits with
    | nil => contradiction
    | cons c more =>
        cases htext
        contradiction
  · rw [span_digits hdigits hrest]
    cases digits with
    | nil => contradiction
    | cons c more => rfl

lemma isDigit_of_mem_zero : ∀ c ∈ ['0'], c.isDigit = true := List.forall_mem_singleton.mpr rfl

lemma readWholeDigits?_toDigits (hrest : ∀ c ∈ rest.head?, c.isDigit = false) (n : Nat) :
    readWholeDigits? (Nat.toDigits 10 n ++ rest) = some (Nat.toDigits 10 n, rest) := by
  rcases Nat.eq_zero_or_pos n with rfl | hpos
  · rfl
  · exact readWholeDigits?_append Nat.toDigits_ne_nil isDigit_of_mem_toDigits
      (head?_toDigits_ne hpos) hrest

lemma readFraction_of_ends (h : EndsNumber rest) : readFraction rest = ([], rest) := by
  unfold readFraction
  split
  · exact absurd rfl (h '.' rfl).2.1
  · rfl

lemma readFraction_append (hne : digits ≠ []) (hdigits : ∀ c ∈ digits, c.isDigit = true)
    (hrest : ∀ c ∈ rest.head?, c.isDigit = false) :
    readFraction ('.' :: (digits ++ rest)) = (digits, rest) := by
  rw [readFraction, span_digits hdigits hrest]
  cases digits with
  | nil => contradiction
  | cons c more => rfl

lemma readExponent_of_ends (h : EndsNumber rest) : readExponent rest = (none, rest) := by
  cases rest with
  | nil => rfl
  | cons c more =>
      obtain ⟨-, -, he, hE⟩ := h c rfl
      rw [readExponent, if_neg (by simp [he, hE])]

lemma readExponent_signed (hne : digits ≠ []) (hdigits : ∀ c ∈ digits, c.isDigit = true)
    (hrest : ∀ c ∈ rest.head?, c.isDigit = false) (negative : Bool) :
    readExponent ('e' :: (if negative then '-' else '+') :: (digits ++ rest)) =
      (some (if negative then -(digitsValue digits : Int) else digitsValue digits), rest) := by
  have hempty : digits.isEmpty = false := List.isEmpty_eq_false_iff.mpr hne
  cases negative with
  | false =>
      simp only [Bool.false_eq_true, if_false, readExponent, true_or, if_true, splitSign,
        span_digits hdigits hrest, hempty]
  | true =>
      simp only [Bool.false_eq_true, if_false, readExponent, true_or, if_true, splitSign,
        span_digits hdigits hrest, hempty]

lemma toList_exponentText (exponent : Int) : ∃ k, (exponentText exponent).toList =
    'e' :: (if decide (exponent < 0) then '-' else '+') ::
      (List.replicate k '0' ++ Nat.toDigits 10 exponent.natAbs) := by
  refine ⟨if (toString exponent.natAbs).length < 2 then 1 else 0, ?_⟩
  have hdigits : (toString exponent.natAbs).toList = Nat.toDigits 10 exponent.natAbs :=
    Nat.toList_repr
  unfold exponentText
  dsimp only
  rw [String.toList_append, String.toList_append, String.toList_append, hdigits]
  by_cases hneg : exponent < 0 <;> simp only [hneg, decide_true, decide_false, if_true, if_false] <;>
    split <;> rfl

/-- An exponent is read back, also if it is padded to two digits. -/
lemma readExponent_exponentText (h : EndsNumber rest) (exponent : Int) :
    readExponent ((exponentText exponent).toList ++ rest) = (some exponent, rest) := by
  obtain ⟨k, htext⟩ := toList_exponentText exponent
  have hne : List.replicate k '0' ++ Nat.toDigits 10 exponent.natAbs ≠ [] :=
    List.append_ne_nil_of_right_ne_nil _ Nat.toDigits_ne_nil
  have hdigits : ∀ c ∈ List.replicate k '0' ++ Nat.toDigits 10 exponent.natAbs, c.isDigit = true :=
    List.forall_mem_append.mpr ⟨isDigit_of_mem_replicate, isDigit_of_mem_toDigits⟩
  have hvalue : (if decide (exponent < 0) then -(exponent.natAbs : Int) else exponent.natAbs) =
      exponent := by
    simp only [decide_eq_true_eq]
    omega
  rw [htext]
  refine (readExponent_signed hne hdigits (fun c hc => (h c hc).1) _).trans ?_
  rw [digitsValue_zeros_append k isDigit_of_mem_toDigits, digitsValue_toDigits, hvalue]

end

/-! ## Numbers with a sign -/

section

variable {body digits afterWhole fraction afterFraction rest : List Char} {exponent? : Option Int}

/-- A number is read from its sign, its whole digits, its fraction and its exponent. -/
lemma readNumber?_signed (hbody : body.head? ≠ some '-')
    (hwhole : readWholeDigits? body = some (digits, afterWhole))
    (hfraction : readFraction afterWhole = (fraction, afterFraction))
    (hexponent : readExponent afterFraction = (exponent?, rest)) (s : Bool) :
    readNumber? (signChars s ++ body) =
      if fraction.isEmpty && exponent?.isNone then
        if digitLimit < digits.length then
          some (.error (.number (.tooManyDigits digits.length)))
        else
          some (.ok (.whole (if s then -(digitsValue digits : Int) else digitsValue digits), rest))
      else
        some (.ok (.real (Double.ofDecimal s (digitsValue (digits ++ fraction))
          (exponent?.getD 0 - fraction.length)), rest)) := by
  cases s with
  | false =>
      show readNumber? body = _
      unfold readNumber?
      simp only [hbody, if_false, hwhole, Option.bind_eq_bind, Option.bind_some, hfraction,
        hexponent, decide_false]
      rfl
  | true =>
      show readNumber? ('-' :: body) = _
      unfold readNumber?
      simp only [List.head?_cons, if_true, List.drop_succ_cons, List.drop_zero, hwhole,
        Option.bind_eq_bind, Option.bind_some, hfraction, hexponent, decide_true]

lemma head?_append_ne_minus (hne : digits ≠ []) (hdigits : ∀ c ∈ digits, c.isDigit = true) :
    (digits ++ rest).head? ≠ some '-' := by
  cases digits with
  | nil => contradiction
  | cons c more =>
      intro h
      exact ne_of_isDigit rfl (hdigits c List.mem_cons_self) (Option.some.inj h).symm

/-- A number with a fraction or an exponent is read as the decimal of its digits. -/
lemma readNumber?_decimal (hne : digits ≠ []) (hdigits : ∀ c ∈ digits, c.isDigit = true)
    (hwhole : readWholeDigits? (digits ++ afterWhole) = some (digits, afterWhole))
    (hfraction : readFraction afterWhole = (fraction, afterFraction))
    (hexponent : readExponent afterFraction = (exponent?, rest))
    (hreal : fraction ≠ [] ∨ exponent?.isSome = true) (s : Bool) :
    readNumber? (signChars s ++ (digits ++ afterWhole)) =
      some (.ok (.real (Double.ofDecimal s (digitsValue (digits ++ fraction))
        (exponent?.getD 0 - fraction.length)), rest)) := by
  have hparts : (fraction.isEmpty && exponent?.isNone) = false := by
    rcases hreal with hreal | hreal
    · rw [List.isEmpty_eq_false_iff.mpr hreal, Bool.false_and]
    · rw [← Option.not_isSome, hreal, Bool.not_true, Bool.and_false]
  rw [readNumber?_signed (head?_append_ne_minus hne hdigits) hwhole hfraction hexponent, hparts,
    if_neg Bool.false_ne_true]

/-- Digits with a point between them, where nothing continues the number. -/
lemma readNumber?_pointed (hrest : EndsNumber rest) (hne : digits ≠ [])
    (hdigits : ∀ c ∈ digits, c.isDigit = true) (hzero : digits = ['0'] ∨ digits.head? ≠ some '0')
    (hfraction : fraction ≠ []) (hmore : ∀ c ∈ fraction, c.isDigit = true) (s : Bool) :
    readNumber? (signChars s ++ ((digits ++ '.' :: fraction) ++ rest)) =
      some (.ok (.real (Double.ofDecimal s (digitsValue (digits ++ fraction)) (-fraction.length)),
        rest)) := by
  have hwhole : readWholeDigits? (digits ++ '.' :: (fraction ++ rest)) =
      some (digits, '.' :: (fraction ++ rest)) := by
    rcases hzero with rfl | hzero
    · rfl
    · refine readWholeDigits?_append hne hdigits hzero fun c hc => ?_
      obtain rfl := Option.some.inj hc
      rfl
  rw [List.append_assoc, List.cons_append]
  refine (readNumber?_decimal hne hdigits hwhole
    (readFraction_append hfraction hmore fun c hc => (hrest c hc).1)
    (readExponent_of_ends hrest) (.inl hfraction) s).trans ?_
  rw [Option.getD_none, Int.zero_sub]

end

/-! ## Whole numbers -/

/-- A whole number is read back if it does not have too many digits. -/
theorem readNumber?_whole {n : Int} {rest : List Char} (hn : decimalLength n.natAbs ≤ digitLimit)
    (hrest : EndsNumber rest) :
    readNumber? ((toString n).toList ++ rest) = some (.ok (.whole n, rest)) := by
  have hvalue : (if decide (n < 0) then -(n.natAbs : Int) else n.natAbs) = n := by
    simp only [decide_eq_true_eq]
    omega
  rw [toList_toString_int, List.append_assoc,
    readNumber?_signed (head?_append_ne_minus Nat.toDigits_ne_nil isDigit_of_mem_toDigits)
      (readWholeDigits?_toDigits (fun c hc => (hrest c hc).1) n.natAbs)
      (readFraction_of_ends hrest) (readExponent_of_ends hrest),
    length_toDigits, digitsValue_toDigits, hvalue, List.isEmpty_nil, Option.isNone_none,
    Bool.and_self, if_pos rfl, if_neg (Nat.not_lt.mpr hn)]

/-! ## Layouts -/

section

variable {digits : Nat} {place : Int} {rest : List Char}

lemma toDigits_eq_cons (digits : Nat) : ∃ first others,
    Nat.toDigits 10 digits = first :: others ∧ first.isDigit = true ∧
      ∀ c ∈ others, c.isDigit = true := by
  cases hshown : Nat.toDigits 10 digits with
  | nil => exact absurd hshown Nat.toDigits_ne_nil
  | cons first others =>
      have hall := isDigit_of_mem_toDigits (n := digits)
      rw [hshown] at hall
      exact ⟨first, others, rfl, List.forall_mem_cons.mp hall⟩

/-- A decimal with its first digit before the point and an exponent. -/
lemma readNumber?_scientific (hdigits : 0 < digits) (hrest : EndsNumber rest)
    (hfar : place + (Nat.toDigits 10 digits).length - 1 < -4 ∨
      15 < place + (Nat.toDigits 10 digits).length - 1) (s : Bool) :
    readNumber? (signChars s ++ ((layOutDecimal digits place).toList ++ rest)) =
      some (.ok (.real (Double.ofDecimal s digits place), rest)) := by
  have hvalue := digitsValue_toDigits digits
  have hhead := head?_toDigits_ne hdigits
  have hlist : (toString digits).toList = Nat.toDigits 10 digits := Nat.toList_repr
  obtain ⟨first, others, hshown, hfirst, hothers⟩ := toDigits_eq_cons digits
  rw [hshown] at hvalue hhead hfar hlist
  obtain ⟨mark, hmark⟩ : ∃ mark,
      (exponentText (place + (first :: others).length - 1)).toList = 'e' :: mark :=
    (toList_exponentText _).elim fun _ htext => ⟨_, htext⟩
  have hexponent := readExponent_exponentText hrest (place + (first :: others).length - 1)
  have hplace : (some (place + (first :: others).length - 1)).getD 0 - (others.length : Int) =
      place := by
    simp only [Option.getD_some, List.length_cons]
    omega
  have hdigit : ∀ c ∈ [first], c.isDigit = true := List.forall_mem_singleton.mpr hfirst
  have hwhole (rest : List Char) (hrest : ∀ c ∈ rest.head?, c.isDigit = false) :
      readWholeDigits? ([first] ++ rest) = some ([first], rest) :=
    readWholeDigits?_append (List.cons_ne_nil _ _) hdigit hhead hrest
  have htext : (layOutDecimal digits place).toList = [first] ++
      ((if others.isEmpty then [] else '.' :: others) ++ 'e' :: mark) := by
    unfold layOutDecimal
    simp only [hlist]
    rw [if_pos (by simpa using hfar), String.toList_append, String.toList_ofList, hmark]
    simp only [List.take_succ_cons, List.take_zero, List.drop_succ_cons, List.drop_zero]
    cases others <;> rfl
  rw [hmark, List.cons_append] at hexponent
  rw [htext, List.append_assoc, List.append_assoc, List.cons_append]
  cases others with
  | nil =>
      have hnone : readFraction ('e' :: (mark ++ rest)) = ([], 'e' :: (mark ++ rest)) := rfl
      refine (readNumber?_decimal (List.cons_ne_nil _ _) hdigit
        (hwhole ('e' :: (mark ++ rest)) fun c hc => ?_) hnone hexponent (.inr rfl) s).trans ?_
      · obtain rfl := Option.some.inj hc
        rfl
      · rw [List.append_nil, hvalue, hplace]
  | cons second more =>
      have hfraction : readFraction ('.' :: ((second :: more) ++ 'e' :: (mark ++ rest))) =
          (second :: more, 'e' :: (mark ++ rest)) := by
        refine readFraction_append (List.cons_ne_nil _ _) hothers fun c hc => ?_
        obtain rfl := Option.some.inj hc
        rfl
      refine (readNumber?_decimal (List.cons_ne_nil _ _) hdigit
        (hwhole ('.' :: ((second :: more) ++ 'e' :: (mark ++ rest))) fun c hc => ?_) hfraction
        hexponent (.inr rfl) s).trans ?_
      · obtain rfl := Option.some.inj hc
        rfl
      · rw [List.singleton_append, hvalue, hplace]

/-- A decimal below one, with zeros between the point and its first digit. -/
lemma readNumber?_small (hrest : EndsNumber rest)
    (hlow : -4 ≤ place + (Nat.toDigits 10 digits).length - 1)
    (hhigh : place + (Nat.toDigits 10 digits).length - 1 < 0) (s : Bool) :
    readNumber? (signChars s ++ ((layOutDecimal digits place).toList ++ rest)) =
      some (.ok (.real (Double.ofDecimal s digits place), rest)) := by
  have hlist : (toString digits).toList = Nat.toDigits 10 digits := Nat.toList_repr
  have hvalue := digitsValue_toDigits digits
  have hall := isDigit_of_mem_toDigits (n := digits)
  have hne := Nat.toDigits_ne_nil (b := 10) (n := digits)
  generalize Nat.toDigits 10 digits = shown at *
  obtain ⟨zeros, hzeros⟩ : ∃ zeros : Nat, (zeros : Int) = -place - shown.length :=
    ⟨(-place - shown.length).toNat, by omega⟩
  have htext : (layOutDecimal digits place).toList =
      ['0'] ++ '.' :: (List.replicate zeros '0' ++ shown) := by
    have hcount : (-(place + shown.length - 1) - 1).toNat = zeros := by omega
    unfold layOutDecimal
    simp only [hlist]
    rw [if_neg (by simp; omega), if_pos hhigh, hcount]
    simp only [String.toList_append, String.toList_ofList]
    rfl
  have hdigits : ∀ c ∈ List.replicate zeros '0' ++ shown, c.isDigit = true :=
    List.forall_mem_append.mpr ⟨isDigit_of_mem_replicate, hall⟩
  have hsame : ['0'] ++ (List.replicate zeros '0' ++ shown) =
      List.replicate (zeros + 1) '0' ++ shown := rfl
  have hplace : -((List.replicate zeros '0' ++ shown).length : Int) = place := by
    simp only [List.length_append, List.length_replicate]
    omega
  rw [htext, readNumber?_pointed hrest (List.cons_ne_nil _ _) isDigit_of_mem_zero (.inl rfl)
      (List.append_ne_nil_of_right_ne_nil _ hne) hdigits,
    hplace, hsame, digitsValue_zeros_append _ hall, hvalue]

/-- A decimal with all its digits before the point, and zeros behind them. -/
lemma readNumber?_large (hdigits : 0 < digits) (hrest : EndsNumber rest) (hplace : 0 ≤ place)
    (hhigh : place + (Nat.toDigits 10 digits).length - 1 ≤ 15) (s : Bool) :
    readNumber? (signChars s ++ ((layOutDecimal digits place).toList ++ rest)) =
      some (.ok (.real (Double.ofDecimal s (digits * 10 ^ (place.toNat + 1)) (-1)), rest)) := by
  have hlist : (toString digits).toList = Nat.toDigits 10 digits := Nat.toList_repr
  have hvalue := digitsValue_toDigits digits
  have hall := isDigit_of_mem_toDigits (n := digits)
  have hne := Nat.toDigits_ne_nil (b := 10) (n := digits)
  have hhead := head?_toDigits_ne hdigits
  generalize Nat.toDigits 10 digits = shown at *
  have hlength := List.length_pos_iff.mpr hne
  have htext : (layOutDecimal digits place).toList =
      (shown ++ List.replicate place.toNat '0') ++ ['.', '0'] := by
    have hwidth : (place + shown.length - 1).toNat + 1 = shown.length + place.toNat := by omega
    unfold layOutDecimal
    simp only [hlist]
    rw [if_neg (by simp; omega), if_neg (by omega), hwidth, List.take_of_length_le (by omega),
      List.drop_eq_nil_of_le (by omega), Nat.add_sub_cancel_left]
    simp only [String.toList_append, String.toList_ofList, List.append_assoc]
    rfl
  have hdigits : ∀ c ∈ shown ++ List.replicate place.toNat '0', c.isDigit = true :=
    List.forall_mem_append.mpr ⟨hall, isDigit_of_mem_replicate⟩
  have hzero : (shown ++ List.replicate place.toNat '0').head? ≠ some '0' := by
    rw [List.head?_append, Option.or_of_isSome (by rwa [List.isSome_head?])]
    exact hhead
  have hsame : (shown ++ List.replicate place.toNat '0') ++ ['0'] =
      shown ++ List.replicate (place.toNat + 1) '0' := by
    rw [List.append_assoc, List.replicate_succ']
  rw [htext, readNumber?_pointed hrest (List.append_ne_nil_of_left_ne_nil hne _) hdigits
      (.inr hzero) (List.cons_ne_nil _ _) isDigit_of_mem_zero,
    hsame, digitsValue_append_zeros _ hall, hvalue]
  rfl

/-- A decimal with its point between its digits. -/
lemma readNumber?_mixed (hdigits : 0 < digits) (hrest : EndsNumber rest) (hplace : place < 0)
    (hlow : 0 ≤ place + (Nat.toDigits 10 digits).length - 1)
    (hhigh : place + (Nat.toDigits 10 digits).length - 1 ≤ 15) (s : Bool) :
    readNumber? (signChars s ++ ((layOutDecimal digits place).toList ++ rest)) =
      some (.ok (.real (Double.ofDecimal s digits place), rest)) := by
  have hlist : (toString digits).toList = Nat.toDigits 10 digits := Nat.toList_repr
  have hvalue := digitsValue_toDigits digits
  have hall := isDigit_of_mem_toDigits (n := digits)
  have hhead := head?_toDigits_ne hdigits
  generalize Nat.toDigits 10 digits = shown at *
  obtain ⟨width, hwidth⟩ : ∃ width : Nat, (place + shown.length - 1).toNat + 1 = width := ⟨_, rfl⟩
  have htake : shown.take width ≠ [] := by
    rw [ne_eq, List.take_eq_nil_iff]
    rintro (h | h)
    · omega
    · rw [h, List.length_nil] at hlow
      omega
  have hdrop : shown.drop width ≠ [] := by
    rw [ne_eq, List.drop_eq_nil_iff]
    omega
  have htext : (layOutDecimal digits place).toList =
      shown.take width ++ '.' :: shown.drop width := by
    unfold layOutDecimal
    simp only [hlist, hwidth]
    rw [if_neg (by simp; omega), if_neg (by omega), Nat.sub_eq_zero_of_le (by omega),
      List.replicate_zero, List.append_nil,
      if_neg (by rw [List.isEmpty_iff]; exact hdrop)]
    simp only [String.toList_append, String.toList_ofList, List.append_assoc]
    rfl
  have hzero : (shown.take width).head? ≠ some '0' := by
    rw [List.head?_take, if_neg (by omega)]
    exact hhead
  have hcount : -((shown.drop width).length : Int) = place := by
    rw [List.length_drop]
    omega
  rw [htext, readNumber?_pointed hrest htake (fun c hc => hall c (List.mem_of_mem_take hc))
      (.inr hzero) hdrop (fun c hc => hall c (List.mem_of_mem_drop hc)),
    List.take_append_drop, hvalue, hcount]

/-- In each layout the digits are read, with as many zeros behind them as their place is moved. -/
theorem readNumber?_layOutDecimal (hdigits : 0 < digits) (place : Int) (hrest : EndsNumber rest)
    (s : Bool) :
    ∃ k : Nat, readNumber? (signChars s ++ ((layOutDecimal digits place).toList ++ rest)) =
      some (.ok (.real (Double.ofDecimal s (digits * 10 ^ k) (place - k)), rest)) := by
  have hplain (h : readNumber? (signChars s ++ ((layOutDecimal digits place).toList ++ rest)) =
      some (.ok (.real (Double.ofDecimal s digits place), rest))) :
      ∃ k : Nat, readNumber? (signChars s ++ ((layOutDecimal digits place).toList ++ rest)) =
        some (.ok (.real (Double.ofDecimal s (digits * 10 ^ k) (place - k)), rest)) :=
    ⟨0, by simpa using h⟩
  by_cases hlow : place + (Nat.toDigits 10 digits).length - 1 < -4
  · exact hplain (readNumber?_scientific hdigits hrest (.inl hlow) s)
  by_cases hhigh : 15 < place + (Nat.toDigits 10 digits).length - 1
  · exact hplain (readNumber?_scientific hdigits hrest (.inr hhigh) s)
  by_cases hsmall : place + (Nat.toDigits 10 digits).length - 1 < 0
  · exact hplain (readNumber?_small hrest (by omega) hsmall s)
  by_cases hplace : place < 0
  · exact hplain (readNumber?_mixed hdigits hrest hplace (by omega) (by omega) s)
  · refine ⟨place.toNat + 1, ?_⟩
    rw [readNumber?_large hdigits hrest (by omega) (by omega)]
    have hone : place - ((place.toNat + 1 : Nat) : Int) = -1 := by omega
    rw [hone]

end

/-! ## Doubles -/

/-- **A finite double is read back from its text.** -/
theorem readNumber?_text {s : Bool} {m : Magnitude} {rest : List Char} (hrest : EndsNumber rest) :
    readNumber? ((Double.finite s m).text.toList ++ rest) =
      some (.ok (.real (.finite s m), rest)) := by
  have hsign : (Double.finite s m).text.toList = signChars s ++ m.text.toList := by
    rw [Double.text, String.toList_append]
    cases s <;> rfl
  rw [hsign, List.append_assoc, Magnitude.text]
  by_cases hm : m.units = 0
  · obtain rfl : m = .zero := Magnitude.ext hm
    rw [if_pos hm]
    exact readNumber?_pointed hrest (List.cons_ne_nil '0' []) isDigit_of_mem_zero (.inl rfl)
      (List.cons_ne_nil '0' []) isDigit_of_mem_zero s
  · have hdecimal := Magnitude.isDecimal_shortest hm
    rw [if_neg hm]
    obtain ⟨k, hread⟩ := readNumber?_layOutDecimal (hdecimal.count_pos hm) m.shortest.2 hrest s
    have hzeros : m.IsDecimal (m.shortest.1 * 10 ^ k) (m.shortest.2 - k) := by
      rw [Magnitude.isDecimal_mul_pow, Int.sub_add_cancel]
      exact hdecimal
    rw [hread, hzeros.ofDecimal_eq hm]

end MusicMacro
