import Mathlib.Data.List.TakeWhile
import ModelKeeper.Proofs.Time.Calendar
import ModelKeeper.Time.Instant

/-!
# Timestamps tell the moment

A moment at a whole second, leap seconds included, in a year from 0 to 9999 is read from its
timestamp (`Instant.ofTimestamp?_timestamp`).

Each part of a timestamp is a number that is filled up with zeros to a fixed width, and the number
is read from as many digits (`takeNumber?_padded`).  No part begins with a blank, so dropping blanks
before it does nothing.
-/

namespace ModelKeeper.Instant

/-! ### Numbers -/

theorem toList_padded (width n : Nat) : (padded width n).toList =
    List.replicate (width - (Nat.toDigits 10 n).length) '0' ++ Nat.toDigits 10 n := by
  have hdigits : toString n = String.ofList (Nat.toDigits 10 n) := Nat.toString_eq_ofList_toDigits
  simp [padded, hdigits]

variable {width n : Nat}

theorem length_padded (hwidth : 0 < width) (h : n < 10 ^ width) :
    (padded width n).toList.length = width := by
  have hlength := (Nat.length_toDigits_le_iff (b := 10) (by decide) hwidth).mpr h
  rw [toList_padded, List.length_append, List.length_replicate]
  omega

theorem isDigit_of_mem_padded {c : Char} (h : c ∈ (padded width n).toList) : c.isDigit := by
  rw [toList_padded, List.mem_append] at h
  rcases h with h | h
  · rw [List.eq_of_mem_replicate h]
    rfl
  · exact Nat.isDigit_of_mem_toDigits (by decide) (by decide) h

theorem digitsValue_eq (cs : List Char) : digitsValue cs = Nat.ofDigitChars 10 cs 0 := by
  simp only [digitsValue, Nat.ofDigitChars_eq_foldl, Nat.mul_comm]

theorem digitsValue_padded (width n : Nat) : digitsValue (padded width n).toList = n := by
  rw [digitsValue_eq, toList_padded, Nat.ofDigitChars_append, Nat.ofDigitChars_replicate_zero,
    Nat.mul_zero, Nat.ofDigitChars_ten_toDigits]

/-- **A number is read from its digits**, whatever follows them. -/
theorem takeNumber?_padded (hwidth : 0 < width) (h : n < 10 ^ width) (rest : List Char) :
    takeNumber? width ((padded width n).toList ++ rest) = some (n, rest) := by
  have hlength := length_padded hwidth h
  have hdigits : (((padded width n).toList ++ rest).take width).takeWhile Char.isDigit =
      (padded width n).toList := by
    rw [List.take_left' hlength, List.takeWhile_eq_self_iff]
    exact fun c hc => isDigit_of_mem_padded hc
  have hne : (padded width n).toList ≠ [] := List.ne_nil_of_length_pos (hlength.symm ▸ hwidth)
  simp only [takeNumber?, hdigits, List.isEmpty_iff, if_neg hne, digitsValue_padded,
    List.drop_left]

/-! ### Blanks -/

theorem dropBlanks_cons {c : Char} (h : isBlank c = false) (cs : List Char) :
    dropBlanks (c :: cs) = c :: cs :=
  List.dropWhile_cons_of_neg (by simp [h])

theorem takeMark?_cons {mark : Char} (h : isBlank mark = false) (cs : List Char) :
    takeMark? mark (mark :: cs) = some cs := by
  simp only [takeMark?, dropBlanks_cons h, if_true]

theorem isBlank_of_isDigit {c : Char} (h : c.isDigit) : isBlank c = false := by
  obtain ⟨hlow, hhigh⟩ : '0'.toNat ≤ c.toNat ∧ c.toNat ≤ '9'.toNat := by
    simpa [Char.isDigit_iff_toNat] using h
  change 48 ≤ c.toNat at hlow
  change c.toNat ≤ 57 at hhigh
  -- the space lies before the digits, and the next character that separates behind them
  have hcontrols : ¬ c.toNat < 14 := by omega
  have hspace : ¬ c.toNat < 33 := by omega
  have hnext : c.toNat < 134 := by omega
  simp only [isBlank, separatorBounds, CodePoint.holds, if_neg hcontrols, if_neg hspace,
    if_pos hnext, decide_eq_false_iff_not]
  omega

/-- A number begins with a digit. -/
theorem exists_padded_eq_cons (hwidth : 0 < width) (h : n < 10 ^ width) :
    ∃ c cs, (padded width n).toList = c :: cs ∧ c.isDigit := by
  have hpos : 0 < (padded width n).toList.length := by rwa [length_padded hwidth h]
  obtain ⟨c, cs, hcons⟩ := List.exists_cons_of_length_pos hpos
  exact ⟨c, cs, hcons, isDigit_of_mem_padded (hcons ▸ List.mem_cons_self)⟩

theorem takePair?_padded (h : n < 100) (rest : List Char) :
    takePair? ((padded 2 n).toList ++ rest) = some (n, rest) := by
  have hdrop : dropBlanks ((padded 2 n).toList ++ rest) = (padded 2 n).toList ++ rest := by
    obtain ⟨c, cs, hcons, hc⟩ : ∃ c cs, (padded 2 n).toList = c :: cs ∧ c.isDigit :=
      exists_padded_eq_cons (by decide) h
    rw [hcons]
    exact dropBlanks_cons (isBlank_of_isDigit hc) _
  rw [takePair?, hdrop, takeNumber?_padded (by decide) h]

theorem takeYear?_padded (h : n < 10000) (rest : List Char) :
    takeYear? ((padded 4 n).toList ++ rest) = some ((n : Int), rest) := by
  have hnumber : takeNumber? 4 ((padded 4 n).toList ++ rest) = some (n, rest) :=
    takeNumber?_padded (by decide) h rest
  obtain ⟨c, cs, hcons, hc⟩ : ∃ c cs, (padded 4 n).toList = c :: cs ∧ c.isDigit :=
    exists_padded_eq_cons (by decide) h
  rw [hcons] at hnumber ⊢
  -- a digit is no sign, so there is one way to read the year
  have hminus : c ≠ '-' := by
    rintro rfl
    cases hc
  have hplus : c ≠ '+' := by
    rintro rfl
    cases hc
  simp only [takeYear?, List.cons_append, dropBlanks_cons (isBlank_of_isDigit hc)]
  split
  · next heq => exact absurd (List.cons.inj heq).1 hminus
  · next heq => exact absurd (List.cons.inj heq).1 hplus
  · rw [← List.cons_append, hnumber]
    rfl

/-! ### Dates and times of day -/

theorem takeDate?_dateText {d : Date} (h : d.isValid) (hlow : 0 ≤ d.year) (hhigh : d.year ≤ 9999)
    (rest : List Char) : takeDate? ((dateText d).toList ++ rest) = some (d, rest) := by
  obtain ⟨year, month, day⟩ := d
  obtain ⟨n, rfl⟩ : ∃ n : Nat, year = n := Int.eq_ofNat_of_zero_le hlow
  change (n : Int) ≤ 9999 at hhigh
  obtain ⟨⟨⟨-, hmonth⟩, -⟩, hday⟩ : ((1 ≤ month ∧ month ≤ 12) ∧ 1 ≤ day) ∧
      day ≤ Date.daysInMonth n month := by
    simpa [Date.isValid] using h
  have hdays := Date.daysInMonth_le n month
  -- up to the year 9999 the year has four digits and no sign
  have hyear : yearText n = padded 4 n := if_pos ⟨hlow, hhigh⟩
  have hrange : firstYear ≤ (n : Int) ∧ (n : Int) ≤ lastYear := by
    unfold firstYear lastYear
    omega
  have htext : (dateText ⟨n, month, day⟩).toList ++ rest = (padded 4 n).toList ++ '-' ::
      ((padded 2 month).toList ++ '-' :: ((padded 2 day).toList ++ rest)) := by
    simp [dateText, hyear]
  have hhyphen : isBlank '-' = false := by decide
  rw [htext]
  simp only [takeDate?, takeYear?_padded (n := n) (by omega),
    takePair?_padded (n := month) (by omega), takePair?_padded (n := day) (by omega),
    takeMark?_cons hhyphen, bind, Option.bind, h, hrange, decide_true, Bool.and_true, if_true]

theorem takeTime?_texts {hour minute second : Nat} (hhour : hour ≤ 23) (hminute : minute ≤ 59)
    (hsecond : second ≤ 60) : takeTime? ((padded 2 hour).toList ++ ':' ::
      ((padded 2 minute).toList ++ ':' :: ((padded 2 second).toList ++ ['Z']))) =
        some ((hour, minute, second), ['Z']) := by
  have hcolon : isBlank ':' = false := by decide
  have hfraction : dropFraction? ['Z'] = some ['Z'] := rfl
  simp only [takeTime?, takePair?_padded (n := hour) (by omega),
    takePair?_padded (n := minute) (by omega), takePair?_padded (n := second) (by omega),
    takeMark?_cons hcolon, bind, Option.bind, hfraction, hhour, hminute, hsecond, and_self,
    if_true]

/-! ### Moments -/

/-- Whether a moment lies at a whole second, possibly a leap second, in a year that four digits
tell. -/
structure IsPlain (t : Instant) : Prop where
  whole : t.nanos = 0 ∨ (t.nanos = nanosPerSecond ∧ t.seconds % 60 = 59)
  year_nonneg : 0 ≤ t.date.year
  year_le : t.date.year ≤ 9999

instance (t : Instant) : Decidable t.IsPlain :=
  decidable_of_iff ((t.nanos = 0 ∨ (t.nanos = nanosPerSecond ∧ t.seconds % 60 = 59)) ∧
    0 ≤ t.date.year ∧ t.date.year ≤ 9999)
    ⟨fun ⟨whole, low, high⟩ => ⟨whole, low, high⟩, fun ⟨whole, low, high⟩ => ⟨whole, low, high⟩⟩

theorem isValid_date (t : Instant) : t.date.isValid := Date.isValid_ofDays t.days

theorem toDays_date (t : Instant) : t.date.toDays = t.days := Date.toDays_ofDays t.days

/-- The years that four digits tell are among those that can be written. -/
theorem IsPlain.isValid {t : Instant} (h : t.IsPlain) : t.isValid := by
  obtain ⟨hwhole, hlow, hhigh⟩ := h
  obtain ⟨⟨⟨-, hmonth⟩, -⟩, hday⟩ : ((1 ≤ t.date.month ∧ t.date.month ≤ 12) ∧ 1 ≤ t.date.day) ∧
      t.date.day ≤ Date.daysInMonth t.date.year t.date.month := by
    simpa [Date.isValid] using t.isValid_date
  have hday31 := hday.trans (Date.daysInMonth_le t.date.year t.date.month)
  -- rough bounds will do, since the years that can be written reach much further
  obtain ⟨hafter, hbefore⟩ : -1000000 ≤ t.days ∧ t.days ≤ 4000000 := by
    rw [← toDays_date]
    simp only [Date.toDays, Date.daysPerEra, Date.daysBeforeEpoch]
    split_ifs <;> omega
  have hfirst : Date.toDays ⟨firstYear, 1, 1⟩ ≤ t.days := le_trans (by decide) hafter
  have hlast : t.days ≤ Date.toDays ⟨lastYear, 12, 31⟩ := hbefore.trans (by decide)
  have hnanos : t.nanos < nanosPerSecond ∨ t.nanos < 2 * nanosPerSecond ∧ t.seconds % 60 = 59 := by
    unfold nanosPerSecond at *
    omega
  simp [Instant.isValid, hfirst, hlast, hnanos]

/-- The second of a minute, sixty in a leap second. -/
def secondOfMinute (t : Instant) : Nat :=
  t.secondOfDay % 60 + (if t.nanos < nanosPerSecond then 0 else 1)

theorem toList_timestamp (t : Instant) : t.timestamp.toList = (dateText t.date).toList ++ 'T' ::
    ((padded 2 (t.secondOfDay / 3600)).toList ++ ':' ::
      ((padded 2 (t.secondOfDay / 60 % 60)).toList ++ ':' ::
        ((padded 2 t.secondOfMinute).toList ++ ['Z']))) := by
  simp [timestamp, secondText, secondOfMinute]

theorem secondOfDay_lt (t : Instant) : t.secondOfDay < 86400 := by
  rw [secondOfDay]
  omega

/-- A moment is put together from the date and the time of day. -/
theorem seconds_eq (t : Instant) : t.seconds =
    t.date.toDays * 86400 + (t.secondOfDay / 3600 * 3600 + t.secondOfDay / 60 % 60 * 60 : Nat) +
      (t.secondOfDay % 60 : Nat) := by
  rw [toDays_date, days, secondOfDay]
  omega

theorem IsPlain.secondOfMinute {t : Instant} (h : t.IsPlain) :
    (t.nanos = 0 ∧ t.secondOfMinute = t.secondOfDay % 60) ∨
      (t.nanos = nanosPerSecond ∧ t.secondOfDay % 60 = 59 ∧ t.secondOfMinute = 60) := by
  rcases h.whole with hnanos | ⟨hnanos, hlast⟩
  · left
    simp [hnanos, Instant.secondOfMinute, nanosPerSecond]
  · right
    have hlast' : t.secondOfDay % 60 = 59 := by
      rw [secondOfDay]
      omega
    simp [hnanos, Instant.secondOfMinute, hlast']

/-- **A moment is read from its timestamp.** -/
theorem ofTimestamp?_timestamp {t : Instant} (h : t.IsPlain) :
    ofTimestamp? t.timestamp = some t := by
  have hday := t.secondOfDay_lt
  have hhour : t.secondOfDay / 3600 ≤ 23 := by omega
  have hminute : t.secondOfDay / 60 % 60 ≤ 59 := by omega
  have hsecond : t.secondOfMinute ≤ 60 := by
    rcases h.secondOfMinute with ⟨-, hsecond⟩ | ⟨-, -, hsecond⟩ <;> omega
  have htime := takeTime?_texts hhour hminute hsecond
  have hzone : takeOffset? (dropBlanks ['Z']) = some (0, []) := by decide
  -- where the minute begins
  obtain ⟨clock, hclock⟩ : ∃ clock : Int, t.date.toDays * 86400 +
      (t.secondOfDay / 3600 * 3600 + t.secondOfDay / 60 % 60 * 60 : Nat) = clock := ⟨_, rfl⟩
  have hseconds : t.seconds = clock + (t.secondOfDay % 60 : Nat) := hclock ▸ t.seconds_eq
  have hread : (if t.secondOfMinute = 60 then (⟨clock + 59 - 0, nanosPerSecond⟩ : Instant)
      else ⟨clock + t.secondOfMinute - 0, 0⟩) = t := by
    rcases h.secondOfMinute with ⟨hnanos, hsecond⟩ | ⟨hnanos, hlast, hsecond⟩
    · have hshort : t.secondOfMinute ≠ 60 := by omega
      rw [if_neg hshort, hsecond, Int.sub_zero, ← hseconds, ← hnanos]
    · rw [hlast] at hseconds
      rw [if_pos hsecond, Int.sub_zero, ← hnanos]
      exact congrArg (Instant.mk · t.nanos) hseconds.symm
  rw [ofTimestamp?, toList_timestamp, takeDate?_dateText t.isValid_date h.year_nonneg h.year_le]
  simp only [Option.bind_eq_bind, Option.bind_some, htime, hzone, hclock, hread, h.isValid]
  rfl

end ModelKeeper.Instant
