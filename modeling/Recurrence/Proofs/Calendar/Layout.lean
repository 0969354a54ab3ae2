import Recurrence.Calendar.Layout
import Recurrence.Calendar.Written
import Recurrence.Proofs.Calendar.Stretch
import Recurrence.Proofs.Pattern.Move
import Recurrence.Proofs.Text.Digits

/-!
# Instants in each of their layouts

The fields of an instant can be written in many ways: with a `T` or blanks in the middle, with or
without a fraction of the second, without seconds if they are zero, and as a bare date at midnight.
**Each of these texts is read as the instant whose fields it has**, so that all layouts agree.

An instant in a leap second that does not end a minute shares its fields with one of the following
second, and the text is read as that one.  `Instant.shown` is what is read.

Reading takes the items of a layout from the front of the text, one after the other.  A number ends
where its digits do, which is why each statement about an item asks that no digit begins the rest.
That the layouts are tried in turn does no harm: **a text of one layout does not fit those before
it**, since these ask for another character in the middle or for seconds that are not there.

## Main Definitions

* `WritesYear`, `WritesFraction`: a year and a fraction of the second as they are written
* `Date.WrittenAs`, `TimeOfDay.WrittenAs`, `Instant.WrittenAs`: the texts that have the fields of a
  date, of a time of day, of an instant
* `Date.parts`, `Instant.parts`: the fields of a date and of an instant, as they are written
* `TimeOfDay.shown`, `Instant.shown`: what a text shows, the instant itself if it is regular

## Main Statements

* `readItems_date`, `readItems_clock`, `readItems_seconds`: what is read off the front of a text
* `Instant.instant?_parts`: the fields of an instant make up what is shown of it
* `Instant.ofText_of_writtenAs`: a text with the fields of an instant is read as what it shows
-/

namespace Recurrence

open Text (WritesNatural EndsInDigit)

variable {n low high limit : Nat} {s digits rest : List Char}

/-! ## Numbers -/

/-- No digit begins the text. -/
def BeginsNoDigit (s : List Char) : Prop := ∀ c, s.head? = some c → c.isDigit = false

theorem beginsNoDigit_nil : BeginsNoDigit [] := by
  intro c hc
  cases hc

theorem beginsNoDigit_cons {c : Char} (h : c.isDigit = false) : BeginsNoDigit (c :: s) := by
  intro d hd
  cases hd
  exact h

/-- The digits at the front are taken, if there are not too many of them. -/
theorem takeDigits_append (hdigits : ∀ c ∈ digits, c.isDigit = true) (hlimit : digits.length ≤ limit)
    (hrest : BeginsNoDigit rest) : takeDigits limit (digits ++ rest) = (digits, rest) := by
  induction digits generalizing limit with
  | nil =>
      cases limit with
      | zero => rfl
      | succ limit =>
          cases rest with
          | nil => rfl
          | cons c rest =>
              have hc : Text.isDigit c = false := by rw [Text.isDigit_eq, hrest c rfl]
              simp [takeDigits, hc]
  | cons c digits ih =>
      obtain ⟨hc, hdigits⟩ := List.forall_mem_cons.1 hdigits
      obtain ⟨limit, rfl⟩ : ∃ l, limit = l + 1 := Nat.exists_eq_succ_of_ne_zero (by
        rintro rfl
        cases hlimit)
      have hc : Text.isDigit c = true := by rw [Text.isDigit_eq, hc]
      have htaken := ih hdigits (Nat.le_of_succ_le_succ hlimit)
      simp [takeDigits, hc, htaken]

theorem readNumber_append (h : WritesNatural n digits) (hlimit : digits.length ≤ limit)
    (hrest : BeginsNoDigit rest) : readNumber limit (digits ++ rest) = .ok (digits, n, rest) := by
  rw [readNumber, takeDigits_append (List.all_eq_true.1 h.2.1) hlimit hrest]
  simp only [Text.natural?_of_writes h]

/-- The number in one digit or two. -/
def WritesShort (n : Nat) (s : List Char) : Prop := WritesNatural n s ∧ s.length ≤ 2

theorem readBounded_append (h : WritesShort n s) (hlow : low ≤ n) (hhigh : n ≤ high)
    (hrest : BeginsNoDigit rest) : readBounded low high (s ++ rest) = .ok (n, rest) := by
  rw [readBounded, h.1.trimLeft_append, readNumber_append h.1 h.2 hrest]
  show (if low ≤ n ∧ n ≤ high then _ else _) = _
  rw [if_pos ⟨hlow, hhigh⟩]

/-! ### Years -/

/-- The year in up to four digits, or in any number of digits after a sign. -/
inductive WritesYear : Int → List Char → Prop where
  | digits {n : Nat} {s : List Char} (h : WritesNatural n s) (hlength : s.length ≤ 4) : WritesYear n s
  | plus {n : Nat} {s : List Char} (h : WritesNatural n s) : WritesYear n ('+' :: s)
  | minus {n : Nat} {s : List Char} (h : WritesNatural n s) : WritesYear (-n) ('-' :: s)

theorem readYear_append {year : Int} (h : WritesYear year s) (hyear : InValueRange year)
    (hrest : BeginsNoDigit rest) : readYear (s ++ rest) = .ok (year, rest) := by
  -- after a sign every digit is taken
  have hsigned {n : Nat} {digits : List Char} (h : WritesNatural n digits) :
      readNumber (digits ++ rest).length (digits ++ rest) = .ok (digits, n, rest) :=
    readNumber_append h (List.length_append ▸ Nat.le_add_right _ _) hrest
  cases h with
  | @digits n s h hlength =>
      obtain ⟨c, digits, rfl, hc⟩ := h.exists_cons
      have hplus : c ≠ '+' := by
        rintro rfl
        cases hc
      have hminus : c ≠ '-' := by
        rintro rfl
        cases hc
      have hread := readNumber_append h hlength hrest
      rw [readYear, h.trimLeft_append]
      rw [List.cons_append] at hread ⊢
      simp [hplus, hminus, hread, Except.map, bind, Except.bind, hyear]
  | @plus n digits h =>
      have htrim : Text.trimLeft ('+' :: (digits ++ rest)) = '+' :: (digits ++ rest) :=
        Text.trimLeft_eq_self (by rintro c ⟨⟩; rfl)
      rw [readYear, List.cons_append, htrim]
      simp only [hsigned h]
      simp [Except.map, bind, Except.bind, hyear]
  | @minus n digits h =>
      have htrim : Text.trimLeft ('-' :: (digits ++ rest)) = '-' :: (digits ++ rest) :=
        Text.trimLeft_eq_self (by rintro c ⟨⟩; rfl)
      rw [readYear, List.cons_append, htrim]
      simp only [hsigned h]
      simp [Except.map, bind, Except.bind, hyear]

/-! ### Fractions of a second -/

/-- The nanoseconds as a point and up to nine digits, or as nothing if there are none. -/
inductive WritesFraction : Nat → List Char → Prop where
  | none : WritesFraction 0 []
  | digits {n : Nat} {s : List Char} (h : WritesNatural n s) (hlength : s.length ≤ 9) :
      WritesFraction (n * 10 ^ (9 - s.length)) ('.' :: s)

theorem Text.withZeros_eq (n zeros : Nat) : Text.withZeros n zeros = n * 10 ^ zeros := by
  induction zeros with
  | zero => rw [Text.withZeros, Nat.pow_zero, Nat.mul_one]
  | succ zeros ih => rw [Text.withZeros, ih, Nat.pow_succ, Nat.mul_left_comm, Nat.mul_comm 10]

theorem readFraction_of_writes {nano : Nat} (h : WritesFraction nano s) :
    readFraction s = .ok (nano, []) := by
  cases h with
  | none => rfl
  | @digits n digits h hlength =>
      have hread := readNumber_append h hlength beginsNoDigit_nil
      rw [List.append_nil] at hread
      rw [readFraction, hread]
      show Except.ok (Text.withZeros n (9 - digits.length), _) = _
      rw [Text.withZeros_eq]
      rfl

theorem WritesFraction.beginsNoDigit {nano : Nat} (h : WritesFraction nano s) : BeginsNoDigit s := by
  cases h with
  | none => exact beginsNoDigit_nil
  | digits => exact beginsNoDigit_cons rfl

/-! ## The fields of an instant -/

/-- The text has the year, the month and the day of the date, with dashes between them. -/
def Date.WrittenAs (d : Date) (s : List Char) : Prop :=
  ∃ year month day, WritesYear d.year year ∧ WritesShort (d.month + 1) month ∧
    WritesShort d.dayOfMonth.toNat day ∧ s = year ++ '-' :: (month ++ '-' :: day)

/-- The fields of a date, as they are written. -/
def Date.parts (d : Date) : InstantParts :=
  { year := d.year, month := d.month + 1, day := d.dayOfMonth.toNat }

namespace TimeOfDay

/-- The text has the hour and the minute. -/
def ClockWrittenAs (t : TimeOfDay) (s : List Char) : Prop :=
  ∃ hour minute, WritesShort t.hour hour ∧ WritesShort t.minute minute ∧ s = hour ++ ':' :: minute

/-- The text has the hour, the minute and the second with its fraction; the last two may be left out
if they are zero. -/
inductive WrittenAs (t : TimeOfDay) : List Char → Prop where
  | seconds {clock second fraction : List Char} (hclock : t.ClockWrittenAs clock)
      (hsecond : WritesShort t.writtenSecond second)
      (hfraction : WritesFraction t.writtenNano fraction) :
      WrittenAs t (clock ++ ':' :: (second ++ fraction))
  | minutes {clock : List Char} (hclock : t.ClockWrittenAs clock) (hsecond : t.writtenSecond = 0)
      (hnano : t.writtenNano = 0) : WrittenAs t clock

end TimeOfDay

namespace Instant

/-- The text has the date and the time of day, with a `T` or blanks between them.  The time may be left
out at midnight. -/
inductive WrittenAs (t : Instant) : List Char → Prop where
  | joined {date time : List Char} (hdate : t.date.WrittenAs date) (htime : t.time.WrittenAs time) :
      WrittenAs t (date ++ 'T' :: time)
  | spaced {date time : List Char} {blank : Char} {blanks : List Char}
      (hdate : t.date.WrittenAs date) (htime : t.time.WrittenAs time)
      (hblanks : Text.AllBlank (blank :: blanks)) : WrittenAs t (date ++ (blank :: blanks ++ time))
  | date {date : List Char} (hdate : t.date.WrittenAs date) (htime : t.time = .midnight) :
      WrittenAs t date

/-- The fields of an instant, as they are written. -/
def parts (t : Instant) : InstantParts :=
  ⟨t.date.year, t.date.month + 1, t.date.dayOfMonth.toNat, t.time.hour, t.time.minute,
    t.time.writtenSecond, t.time.writtenNano⟩

end Instant

/-- The year, the month and the day of the month make up the date. -/
theorem Date.ofCivil?_self (d : Date) : ofCivil? d.year d.month d.dayOfMonth = some d := by
  have hday := d.dayOfMonth_bounds
  rw [d.daysInMonth_eq] at hday
  rw [ofCivil?_eq, ofMonthIndex?_eq, if_pos hday, d.dayOfMonth_eq, ofNumber?_eq_some]
  omega

/-! ### What a text shows -/

namespace TimeOfDay

variable {t : TimeOfDay}

/-- After an irregular leap second the minute goes on. -/
theorem secondOfDay_succ_lt (h : ¬ t.IsRegular) : t.secondOfDay + 1 < secondsPerDay := by
  obtain ⟨-, hsecond⟩ := Classical.not_imp.1 h
  have hs := t.secondOfDay_lt
  unfold second at hsecond
  unfold secondsPerDay at *
  omega

/-- The time of day that the text of one shows.  A leap second has a second 60 of its own at the end of a
minute; elsewhere it is shown as the second that follows. -/
def shown (t : TimeOfDay) : TimeOfDay :=
  if h : t.IsRegular then t
  else ⟨t.secondOfDay + 1, t.nano - nanosPerSecond, secondOfDay_succ_lt h,
    Nat.lt_of_le_of_lt (Nat.sub_le _ _) t.nano_lt⟩

theorem shown_of_isRegular (h : t.IsRegular) : t.shown = t := dif_pos h

theorem shown_of_not_isRegular (h : ¬ t.IsRegular) :
    t.shown.secondOfDay = t.secondOfDay + 1 ∧ t.shown.nano = t.nano - nanosPerSecond := by
  rw [shown, dif_neg h]
  exact ⟨rfl, rfl⟩

/-- What is shown in place of an irregular leap second is ordinary. -/
theorem not_isLeap_shown (h : ¬ t.IsRegular) : ¬ t.shown.IsLeap := by
  have hn := t.nano_lt
  unfold IsLeap
  rw [(shown_of_not_isRegular h).2]
  omega

theorem isRegular_shown (t : TimeOfDay) : t.shown.IsRegular := by
  by_cases h : t.IsRegular
  · rwa [shown_of_isRegular h]
  · exact fun hleap => absurd hleap (not_isLeap_shown h)

/-- What is shown has the fields of the time itself. -/
theorem fields_shown (t : TimeOfDay) :
    t.shown.hour = t.hour ∧ t.shown.minute = t.minute ∧
      t.shown.writtenSecond = t.writtenSecond ∧ t.shown.writtenNano = t.writtenNano := by
  by_cases h : t.IsRegular
  · rw [shown_of_isRegular h]
    exact ⟨rfl, rfl, rfl, rfl⟩
  · obtain ⟨hleap, hsecond⟩ := Classical.not_imp.1 h
    obtain ⟨hseconds, hnanos⟩ := shown_of_not_isRegular h
    have hn := t.nano_lt
    have hle : nanosPerSecond ≤ t.nano := hleap
    rw [writtenSecond, writtenSecond, if_neg (not_isLeap_shown h), if_pos hleap]
    unfold hour minute second writtenNano
    unfold second at hsecond
    unfold nanosPerSecond at *
    rw [hseconds, hnanos]
    omega

/-- The hour, the minute, the second and the nanoseconds make up the time of day.  A second 60 stands
for the leap second within second 59. -/
theorem ofParts?_written_of_isRegular (ht : t.IsRegular) :
    (if t.writtenSecond = 60 then ofParts? t.hour t.minute 59 (nanosPerSecond + t.writtenNano)
      else ofParts? t.hour t.minute t.writtenSecond t.writtenNano) = some t := by
  by_cases h : t.IsLeap
  · have hlast : t.second = 59 := ht h
    have hnano : nanosPerSecond + t.writtenNano = t.nano := by
      have hle : nanosPerSecond ≤ t.nano := h
      have hlt := t.nano_lt
      rw [writtenNano, Nat.mod_eq_sub_mod hle, Nat.mod_eq_of_lt (by omega), Nat.add_sub_cancel' hle]
    rw [writtenSecond, if_pos h, hlast, if_pos rfl, hnano, ← hlast]
    exact t.ofParts?_self ht
  · have hnano : t.writtenNano = t.nano := Nat.mod_eq_of_lt (Nat.lt_of_not_le h)
    rw [writtenSecond, if_neg h, if_neg (Nat.ne_of_lt t.second_lt), hnano]
    exact t.ofParts?_self ht

/-- The fields of a time of day make up what is shown of it. -/
theorem ofParts?_written (t : TimeOfDay) :
    (if t.writtenSecond = 60 then ofParts? t.hour t.minute 59 (nanosPerSecond + t.writtenNano)
      else ofParts? t.hour t.minute t.writtenSecond t.writtenNano) = some t.shown := by
  obtain ⟨hhour, hminute, hsecond, hnano⟩ := t.fields_shown
  rw [← hhour, ← hminute, ← hsecond, ← hnano]
  exact ofParts?_written_of_isRegular t.isRegular_shown

end TimeOfDay

namespace Instant

/-- The instant that the text of one shows. -/
def shown (t : Instant) : Instant := ⟨t.date, t.time.shown⟩

@[simp] theorem shown_date (t : Instant) : t.shown.date = t.date := by
  rw [shown]

@[simp] theorem shown_time (t : Instant) : t.shown.time = t.time.shown := by
  rw [shown]

theorem shown_of_isRegular {t : Instant} (h : t.IsRegular) : t.shown = t :=
  ext t.shown_date (t.shown_time.trans (TimeOfDay.shown_of_isRegular h))

/-- **The fields of an instant make up what is shown of it.** -/
theorem instant?_parts (t : Instant) : t.parts.instant? = some t.shown := by
  have hday := t.date.dayOfMonth_bounds.1
  have hmonth : t.date.month + 1 - 1 = t.date.month := Nat.add_sub_cancel _ _
  have hcast : (t.date.dayOfMonth.toNat : Int) = t.date.dayOfMonth := by omega
  have htime := t.time.ofParts?_written
  unfold InstantParts.instant? parts
  simp only [hmonth, hcast, t.date.ofCivil?_self]
  by_cases hleap : t.time.writtenSecond = 60
  · rw [if_pos hleap] at htime
    simp [hleap, htime, shown]
  · rw [if_neg hleap] at htime
    simp [hleap, htime, shown]

end Instant

/-! ## Reading item by item -/

variable {d : Date} {t : Instant} {parts parts' : InstantParts} {items : List LayoutItem} {c : Char}

theorem readItems_cons {item : LayoutItem} (h : item.read parts s = .ok (parts', rest)) :
    readItems (item :: items) parts s = readItems items parts' rest := by
  rw [readItems]
  simp only [h]

theorem readItems_literal (c : Char) (items : List LayoutItem) (parts : InstantParts)
    (rest : List Char) :
    readItems (.literal c :: items) parts (c :: rest) = readItems items parts rest := by
  apply readItems_cons
  simp [LayoutItem.read]

/-- A text that does not begin with the character in question does not fit. -/
theorem exists_readItems_literal_error (h : s.head? ≠ some c) :
    ∃ e, readItems (.literal c :: items) parts s = .error e := by
  cases s with
  | nil => exact ⟨_, rfl⟩
  | cons b rest =>
      have hb : b ≠ c := by
        rintro rfl
        exact h rfl
      refine ⟨.invalid, ?_⟩
      simp [readItems, LayoutItem.read, hb]

/-- A text that begins with neither a digit nor a blank does not go on with an hour. -/
theorem exists_readItems_hour_error (hblank : Text.isBlank c = false) (hdigit : c.isDigit = false) :
    ∃ e, readItems (.hour :: items) parts (c :: rest) = .error e := by
  have htrim : Text.trimLeft (c :: rest) = c :: rest :=
    Text.trimLeft_eq_self (by rintro b ⟨⟩; exact hblank)
  have htaken : takeDigits 2 (c :: rest) = ([], c :: rest) :=
    @takeDigits_append 2 [] (c :: rest) nofun (Nat.zero_le 2) (beginsNoDigit_cons hdigit)
  refine ⟨.invalid, ?_⟩
  simp [readItems, LayoutItem.read, readBounded, htrim, readNumber, htaken, Text.natural?, bind,
    Except.bind, Except.map]

/-- **A date is read off the front of a text.** -/
theorem readItems_date (h : d.WrittenAs s) (hrest : BeginsNoDigit rest) (items : List LayoutItem) :
    readItems (dateLayout ++ items) {} (s ++ rest) =
      readItems items d.parts rest := by
  obtain ⟨year, month, day, hyear, hmonth, hday, rfl⟩ := h
  have hmonthlt := d.month_lt
  have hdaybounds := d.dayOfMonth_bounds
  have hdaymax := (daysInMonth_bounds d.year d.month).2
  have hrange : InValueRange d.year := by
    have := d.year_range
    unfold InValueRange minValue maxValue
    omega
  have hyearread (rest : List Char) (parts : InstantParts) (hrest : BeginsNoDigit rest) :
      LayoutItem.year.read parts (year ++ rest) = .ok ({ parts with year := d.year }, rest) := by
    rw [LayoutItem.read, readYear_append hyear hrange hrest]
    rfl
  have hmonthread (rest : List Char) (parts : InstantParts) (hrest : BeginsNoDigit rest) :
      LayoutItem.month.read parts (month ++ rest) =
        .ok ({ parts with month := d.month + 1 }, rest) := by
    rw [LayoutItem.read, readBounded_append hmonth (by omega) (by omega) hrest]
    rfl
  have hdayread (parts : InstantParts) :
      LayoutItem.day.read parts (day ++ rest) =
        .ok ({ parts with day := d.dayOfMonth.toNat }, rest) := by
    rw [LayoutItem.read, readBounded_append hday (by omega) (by omega) hrest]
    rfl
  show readItems (.year :: .literal '-' :: .month :: .literal '-' :: .day :: items) {} _ = _
  rw [List.append_assoc, List.cons_append, List.append_assoc, List.cons_append,
    readItems_cons (hyearread _ _ (beginsNoDigit_cons rfl)), readItems_literal,
    readItems_cons (hmonthread _ _ (beginsNoDigit_cons rfl)), readItems_literal,
    readItems_cons (hdayread _), Date.parts]

/-- **The hour and the minute are read off the front of a text.** -/
theorem readItems_clock {time : TimeOfDay} (h : time.ClockWrittenAs s) (hrest : BeginsNoDigit rest)
    (parts : InstantParts) (items : List LayoutItem) :
    readItems (.hour :: .literal ':' :: .minute :: items) parts (s ++ rest) =
      readItems items { parts with hour := time.hour, minute := time.minute } rest := by
  obtain ⟨hour, minute, hhour, hminute, rfl⟩ := h
  have hhourread (rest : List Char) (hrest : BeginsNoDigit rest) :
      LayoutItem.hour.read parts (hour ++ rest) = .ok ({ parts with hour := time.hour }, rest) := by
    rw [LayoutItem.read, readBounded_append hhour (Nat.zero_le _)
      (Nat.le_of_lt_succ time.hour_lt) hrest]
    rfl
  have hminuteread (parts : InstantParts) :
      LayoutItem.minute.read parts (minute ++ rest) =
        .ok ({ parts with minute := time.minute }, rest) := by
    rw [LayoutItem.read, readBounded_append hminute (Nat.zero_le _)
      (Nat.le_of_lt_succ time.minute_lt) hrest]
    rfl
  rw [List.append_assoc, List.cons_append, readItems_cons (hhourread _ (beginsNoDigit_cons rfl)),
    readItems_literal, readItems_cons (hminuteread _)]

/-- **The second and its fraction are read as all of a text.** -/
theorem readItems_seconds {time : TimeOfDay} {fraction : List Char}
    (hsecond : WritesShort time.writtenSecond s) (hfraction : WritesFraction time.writtenNano fraction)
    (parts : InstantParts) :
    readItems [.literal ':', .second, .fraction] parts (':' :: (s ++ fraction)) =
      .ok ({ parts with second := time.writtenSecond, nano := time.writtenNano }, []) := by
  have hmax : time.writtenSecond ≤ 60 := by
    unfold TimeOfDay.writtenSecond TimeOfDay.second
    split <;> omega
  have hsecondread :
      LayoutItem.second.read parts (s ++ fraction) =
        .ok ({ parts with second := time.writtenSecond }, fraction) := by
    rw [LayoutItem.read, readBounded_append hsecond (Nat.zero_le _) hmax hfraction.beginsNoDigit]
    rfl
  have hfractionread (parts : InstantParts) :
      LayoutItem.fraction.read parts fraction =
        .ok ({ parts with nano := time.writtenNano }, []) := by
    rw [LayoutItem.read, readFraction_of_writes hfraction]
    rfl
  rw [readItems_literal, readItems_cons hsecondread, readItems_cons (hfractionread _), readItems]

/-! ### The time of day -/

/-- The time of day is read as all of a text, with the seconds or, where they are left out, without. -/
theorem readItems_time (h : t.time.WrittenAs s) :
    readItems [.hour, .literal ':', .minute, .literal ':', .second, .fraction] t.date.parts s =
        .ok (t.parts, []) ∨
      (∃ e, readItems [.hour, .literal ':', .minute, .literal ':', .second, .fraction] t.date.parts s =
        .error e) ∧ readItems [.hour, .literal ':', .minute] t.date.parts s = .ok (t.parts, []) := by
  cases h with
  | seconds hclock hsecond hfraction =>
      left
      rw [readItems_clock hclock (beginsNoDigit_cons rfl), readItems_seconds hsecond hfraction]
      rfl
  | minutes hclock hsecond hnano =>
      have hread := readItems_clock hclock beginsNoDigit_nil t.date.parts
      rw [List.append_nil] at hread
      refine .inr ⟨?_, ?_⟩
      · rw [hread]
        exact exists_readItems_literal_error nofun
      · rw [hread, readItems, Instant.parts, hsecond, hnano]
        rfl

/-- A written time of day begins with a digit. -/
theorem TimeOfDay.WrittenAs.trimLeft_eq {time : TimeOfDay} (h : time.WrittenAs s) :
    Text.trimLeft s = s := by
  have hclock {clock : List Char} (h : time.ClockWrittenAs clock) (rest : List Char) :
      Text.trimLeft (clock ++ rest) = clock ++ rest := by
    obtain ⟨hour, minute, hhour, -, rfl⟩ := h
    rw [List.append_assoc]
    exact hhour.1.trimLeft_append _
  cases h with
  | seconds h => exact hclock h _
  | minutes h =>
      have htrim := hclock h []
      rwa [List.append_nil] at htrim

theorem readItems_gap (items : List LayoutItem) (parts : InstantParts) (s : List Char) :
    readItems (.gap :: items) parts s = readItems items parts (Text.trimLeft s) := rfl

/-! ## Reading layout by layout -/

theorem Date.WrittenAs.endsInDigit (h : d.WrittenAs s) : EndsInDigit s := by
  obtain ⟨year, month, day, -, -, hday, rfl⟩ := h
  exact (hday.1.endsInDigit.append_cons month '-').append_cons year '-'

theorem WritesFraction.eq_nil_or_endsInDigit {nano : Nat} (h : WritesFraction nano s) :
    s = [] ∨ ∃ digits, s = '.' :: digits ∧ EndsInDigit digits := by
  cases h with
  | none => exact .inl rfl
  | digits hdigits => exact .inr ⟨_, rfl, hdigits.endsInDigit⟩

theorem TimeOfDay.WrittenAs.endsInDigit {time : TimeOfDay} (h : time.WrittenAs s) :
    EndsInDigit s := by
  cases h with
  | @seconds clock second fraction _ hsecond hfraction =>
      apply EndsInDigit.append_cons
      rcases hfraction.eq_nil_or_endsInDigit with rfl | ⟨digits, rfl, hdigits⟩
      · rw [List.append_nil]
        exact hsecond.1.endsInDigit
      · exact hdigits.append_cons second '.'
  | minutes hclock =>
      obtain ⟨hour, minute, -, hminute, rfl⟩ := hclock
      exact hminute.1.endsInDigit.append_cons hour ':'

/-- A written year begins with a digit or a sign. -/
theorem WritesYear.exists_cons {year : Int} (h : WritesYear year s) :
    ∃ c rest, s = c :: rest ∧ Text.isBlank c = false := by
  cases h with
  | digits h =>
      obtain ⟨c, digits, rfl, hc⟩ := h.exists_cons
      exact ⟨c, digits, rfl, Text.isBlank_of_isDigit hc⟩
  | plus => exact ⟨'+', _, rfl, rfl⟩
  | minus => exact ⟨'-', _, rfl, rfl⟩

/-- A text that writes an instant has no blanks around it. -/
theorem Instant.WrittenAs.isTrimmed (h : t.WrittenAs s) : Text.IsTrimmed s := by
  have hends : EndsInDigit s := by
    cases h with
    | joined _ htime => exact htime.endsInDigit.append_cons _ _
    | spaced _ htime => exact (htime.endsInDigit.append _).append _
    | date hdate => exact hdate.endsInDigit
  obtain ⟨date, rest, hdate, rfl⟩ : ∃ date rest, t.date.WrittenAs date ∧ s = date ++ rest := by
    cases h with
    | joined hdate => exact ⟨_, _, hdate, rfl⟩
    | spaced hdate => exact ⟨_, _, hdate, rfl⟩
    | date hdate => exact ⟨_, [], hdate, (List.append_nil _).symm⟩
  refine ⟨fun c hc => ?_, fun c hc => ?_⟩
  · obtain ⟨year, month, day, hyear, -, -, rfl⟩ := hdate
    obtain ⟨b, front, rfl, hb⟩ := hyear.exists_cons
    cases hc
    exact hb
  · obtain ⟨b, hb, hdigit⟩ := hends
    rw [hb] at hc
    cases hc
    exact Text.isBlank_of_isDigit hdigit

theorem readLayout_eq_ok {layout : List LayoutItem} (h : readItems layout {} s = .ok (t.parts, [])) :
    readLayout layout s = .ok t.shown := by
  rw [readLayout, h]
  simp only [ne_eq, not_true_eq_false, if_false, t.instant?_parts]

theorem readLayout_eq_error {layout : List LayoutItem} (h : ∃ e, readItems layout {} s = .error e) :
    (readLayout layout s).toOption = none := by
  obtain ⟨e, he⟩ := h
  rw [readLayout, he]
  rfl

/-- The first layout that a text fits says which instant it is. -/
theorem Instant.ofText_of_layouts {text : String} {layout : List LayoutItem}
    {after : List (List LayoutItem)} (before : List (List LayoutItem)) (htrim : Text.trim text.toList = s)
    (hlayouts : timeLayouts = before ++ layout :: after)
    (hbefore : ∀ l ∈ before, ∃ e, readItems l {} s = .error e)
    (h : readItems layout {} s = .ok (t.parts, [])) : Instant.ofText text = .ok t.shown := by
  have hnone : before.findSome? (fun l => (readLayout l s).toOption) = none :=
    List.findSome?_eq_none_iff.2 fun l hl => readLayout_eq_error (hbefore l hl)
  have hfound : timeLayouts.findSome? (fun l => (readLayout l s).toOption) = some t.shown := by
    rw [hlayouts, List.findSome?_append, hnone, Option.none_or, List.findSome?_cons,
      readLayout_eq_ok h]
    rfl
  unfold Instant.ofText
  simp only [htrim, hfound]

/-- A text that fits none of them has to be a date. -/
theorem Instant.ofText_of_date {text : String} (htrim : Text.trim text.toList = s)
    (hlayouts : ∀ l ∈ timeLayouts, ∃ e, readItems l {} s = .error e)
    (h : readItems dateLayout {} s = .ok (t.parts, [])) : Instant.ofText text = .ok t.shown := by
  have hnone : timeLayouts.findSome? (fun l => (readLayout l s).toOption) = none :=
    List.findSome?_eq_none_iff.2 fun l hl => readLayout_eq_error (hlayouts l hl)
  unfold Instant.ofText
  simp only [htrim, hnone]
  exact readLayout_eq_ok h

section Texts

variable {text : String} {date time : List Char}

/-- A date and a time joined by a letter are read, with or without seconds. -/
theorem Instant.ofText_of_joined (hdate : t.date.WrittenAs date) (htime : t.time.WrittenAs time)
    (htrim : Text.trim text.toList = date ++ 'T' :: time) : Instant.ofText text = .ok t.shown := by
  have hread := readItems_date hdate (beginsNoDigit_cons (s := time) (c := 'T') rfl)
  have hgap (items : List LayoutItem) :
      ∃ e, readItems (dateLayout ++ .gap :: .hour :: items) {} (date ++ 'T' :: time) = .error e := by
    rw [hread, readItems_gap, Text.trimLeft_eq_self (by rintro c ⟨⟩; rfl)]
    exact exists_readItems_hour_error rfl rfl
  rcases readItems_time htime with hseconds | ⟨hseconds, hminutes⟩
  · refine ofText_of_layouts [] htrim rfl nofun ?_
    rw [hread, readItems_literal]
    exact hseconds
  · refine ofText_of_layouts (timeLayouts.take 2) htrim rfl ?_ ?_
    · refine List.forall_mem_cons.2 ⟨?_, List.forall_mem_singleton.2 (hgap _)⟩
      rw [hread, readItems_literal]
      exact hseconds
    · rw [hread, readItems_literal]
      exact hminutes

/-- A date and a time with blanks between them are read, with or without seconds. -/
theorem Instant.ofText_of_spaced {blank : Char} {blanks : List Char} (hdate : t.date.WrittenAs date)
    (htime : t.time.WrittenAs time) (hblanks : Text.AllBlank (blank :: blanks))
    (htrim : Text.trim text.toList = date ++ (blank :: blanks ++ time)) :
    Instant.ofText text = .ok t.shown := by
  have hblank := hblanks blank List.mem_cons_self
  have hdigit : blank.isDigit = false := by
    by_contra hdigit
    rw [Text.isBlank_of_isDigit (Bool.eq_true_of_not_eq_false hdigit)] at hblank
    cases hblank
  have hread := readItems_date hdate (beginsNoDigit_cons (s := blanks ++ time) (c := blank) hdigit)
  have hliteral (items : List LayoutItem) :
      ∃ e, readItems (dateLayout ++ .literal 'T' :: items) {}
        (date ++ (blank :: blanks ++ time)) = .error e := by
    rw [List.cons_append, hread]
    refine exists_readItems_literal_error ?_
    rintro ⟨⟩
    cases hblank
  have hgap (items : List LayoutItem) (parts : InstantParts) :
      readItems (.gap :: items) parts (blank :: blanks ++ time) = readItems items parts time := by
    rw [readItems_gap, Text.trimLeft_append hblanks, htime.trimLeft_eq]
  rcases readItems_time htime with hseconds | ⟨hseconds, hminutes⟩
  · refine ofText_of_layouts (timeLayouts.take 1) htrim rfl
      (List.forall_mem_singleton.2 (hliteral _)) ?_
    rw [List.cons_append, hread, ← List.cons_append, hgap]
    exact hseconds
  · refine ofText_of_layouts (timeLayouts.take 3) htrim rfl ?_ ?_
    · refine List.forall_mem_cons.2 ⟨hliteral _, List.forall_mem_cons.2
        ⟨?_, List.forall_mem_singleton.2 (hliteral _)⟩⟩
      rw [List.cons_append, hread, ← List.cons_append, hgap]
      exact hseconds
    · rw [List.cons_append, hread, ← List.cons_append, hgap]
      exact hminutes

/-- A bare date is read as its midnight. -/
theorem Instant.ofText_of_bareDate (hdate : t.date.WrittenAs date) (htime : t.time = .midnight)
    (htrim : Text.trim text.toList = date) : Instant.ofText text = .ok t.shown := by
  have hread := readItems_date hdate beginsNoDigit_nil
  rw [List.append_nil] at hread
  refine ofText_of_date htrim ?_ ?_
  · -- each of them goes on after the date
    intro layout hlayout
    simp only [timeLayouts, List.mem_cons, List.not_mem_nil, or_false] at hlayout
    rcases hlayout with rfl | rfl | rfl | rfl
    all_goals
      rw [hread]
      exact ⟨.tooShort, rfl⟩
  · have hdatelayout := hread []
    rw [List.append_nil] at hdatelayout
    rw [hdatelayout, readItems, Instant.parts, htime]
    rfl

/-- **A text with the fields of an instant is read as the instant that it shows**, with any blanks around
it.  Each layout is tried, and none before the one that was used fits. -/
theorem Instant.ofText_of_writtenAs (h : t.WrittenAs s) (hpadded : Text.Padded s text.toList) :
    Instant.ofText text = .ok t.shown := by
  have htrim := hpadded.trim_eq h.isTrimmed
  cases h with
  | joined hdate htime => exact ofText_of_joined hdate htime htrim
  | spaced hdate htime hblanks => exact ofText_of_spaced hdate htime hblanks htrim
  | date hdate htime => exact ofText_of_bareDate hdate htime htrim

end Texts

end Recurrence
