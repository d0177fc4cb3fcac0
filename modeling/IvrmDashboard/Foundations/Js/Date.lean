import Mathlib.Data.List.TakeWhile
import IvrmDashboard.Foundations.Js.Text
import IvrmDashboard.Foundations.Sql.Timestamp

/-!
# Dates that JavaScript reads

`Date.parse` reads a date with a time and an offset, the year in four digits and any number of
fractional digits. Years from 10000 on, years before 1 AD with their era and the words of the
infinities are not read. So of the timestamps the database writes, it reads those of the years from
1 to 9999 (`dateTime_jsonTimestamptz`).
-/

namespace Js

/-- What follows a number of `width` digits with a value between `lo` and `hi`. -/
def number (width lo hi : ℕ) (l : List Char) : Option (List Char) :=
  let digits := l.take width
  let value := Nat.ofDigitChars 10 digits 0
  if digits.length = width && digits.all Char.isDigit && lo ≤ value && value ≤ hi then
    some (l.drop width)
  else none

/-- What follows the character `c`. -/
def literal (c : Char) : List Char → Option (List Char)
  | [] => none
  | d :: l => if d = c then some l else none

/-- What follows a fraction, if there is one. -/
def fraction : List Char → Option (List Char)
  | '.' :: l => if l.takeWhile Char.isDigit = [] then none else some (l.dropWhile Char.isDigit)
  | l => some l

/-- What follows an offset. -/
def offset : List Char → Option (List Char)
  | 'Z' :: l => some l
  | c :: l =>
    if c = '+' || c = '-' then
      (number 2 0 23 l).bind fun l => (literal ':' l).bind (number 2 0 59)
    else none
  | [] => none

/-- What follows `YYYY-MM-DD`; the engine counts a day that the month does not have as one of the
next month. -/
def date (l : List Char) : Option (List Char) :=
  (number 4 0 9999 l).bind fun l => (literal '-' l).bind fun l => (number 2 1 12 l).bind fun l =>
    (literal '-' l).bind (number 2 1 31)

/-- What follows `HH:mm:ss` with a fraction. -/
def time (l : List Char) : Option (List Char) :=
  (number 2 0 23 l).bind fun l => (literal ':' l).bind fun l => (number 2 0 59 l).bind fun l =>
    (literal ':' l).bind fun l => (number 2 0 59 l).bind fraction

/-- `Number.isFinite(Date.parse(s))`, for a date with a time and an offset. -/
def dateTime (s : String) : Bool :=
  ((date s.toList).bind fun l => (literal 'T' l).bind fun l => (time l).bind offset) = some []

/-! ## What is read and what is not -/

theorem number_append {width lo hi : ℕ} {front l : List Char} (hlength : front.length = width)
    (hdigit : ∀ c ∈ front, c.isDigit = true) (hlo : lo ≤ Nat.ofDigitChars 10 front 0)
    (hhi : Nat.ofDigitChars 10 front 0 ≤ hi) : number width lo hi (front ++ l) = some l := by
  subst hlength
  simp [number, hlo, hhi, List.all_eq_true.2 hdigit]

/-- A number the database writes in `width` digits. -/
theorem number_decimal {width lo hi n : ℕ} {l : List Char} (hwidth : 0 < width)
    (hn : n < 10 ^ width) (hlo : lo ≤ n) (hhi : n ≤ hi) :
    number width lo hi (Sql.Text.decimal width n ++ l) = some l := by
  apply number_append (Sql.Text.length_decimal hwidth hn)
  · intro c hc
    exact Sql.Text.isDigit_of_mem_decimal hc
  · rwa [Sql.Text.ofDigitChars_decimal]
  · rwa [Sql.Text.ofDigitChars_decimal]

@[simp] theorem literal_cons (c : Char) (l : List Char) : literal c (c :: l) = some l := by
  simp [literal]

theorem fraction_digits {ds l : List Char} (hne : ds ≠ []) (hdigit : ∀ c ∈ ds, c.isDigit = true) :
    fraction ('.' :: (ds ++ '+' :: l)) = some ('+' :: l) := by
  have htake : (ds ++ '+' :: l).takeWhile Char.isDigit = ds := by
    rw [List.takeWhile_append_of_pos hdigit]
    simp
  have hdrop : (ds ++ '+' :: l).dropWhile Char.isDigit = '+' :: l := by
    rw [List.dropWhile_append_of_pos hdigit]
    simp
  rw [fraction, htake, hdrop, if_neg hne]

theorem fraction_fractionText {us : ℕ} (l : List Char) :
    fraction (Sql.fractionText us ++ '+' :: l) = some ('+' :: l) := by
  unfold Sql.fractionText
  split
  next => rfl
  next hus =>
    rw [List.cons_append]
    apply fraction_digits
    · -- a fraction that is not zero has a digit that is not zero
      intro hnil
      have hzero : ∀ c ∈ Sql.Text.decimal 6 us, c = '0' := by
        intro c hc
        rw [List.reverse_eq_nil_iff, List.dropWhile_eq_nil_iff] at hnil
        simpa using hnil c (List.mem_reverse.2 hc)
      have hvalue := Sql.Text.ofDigitChars_decimal 6 us
      rw [List.eq_replicate_of_mem hzero, Nat.ofDigitChars_replicate_zero, Nat.mul_zero] at hvalue
      exact hus hvalue.symm
    · intro c hc
      rw [List.mem_reverse] at hc
      exact Sql.Text.isDigit_of_mem_decimal (List.mem_reverse.1 (List.dropWhile_subset _ hc))

/-- A year of more than four digits is not read. -/
theorem date_long_year {y : ℕ} (hy : 10000 ≤ y) (l : List Char) :
    date (Sql.Text.decimal 4 y ++ l) = none := by
  have hlength : 4 < (Sql.Text.decimal 4 y).length := by
    have hlong : ¬ (Nat.toDigits 10 y).length ≤ 4 := by
      rw [Nat.length_toDigits_le_iff (by omega) (by omega)]
      omega
    simp only [Sql.Text.decimal, List.length_append, List.length_replicate]
    omega
  obtain ⟨d, rest, hrest⟩ : ∃ d rest, (Sql.Text.decimal 4 y).drop 4 = d :: rest :=
    List.exists_cons_of_ne_nil (by simpa using hlength)
  have hdigit : d.isDigit = true := by
    apply Sql.Text.isDigit_of_mem_decimal (w := 4) (n := y)
    apply List.drop_subset 4
    rw [hrest]
    exact List.mem_cons_self
  have hne : d ≠ '-' := by
    rintro rfl
    cases hdigit
  have hdrop : (Sql.Text.decimal 4 y ++ l).drop 4 = d :: (rest ++ l) := by
    rw [List.drop_append_of_le_length hlength.le, hrest]
    rfl
  have hliteral : literal '-' (d :: (rest ++ l)) = none := by simp [literal, hne]
  rw [date, number, hdrop]
  split
  next => rw [Option.bind_some, hliteral, Option.bind_none]
  next => rfl

end Js

namespace Sql

open Js

/-- The text of an instant, field by field. -/
theorem toList_jsonTimestamptz (t : ℤ) : (jsonTimestamptz t).toList =
    Text.decimal 4 (Field.printedYear (Field.dateOf t).year) ++ '-' ::
      (Text.decimal 2 (Field.dateOf t).month.toNat ++ '-' ::
        (Text.decimal 2 (Field.dateOf t).day.toNat ++ 'T' ::
          (Text.decimal 2 (Field.timeOf t / 3600000000) ++ ':' ::
            (Text.decimal 2 (Field.timeOf t / 60000000 % 60) ++ ':' ::
              (Text.decimal 2 (Field.timeOf t / 1000000 % 60) ++
                (fractionText (Field.timeOf t % 1000000) ++ '+' :: '0' :: '0' :: ':' :: '0' :: '0' ::
                  if 0 < (Field.dateOf t).year then [] else " BC".toList)))))) := by
  simp [jsonTimestamptz, formatInstant, Field.text]

theorem length_fractionText_le {us : ℕ} (h : us < 1000000) : (fractionText us).length ≤ 7 := by
  unfold fractionText
  split
  next => simp
  next =>
    have hdrop := ((List.dropWhile_sublist (· == '0') (l := (Text.decimal 6 us).reverse))).length_le
    rw [List.length_reverse, Text.length_decimal (by omega) (by omega)] at hdrop
    rw [List.length_cons, List.length_reverse]
    omega

/-- A number of `v` digits, padded to `w` of them. -/
theorem length_decimal_le {w v n : ℕ} (hwv : w ≤ v) (hv : 0 < v) (h : n < 10 ^ v) :
    (Text.decimal w n).length ≤ v := by
  have hdigits : (Nat.toDigits 10 n).length ≤ v := (Nat.length_toDigits_le_iff (by omega) hv).2 h
  simp only [Text.decimal, List.length_append, List.length_replicate]
  omega

/-- The length of the text of a year of at most `w` digits. -/
theorem length_jsonTimestamptz_le {w : ℕ} {t : ℤ} (hw : 4 ≤ w) (h1 : 1 ≤ (Field.dateOf t).year)
    (h : (Field.dateOf t).year < 10 ^ w) : (jsonTimestamptz t).length ≤ 28 + w := by
  have hmonth : (Field.dateOf t).month ≤ 12 := (civilOfDays_month (t / day)).2
  have hday : (Field.dateOf t).day ≤ 31 := (civilOfDays_day (t / day)).2
  have htime := Field.timeOf_lt t
  have hfraction := @length_fractionText_le (Field.timeOf t % 1000000) (by omega)
  have hyear : (Text.decimal 4 (Field.printedYear (Field.dateOf t).year)).length ≤ w := by
    apply length_decimal_le hw (by omega)
    simp only [Field.printedYear, if_pos (show 0 < (Field.dateOf t).year by omega)]
    rw [Int.toNat_lt (by omega)]
    exact_mod_cast h
  rw [← String.length_toList, toList_jsonTimestamptz, if_pos (by omega)]
  simp only [List.length_append, List.length_cons, List.length_nil]
  generalize (Text.decimal 4 (Field.printedYear (Field.dateOf t).year)).length = n at *
  rw [Text.length_decimal (by omega) (by omega), Text.length_decimal (by omega) (by omega),
    Text.length_decimal (by omega) (by omega), Text.length_decimal (by omega) (by omega),
    Text.length_decimal (by omega) (by omega)]
  omega

theorem offset_utc (l : List Char) : offset ('+' :: '0' :: '0' :: ':' :: '0' :: '0' :: l) = some l := by
  simp [offset, number, literal]
  rfl

/-- **JavaScript reads the timestamps of the years from 1 to 9999.** -/
theorem dateTime_jsonTimestamptz (t : ℤ) : dateTime (jsonTimestamptz t) = true ↔
    1 ≤ (Field.dateOf t).year ∧ (Field.dateOf t).year ≤ 9999 := by
  obtain ⟨hm1, hm12⟩ := civilOfDays_month (t / day)
  obtain ⟨hd1, hd31⟩ := civilOfDays_day (t / day)
  have htime := Field.timeOf_lt t
  rw [dateTime, decide_eq_true_eq, toList_jsonTimestamptz]
  by_cases hyear : Field.printedYear (Field.dateOf t).year < 10000
  · have hdate : ∀ l, date (Text.decimal 4 (Field.printedYear (Field.dateOf t).year) ++ '-' ::
        (Text.decimal 2 (Field.dateOf t).month.toNat ++ '-' ::
          (Text.decimal 2 (Field.dateOf t).day.toNat ++ l))) = some l := by
      intro l
      rw [date, number_decimal (by omega) (by omega) (by omega) (by omega), Option.bind_some,
        literal_cons, Option.bind_some, number_decimal (by omega) ?_ ?_ ?_, Option.bind_some,
        literal_cons, Option.bind_some, number_decimal (by omega) ?_ ?_ ?_]
      all_goals
        simp only [Field.dateOf]
        omega
    have htimes : ∀ l, time (Text.decimal 2 (Field.timeOf t / 3600000000) ++ ':' ::
        (Text.decimal 2 (Field.timeOf t / 60000000 % 60) ++ ':' ::
          (Text.decimal 2 (Field.timeOf t / 1000000 % 60) ++
            (fractionText (Field.timeOf t % 1000000) ++ '+' :: l)))) = some ('+' :: l) := by
      intro l
      rw [time, number_decimal (by omega) (by omega) (by omega) (by omega), Option.bind_some,
        literal_cons, Option.bind_some, number_decimal (by omega) (by omega) (by omega) (by omega),
        Option.bind_some, literal_cons, Option.bind_some,
        number_decimal (by omega) (by omega) (by omega) (by omega), Option.bind_some,
        fraction_fractionText]
    rw [hdate, Option.bind_some, literal_cons, Option.bind_some, htimes, Option.bind_some,
      offset_utc]
    simp only [Field.printedYear] at hyear
    split at hyear
    next hpos =>
      rw [if_pos hpos]
      simp only [true_iff]
      omega
    next hpos =>
      rw [if_neg hpos]
      simp only [Option.some.injEq]
      constructor
      · intro h
        exact absurd h (by decide)
      · omega
  · rw [date_long_year (not_lt.1 hyear), Option.bind_none]
    simp only [Field.printedYear] at hyear
    split at hyear
    · simp
      omega
    · simp
      omega

end Sql
