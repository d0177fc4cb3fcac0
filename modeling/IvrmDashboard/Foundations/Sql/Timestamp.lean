import Mathlib.Order.WithBot
import Mathlib.Data.Int.Order.Basic
import IvrmDashboard.Foundations.Sql.Text

/-!
# Timestamps and their text

A `timestamptz` is a number of microseconds since 1970-01-01 00:00 UTC or one of the two
infinities. `to_char` prints the proleptic Gregorian calendar. Its year field carries no era: the
year before 1 AD prints as `0001` again, so the printed form determines an instant only inside
one era, and the infinities have no printed form at all.

The calendar is the usual computation in years that start in March (`civilOfDays`);
`daysOfCivil_civilOfDays` inverts it, which is what makes the text injective.
-/

namespace Sql

/-- A `timestamptz`: an instant in microseconds, or `-infinity` or `infinity`. -/
abbrev Timestamptz := WithBot (WithTop ℤ)

namespace Timestamptz

/-- The order of timestamps. It is fixed here, with what is derived from it, so that a comparison
means the same whatever else is imported. -/
instance instLinearOrder : LinearOrder Timestamptz :=
  @WithBot.linearOrder _ (@WithTop.linearOrder ℤ Int.instLinearOrder)

instance : PartialOrder Timestamptz := instLinearOrder.toPartialOrder

instance : Preorder Timestamptz := instLinearOrder.toPartialOrder.toPreorder

instance : LE Timestamptz := instLinearOrder.toPartialOrder.toPreorder.toLE

instance : LT Timestamptz := instLinearOrder.toPartialOrder.toPreorder.toLT

instance : Max Timestamptz := instLinearOrder.toMax

instance : Min Timestamptz := instLinearOrder.toMin

instance : DecidableLE Timestamptz := instLinearOrder.toDecidableLE

instance : DecidableLT Timestamptz := instLinearOrder.toDecidableLT

/-- The finite timestamp of an instant. -/
def ofInstant (t : ℤ) : Timestamptz := ((t : WithTop ℤ) : WithBot (WithTop ℤ))

@[simp] theorem ofInstant_inj {a b : ℤ} : ofInstant a = ofInstant b ↔ a = b := by
  simp [ofInstant]

@[simp] theorem ofInstant_le {a b : ℤ} : ofInstant a ≤ ofInstant b ↔ a ≤ b := by
  simp [ofInstant]

@[simp] theorem ofInstant_lt {a b : ℤ} : ofInstant a < ofInstant b ↔ a < b := by
  simp [ofInstant]

/-- The instant of a finite timestamp. -/
def instant? : Timestamptz → Option ℤ
  | some (some t) => some t
  | _ => none

end Timestamptz

/-- One second, in microseconds. -/
def second : ℤ := 1000000

/-- One day, in microseconds. -/
def day : ℤ := 86400000000

/-! ## The calendar -/

/-- A date: the astronomical year (1 BC is year 0), the month and the day of the month. -/
@[ext]
structure Date where
  year : ℤ
  month : ℤ
  day : ℤ
  deriving DecidableEq

/-- A day of the calendar of years that start on 1 March, by its era of 400 years, its century,
its group of four years, its year and the day of that year. -/
structure MarchDay where
  era : ℤ
  century : ℤ
  quad : ℤ
  year : ℤ
  doy : ℤ

/-- The March day of a day number, day 0 being 1970-01-01. The last century of an era and the
last year of a group of four take the leap day, hence the two `min`. -/
def marchOfDays (z : ℤ) : MarchDay :=
  let doe := (z + 719468) % 146097
  let century := min (doe / 36524) 3
  let doc := doe - 36524 * century
  let quad := doc / 1461
  let doq := doc - 1461 * quad
  let year := min (doq / 365) 3
  { era := (z + 719468) / 146097, century, quad, year, doy := doq - 365 * year }

namespace MarchDay

/-- The number of the March year. -/
def fullYear (m : MarchDay) : ℤ := 400 * m.era + 100 * m.century + 4 * m.quad + m.year

/-- The ranges of the fields. -/
def Valid (m : MarchDay) : Prop :=
  (0 ≤ m.century ∧ m.century ≤ 3) ∧ (0 ≤ m.quad ∧ m.quad ≤ 24) ∧ (0 ≤ m.year ∧ m.year ≤ 3) ∧
    (0 ≤ m.doy ∧ m.doy ≤ 365)

/-- The month counted from March, which is month 0. -/
def month (m : MarchDay) : ℤ := (5 * m.doy + 2) / 153

end MarchDay

/-- The calendar month of a month counted from March. -/
def monthOfMarch (mp : ℤ) : ℤ := if mp < 10 then mp + 3 else mp - 9

/-- The month counted from March of a calendar month. -/
def marchOfMonth (month : ℤ) : ℤ := if 2 < month then month - 3 else month + 9

/-- The calendar date of a March day: January and February belong to the next calendar year. -/
def MarchDay.date (m : MarchDay) : Date where
  year := m.fullYear + (if m.month < 10 then 0 else 1)
  month := monthOfMarch m.month
  day := m.doy - (153 * m.month + 2) / 5 + 1

/-- The date of a day number. -/
def civilOfDays (z : ℤ) : Date := (marchOfDays z).date

/-- The day number of the date that lies in the March year `y`. -/
def daysOfMarchYear (y : ℤ) (d : Date) : ℤ :=
  y / 400 * 146097 + y % 400 / 100 * 36524 + y % 100 / 4 * 1461 + y % 4 * 365 +
    ((153 * marchOfMonth d.month + 2) / 5 + d.day - 1) - 719468

/-- The day number of a date. -/
def daysOfCivil (d : Date) : ℤ :=
  daysOfMarchYear (d.year - (if 2 < d.month then 0 else 1)) d

theorem marchOfDays_valid (z : ℤ) : (marchOfDays z).Valid := by
  simp only [MarchDay.Valid, marchOfDays]
  omega

theorem fullYear_decode {m : MarchDay} (h : m.Valid) :
    m.fullYear / 400 = m.era ∧ m.fullYear % 400 / 100 = m.century ∧
      m.fullYear % 100 / 4 = m.quad ∧ m.fullYear % 4 = m.year := by
  simp only [MarchDay.Valid, MarchDay.fullYear] at *
  omega

theorem marchOfDays_sum (z : ℤ) :
    (marchOfDays z).era * 146097 + (marchOfDays z).century * 36524 + (marchOfDays z).quad * 1461 +
      (marchOfDays z).year * 365 + (marchOfDays z).doy = z + 719468 := by
  simp only [marchOfDays]
  omega

theorem month_bounds {m : MarchDay} (h : m.Valid) : 0 ≤ m.month ∧ m.month ≤ 11 := by
  obtain ⟨-, -, -, hdoy⟩ := h
  simp only [MarchDay.month]
  omega

theorem marchOfMonth_monthOfMarch {mp : ℤ} (h0 : 0 ≤ mp) (h1 : mp ≤ 11) :
    marchOfMonth (monthOfMarch mp) = mp := by
  simp only [marchOfMonth, monthOfMarch]
  split_ifs <;> omega

theorem two_lt_monthOfMarch {mp : ℤ} (h0 : 0 ≤ mp) (h1 : mp ≤ 11) :
    2 < monthOfMarch mp ↔ mp < 10 := by
  simp only [monthOfMarch]
  split_ifs <;> omega

theorem daysOfCivil_civilOfDays (z : ℤ) : daysOfCivil (civilOfDays z) = z := by
  have hv := marchOfDays_valid z
  obtain ⟨hera, hcentury, hquad, hyear⟩ := fullYear_decode hv
  obtain ⟨h0, h1⟩ := month_bounds hv
  have hsum := marchOfDays_sum z
  simp only [civilOfDays, MarchDay.date, daysOfCivil, daysOfMarchYear,
    marchOfMonth_monthOfMarch h0 h1, two_lt_monthOfMarch h0 h1, Int.add_sub_cancel, hera, hcentury,
    hquad, hyear]
  omega

theorem civilOfDays_injective : Function.Injective civilOfDays :=
  Function.LeftInverse.injective daysOfCivil_civilOfDays

theorem civilOfDays_month (z : ℤ) : 1 ≤ (civilOfDays z).month ∧ (civilOfDays z).month ≤ 12 := by
  obtain ⟨h0, h1⟩ := month_bounds (marchOfDays_valid z)
  simp only [civilOfDays, MarchDay.date, monthOfMarch]
  split_ifs <;> omega

theorem civilOfDays_day (z : ℤ) : 1 ≤ (civilOfDays z).day ∧ (civilOfDays z).day ≤ 31 := by
  obtain ⟨-, -, -, hdoy⟩ := marchOfDays_valid z
  simp only [civilOfDays, MarchDay.date, MarchDay.month]
  omega

/-! ## `to_char` -/

/-- The fields of a `to_char` format. -/
inductive Field
  | yyyy
  | mm
  | dd
  | hh24
  | mi
  | ss
  | us
  | literal (s : String)
  deriving DecidableEq

namespace Field

/-- The date of an instant. -/
def dateOf (t : ℤ) : Date := civilOfDays (t / day)

/-- The microseconds since midnight. -/
def timeOf (t : ℤ) : ℕ := (t % day).toNat

/-- The year as `YYYY` prints it: 1 BC, 2 BC, … come out as 1, 2, …. -/
def printedYear (y : ℤ) : ℕ := (if 0 < y then y else 1 - y).toNat

/-- The text of one field at the instant `t`. -/
def text (t : ℤ) : Field → List Char
  | yyyy => Text.decimal 4 (printedYear (dateOf t).year)
  | mm => Text.decimal 2 (dateOf t).month.toNat
  | dd => Text.decimal 2 (dateOf t).day.toNat
  | hh24 => Text.decimal 2 (timeOf t / 3600000000)
  | mi => Text.decimal 2 (timeOf t / 60000000 % 60)
  | ss => Text.decimal 2 (timeOf t / 1000000 % 60)
  | us => Text.decimal 6 (timeOf t % 1000000)
  | literal s => s.toList

theorem timeOf_lt (t : ℤ) : timeOf t < 86400000000 := by
  simp only [timeOf, day]
  omega

/-- Every field but the year has a width of its own. -/
theorem length_text (t u : ℤ) {f : Field} (hf : f ≠ yyyy) : (text t f).length = (text u f).length := by
  have width (t : ℤ) : ∀ f, f ≠ yyyy → (text t f).length =
      match f with
      | yyyy => 0
      | us => 6
      | literal s => s.toList.length
      | _ => 2 := by
    have hm : (dateOf t).month ≤ 12 := (civilOfDays_month (t / day)).2
    have hd : (dateOf t).day ≤ 31 := (civilOfDays_day (t / day)).2
    have ht := timeOf_lt t
    intro f hf
    cases f with
    | yyyy => exact absurd rfl hf
    | literal s => rfl
    | _ => exact Text.length_decimal (by decide) (by omega)
  rw [width t f hf, width u f hf]

end Field

/-- The text of a format at an instant. -/
def formatInstant (fmt : List Field) (t : ℤ) : List Char := fmt.flatMap (Field.text t)

/-- `to_char(t at time zone 'UTC', fmt)`; the infinities give `NULL`. -/
def toChar (fmt : List Field) (t : Timestamptz) : Option String :=
  t.instant?.map fun t => String.ofList (formatInstant fmt t)

/-- The instants from 1 AD on. -/
def Timestamptz.isAD (t : Timestamptz) : Bool :=
  match t.instant? with
  | some t => 0 < (Field.dateOf t).year
  | none => false

theorem formatInstant_fields {t u : ℤ} {fmt : List Field} (hy : .yyyy ∉ fmt)
    (h : formatInstant fmt t = formatInstant fmt u) : ∀ f ∈ fmt, f.text t = f.text u := by
  induction fmt with
  | nil => simp
  | cons g fmt ih =>
    simp only [List.mem_cons, not_or] at hy
    obtain ⟨hhead, htail⟩ := List.append_inj h (Field.length_text t u (Ne.symm hy.1))
    intro f hf
    rcases List.mem_cons.1 hf with rfl | hf
    · exact hhead
    · exact ih hy.2 htail f hf

theorem length_formatInstant (t u : ℤ) {fmt : List Field} (hy : .yyyy ∉ fmt) :
    (formatInstant fmt t).length = (formatInstant fmt u).length := by
  induction fmt with
  | nil => rfl
  | cons g fmt ih =>
    simp only [List.mem_cons, not_or] at hy
    simp only [formatInstant, List.flatMap_cons, List.length_append] at ih ⊢
    rw [ih hy.2, Field.length_text t u (Ne.symm hy.1)]

/-- Equal fields mean equal instants, inside one era. -/
theorem instant_eq_of_fields {t u : ℤ} (ht : 0 < (Field.dateOf t).year)
    (hu : 0 < (Field.dateOf u).year)
    (h : ∀ f ∈ [Field.yyyy, .mm, .dd, .hh24, .mi, .ss, .us], f.text t = f.text u) : t = u := by
  simp only [List.forall_mem_cons, List.not_mem_nil, false_imp_iff, implies_true, and_true,
    Field.text] at h
  obtain ⟨hyear, hmonth, hday, hhour, hmin, hsec, hus⟩ := h
  have hyear := Text.decimal_inj hyear
  have hmonth := Text.decimal_inj hmonth
  have hday := Text.decimal_inj hday
  have hdate : Field.dateOf t = Field.dateOf u := by
    have hmt := civilOfDays_month (t / day)
    have hmu := civilOfDays_month (u / day)
    have hdt := civilOfDays_day (t / day)
    have hdu := civilOfDays_day (u / day)
    simp only [Field.printedYear, if_pos ht, if_pos hu] at hyear
    simp only [Field.dateOf] at *
    ext <;> omega
  have htime : Field.timeOf t = Field.timeOf u := by
    have := Text.decimal_inj hhour
    have := Text.decimal_inj hmin
    have := Text.decimal_inj hsec
    have := Text.decimal_inj hus
    omega
  have hdays : t / day = u / day := civilOfDays_injective hdate
  simp only [Field.timeOf, day] at *
  omega

/-- **`to_char` is injective on the instants of our era**, for every format that prints the year
first and every other field after it. -/
theorem formatInstant_inj {fmt : List Field} (hy : .yyyy ∉ fmt)
    (hall : ∀ f ∈ [Field.mm, .dd, .hh24, .mi, .ss, .us], f ∈ fmt) {t u : ℤ}
    (ht : 0 < (Field.dateOf t).year) (hu : 0 < (Field.dateOf u).year)
    (h : formatInstant (.yyyy :: fmt) t = formatInstant (.yyyy :: fmt) u) : t = u := by
  obtain ⟨hyear, hrest⟩ := List.append_inj' h (length_formatInstant t u hy)
  refine instant_eq_of_fields ht hu (List.forall_mem_cons.2 ⟨hyear, fun f hf => ?_⟩)
  exact formatInstant_fields hy hrest f (hall f hf)

/-- `toChar` itself, at finite timestamps of our era. -/
theorem toChar_inj {fmt : List Field} (hy : .yyyy ∉ fmt)
    (hall : ∀ f ∈ [Field.mm, .dd, .hh24, .mi, .ss, .us], f ∈ fmt) {t u : Timestamptz}
    (ht : t.isAD = true) (hu : u.isAD = true)
    (h : toChar (.yyyy :: fmt) t = toChar (.yyyy :: fmt) u) : t = u := by
  match t, u with
  | some (some t), some (some u) =>
    simp only [toChar, Timestamptz.instant?, Option.map_some, Option.some.injEq] at h
    have := formatInstant_inj hy hall (of_decide_eq_true ht) (of_decide_eq_true hu)
      (String.ofList_injective h)
    rw [this]
  | some (some _), some none => simp [Timestamptz.isAD, Timestamptz.instant?] at hu
  | some (some _), none => simp [Timestamptz.isAD, Timestamptz.instant?] at hu
  | some none, _ => simp [Timestamptz.isAD, Timestamptz.instant?] at ht
  | none, _ => simp [Timestamptz.isAD, Timestamptz.instant?] at ht

/-! ## Timestamps inside `jsonb` -/

/-- The fractional seconds of a `jsonb` timestamp: none, or up to six digits. -/
def fractionText (us : ℕ) : List Char :=
  if us = 0 then []
  else '.' :: ((Text.decimal 6 us).reverse.dropWhile (· == '0')).reverse

/-- A finite timestamp inside `jsonb`, in a session whose time zone is UTC. Here years before 1 AD
carry their era. -/
def jsonTimestamptz (t : ℤ) : String :=
  String.ofList (formatInstant
    [.yyyy, .literal "-", .mm, .literal "-", .dd, .literal "T", .hh24, .literal ":", .mi,
      .literal ":", .ss] t ++ fractionText (Field.timeOf t % 1000000) ++ "+00:00".toList ++
    if 0 < (Field.dateOf t).year then [] else " BC".toList)

end Sql
