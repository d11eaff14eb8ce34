import Comebackhere.Http.InvoiceRecord
import Comebackhere.Library.Grid

/-!
# The calendar of the dates

The days since 1970 make up the months of the calendar, and the day that a date falls on has a year,
a month and a day of the month. The months are a grid on the days: a month begins at its first day,
and the day before the next month is its last. A date in UTC is made from a year, a month and a day
of the month, which need not be within bounds, and what it reads off again are the ones that are.

The text of a day orders as the days do, as long as its year has four digits.

## Main definitions

* `monthStart k`: the first day of a month
* `months`: the months, as a grid on the days
* `getUTCFullYear`, `getUTCMonth`, `getUTCDate`, `getUTCDay`, `dateUTC`: the parts of a date
* `dayText n`: the text of a day

## Main results

* `monthStart_civil`: the year, the month and the day of the month of a day
* `dateUTC_civil`: the date made from the parts of a day, some days on
* `dayText_lt`: later days have later texts
-/

namespace Http

variable {n n' : ℤ} {k : ℤ}

/-! ## Years -/

/-- The number of days before a year, from the start of the calendar on. -/
def yearStart (y : ℕ) : ℕ := 365 * y + y / 4 - y / 100 + y / 400

/-- The days without the leap days before them, up to the end of 400 years. -/
def withoutLeapDays (e : ℕ) : ℕ := e - e / 1460 + e / 36524 - e / 146096

theorem withoutLeapDays_mono : Monotone withoutLeapDays := by
  refine monotone_nat_of_le_succ fun e => ?_
  simp only [withoutLeapDays]
  omega

theorem withoutLeapDays_yearStart : ∀ y < 400,
    (0 < y → withoutLeapDays (yearStart y - 1) < 365 * y) ∧
      365 * y ≤ withoutLeapDays (yearStart y) := by
  decide +kernel

/-- A day lies in the year that is found by leaving the leap days out. -/
theorem yearStart_withoutLeapDays {e y : ℕ} (he : e < 146097) (hy : y = withoutLeapDays e / 365) :
    y < 400 ∧ yearStart y ≤ e ∧ e < yearStart (y + 1) := by
  have hlt : y < 400 := by
    have hle := withoutLeapDays_mono (Nat.le_of_lt_succ he)
    have hlast : withoutLeapDays 146096 = 145999 := by decide
    omega
  refine ⟨hlt, ?_, ?_⟩
  · -- the day before the year has too few days before it
    by_contra hbefore
    have hle := withoutLeapDays_mono (show e ≤ yearStart y - 1 by omega)
    have hpos : 0 < y := by
      rcases Nat.eq_zero_or_pos y with rfl | hpos
      · exact absurd (Nat.zero_le e) hbefore
      · exact hpos
    have hfew := (withoutLeapDays_yearStart y hlt).1 hpos
    omega
  · by_contra hafter
    have hle := withoutLeapDays_mono (not_lt.mp hafter)
    rcases Nat.lt_or_ge (y + 1) 400 with hnext | hnext
    · have hmany := (withoutLeapDays_yearStart (y + 1) hnext).2
      omega
    · have hlast : y + 1 = 400 := by omega
      have hend : yearStart 400 = 146097 := by decide
      rw [hlast, hend] at hafter
      exact hafter he

/-! ## Months -/

/-- The first day of a month, in days since 1970. The months are counted from March of the year 0
on, so that a leap day ends its year. -/
def monthStart (k : ℤ) : ℤ :=
  let year := k / 12
  365 * year + year / 4 - year / 100 + year / 400 + (153 * (k % 12) + 2) / 5 - 719468

/-- The month of a day. -/
def monthOf (days : ℤ) : ℤ :=
  let (year, month, _) := civil days
  12 * year + month - 3

theorem monthStart_strictMono : StrictMono monthStart := by
  refine strictMono_int_of_lt_succ fun k => ?_
  simp only [monthStart]
  -- the last month of a year is followed by the first of the next
  rcases eq_or_ne (k % 12) 11 with hk | hk
  · have hyear : (k + 1) / 12 = k / 12 + 1 := by omega
    have hmonth : (k + 1) % 12 = 0 := by omega
    rw [hyear, hmonth, hk]
    omega
  · have hyear : (k + 1) / 12 = k / 12 := by omega
    have hmonth : (k + 1) % 12 = k % 12 + 1 := by omega
    rw [hyear, hmonth]
    omega

/-- A day is so many days into a year, which is one of the 400 of an era. -/
theorem civil_eq (n : ℤ) : ∃ (era : ℤ) (y doy month : ℕ),
    n + 719468 = 146097 * era + yearStart y + doy ∧ y < 400 ∧
      yearStart y + doy < yearStart (y + 1) ∧ month = (5 * doy + 2) / 153 ∧
      civil n = (y + era * 400 + if (if month < 10 then month + 3 else month - 9) ≤ 2 then 1 else 0,
        if month < 10 then month + 3 else month - 9, doy - (153 * month + 2) / 5 + 1) := by
  obtain ⟨e, he⟩ : ∃ e, e = ((n + 719468) % 146097).toNat := ⟨_, rfl⟩
  obtain ⟨y, hy⟩ : ∃ y, y = withoutLeapDays e / 365 := ⟨_, rfl⟩
  obtain ⟨hlt, hle, hnext⟩ := yearStart_withoutLeapDays (by omega) hy
  refine ⟨(n + 719468) / 146097, y, e - yearStart y, (5 * (e - yearStart y) + 2) / 153, by omega,
    hlt, by omega, rfl, ?_⟩
  have hstart : yearStart y = 365 * y + y / 4 - y / 100 := by
    rw [yearStart, Nat.div_eq_of_lt hlt, add_zero]
  rw [hstart, hy, he]
  rfl

/-- **The year, the month and the day of the month** of a day. -/
theorem monthStart_civil (n : ℤ) :
    monthStart (monthOf n) + (civil n).2.2 - 1 = n ∧ 1 ≤ (civil n).2.2 ∧
      n < monthStart (monthOf n + 1) ∧ 1 ≤ (civil n).2.1 ∧ (civil n).2.1 ≤ 12 := by
  obtain ⟨era, y, doy, month, hn, hy, hdoy, hmonth, hcivil⟩ := civil_eq n
  have hlast : month ≤ 11 := by
    simp only [yearStart] at hdoy
    omega
  have hof : monthOf n = 12 * (400 * era + y) + month := by
    rw [monthOf, hcivil]
    dsimp only
    split <;> split <;> push_cast <;> omega
  have hstart : ∀ z m : ℕ, m < 12 → monthStart (12 * (400 * era + z) + m) =
      146097 * era + yearStart z + (153 * m + 2) / 5 - 719468 := by
    intro z m hm
    have hyear : (12 * (400 * era + (z : ℤ)) + m) / 12 = 400 * era + z := by omega
    have hmod : (12 * (400 * era + (z : ℤ)) + m) % 12 = m := by omega
    simp only [monthStart, hyear, hmod, yearStart]
    omega
  have hday : (civil n).2.2 = doy - (153 * month + 2) / 5 + 1 := by rw [hcivil]
  have hfirst := hstart y month (by omega)
  rw [hday, hof]
  refine ⟨by omega, by omega, ?_, ?_⟩
  · rcases eq_or_ne month 11 with hm | hm
    · have hnext : 12 * (400 * era + (y : ℤ)) + month + 1 =
          12 * (400 * era + ((y + 1 : ℕ) : ℤ)) + ((0 : ℕ) : ℤ) := by
        rw [hm]
        omega
      rw [hnext, hstart _ _ (by omega)]
      omega
    · have hnext : 12 * (400 * era + (y : ℤ)) + month + 1 =
          12 * (400 * era + (y : ℤ)) + ((month + 1 : ℕ) : ℤ) := by omega
      rw [hnext, hstart _ _ (by omega)]
      omega
  · rw [hcivil]
    dsimp only
    split <;> omega

/-- The months, as a grid on the days. -/
def months : Grid ℤ := Grid.ofStrictMono monthStart monthOf monthStart_strictMono fun n => by
  obtain ⟨hn, hday, hnext, -⟩ := monthStart_civil n
  exact ⟨by omega, hnext⟩

theorem monthOf_add (n : ℤ) : monthOf n + 3 = 12 * (civil n).1 + (civil n).2.1 := by
  have hof : monthOf n = 12 * (civil n).1 + (civil n).2.1 - 3 := rfl
  omega

/-- From the last days of 1969 to the end of the year 9999. -/
theorem civil_year (hn : -4 ≤ n) (hn' : n ≤ 2932896) : 1969 ≤ (civil n).1 ∧ (civil n).1 ≤ 9999 := by
  have hfirst : monthOf (-4) = 12 * 1969 + 9 := by decide
  have hlast : monthOf 2932896 = 12 * 9999 + 9 := by decide
  have hle := months.cell_mono hn
  have hge := months.cell_mono hn'
  change monthOf (-4) ≤ monthOf n at hle
  change monthOf n ≤ monthOf 2932896 at hge
  have hof := monthOf_add n
  obtain ⟨-, -, -, hmonth, hmonth'⟩ := monthStart_civil n
  omega

/-! ## The parts of a date -/

def getUTCFullYear (date : Date) : Option ℤ := date.map fun ms => (civil (ms / 86400000)).1

/-- The months are counted from 0 on. -/
def getUTCMonth (date : Date) : Option ℤ := date.map fun ms => (civil (ms / 86400000)).2.1 - 1

def getUTCDate (date : Date) : Option ℤ := date.map fun ms => (civil (ms / 86400000)).2.2

/-- The day of the week, from Sunday on. The year 1970 began on a Thursday. -/
def getUTCDay (date : Date) : Option ℤ := date.map fun ms => (ms / 86400000 + 4) % 7

/-- `new Date(Date.UTC(year, month, day))`: neither the month nor the day need be within bounds, and
a year of two digits is one of the twentieth century. -/
def dateUTC (year month day : ℤ) : Date :=
  let year := if 0 ≤ year ∧ year ≤ 99 then 1900 + year else year
  newDate ((monthStart (12 * year + month - 2) + day - 1) * 86400000)

theorem dateUTC_month (h : 100 ≤ (civil n).1) (j day : ℤ) :
    dateUTC (civil n).1 ((civil n).2.1 - 1 + j) day =
      newDate ((monthStart (monthOf n + j) + day - 1) * 86400000) := by
  have hof : 12 * (civil n).1 + ((civil n).2.1 - 1 + j) - 2 = monthOf n + j := by
    have hadd := monthOf_add n
    omega
  rw [dateUTC, if_neg (by omega), hof]

/-- **The date made from the parts of a day**, some days on. -/
theorem dateUTC_civil (h : 100 ≤ (civil n).1) (j : ℤ) :
    dateUTC (civil n).1 ((civil n).2.1 - 1) ((civil n).2.2 + j) = newDate ((n + j) * 86400000) := by
  have hday : monthStart (monthOf n) + ((civil n).2.2 + j) - 1 = n + j := by
    have hn := (monthStart_civil n).1
    omega
  have hmonth := dateUTC_month h 0 ((civil n).2.2 + j)
  rwa [add_zero, add_zero, hday] at hmonth

/-! ## The text of a day -/

/-- The year, the month and the day of the month, with dashes between them. -/
def dayText (n : ℤ) : List Char :=
  let (year, month, day) := civil n
  yearText year ++ '-' :: padded 2 month ++ '-' :: padded 2 day

theorem dayText_eq (n : ℤ) : dayText n = yearText (civil n).1 ++ '-' :: padded 2 (civil n).2.1 ++
    '-' :: padded 2 (civil n).2.2 := rfl

theorem length_padded {width n : ℕ} (h : n < 10 ^ width) (hwidth : 0 < width) :
    (padded width n).length = width := by
  have hle := Decimal.length_toDigits_le h hwidth
  rw [padded, List.length_leftpad]
  exact max_eq_left hle

/-- What follows two texts of one length does not matter to their order. -/
theorem append_lt_append {xs ys : List Char} (us vs : List Char) (h : xs < ys)
    (hlen : xs.length = ys.length) : xs ++ us < ys ++ vs := by
  induction h with
  | nil => simp at hlen
  | rel h => exact List.Lex.rel h
  | cons _ ih => exact List.Lex.cons (ih (by simpa using hlen))

/-- As many digits before two texts order them by their numbers. -/
theorem padded_append_lt {width m n : ℕ} (us vs : List Char) (h : m < n) (hn : n < 10 ^ width)
    (hwidth : 0 < width) : padded width m ++ us < padded width n ++ vs := by
  have hlen : (padded width m).length = (padded width n).length := by
    rw [length_padded (h.trans hn) hwidth, length_padded hn hwidth]
  refine append_lt_append us vs (Decimal.lt_of_value_lt
    (Decimal.digits_leftpad Decimal.digits_toDigits)
    (Decimal.digits_leftpad Decimal.digits_toDigits) hlen ?_) hlen
  simpa [padded] using h

theorem civil_day_lt (n : ℤ) : (civil n).2.2 < 32 := by
  obtain ⟨era, y, doy, month, -, -, -, hmonth, hcivil⟩ := civil_eq n
  rw [hcivil]
  dsimp only
  omega

/-- Of two days, the later one has the later year, or month, or day of the month. -/
theorem civil_lt (h : n < n') :
    (civil n).1 < (civil n').1 ∨ (civil n).1 = (civil n').1 ∧
      ((civil n).2.1 < (civil n').2.1 ∨
        (civil n).2.1 = (civil n').2.1 ∧ (civil n).2.2 < (civil n').2.2) := by
  obtain ⟨hstart, -, -, hmonth, hmonth₂⟩ := monthStart_civil n
  obtain ⟨hstart', -, -, hmonth', hmonth₂'⟩ := monthStart_civil n'
  have hof := monthOf_add n
  have hof' := monthOf_add n'
  have hle : monthOf n ≤ monthOf n' := months.cell_mono h.le
  rcases hle.eq_or_lt with heq | hlt
  · rw [heq] at hstart
    omega
  · omega

/-- **Later days have later texts**, as long as the years have four digits. -/
theorem dayText_lt (h : n < n') (hn : 0 ≤ (civil n).1) (hn' : (civil n').1 ≤ 9999) :
    dayText n < dayText n' := by
  have hday := civil_day_lt n
  have hday' := civil_day_lt n'
  obtain ⟨-, -, -, -, hmonth⟩ := monthStart_civil n
  obtain ⟨-, -, -, -, hmonth'⟩ := monthStart_civil n'
  have hle : (civil n).1 ≤ (civil n').1 := by
    rcases civil_lt h with hlt | ⟨heq, -⟩
    · exact hlt.le
    · exact heq.le
  have hyear : ∀ y : ℤ, 0 ≤ y → y ≤ 9999 → yearText y = padded 4 y.toNat := fun y hy hy' =>
    if_pos ⟨hy, hy'⟩
  simp only [dayText_eq, List.append_assoc, hyear _ hn (hle.trans hn'), hyear _ (hn.trans hle) hn']
  rcases civil_lt h with hlt | ⟨heq, hlt | ⟨heq₂, hlt⟩⟩
  · exact padded_append_lt _ _ (by omega) (by omega) (by decide)
  · rw [heq]
    exact List.Lex.append_left _ (List.Lex.cons
      (padded_append_lt _ _ hlt (by omega) (by decide))) _
  · rw [heq, heq₂]
    have htext := padded_append_lt [] [] hlt (by omega : (civil n').2.2 < 10 ^ 2) (by decide)
    rw [List.append_nil, List.append_nil] at htext
    exact List.Lex.append_left _ (List.Lex.cons (List.Lex.append_left _ (List.Lex.cons htext) _)) _

/-- The text of a time begins with the text of its day. -/
theorem isoText_take {ms : ℤ} (hn : 0 ≤ (civil (ms / 86400000)).1)
    (hn' : (civil (ms / 86400000)).1 ≤ 9999) : (isoText ms).take 10 = dayText (ms / 86400000) := by
  have hday := civil_day_lt (ms / 86400000)
  obtain ⟨-, -, -, -, hmonth⟩ := monthStart_civil (ms / 86400000)
  obtain ⟨time, htime⟩ : ∃ time, isoText ms = dayText (ms / 86400000) ++ time := by
    simp only [isoText, dayText, List.append_assoc, List.cons_append]
    exact ⟨_, rfl⟩
  have hlen : (dayText (ms / 86400000)).length = 10 := by
    rw [dayText_eq, yearText, if_pos (And.intro hn hn'), List.length_append, List.length_append,
      List.length_cons, List.length_cons, length_padded (by omega) (by decide),
      length_padded (by omega) (by decide), length_padded (by omega) (by decide)]
  rw [htime, List.take_left' hlen]

end Http
