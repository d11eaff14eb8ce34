import Comebackhere.Http.Calendar
import Comebackhere.Http.InvoiceList

/-!
# The series of the analytics

Invoices are counted by the day, the week or the month in UTC that they were created in. The
database groups those of a range of time by their buckets, and the backend lists all the buckets of
the range itself, from the one that the range begins in, and looks up the counts under their texts.
A range of too many buckets is cut off.

## Main definitions

* `truncateUtc`, `nextBucket`: the first time of a bucket, and of the one after it
* `listPeriods`: the buckets of a range
* `buildSeries`: the buckets of a range with their counts and volumes
* `buckets bucket`: the buckets, as a grid on the times

## Main results

* `listPeriods_eq`: the buckets listed are the cells of the grid
* `buildSeries_partition`: they divide the range, and the counts add up to the invoices
-/

namespace Http.Analytics

inductive Bucket
  | day
  | week
  | month
  deriving DecidableEq

structure SeriesPoint where
  period : List Char
  count : ℕ
  volume : ℤ
  deriving DecidableEq

def maxBuckets : ℕ := 1000

def settledStatuses : List String := ["Paid", "Released"]

/-! ## Buckets -/

/-- The start of the bucket that contains a date. Weeks start on Monday. -/
def truncateUtc (date : Date) (bucket : Bucket) : Date := do
  let y ← getUTCFullYear date
  let m ← getUTCMonth date
  let d ← getUTCDate date
  match bucket with
  | .month => dateUTC y m 1
  | .week =>
    let daysSinceMonday := ((← getUTCDay date) + 6) % 7
    dateUTC y m (d - daysSinceMonday)
  | .day => dateUTC y m d

def nextBucket (date : Date) (bucket : Bucket) : Date := do
  let y ← getUTCFullYear date
  let m ← getUTCMonth date
  let d ← getUTCDate date
  match bucket with
  | .month => dateUTC y (m + 1) 1
  | .week => dateUTC y m (d + 7)
  | .day => dateUTC y m (d + 1)

def periodKey (date : Date) : Except String (List Char) := do
  return (← toISOString date).take 10

/-- `date <= date'`: an invalid date does not compare. -/
def atMost : Date → Date → Bool
  | some ms, some ms' => ms ≤ ms'
  | _, _ => false

/-- The loop of `listPeriods`, which is left when it has pushed too many. -/
def listPeriods.loop (last : Date) (bucket : Bucket) (cur : Date) (periods : List (List Char)) :
    Except String (List (List Char)) :=
  if atMost cur last then
    match periodKey cur with
    | .error e => .error e
    | .ok period =>
      let pushed := periods ++ [period]
      if maxBuckets < pushed.length then .ok pushed
      else listPeriods.loop last bucket (nextBucket cur bucket) pushed
  else .ok periods
termination_by maxBuckets + 1 - periods.length
decreasing_by simp_wf; grind

/-- Every bucket start from `start` to `last`. -/
def listPeriods (start last : Date) (bucket : Bucket) : Except String (List (List Char)) :=
  listPeriods.loop last bucket (truncateUtc start bucket) []

/-! ## The series -/

structure SeriesOptions where
  bucket : Bucket
  start : Date
  last : Date
  merchant : Option String
  token : Option String

/-- The `$match` stage. A merchant or a token that is empty is not asked for. -/
def SeriesOptions.matches (options : SeriesOptions) (invoice : InvoiceRecord) : Bool :=
  let createdAt := some (storedTime invoice.createdAt)
  atMost options.start createdAt && atMost createdAt options.last &&
    (options.merchant.filter (· ≠ "")).all (invoice.merchantAddress = ·) &&
    (options.token.filter (· ≠ "")).all (invoice.token = ·)

/-- A row of the aggregation. -/
structure Row where
  id : Date
  count : ℕ
  volume : ℤ

/-- The row of a group of invoices. -/
def Row.of (id : Date) (group : List InvoiceRecord) : Row where
  id := id
  count := group.length
  volume := (group.map fun invoice =>
    if invoice.status ∈ settledStatuses then invoice.amount else 0).sum

section Series

variable (dateTrunc : Date → Bucket → Date)

/-- The rows that the database gives for the invoices: those that match, grouped by the truncation
of the date they were created at, and sorted by it. -/
def aggregate (options : SeriesOptions) (invoices : List InvoiceRecord) : List Row :=
  let matched := invoices.filter options.matches
  let id := fun invoice : InvoiceRecord =>
    dateTrunc (some (storedTime invoice.createdAt)) options.bucket
  let rows := (matched.map id).dedup.map fun i => Row.of i (matched.filter (id · = i))
  rows.mergeSort fun row row' => atMost row.id row'.id

/-- Of the rows with one key, a map keeps the last. -/
def lookup (byPeriod : List (List Char × Row)) (period : List Char) : Option Row :=
  (byPeriod.reverse.find? (·.1 = period)).map (·.2)

def buildSeries (options : SeriesOptions) (invoices : List InvoiceRecord) :
    Except String (List SeriesPoint) := do
  let rows := aggregate dateTrunc options invoices
  let byPeriod ← rows.mapM fun row => do return (← periodKey row.id, row)
  let periods ← listPeriods options.start options.last options.bucket
  return periods.map fun period => {
    period
    count := ((lookup byPeriod period).map (·.count)).getD 0
    volume := ((lookup byPeriod period).map (·.volume)).getD 0 }

/-! ## The route -/

/-- A query for a series. Its dates are in seconds. -/
structure SeriesQuery where
  bucket : Bucket
  startDate : Option ℤ
  endDate : Option ℤ
  merchant : Option String
  token : Option String

/-- The length of a range without a start: 30 days, 12 weeks or 12 months. -/
def defaultRangeMs : Bucket → ℤ
  | .day => 30 * 86400000
  | .week => 12 * 7 * 86400000
  | .month => 365 * 86400000

/-- The range that a query is about. -/
def SeriesQuery.options (query : SeriesQuery) (now : Date) : SeriesOptions :=
  let last := query.endDate.elim now fun seconds => newDate (seconds * 1000)
  let start := query.startDate.elim (last.bind fun ms => newDate (ms - defaultRangeMs query.bucket))
    fun seconds => newDate (seconds * 1000)
  ⟨query.bucket, start, last, query.merchant, query.token⟩

inductive SeriesResponse
  | series (bucket : Bucket) (startDate endDate : Option ℤ) (points : List SeriesPoint)
  | badRequest (error : String)
  | failed (error : String)

def Bucket.name : Bucket → String
  | .day => "day"
  | .week => "week"
  | .month => "month"

def rangeTooLarge (bucket : Bucket) : String :=
  "Range too large: at most " ++ toString maxBuckets ++ " " ++ bucket.name ++ " buckets per request"

/-- What `GET /metrics` answers to a query with a bucket. -/
def metricsSeries (query : SeriesQuery) (now : Date) (invoices : List InvoiceRecord) :
    SeriesResponse :=
  let options := query.options now
  let series : Except String SeriesResponse := do
    if options.start.any fun ms => options.last.any (· < ms) then
      return .badRequest "start_date must be before end_date"
    let periods ← listPeriods options.start options.last options.bucket
    if maxBuckets < periods.length then return .badRequest (rangeTooLarge options.bucket)
    let points ← buildSeries dateTrunc options invoices
    return .series options.bucket (options.start.map (· / 1000)) (options.last.map (· / 1000)) points
  match series with
  | .ok response => response
  | .error _ => .failed "Failed to fetch analytics metrics"

end Series

/-! ## The grid of the buckets -/

/-- The buckets, as a grid on the days. -/
def spans : Bucket → Grid ℤ
  | .day => Grid.uniform 1 (by decide) 0
  | .week => Grid.uniform 7 (by decide) (-3)
  | .month => months

/-- The buckets, as a grid on the times. -/
def buckets (bucket : Bucket) : Grid ℤ :=
  (Grid.uniform 86400000 (by decide) 0).comp (spans bucket)

variable {bucket : Bucket} {t k last : ℤ}

theorem start_buckets (bucket : Bucket) (k : ℤ) :
    (buckets bucket).start k = (spans bucket).start k * 86400000 := by
  change 86400000 * (spans bucket).start k + 0 = _
  omega

theorem floor_buckets (bucket : Bucket) (t : ℤ) :
    (buckets bucket).floor t = (spans bucket).floor (t / 86400000) * 86400000 := by
  have hcell : (buckets bucket).cell t = (spans bucket).cell ((t - 0) / 86400000) := rfl
  rw [Grid.floor, start_buckets, hcell, sub_zero]
  rfl

theorem day_start_buckets (bucket : Bucket) (k : ℤ) :
    (buckets bucket).start k / 86400000 = (spans bucket).start k := by
  rw [start_buckets]
  omega

/-- **A date is truncated** to the first time of its cell. -/
theorem truncateUtc_eq (h : 100 ≤ (civil (t / 86400000)).1) :
    truncateUtc (some t) bucket = newDate ((buckets bucket).floor t) := by
  rw [floor_buckets]
  cases bucket with
  | day =>
    have hday := dateUTC_civil h 0
    have hfloor : (spans .day).floor (t / 86400000) = t / 86400000 + 0 := by
      change 1 * ((t / 86400000 - 0) / 1) + 0 = _
      omega
    rw [hfloor, ← hday, add_zero]
    rfl
  | week =>
    have hweek := dateUTC_civil h (-(((t / 86400000 + 4) % 7 + 6) % 7))
    have hfloor : (spans .week).floor (t / 86400000) =
        t / 86400000 + -(((t / 86400000 + 4) % 7 + 6) % 7) := by
      change 7 * ((t / 86400000 - -3) / 7) + -3 = _
      omega
    rw [hfloor, ← hweek]
    rfl
  | month =>
    have hmonth := dateUTC_month h 0 1
    rw [add_zero, add_zero, add_sub_cancel_right] at hmonth
    exact hmonth

/-- **The next bucket** after a cell is the next cell. -/
theorem nextBucket_eq (h : 100 ≤ (civil ((spans bucket).start k)).1) :
    nextBucket (some ((buckets bucket).start k)) bucket =
      newDate ((buckets bucket).start (k + 1)) := by
  have hdays := day_start_buckets bucket k
  rw [← hdays] at h
  rw [start_buckets bucket (k + 1)]
  cases bucket with
  | day =>
    have hday := dateUTC_civil h 1
    have hnext : (spans .day).start (k + 1) = (spans .day).start k + 1 := by
      change 1 * (k + 1) + 0 = 1 * k + 0 + 1
      omega
    rw [hnext, ← hdays, ← hday]
    rfl
  | week =>
    have hweek := dateUTC_civil h 7
    have hnext : (spans .week).start (k + 1) = (spans .week).start k + 7 := by
      change 7 * (k + 1) + -3 = 7 * k + -3 + 7
      omega
    rw [hnext, ← hdays, ← hweek]
    rfl
  | month =>
    have hcell : monthOf ((buckets .month).start k / 86400000) = k := by
      rw [hdays]
      exact months.cell_start k
    have hmonth := dateUTC_month h 1 1
    rw [hcell, add_sub_cancel_right] at hmonth
    exact hmonth

/-! ## The times of a range -/

/-- The start of the week of the epoch. -/
def firstTime : ℤ := -259200000

/-- The end of the year 9999. -/
def endOfTime : ℤ := 253402300799999

example : isoText endOfTime = "9999-12-31T23:59:59.999Z".toList := by decide

theorem civil_year_of_time (h : firstTime ≤ t) (h' : t ≤ endOfTime) :
    100 ≤ (civil (t / 86400000)).1 ∧ (civil (t / 86400000)).1 ≤ 9999 := by
  rw [firstTime] at h
  rw [endOfTime] at h'
  obtain ⟨hle, hge⟩ := civil_year (n := t / 86400000) (by omega) (by omega)
  exact ⟨by omega, hge⟩

theorem newDate_eq (h : firstTime ≤ t) (h' : t ≤ endOfTime) : newDate t = some t := by
  rw [firstTime] at h
  rw [endOfTime] at h'
  exact if_pos (abs_le.mpr ⟨by rw [maxTime]; omega, by rw [maxTime]; omega⟩)

theorem firstTime_le_floor (bucket : Bucket) (h : 0 ≤ t) :
    firstTime ≤ (buckets bucket).floor t := by
  have hzero : firstTime ≤ (buckets bucket).floor 0 := by
    cases bucket <;> decide
  exact hzero.trans ((buckets bucket).start_strictMono.monotone ((buckets bucket).cell_mono h))

theorem periodKey_eq (h : firstTime ≤ t) (h' : t ≤ endOfTime) :
    periodKey (some t) = .ok (dayText (t / 86400000)) := by
  obtain ⟨hyear, hyear'⟩ := civil_year_of_time h h'
  rw [← isoText_take (by omega) hyear']
  rfl

/-- An invalid date lies beyond the range, as does a valid one that compares so. -/
theorem atMost_newDate (h : firstTime ≤ t) (hlast : last ≤ endOfTime) :
    atMost (newDate t) (some last) = decide (t ≤ last) := by
  rw [newDate]
  split
  · rfl
  · next hinvalid =>
    rw [firstTime] at h
    rw [endOfTime] at hlast
    have hbeyond : ¬t ≤ last := by
      intro hle
      exact hinvalid (abs_le.mpr ⟨by rw [maxTime]; omega, by rw [maxTime]; omega⟩)
    rw [decide_eq_false hbeyond]
    rfl

/-- The text of a cell. -/
def period (bucket : Bucket) (k : ℤ) : List Char := dayText ((spans bucket).start k)

section Loop

variable {n : ℕ} {periods : List (List Char)} (hlast : last ≤ endOfTime)
  (hk : firstTime ≤ (buckets bucket).start k)

include hlast hk

theorem loop_stop (h : last < (buckets bucket).start k) :
    listPeriods.loop (some last) bucket (newDate ((buckets bucket).start k)) periods =
      .ok periods := by
  rw [listPeriods.loop, atMost_newDate hk hlast, decide_eq_false (not_le.mpr h)]
  rfl

theorem loop_step (h : (buckets bucket).start k ≤ last) :
    listPeriods.loop (some last) bucket (newDate ((buckets bucket).start k)) periods =
      if maxBuckets < periods.length + 1 then .ok (periods ++ [period bucket k])
      else listPeriods.loop (some last) bucket (newDate ((buckets bucket).start (k + 1)))
        (periods ++ [period bucket k]) := by
  have hend := h.trans hlast
  have hyear := (civil_year_of_time hk hend).1
  rw [day_start_buckets] at hyear
  rw [listPeriods.loop, atMost_newDate hk hlast, decide_eq_true h, if_pos rfl, newDate_eq hk hend,
    periodKey_eq hk hend, day_start_buckets, nextBucket_eq hyear]
  simp only [List.length_append, List.length_singleton]
  rfl

/-- **The loop walks through the cells.** -/
theorem loop_eq (hn : n + periods.length = maxBuckets) :
    listPeriods.loop (some last) bucket (newDate ((buckets bucket).start k)) periods =
      .ok (periods ++ ((buckets bucket).walk last (n + 1) k).map (period bucket)) := by
  induction n generalizing k periods with
  | zero =>
    rw [Grid.walk]
    rcases le_or_gt ((buckets bucket).start k) last with hle | hlt
    · -- the last push that there is room for
      rw [loop_step hlast hk hle, if_pos (by omega), if_pos hle]
      rfl
    · rw [loop_stop hlast hk hlt, if_neg (not_le.mpr hlt)]
      simp
  | succ n ih =>
    rw [Grid.walk]
    rcases le_or_gt ((buckets bucket).start k) last with hle | hlt
    · have hnext := hk.trans ((buckets bucket).start_strictMono (Int.lt_succ k)).le
      rw [loop_step hlast hk hle, if_neg (by omega), if_pos hle,
        ih hnext (by simp only [List.length_append, List.length_singleton]; omega)]
      simp
    · rw [loop_stop hlast hk hlt, if_neg (not_le.mpr hlt)]
      simp

end Loop

variable {start : ℤ}

/-- **The buckets listed** are the cells of the range, up to one more than the most. -/
theorem listPeriods_eq_walk (hstart : 0 ≤ start) (hle : start ≤ last) (hlast : last ≤ endOfTime) :
    listPeriods (some start) (some last) bucket =
      .ok (((buckets bucket).walk last (maxBuckets + 1) ((buckets bucket).cell start)).map
        (period bucket)) := by
  have hfirst := firstTime_le_floor bucket hstart
  have hyear := (civil_year_of_time (t := start) (by rw [firstTime]; omega) (hle.trans hlast)).1
  rw [listPeriods, truncateUtc_eq hyear, Grid.floor, loop_eq hlast hfirst (by rfl)]
  rfl

/-! ## The buckets of a range -/

theorem start_le_of_mem_between (h : k ∈ (buckets bucket).between start last) :
    (buckets bucket).start k ≤ last :=
  (buckets bucket).start_le_iff.mpr ((buckets bucket).mem_between.mp h).2

theorem firstTime_le_of_mem_between (hstart : 0 ≤ start)
    (h : k ∈ (buckets bucket).between start last) : firstTime ≤ (buckets bucket).start k :=
  (firstTime_le_floor bucket hstart).trans
    ((buckets bucket).start_strictMono.monotone ((buckets bucket).mem_between.mp h).1)

theorem truncateUtc_some (h : firstTime ≤ (buckets bucket).floor t) (ht : t ≤ endOfTime) :
    truncateUtc (some t) bucket = some ((buckets bucket).floor t) := by
  have hyear := (civil_year_of_time (h.trans (buckets bucket).floor_le) ht).1
  rw [truncateUtc_eq hyear, newDate_eq h ((buckets bucket).floor_le.trans ht)]

/-- A time of the range is truncated to the first time of its cell. -/
theorem truncateUtc_of_mem (hstart : 0 ≤ start) (hlast : last ≤ endOfTime) (hs : start ≤ t)
    (ht : t ≤ last) : truncateUtc (some t) bucket = some ((buckets bucket).floor t) :=
  truncateUtc_some (firstTime_le_floor bucket (hstart.trans hs)) (ht.trans hlast)

/-- A range spans as many buckets as it has cells. -/
theorem card_truncateUtc (hstart : 0 ≤ start) (hle : start ≤ last) (hlast : last ≤ endOfTime) :
    ((Finset.Icc start last).image fun t => truncateUtc (some t) bucket).card =
      ((buckets bucket).between start last).length := by
  have himage : ((Finset.Icc start last).image fun t => truncateUtc (some t) bucket) =
      ((Finset.Icc start last).image (buckets bucket).floor).image some := by
    rw [Finset.image_image]
    refine Finset.image_congr fun t ht => ?_
    obtain ⟨hs, ht⟩ := Finset.mem_Icc.mp ht
    exact truncateUtc_of_mem hstart hlast hs ht
  rw [himage, Finset.card_image_of_injective _ (Option.some_injective ℤ),
    Grid.card_image_floor _ hle]

/-- **The buckets listed** are the cells of the range, if they are not too many. -/
theorem listPeriods_eq (hstart : 0 ≤ start) (hle : start ≤ last) (hlast : last ≤ endOfTime)
    (hspan : ((buckets bucket).between start last).length ≤ maxBuckets) :
    listPeriods (some start) (some last) bucket =
      .ok (((buckets bucket).between start last).map (period bucket)) := by
  rw [listPeriods_eq_walk hstart hle hlast, Grid.walk_eq_between _ (Nat.le_succ_of_le hspan)]

/-- Later cells have later texts. -/
theorem period_lt {k' : ℤ} (h : k < k') (hk : firstTime ≤ (buckets bucket).start k)
    (hk' : (buckets bucket).start k' ≤ endOfTime) : period bucket k < period bucket k' := by
  have hstarts := (buckets bucket).start_strictMono h
  obtain ⟨hyear, -⟩ := civil_year_of_time hk (hstarts.le.trans hk')
  obtain ⟨-, hyear'⟩ := civil_year_of_time (hk.trans hstarts.le) hk'
  rw [day_start_buckets] at hyear hyear'
  exact dayText_lt ((spans bucket).start_strictMono h) (by omega) hyear'

theorem pairwise_period (hstart : 0 ≤ start) (hlast : last ≤ endOfTime) :
    (((buckets bucket).between start last).map (period bucket)).Pairwise (· < ·) := by
  rw [List.pairwise_map]
  refine (buckets bucket).pairwise_between.imp_of_mem fun hk hk' h => ?_
  exact period_lt h (firstTime_le_of_mem_between hstart hk)
    ((start_le_of_mem_between hk').trans hlast)

theorem period_inj (hstart : 0 ≤ start) (hlast : last ≤ endOfTime) {k' : ℤ}
    (hk : k ∈ (buckets bucket).between start last)
    (hk' : k' ∈ (buckets bucket).between start last) (h : period bucket k = period bucket k') :
    k = k' := by
  have hnodup : (((buckets bucket).between start last).map (period bucket)).Nodup := by
    refine (pairwise_period hstart hlast).imp ?_
    rintro text _ hlt rfl
    exact List.lt_irrefl text hlt
  exact List.inj_on_of_nodup_map hnodup hk hk' h

/-! ## The counts -/

/-- The text that a row is looked up under. -/
def Row.text (row : Row) : List Char := dayText (row.id.getD 0 / 86400000)

theorem Row.text_eq {row : Row} (h : row.id = some ((buckets bucket).start k)) :
    row.text = period bucket k := by
  rw [Row.text, h, Option.getD_some, day_start_buckets, period]

section Counts

variable {dateTrunc : Date → Bucket → Date} {options : SeriesOptions}
  {invoices : List InvoiceRecord} {invoice : InvoiceRecord} {row : Row}

theorem mem_aggregate : row ∈ aggregate dateTrunc options invoices ↔
    ∃ invoice ∈ invoices.filter options.matches,
      row = Row.of (dateTrunc (some (storedTime invoice.createdAt)) options.bucket)
        ((invoices.filter options.matches).filter fun i =>
          dateTrunc (some (storedTime i.createdAt)) options.bucket =
            dateTrunc (some (storedTime invoice.createdAt)) options.bucket) := by
  simp only [aggregate, List.mem_mergeSort, List.mem_map, List.mem_dedup]
  constructor
  · rintro ⟨id, ⟨invoice, hinvoice, rfl⟩, rfl⟩
    exact ⟨invoice, hinvoice, rfl⟩
  · rintro ⟨invoice, hinvoice, rfl⟩
    exact ⟨_, ⟨invoice, hinvoice, rfl⟩, rfl⟩

/-- The cell that an invoice was created in. -/
def cellOf (bucket : Bucket) (invoice : InvoiceRecord) : ℤ :=
  (buckets bucket).cell (storedTime invoice.createdAt)

/-- **The invoices that match** were created in the range, and are of the merchant and of the token
that are asked for. -/
theorem matches_iff (hs : options.start = some start) (hl : options.last = some last) :
    options.matches invoice ↔
      (start ≤ storedTime invoice.createdAt ∧ storedTime invoice.createdAt ≤ last) ∧
        (∀ merchant, options.merchant = some merchant → merchant ≠ "" →
          invoice.merchantAddress = merchant) ∧
        ∀ token, options.token = some token → token ≠ "" → invoice.token = token := by
  have hfilter : ∀ (asked : Option String) (text : String),
      (asked.filter (· ≠ "")).all (text = ·) ↔
        ∀ other, asked = some other → other ≠ "" → text = other := by
    intro asked text
    cases asked with
    | none => simp
    | some other => by_cases hother : other = "" <;> simp [Option.filter, hother]
  simp only [SeriesOptions.matches, hs, hl, atMost, Bool.and_eq_true, decide_eq_true_eq, hfilter,
    and_assoc]

/-- What a lookup finds is in the map, under its text. -/
theorem lookup_eq_some {byPeriod : List (List Char × Row)} {text : List Char}
    (h : lookup byPeriod text = some row) : (text, row) ∈ byPeriod := by
  obtain ⟨entry, hfind, rfl⟩ := Option.map_eq_some_iff.mp h
  have hkey := List.find?_some hfind
  rw [decide_eq_true_eq] at hkey
  rw [← hkey]
  exact List.mem_reverse.mp (List.mem_of_find?_eq_some hfind)

theorem lookup_eq_none {byPeriod : List (List Char × Row)} {text : List Char}
    (h : lookup byPeriod text = none) : (text, row) ∉ byPeriod := by
  intro hmem
  have hfind := List.find?_eq_none.mp (Option.map_eq_none_iff.mp h) _ (List.mem_reverse.mpr hmem)
  simp at hfind

variable (hstart : 0 ≤ start) (hlast : last ≤ endOfTime) (hs : options.start = some start)
  (hl : options.last = some last)
  (htrunc : ∀ t, start ≤ t → t ≤ last →
    dateTrunc (some t) options.bucket = truncateUtc (some t) options.bucket)

include hstart hlast hs hl htrunc

/-- The database groups an invoice that matches by the first time of its cell. -/
theorem dateTrunc_of_matches (h : options.matches invoice) :
    cellOf options.bucket invoice ∈ (buckets options.bucket).between start last ∧
      dateTrunc (some (storedTime invoice.createdAt)) options.bucket =
        some ((buckets options.bucket).start (cellOf options.bucket invoice)) := by
  obtain ⟨hle, hge⟩ := ((matches_iff hs hl).mp h).1
  rw [cellOf, htrunc _ hle hge, truncateUtc_of_mem hstart hlast hle hge]
  exact ⟨Grid.mem_between_cell _ hle hge, rfl⟩

/-- A row of the aggregation is that of a cell, and counts the invoices in it. -/
theorem exists_cell_of_mem_aggregate (h : row ∈ aggregate dateTrunc options invoices) :
    ∃ k ∈ (buckets options.bucket).between start last,
      row.id = some ((buckets options.bucket).start k) ∧
      row.count = (invoices.filter options.matches).countP (cellOf options.bucket · = k) := by
  obtain ⟨invoice, hinvoice, rfl⟩ := mem_aggregate.mp h
  obtain ⟨hcell, hid⟩ :=
    dateTrunc_of_matches hstart hlast hs hl htrunc (List.mem_filter.mp hinvoice).2
  refine ⟨cellOf options.bucket invoice, hcell, hid, ?_⟩
  rw [List.countP_eq_length_filter]
  refine congrArg List.length (List.filter_congr fun other hother => ?_)
  obtain ⟨-, hid'⟩ := dateTrunc_of_matches hstart hlast hs hl htrunc (List.mem_filter.mp hother).2
  rw [hid, hid']
  exact decide_eq_decide.mpr (Option.some_inj.trans (Grid.start_inj _))

/-- Every invoice that matches is in the row of a cell. -/
theorem exists_row_of_mem (h : invoice ∈ invoices.filter options.matches) :
    ∃ row ∈ aggregate dateTrunc options invoices,
      row.id = some ((buckets options.bucket).start (cellOf options.bucket invoice)) :=
  ⟨_, mem_aggregate.mpr ⟨invoice, h, rfl⟩,
    (dateTrunc_of_matches hstart hlast hs hl htrunc (List.mem_filter.mp h).2).2⟩

theorem periodKey_of_mem_aggregate (h : row ∈ aggregate dateTrunc options invoices) :
    periodKey row.id = .ok row.text := by
  obtain ⟨k, hk, hid, -⟩ := exists_cell_of_mem_aggregate hstart hlast hs hl htrunc h
  rw [Row.text, hid]
  exact periodKey_eq (firstTime_le_of_mem_between hstart hk)
    ((start_le_of_mem_between hk).trans hlast)

/-- **The count of a cell** is the number of invoices created in it. -/
theorem count_lookup (hk : k ∈ (buckets options.bucket).between start last) :
    ((lookup ((aggregate dateTrunc options invoices).map fun row => (row.text, row))
      (period options.bucket k)).map (·.count)).getD 0 =
      (invoices.filter options.matches).countP (cellOf options.bucket · = k) := by
  cases hlookup : lookup _ (period options.bucket k) with
  | none =>
    -- an invoice of the cell would have a row
    refine (List.countP_eq_zero.mpr fun invoice hinvoice hcell => ?_).symm
    obtain ⟨row, hrow, hid⟩ := exists_row_of_mem hstart hlast hs hl htrunc hinvoice
    rw [of_decide_eq_true hcell] at hid
    exact lookup_eq_none hlookup (List.mem_map.mpr ⟨row, hrow, by rw [Row.text_eq hid]⟩)
  | some row =>
    obtain ⟨row', hrow, heq⟩ := List.mem_map.mp (lookup_eq_some hlookup)
    obtain ⟨htext, rfl⟩ := Prod.mk.inj heq
    obtain ⟨k', hk', hid, hcount⟩ :=
      exists_cell_of_mem_aggregate hstart hlast hs hl htrunc hrow
    rw [Row.text_eq hid] at htext
    rw [Option.map_some, Option.getD_some, hcount, period_inj hstart hlast hk' hk htext]

variable (invoices) in
/-- **The series has a point for every cell**, with its count. -/
theorem buildSeries_eq (hle : start ≤ last)
    (hspan : ((buckets options.bucket).between start last).length ≤ maxBuckets) :
    ∃ series, buildSeries dateTrunc options invoices = .ok series ∧
      series.map (·.period) = ((buckets options.bucket).between start last).map
        (period options.bucket) ∧
      series.map (·.count) = ((buckets options.bucket).between start last).map fun k =>
        (invoices.filter options.matches).countP (cellOf options.bucket · = k) := by
  have hrows : ((aggregate dateTrunc options invoices).mapM fun row => do
      return (← periodKey row.id, row)) =
        .ok ((aggregate dateTrunc options invoices).map fun row => (row.text, row)) := by
    refine Checked.mapM_eq_ok fun row hrow => ?_
    rw [periodKey_of_mem_aggregate hstart hlast hs hl htrunc hrow]
    rfl
  have hperiods := listPeriods_eq hstart hle hlast hspan
  rw [buildSeries, hrows, hs, hl, hperiods]
  refine ⟨_, rfl, ?_, ?_⟩
  · rw [List.map_map, List.map_map]
    rfl
  · rw [List.map_map, List.map_map]
    refine List.map_congr_left fun k hk => ?_
    exact count_lookup hstart hlast hs hl htrunc hk

/-- **The route refuses a range** exactly if it spans too many buckets, and otherwise answers with
its series. -/
theorem metricsSeries_eq {query : SeriesQuery} {now : Date} (hoptions : query.options now = options)
    (hle : start ≤ last) :
    (maxBuckets < ((buckets options.bucket).between start last).length ∧
      metricsSeries dateTrunc query now invoices = .badRequest (rangeTooLarge options.bucket)) ∨
    (((buckets options.bucket).between start last).length ≤ maxBuckets ∧
      ∃ series, buildSeries dateTrunc options invoices = .ok series ∧
        metricsSeries dateTrunc query now invoices =
          .series options.bucket (some (start / 1000)) (some (last / 1000)) series) := by
  have hrange : ¬((some start).any fun ms => (some last).any (· < ms)) := by
    simpa using hle
  have hok : ∀ {α β : Type} (a : α) (f : α → Except String β), (.ok a >>= f) = f a := by
    intro α β a f
    rfl
  have hlength := (buckets options.bucket).length_walk (s := start) (e := last)
    (n := maxBuckets + 1)
  rcases lt_or_ge maxBuckets ((buckets options.bucket).between start last).length with hlt | hge
  · refine Or.inl ⟨hlt, ?_⟩
    have hlong : maxBuckets < (((buckets options.bucket).walk last (maxBuckets + 1)
        ((buckets options.bucket).cell start)).map (period options.bucket)).length := by
      rw [List.length_map, hlength]
      omega
    simp only [metricsSeries, hoptions, hs, hl, if_neg hrange,
      listPeriods_eq_walk hstart hle hlast, hok, if_pos hlong]
    rfl
  · obtain ⟨series, hseries, -⟩ :=
      buildSeries_eq invoices hstart hlast hs hl htrunc hle hge
    refine Or.inr ⟨hge, series, hseries, ?_⟩
    have hshort : ¬maxBuckets <
        (((buckets options.bucket).between start last).map (period options.bucket)).length := by
      rw [List.length_map]
      omega
    simp only [metricsSeries, hoptions, hs, hl, if_neg hrange, listPeriods_eq hstart hle hlast hge,
      hok, if_neg hshort, hseries]
    rfl

/-- The counts add up to the invoices that match. -/
theorem sum_countP_cellOf :
    (((buckets options.bucket).between start last).map fun k =>
      (invoices.filter options.matches).countP (cellOf options.bucket · = k)).sum =
      (invoices.filter options.matches).length := by
  have hnodup : ((buckets options.bucket).between start last).Nodup :=
    (buckets options.bucket).pairwise_between.imp ne_of_lt
  refine sum_countP_eq_length (cellOf options.bucket) hnodup fun invoice hinvoice => ?_
  exact (dateTrunc_of_matches hstart hlast hs hl htrunc (List.mem_filter.mp hinvoice).2).1

end Counts

/-- The starts of buckets divide a range of times. -/
structure Divides (bucket : Bucket) (start last : ℤ) (starts : List ℤ) : Prop where
  increasing : starts.Pairwise (· < ·)
  isStart : ∀ s ∈ starts, truncateUtc (some s) bucket = some s
  reached : ∀ s ∈ starts, ∃ t, start ≤ t ∧ t ≤ last ∧ truncateUtc (some t) bucket = some s
  covers : ∀ t, start ≤ t → t ≤ last → ∃! s, s ∈ starts ∧ truncateUtc (some t) bucket = some s

/-- The starts of the cells of a range divide it. -/
theorem divides_between (hstart : 0 ≤ start) (hle : start ≤ last) (hlast : last ≤ endOfTime) :
    Divides bucket start last
      (((buckets bucket).between start last).map (buckets bucket).start) where
  increasing := by
    rw [List.pairwise_map]
    exact (buckets bucket).pairwise_between.imp fun h => (buckets bucket).start_strictMono h
  isStart := by
    simp only [List.forall_mem_map]
    intro k hk
    have hfloor : (buckets bucket).floor ((buckets bucket).start k) = (buckets bucket).start k := by
      rw [Grid.floor, Grid.cell_start]
    have hfirst := firstTime_le_of_mem_between hstart hk
    rw [← hfloor] at hfirst
    rw [truncateUtc_some hfirst ((start_le_of_mem_between hk).trans hlast), hfloor]
  reached := by
    simp only [List.forall_mem_map]
    intro k hk
    obtain ⟨t, hs, ht, hfloor⟩ := (buckets bucket).exists_floor_eq hle hk
    exact ⟨t, hs, ht, by rw [truncateUtc_of_mem hstart hlast hs ht, hfloor]⟩
  covers t hs ht := by
    obtain ⟨k, ⟨hk, hfloor⟩, hunique⟩ := (buckets bucket).existsUnique_between hs ht
    rw [truncateUtc_of_mem hstart hlast hs ht, hfloor]
    refine ⟨(buckets bucket).start k, ⟨List.mem_map_of_mem hk, rfl⟩, ?_⟩
    rintro s ⟨-, heq⟩
    exact (Option.some_inj.mp heq).symm

/-- **The buckets divide the range**, and the counts of the series add up to the invoices in it. The
truncation of the database is that of the backend. -/
theorem buildSeries_partition (dateTrunc : Date → Bucket → Date) (options : SeriesOptions)
    (invoices : List InvoiceRecord) (hs : options.start = some start)
    (hl : options.last = some last) (hstart : 0 ≤ start) (hle : start ≤ last)
    (hlast : last ≤ endOfTime)
    (hspan : ((Finset.Icc start last).image fun t => truncateUtc (some t) options.bucket).card ≤
      maxBuckets)
    (htrunc : ∀ t, start ≤ t → t ≤ last →
      dateTrunc (some t) options.bucket = truncateUtc (some t) options.bucket) :
    ∃ starts periods series,
      (Divides options.bucket start last starts ∧
        listPeriods options.start options.last options.bucket = .ok periods ∧
        (starts.mapM fun s => periodKey (some s)) = .ok periods ∧ periods.Pairwise (· < ·)) ∧
      buildSeries dateTrunc options invoices = .ok series ∧ series.map (·.period) = periods ∧
        (series.map (·.count)).sum = (invoices.filter options.matches).length := by
  rw [card_truncateUtc hstart hle hlast] at hspan
  obtain ⟨series, hseries, hperiods, hcounts⟩ :=
    buildSeries_eq invoices hstart hlast hs hl htrunc hle hspan
  refine ⟨_, _, series, ⟨divides_between hstart hle hlast, ?_, ?_, pairwise_period hstart hlast⟩,
    hseries, hperiods, ?_⟩
  · rw [hs, hl]
    exact listPeriods_eq hstart hle hlast hspan
  · rw [List.mapM_map]
    refine Checked.mapM_eq_ok fun k hk => ?_
    rw [Function.comp_apply, periodKey_eq (firstTime_le_of_mem_between hstart hk)
      ((start_le_of_mem_between hk).trans hlast), day_start_buckets, period]
  · rw [hcounts]
    exact sum_countP_cellOf hstart hlast hs hl htrunc

def sample (createdAt : ℤ) : InvoiceRecord where
  invoiceId := "1"
  merchantAddress := "GDR7WUDW"
  token := "USDC"
  amount := 5
  dueDate := .seconds 0
  reference := none
  status := "Paid"
  createdAt := some createdAt
  updatedAt := some createdAt

/-- From the last millisecond of a Sunday to the second of a Monday. -/
theorem buildSeries_partition_weeks :
    ∃ series, buildSeries truncateUtc ⟨.week, some 1709510399999, some 1709510400001, none, none⟩
      [sample 1709510399999, sample 1709510400001, sample 1709510400002] = .ok series ∧
        (series.map (·.count)).sum = 2 := by
  obtain ⟨-, -, series, -, hseries, -, hsum⟩ := buildSeries_partition truncateUtc
    ⟨.week, some 1709510399999, some 1709510400001, none, none⟩
    [sample 1709510399999, sample 1709510400001, sample 1709510400002] rfl rfl (by decide)
    (by decide) (by decide) (Finset.card_image_le.trans (by rw [Int.card_Icc]; decide))
    (fun _ _ _ => rfl)
  exact ⟨series, hseries, hsum.trans (by decide)⟩

end Http.Analytics
