import Mathlib.Algebra.BigOperators.Group.List.Basic
import Mathlib.Data.Char
import Mathlib.Data.List.Lex
import Mathlib.Data.List.Sort
import NomadiCore.EventCounters
import NomadiCore.OpenAtFilter

/-!
# The statistics of a shop

`ShopController::stats` turns the daily counters of a shop into a series for
a chart: the rows are filed under `m/d`, the days between the first and the
last one are filled with zeros, and the series is sorted by its keys.
`displayData` is the series of `display-shop-list` and `displayData2` that of
`display-shop-map`.
-/

namespace NomadiCore.ShopStats

open NomadiCore.EventCounters
open NomadiCore.Library.Calendar
open NomadiCore.Library.RowTable

/-! ## The series -/

abbrev Series := List (String × Nat)

/-- The rows of a category and a shop. -/
def shopRows (counters : Counters) (category cafeId : String) :
    List DailyEventCounter :=
  (counters.rows.select fun entry =>
    entry.row.category = category ∧ entry.row.cafeId = cafeId).map Entry.row

/-- The query, in the order of the days; it names `cafe_id`. -/
def counterRows (counters : Counters) (category cafeId : String) :
    Except Raised (List DailyEventCounter) :=
  match counters.column with
  | .entityId => .error .queryException
  | .cafeId =>
      .ok ((shopRows counters category cafeId).insertionSort
        fun one other => one.eventDate ≤ other.eventDate)

/-- `format('m/d')`. -/
def formatDay (date : Date) : String :=
  String.ofList (twoDigits date.month ++ '/' :: twoDigits date.day)

/-- The `foreach` over the rows. -/
def recordRows (rows : List DailyEventCounter) : Series :=
  rows.foldl
    (fun data row => setField data (formatDay row.eventDate) row.value) []

/-- A day without an entry gets a zero. -/
def fillDay (data : Series) (day : Date) : Series :=
  match getField data (formatDay day) with
  | some _ => data
  | none => setField data (formatDay day) 0

/-- The `while` loop; it does not end within the fuel when it gives `none`. -/
def fillGaps (endDate : Date) : Nat → Date → Series → Option Series
  | 0, _, _ => none
  | fuel + 1, cursor, data =>
      if cursor = endDate then some data
      else fillGaps endDate fuel cursor.next (fillDay data cursor)

def ksort (data : Series) : Series :=
  data.insertionSort fun one other => one.1.toList ≤ other.1.toList

def chartOf (fuel : Nat) (rows : List DailyEventCounter) : Option Series :=
  match rows.head?, rows.getLast? with
  | some first, some last =>
      (fillGaps last.eventDate fuel first.eventDate (recordRows rows)).map
        ksort
  | _, _ => some (recordRows rows)

/-- A series of `stats`. -/
def displayData
    (fuel : Nat) (counters : Counters) (category cafeId : String) :
    Except Raised (Option Series) :=
  (counterRows counters category cafeId).map (chartOf fuel)

/-! ## What the chart should show -/

/-- The value of a day: that of its row, or zero. -/
def valueOn (rows : List DailyEventCounter) (day : Date) : Nat :=
  ((rows.find? fun row => row.eventDate = day).map
    DailyEventCounter.value).getD 0

/-- The day lies between the first and the last day that has a row. -/
def InRange (rows : List DailyEventCounter) (day : Date) : Prop :=
  (∃ row ∈ rows, row.eventDate ≤ day) ∧ ∃ row ∈ rows, day ≤ row.eventDate

/-- One entry for each day of the range, in order, and nothing is lost. -/
structure Complete (rows : List DailyEventCounter) (series : Series) :
    Prop where
  days : ∃ days : List Date,
    days.Pairwise (· < ·) ∧
      (∀ day, day ∈ days ↔ InRange rows day) ∧
      series = days.map fun day => (formatDay day, valueOn rows day)
  sum : (series.map Prod.snd).sum =
    (rows.map DailyEventCounter.value).sum

/-- The chart is made, and it is complete. -/
def ChartRight (counters : Counters) (category cafeId : String) : Prop :=
  ∃ series,
    (∃ enough, ∀ fuel, enough ≤ fuel →
      displayData fuel counters category cafeId = .ok (some series)) ∧
      Complete (shopRows counters category cafeId) series

/-! ## Days and keys -/

theorem formatDay_lt_iff (first second : Date) :
    (formatDay first).toList < (formatDay second).toList ↔
      first.month < second.month ∨
        first.month = second.month ∧ first.day < second.day := by
  have firstMonth := first.inYear
  have secondMonth := second.inYear
  have firstDay := first.day_le
  have secondDay := second.day_le
  have days := @twoDigits_lt first.day second.day (by omega) (by omega) [] []
  simp only [List.append_nil, List.lt_irrefl, and_false, or_false] at days
  have months := @twoDigits_lt first.month second.month (by omega)
    (by omega) ('/' :: twoDigits first.day) ('/' :: twoDigits second.day)
  have slash : ¬ '/' < '/' := by decide
  rw [formatDay, formatDay, String.toList_ofList, String.toList_ofList,
    months, List.cons_lt_cons_iff, days]
  simp only [slash, false_or, true_and]

/-- Within a year the keys are ordered as the days. -/
theorem formatDay_lt_of_year
    {first second : Date} (sameYear : first.year = second.year) :
    (formatDay first).toList < (formatDay second).toList ↔
      first < second := by
  rw [formatDay_lt_iff, Date.lt_iff_code, Date.code_lt_iff]
  omega

theorem formatDay_injective_of_year
    {first second : Date} (sameYear : first.year = second.year)
    (same : formatDay first = formatDay second) :
    first = second := by
  apply le_antisymm
  · rw [← not_lt, ← formatDay_lt_of_year sameYear.symm, same]
    exact lt_irrefl _
  · rw [← not_lt, ← formatDay_lt_of_year sameYear, same]
    exact lt_irrefl _

/-! ## The rows and the zeros -/

/-- A key that no row is filed under is left as it was. -/
theorem getField_recordRows_of_none
    {rows : List DailyEventCounter} {key : String} (data : Series)
    (none : ∀ row ∈ rows, formatDay row.eventDate ≠ key) :
    getField
        (rows.foldl
          (fun data row =>
            setField data (formatDay row.eventDate) row.value) data) key =
      getField data key := by
  induction rows generalizing data with
  | nil => rfl
  | cons row rows inductionHypothesis =>
      rw [List.foldl_cons, inductionHypothesis _
        (fun other member => none other (List.mem_cons_of_mem row member)),
        getField_setField,
        if_neg fun same => none row List.mem_cons_self same.symm]

/-- With different keys, a row is read back under its key. -/
theorem getField_recordRows_of_mem
    {rows : List DailyEventCounter} (data : Series)
    (different :
      (rows.map fun row => formatDay row.eventDate).Nodup)
    {row : DailyEventCounter} (member : row ∈ rows) :
    getField
        (rows.foldl
          (fun data row =>
            setField data (formatDay row.eventDate) row.value) data)
        (formatDay row.eventDate) =
      some row.value := by
  induction rows generalizing data with
  | nil => cases member
  | cons head rows inductionHypothesis =>
      rw [List.map_cons, List.nodup_cons] at different
      rw [List.foldl_cons]
      cases member with
      | head =>
          rw [getField_recordRows_of_none, getField_setField, if_pos rfl]
          intro other otherMember same
          exact different.1 (List.mem_map.mpr ⟨other, otherMember, same⟩)
      | tail _ later => exact inductionHypothesis _ different.2 later

theorem recordRows_distinct (rows : List DailyEventCounter) (data : Series)
    (distinct : (data.map Prod.fst).Nodup) :
    ((rows.foldl
        (fun data row =>
          setField data (formatDay row.eventDate) row.value)
        data).map Prod.fst).Nodup := by
  induction rows generalizing data with
  | nil => exact distinct
  | cons row rows inductionHypothesis =>
      exact inductionHypothesis _ (setField_distinct distinct _ _)

theorem getField_fillDay (data : Series) (day : Date) (key : String) :
    getField (fillDay data day) key =
      (getField data key).or
        (if key = formatDay day then some 0 else none) := by
  unfold fillDay
  cases found : getField data (formatDay day) with
  | some value =>
      by_cases same : key = formatDay day
      · simp [same, found]
      · simp [same]
  | none =>
      simp only [getField_setField]
      by_cases same : key = formatDay day
      · simp [same, found]
      · simp [same]

/-- Filling days keeps what is there and adds zeros for the rest. -/
theorem getField_fillDays (days : List Date) (data : Series) (key : String) :
    getField (days.foldl fillDay data) key =
      (getField data key).or
        (if key ∈ days.map formatDay then some 0 else none) := by
  induction days generalizing data with
  | nil => simp
  | cons day days inductionHypothesis =>
      rw [List.foldl_cons, inductionHypothesis, getField_fillDay,
        Option.or_assoc]
      congr 1
      by_cases same : key = formatDay day
      · simp [same]
      · simp [same]

theorem fillDays_distinct (days : List Date) (data : Series)
    (distinct : (data.map Prod.fst).Nodup) :
    ((days.foldl fillDay data).map Prod.fst).Nodup := by
  induction days generalizing data with
  | nil => exact distinct
  | cons day days inductionHypothesis =>
      apply inductionHypothesis
      unfold fillDay
      cases getField data (formatDay day) with
      | some value => exact distinct
      | none => exact setField_distinct distinct _ _

/-- The loop ends, and fills the days before the last one. -/
theorem fillGaps_eq
    {count fuel : Nat} (first : Date) (data : Series)
    (enough : count < fuel) :
    fillGaps (Date.next^[count] first) fuel first data =
      some ((first.daysFrom count).foldl fillDay data) := by
  induction count generalizing first data fuel with
  | zero =>
      obtain ⟨fuel, rfl⟩ : ∃ more, fuel = more + 1 := ⟨fuel - 1, by omega⟩
      simp [fillGaps]
  | succ count inductionHypothesis =>
      obtain ⟨fuel, rfl⟩ : ∃ more, fuel = more + 1 := ⟨fuel - 1, by omega⟩
      have notYet : first ≠ Date.next^[count + 1] first := by
        have further := Date.le_iterate_next first.next count
        exact ne_of_lt (lt_of_lt_of_le first.lt_next further)
      rw [fillGaps, if_neg notYet, Function.iterate_succ_apply,
        inductionHypothesis _ _ (by omega)]
      rfl

/-! ## Values and sums -/

theorem valueOn_of_mem
    {rows : List DailyEventCounter}
    (different : (rows.map DailyEventCounter.eventDate).Nodup)
    {row : DailyEventCounter} (member : row ∈ rows) :
    valueOn rows row.eventDate = row.value := by
  have found := find?_of_distinct different member
  rw [valueOn, found]
  rfl

theorem valueOn_of_none
    {rows : List DailyEventCounter} {day : Date}
    (none : ∀ row ∈ rows, row.eventDate ≠ day) :
    valueOn rows day = 0 := by
  have absent : rows.find? (fun row => row.eventDate = day) = Option.none :=
    List.find?_eq_none.mpr fun row member => by simpa using none row member
  rw [valueOn, absent]
  rfl

/-- One day carries the value, the others nothing. -/
theorem sum_single
    {days : List Date} (different : days.Nodup) {date : Date}
    (member : date ∈ days) (value : Nat) :
    (days.map fun day => if date = day then value else 0).sum = value := by
  induction days with
  | nil => cases member
  | cons day days inductionHypothesis =>
      rw [List.nodup_cons] at different
      rw [List.map_cons, List.sum_cons]
      by_cases here : date = day
      · have rest :
            (days.map fun day => if date = day then value else 0).sum = 0 := by
          apply List.sum_eq_zero
          intro entry isEntry
          obtain ⟨other, otherMember, rfl⟩ := List.mem_map.mp isEntry
          rw [if_neg]
          rintro rfl
          exact different.1 (here ▸ otherMember)
        rw [if_pos here, rest]
        rfl
      · rw [if_neg here, Nat.zero_add]
        exact inductionHypothesis different.2
          ((List.mem_cons.mp member).resolve_left here)

/-- The values of all days add up to the counters. -/
theorem sum_valueOn
    {rows : List DailyEventCounter} {days : List Date}
    (different : (rows.map DailyEventCounter.eventDate).Nodup)
    (distinctDays : days.Nodup)
    (covered : ∀ row ∈ rows, row.eventDate ∈ days) :
    (days.map (valueOn rows)).sum =
      (rows.map DailyEventCounter.value).sum := by
  induction rows with
  | nil =>
      apply List.sum_eq_zero
      intro entry isEntry
      obtain ⟨day, -, rfl⟩ := List.mem_map.mp isEntry
      rfl
  | cons row rows inductionHypothesis =>
      rw [List.map_cons, List.nodup_cons] at different
      have split : ∀ day,
          valueOn (row :: rows) day =
            (if row.eventDate = day then row.value else 0) +
              valueOn rows day := by
        intro day
        by_cases here : row.eventDate = day
        · have none : ∀ other ∈ rows, other.eventDate ≠ day := by
            rintro other otherMember rfl
            exact different.1 (List.mem_map.mpr
              ⟨other, otherMember, here.symm⟩)
          rw [valueOn_of_none none]
          simp [valueOn, here]
        · simp [valueOn, here]
      rw [List.map_congr_left (fun day _ => split day), List.sum_map_add,
        sum_single distinctDays (covered row List.mem_cons_self),
        inductionHypothesis different.2
          (fun other member => covered other
            (List.mem_cons_of_mem row member)),
        List.map_cons, List.sum_cons]

/-! ## Sorting -/

instance totalKeys : Std.Total fun one other : String × Nat =>
    one.1.toList ≤ other.1.toList :=
  ⟨fun one other => le_total one.1.toList other.1.toList⟩

instance transKeys : IsTrans (String × Nat) fun one other =>
    one.1.toList ≤ other.1.toList :=
  ⟨fun _ _ _ => le_trans⟩

instance totalDates : Std.Total fun one other : DailyEventCounter =>
    one.eventDate ≤ other.eventDate :=
  ⟨fun one other => le_total one.eventDate other.eventDate⟩

instance transDates : IsTrans DailyEventCounter fun one other =>
    one.eventDate ≤ other.eventDate :=
  ⟨fun _ _ _ => le_trans⟩

theorem ksort_pairwise (data : Series) :
    (ksort data).Pairwise fun one other =>
      one.1.toList ≤ other.1.toList :=
  List.pairwise_insertionSort _ data

/-- Entries with increasing keys are what sorting them in any order gives. -/
theorem ksort_eq_of_perm
    {data sorted : Series} (perm : data.Perm sorted)
    (increasing : sorted.Pairwise fun one other =>
      one.1.toList < other.1.toList) :
    ksort data = sorted := by
  have keys : (sorted.map Prod.fst).Nodup := by
    apply List.Pairwise.map _ _ increasing
    intro one other less same
    rw [same] at less
    exact lt_irrefl _ less
  apply List.Perm.eq_of_pairwise _ (ksort_pairwise data)
    (increasing.imp fun less => less.le)
    ((List.perm_insertionSort _ data).trans perm)
  intro one other oneMember otherMember below above
  have oneStored : one ∈ sorted :=
    perm.mem_iff.mp ((List.perm_insertionSort _ data).mem_iff.mp oneMember)
  exact List.inj_on_of_nodup_map keys oneStored otherMember
    (String.toList_injective (le_antisymm below above))

/-- The first and the last of rows in the order of their days. -/
theorem ends_of_sorted
    {rows : List DailyEventCounter}
    (sorted : rows.Pairwise fun one other =>
      one.eventDate ≤ other.eventDate)
    (someRows : rows ≠ []) :
    ∃ first last,
      (rows.head? = some first ∧ rows.getLast? = some last) ∧
        (first ∈ rows ∧ last ∈ rows) ∧
        ∀ row ∈ rows, first.eventDate ≤ row.eventDate ∧
          row.eventDate ≤ last.eventDate := by
  obtain ⟨first, isFirst⟩ := Option.ne_none_iff_exists'.mp
    (mt List.head?_eq_none_iff.mp someRows)
  obtain ⟨last, isLast⟩ := Option.ne_none_iff_exists'.mp
    (mt List.getLast?_eq_none_iff.mp someRows)
  refine ⟨first, last, ⟨isFirst, isLast⟩,
    ⟨List.mem_of_head? isFirst, List.mem_of_getLast? isLast⟩, ?_⟩
  intro row member
  constructor
  · obtain ⟨tail, rfl⟩ := List.head?_eq_some_iff.mp isFirst
    cases member with
    | head => exact le_rfl
    | tail _ later => exact (List.pairwise_cons.mp sorted).1 row later
  · obtain ⟨front, rfl⟩ := List.getLast?_eq_some_iff.mp isLast
    rcases List.mem_append.mp member with earlier | atLast
    · exact (List.pairwise_append.mp sorted).2.2 row earlier last (by simp)
    · rw [List.mem_singleton.mp atLast]

/-! ## The chart within a year -/

section WithinYear

variable {rows : List DailyEventCounter}

/-- The entries of a range that starts on a day with a row. -/
def entriesOf (rows : List DailyEventCounter) (days : List Date) : Series :=
  days.map fun day => (formatDay day, valueOn rows day)

theorem entriesOf_increasing
    {days : List Date} {year : Nat}
    (ordered : days.Pairwise (· < ·))
    (inYear : ∀ day ∈ days, day.year = year) :
    (entriesOf rows days).Pairwise fun one other =>
      one.1.toList < other.1.toList := by
  rw [entriesOf, List.pairwise_map]
  apply ordered.imp_of_mem
  intro one other oneMember otherMember before
  have sameYear : one.year = other.year := by
    rw [inYear one oneMember, inYear other otherMember]
  exact (formatDay_lt_of_year sameYear).mpr before

/-- Rows on days of one year are filed under keys of their own. -/
theorem keys_distinct
    {days : List Date} {year : Nat}
    (different : (rows.map DailyEventCounter.eventDate).Nodup)
    (covered : ∀ row ∈ rows, row.eventDate ∈ days)
    (inYear : ∀ day ∈ days, day.year = year) :
    (rows.map fun row => formatDay row.eventDate).Nodup := by
  have days : (rows.map fun row => formatDay row.eventDate) =
      (rows.map DailyEventCounter.eventDate).map formatDay := by
    rw [List.map_map]
    rfl
  rw [days]
  apply List.Nodup.map_on _ different
  intro one oneMember other otherMember same
  obtain ⟨oneRow, oneStored, rfl⟩ := List.mem_map.mp oneMember
  obtain ⟨otherRow, otherStored, rfl⟩ := List.mem_map.mp otherMember
  apply formatDay_injective_of_year _ same
  rw [inYear _ (covered oneRow oneStored),
    inYear _ (covered otherRow otherStored)]

/-- What the filled array holds for a day of the range. -/
theorem getField_filled
    {first : Date} {count : Nat} {year : Nat}
    (different : (rows.map DailyEventCounter.eventDate).Nodup)
    (covered : ∀ row ∈ rows, row.eventDate ∈ first.daysFrom (count + 1))
    (lastRow : ∃ row ∈ rows, row.eventDate = Date.next^[count] first)
    (inYear : ∀ day ∈ first.daysFrom (count + 1), day.year = year)
    {day : Date} (inRange : day ∈ first.daysFrom (count + 1)) :
    getField ((first.daysFrom count).foldl fillDay (recordRows rows))
        (formatDay day) =
      some (valueOn rows day) := by
  rw [getField_fillDays]
  by_cases hasRow : ∃ row ∈ rows, row.eventDate = day
  · obtain ⟨row, member, rfl⟩ := hasRow
    have recorded :=
      getField_recordRows_of_mem []
        (keys_distinct different covered inYear) member
    rw [recordRows, recorded, valueOn_of_mem different member]
    rfl
  · have noRow : ∀ row ∈ rows, row.eventDate ≠ day :=
      fun row member same => hasRow ⟨row, member, same⟩
    have unrecorded : getField (recordRows rows) (formatDay day) = none := by
      rw [recordRows, getField_recordRows_of_none]
      · rfl
      · intro row member same
        apply noRow row member
        apply formatDay_injective_of_year _ same
        rw [inYear _ (covered row member), inYear day inRange]
    -- the last day has a row, so this one is filled by the loop
    have filled : day ∈ first.daysFrom count := by
      rw [Date.daysFrom_eq_append, List.mem_append,
        List.mem_singleton] at inRange
      obtain ⟨row, member, isLast⟩ := lastRow
      exact inRange.resolve_right fun same =>
        noRow row member (isLast.trans same.symm)
    rw [unrecorded, valueOn_of_none noRow,
      if_pos (List.mem_map_of_mem filled)]
    rfl

/-- Nothing else is in the filled array. -/
theorem getField_filled_eq_some
    {first : Date} {count : Nat}
    (covered : ∀ row ∈ rows, row.eventDate ∈ first.daysFrom (count + 1))
    {key : String} {value : Nat}
    (found :
      getField ((first.daysFrom count).foldl fillDay (recordRows rows)) key =
        some value) :
    ∃ day ∈ first.daysFrom (count + 1), formatDay day = key := by
  by_contra absent
  have noDay : ∀ day ∈ first.daysFrom (count + 1), formatDay day ≠ key :=
    fun day member same => absent ⟨day, member, same⟩
  rw [getField_fillDays, recordRows, getField_recordRows_of_none,
    if_neg] at found
  · cases found
  · intro member
    obtain ⟨day, isDay, same⟩ := List.mem_map.mp member
    refine noDay day ?_ same
    rw [Date.daysFrom_eq_append]
    exact List.mem_append_left _ isDay
  · intro row member
    exact noDay row.eventDate (covered row member)

theorem fillDays_perm
    {first : Date} {count : Nat} {year : Nat}
    (different : (rows.map DailyEventCounter.eventDate).Nodup)
    (covered : ∀ row ∈ rows, row.eventDate ∈ first.daysFrom (count + 1))
    (lastRow : ∃ row ∈ rows, row.eventDate = Date.next^[count] first)
    (inYear : ∀ day ∈ first.daysFrom (count + 1), day.year = year) :
    ((first.daysFrom count).foldl fillDay (recordRows rows)).Perm
      (entriesOf rows (first.daysFrom (count + 1))) := by
  have distinct :=
    fillDays_distinct (first.daysFrom count) (recordRows rows)
      (recordRows_distinct rows [] List.nodup_nil)
  have increasing :=
    @entriesOf_increasing rows _ _
      (Date.daysFrom_pairwise first (count + 1)) inYear
  rw [List.perm_ext_iff_of_nodup (List.Nodup.of_map _ distinct)
    (increasing.imp fun less same => by
      rw [same] at less
      exact lt_irrefl _ less)]
  rintro ⟨key, value⟩
  rw [mem_iff_getField distinct, entriesOf, List.mem_map]
  constructor
  · intro found
    obtain ⟨day, inRange, rfl⟩ := getField_filled_eq_some covered found
    rw [getField_filled different covered lastRow inYear inRange] at found
    cases found
    exact ⟨day, inRange, rfl⟩
  · rintro ⟨day, inRange, same⟩
    cases same
    exact getField_filled different covered lastRow inYear inRange

/-- All rows lie in one calendar year. -/
def OneYear (rows : List DailyEventCounter) : Prop :=
  ∀ one ∈ rows, ∀ other ∈ rows, one.eventDate.year = other.eventDate.year

/-- The chart of rows of one year, in the order of their days. -/
theorem chartOf_of_oneYear
    (sorted : rows.Pairwise fun one other =>
      one.eventDate ≤ other.eventDate)
    (someRows : rows ≠ [])
    (different : (rows.map DailyEventCounter.eventDate).Nodup)
    (oneYear : OneYear rows) :
    ∃ days : List Date,
      days.Pairwise (· < ·) ∧
        (∀ day, day ∈ days ↔ InRange rows day) ∧
        ∃ enough, ∀ fuel, enough ≤ fuel →
          chartOf fuel rows = some (entriesOf rows days) := by
  obtain ⟨first, last, ⟨isFirst, isLast⟩, ⟨firstMember, lastMember⟩,
    between⟩ := ends_of_sorted sorted someRows
  obtain ⟨count, reached⟩ :=
    Date.exists_iterate_next (between last lastMember).1
  have inDays : ∀ day, day ∈ first.eventDate.daysFrom (count + 1) ↔
      first.eventDate ≤ day ∧ day ≤ last.eventDate := by
    intro day
    rw [Date.mem_daysFrom, reached]
  have inYear : ∀ day ∈ first.eventDate.daysFrom (count + 1),
      day.year = first.eventDate.year := by
    intro day member
    have low := Date.year_le_of_le ((inDays day).mp member).1
    have high := Date.year_le_of_le ((inDays day).mp member).2
    have sameYear := oneYear first firstMember last lastMember
    omega
  have filled :=
    fillDays_perm different
      (fun row member => (inDays _).mpr (between row member))
      ⟨last, lastMember, reached.symm⟩ inYear
  have ordered := Date.daysFrom_pairwise first.eventDate (count + 1)
  refine ⟨first.eventDate.daysFrom (count + 1), ordered, ?_, count + 1, ?_⟩
  · intro day
    rw [inDays]
    constructor
    · rintro ⟨low, high⟩
      exact ⟨⟨first, firstMember, low⟩, ⟨last, lastMember, high⟩⟩
    · rintro ⟨⟨early, earlyMember, low⟩, ⟨late, lateMember, high⟩⟩
      exact ⟨(between early earlyMember).1.trans low,
        high.trans (between late lateMember).2⟩
  · intro fuel enough
    simp only [chartOf, isFirst, isLast]
    rw [← reached, fillGaps_eq first.eventDate _ (by omega),
      Option.map_some,
      ksort_eq_of_perm filled (entriesOf_increasing ordered inYear)]

end WithinYear

/-! ## The whole chart -/

section Chart

variable {counters : Counters} {category cafeId : String}

/-- Values do not depend on the order of the rows. -/
theorem valueOn_of_perm
    {rows sorted : List DailyEventCounter} (perm : sorted.Perm rows)
    (different : (rows.map DailyEventCounter.eventDate).Nodup) (day : Date) :
    valueOn sorted day = valueOn rows day := by
  have sortedDifferent :
      (sorted.map DailyEventCounter.eventDate).Nodup :=
    (perm.map _).nodup_iff.mpr different
  by_cases hasRow : ∃ row ∈ rows, row.eventDate = day
  · obtain ⟨row, member, rfl⟩ := hasRow
    rw [valueOn_of_mem different member,
      valueOn_of_mem sortedDifferent (perm.mem_iff.mpr member)]
  · have noRow : ∀ row ∈ rows, row.eventDate ≠ day :=
      fun row member same => hasRow ⟨row, member, same⟩
    rw [valueOn_of_none noRow, valueOn_of_none fun row member =>
      noRow row (perm.mem_iff.mp member)]

/-- The sum follows from the entries. -/
theorem complete_of_days
    {rows : List DailyEventCounter} {series : Series} {days : List Date}
    (different : (rows.map DailyEventCounter.eventDate).Nodup)
    (ordered : days.Pairwise (· < ·))
    (inRange : ∀ day, day ∈ days ↔ InRange rows day)
    (entries : series = entriesOf rows days) :
    Complete rows series := by
  refine ⟨⟨days, ordered, inRange, entries⟩, ?_⟩
  have values : (entriesOf rows days).map Prod.snd =
      days.map (valueOn rows) := by
    rw [entriesOf, List.map_map]
    rfl
  rw [entries, values]
  apply sum_valueOn different
  · exact ordered.imp fun before => ne_of_lt before
  · intro row member
    exact (inRange _).mpr ⟨⟨row, member, le_rfl⟩, ⟨row, member, le_rfl⟩⟩

theorem chartRight_of_oneYear
    (someRows : shopRows counters category cafeId ≠ [])
    (different :
      ((shopRows counters category cafeId).map
        DailyEventCounter.eventDate).Nodup)
    (column : counters.column = .cafeId)
    (oneYear : OneYear (shopRows counters category cafeId)) :
    ChartRight counters category cafeId := by
  have perm :=
    List.perm_insertionSort
      (fun one other : DailyEventCounter => one.eventDate ≤ other.eventDate)
      (shopRows counters category cafeId)
  obtain ⟨days, ordered, inRange, enough, chart⟩ :=
    chartOf_of_oneYear
      (List.pairwise_insertionSort _ (shopRows counters category cafeId))
      (fun empty => someRows (List.nil_perm.mp (empty ▸ perm)))
      ((perm.map _).nodup_iff.mpr different)
      (fun one oneMember other otherMember =>
        oneYear one (perm.mem_iff.mp oneMember) other
          (perm.mem_iff.mp otherMember))
  refine ⟨entriesOf (shopRows counters category cafeId) days,
    ⟨enough, ?_⟩, complete_of_days different ordered ?_ rfl⟩
  · intro fuel isEnough
    have sameEntries :
        entriesOf ((shopRows counters category cafeId).insertionSort
            fun one other => one.eventDate ≤ other.eventDate) days =
          entriesOf (shopRows counters category cafeId) days :=
      List.map_congr_left fun day _ => by
        rw [valueOn_of_perm perm different]
    simp only [displayData, counterRows, column, Except.map,
      chart fuel isEnough, sameEntries]
  · intro day
    rw [inRange]
    simp only [InRange, perm.mem_iff]

/-- The keys of a chart are sorted, whatever its rows. -/
theorem chartOf_sorted
    {fuel : Nat} {rows : List DailyEventCounter} {series : Series}
    (someRows : rows ≠ []) (chart : chartOf fuel rows = some series) :
    series.Pairwise fun one other => one.1.toList ≤ other.1.toList := by
  obtain ⟨first, isFirst⟩ := Option.ne_none_iff_exists'.mp
    (mt List.head?_eq_none_iff.mp someRows)
  obtain ⟨last, isLast⟩ := Option.ne_none_iff_exists'.mp
    (mt List.getLast?_eq_none_iff.mp someRows)
  simp only [chartOf, isFirst, isLast, Option.map_eq_some_iff] at chart
  obtain ⟨data, -, rfl⟩ := chart
  exact ksort_pairwise data

theorem displayData_eq_ok
    {fuel : Nat} {series : Series}
    (chart :
      displayData fuel counters category cafeId = .ok (some series)) :
    counters.column = .cafeId ∧
      chartOf fuel ((shopRows counters category cafeId).insertionSort
        fun one other => one.eventDate ≤ other.eventDate) = some series := by
  cases column : counters.column with
  | entityId =>
      simp only [displayData, counterRows, column, Except.map] at chart
      cases chart
  | cafeId =>
      simp only [displayData, counterRows, column, Except.map] at chart
      exact ⟨rfl, Except.ok.inj chart⟩

theorem january_inYear : 1 ≤ 1 ∧ 1 ≤ 12 := by
  decide

theorem first_inMonth (year : Nat) : 1 ≤ 1 ∧ 1 ≤ daysIn year 1 :=
  ⟨Nat.le_refl 1, (daysIn_bounds year 1).1⟩

/-- The last day of a year, and the day after it. -/
def yearEnd (year : Nat) : Date :=
  ⟨year, 12, 31, by decide, by simp [daysIn]⟩

def yearStart (year : Nat) : Date :=
  ⟨year, 1, 1, january_inYear, first_inMonth year⟩

/-- Days listed in order with sorted keys have keys in order. -/
theorem key_le_of_lt
    {days : List Date} (ordered : days.Pairwise (· < ·))
    (sorted : days.Pairwise fun one other =>
      (formatDay one).toList ≤ (formatDay other).toList)
    {early late : Date} (earlyMember : early ∈ days)
    (lateMember : late ∈ days) (before : early < late) :
    (formatDay early).toList ≤ (formatDay late).toList := by
  have forward : days.Pairwise fun one other : Date =>
      one < other → (formatDay one).toList ≤ (formatDay other).toList := by
    apply sorted.imp
    intro one other keys _
    exact keys
  have backward : days.Pairwise fun other one : Date =>
      one < other → (formatDay one).toList ≤ (formatDay other).toList := by
    apply ordered.imp
    intro other one after impossible
    exact absurd (after.trans impossible) (lt_irrefl _)
  refine forward.forall_of_forall_of_flip ?_ backward earlyMember lateMember
    before
  intro day _ impossible
  exact absurd impossible (lt_irrefl day)

/-- A complete chart with sorted keys does not span a turn of the year. -/
theorem year_le_of_complete
    {rows : List DailyEventCounter} {series : Series}
    (complete : Complete rows series)
    (sorted : series.Pairwise fun one other =>
      one.1.toList ≤ other.1.toList)
    {early late : DailyEventCounter}
    (earlyMember : early ∈ rows) (lateMember : late ∈ rows) :
    late.eventDate.year ≤ early.eventDate.year := by
  by_contra laterYear
  obtain ⟨days, ordered, inRange, rfl⟩ := complete.days
  let year := early.eventDate.year
  have before : yearEnd year < yearStart (year + 1) := by
    rw [Date.lt_iff_code, Date.code_lt_iff]
    exact Or.inl (Nat.lt_succ_self year)
  have earlyLe : early.eventDate ≤ yearEnd year := by
    have inYear := early.eventDate.inYear
    have day := early.eventDate.day_le
    rw [← not_lt, Date.lt_iff_code, Date.code_lt_iff]
    simp only [yearEnd, year]
    omega
  have startLe : yearStart (year + 1) ≤ late.eventDate := by
    have inYear := late.eventDate.inYear
    have day := late.eventDate.inMonth.1
    rw [← not_lt, Date.lt_iff_code, Date.code_lt_iff]
    simp only [yearStart, year]
    omega
  have endMember : yearEnd year ∈ days :=
    (inRange _).mpr ⟨⟨early, earlyMember, earlyLe⟩,
      ⟨late, lateMember, before.le.trans startLe⟩⟩
  have startMember : yearStart (year + 1) ∈ days :=
    (inRange _).mpr ⟨⟨early, earlyMember, earlyLe.trans before.le⟩,
      ⟨late, lateMember, startLe⟩⟩
  have keysSorted : days.Pairwise fun one other =>
      (formatDay one).toList ≤ (formatDay other).toList := by
    rw [List.pairwise_map] at sorted
    exact sorted
  -- the two days are listed in order, so their keys have to be as well
  have keysOrdered :
      (formatDay (yearEnd year)).toList ≤
        (formatDay (yearStart (year + 1))).toList :=
    key_le_of_lt ordered keysSorted endMember startMember before
  have keysTurn :
      (formatDay (yearStart (year + 1))).toList <
        (formatDay (yearEnd year)).toList := by
    rw [formatDay_lt_iff]
    exact Or.inl (by simp [yearStart, yearEnd])
  exact absurd keysOrdered (not_le.mpr keysTurn)

theorem oneYear_of_chartRight
    (someRows : shopRows counters category cafeId ≠ [])
    (right : ChartRight counters category cafeId) :
    counters.column = .cafeId ∧
      OneYear (shopRows counters category cafeId) := by
  obtain ⟨series, ⟨enough, chart⟩, complete⟩ := right
  obtain ⟨column, chartEq⟩ := displayData_eq_ok (chart enough le_rfl)
  have perm :=
    List.perm_insertionSort
      (fun one other : DailyEventCounter => one.eventDate ≤ other.eventDate)
      (shopRows counters category cafeId)
  have sorted := chartOf_sorted
    (fun empty => someRows (List.nil_perm.mp (empty ▸ perm))) chartEq
  refine ⟨column, fun one oneMember other otherMember => ?_⟩
  exact le_antisymm
    (year_le_of_complete complete sorted otherMember oneMember)
    (year_le_of_complete complete sorted oneMember otherMember)

/--
The chart of a shop is complete and chronological if and only if the table
has the column that the query names and all rows lie in one calendar year.
-/
theorem chartRight_iff
    (counters : Counters) (category cafeId : String)
    (someRows : shopRows counters category cafeId ≠ [])
    (different :
      ((shopRows counters category cafeId).map
        DailyEventCounter.eventDate).Nodup) :
    ChartRight counters category cafeId ↔
      counters.column = .cafeId ∧
        OneYear (shopRows counters category cafeId) := by
  constructor
  · exact oneYear_of_chartRight someRows
  · rintro ⟨column, oneYear⟩
    exact chartRight_of_oneYear someRows different column oneYear

end Chart

/-! ## A week, and a turn of the year -/

/-- Counters of one category and shop on two days. -/
def twoDays (column : ShopColumn) (early late : Date) : Counters :=
  ⟨column,
    (Table.empty.insert ⟨"display-shop-list", "e", early, 3⟩).insert
      ⟨"display-shop-list", "e", late, 4⟩⟩

def springDay (day : Nat) (inside : 1 ≤ day ∧ day ≤ 30) : Date :=
  ⟨2018, 4, day, by decide, inside⟩

theorem chartRight_iff_spring :
    ChartRight
      (twoDays .cafeId (springDay 1 (by decide)) (springDay 3 (by decide)))
      "display-shop-list" "e" := by
  rw [chartRight_iff _ _ _ (by decide) (by decide)]
  refine ⟨rfl, ?_⟩
  unfold OneYear
  decide

/-- Over a turn of the year the new day comes before the old one. -/
theorem chart_turns_with_year :
    displayData 2 (twoDays .cafeId (yearEnd 2017) (yearStart 2018))
        "display-shop-list" "e" =
      .ok (some [("01/01", 4), ("12/31", 3)]) ∧
    ¬ ChartRight (twoDays .cafeId (yearEnd 2017) (yearStart 2018))
        "display-shop-list" "e" ∧
    ¬ ChartRight
        (twoDays .entityId (springDay 1 (by decide))
          (springDay 3 (by decide)))
        "display-shop-list" "e" := by
  refine ⟨by decide +kernel, ?_, ?_⟩
  · intro right
    have oneYear := (oneYear_of_chartRight (by decide) right).2
    unfold OneYear at oneYear
    revert oneYear
    decide
  · intro right
    have column := (oneYear_of_chartRight (by decide) right).1
    cases column

end NomadiCore.ShopStats
