import Mathlib.Data.List.TakeWhile
import NomadiCore.HoursRoundTrip
import NomadiCore.Library.CyclicArc

/-!
# The open-at filter

`validateBusinessHours` of `public/js/helper.js`.  A moment is a local time in
milliseconds, counted from the midnight before some Sunday; daylight saving is
not modelled, and all the moments of one evaluation are made from the same
instant.
-/

namespace NomadiCore

open NomadiCore.Library.CyclicArc
open NomadiCore.Library.DecimalNumeral

/-! ## Moments -/

inductive Weekday where
  | monday
  | tuesday
  | wednesday
  | thursday
  | friday
  | saturday
  | sunday
deriving DecidableEq

def weekdays : List Weekday :=
  [.monday, .tuesday, .wednesday, .thursday, .friday, .saturday, .sunday]

/-- The number of a day in a week that starts on Sunday. -/
def Weekday.number : Weekday → Int
  | .sunday => 0
  | .monday => 1
  | .tuesday => 2
  | .wednesday => 3
  | .thursday => 4
  | .friday => 5
  | .saturday => 6

abbrev Moment := Int

namespace Moment

/-- `moment.day(name)`: the day of the current week, at the same time. -/
def day (moment : Moment) (weekday : Weekday) : Moment :=
  moment + (weekday.number - moment / 86400000 % 7) * 86400000

def hour (moment : Moment) (hour : Nat) : Moment :=
  moment + (hour - moment % 86400000 / 3600000) * 3600000

def minute (moment : Moment) (minute : Nat) : Moment :=
  moment + (minute - moment % 3600000 / 60000) * 60000

/-- `moment.add(1, 'day')`. -/
def nextDay (moment : Moment) : Moment := moment + 86400000

/-- `moment.isBetween(start, end, null, '[)')`. -/
def isBetween (moment first last : Moment) : Bool :=
  first ≤ moment ∧ moment < last

end Moment

/-! ## The filter -/

/-- The posted hours of a day; `open` is `null` when it is closed. -/
structure DayHours where
  opens : Option String
  closes : Option String
deriving DecidableEq

structure OpenFilter where
  isOpen : Bool
  isOpenAtDay : Weekday
  isOpenAtTime : String
deriving DecidableEq

/-- `left < right` of two strings. -/
def textBefore (left right : String) : Bool :=
  left.toList < right.toList

/-- `text.split(':')[0]` and `text.split(':')[1]` of an `HH:MM`, as numbers. -/
def splitTime (text : String) : Nat × Nat :=
  (digitsValue (text.toList.takeWhile (· ≠ ':')),
    digitsValue
      (((text.toList.dropWhile (· ≠ ':')).drop 1).takeWhile (· ≠ ':')))

/-- `moment().day(weekday).hour(..).minute(..)`. -/
def momentAt (now : Moment) (weekday : Weekday) (text : String) : Moment :=
  ((now.day weekday).hour (splitTime text).1).minute (splitTime text).2

/-- The block that a weekday pushes, if it pushes one. -/
def workingBlock (now : Moment) (hours : Weekday → DayHours)
    (weekday : Weekday) : Option (Moment × Moment) :=
  match (hours weekday).opens, (hours weekday).closes with
  | some opens, some closes =>
      if textBefore opens closes then
        some (momentAt now weekday opens, momentAt now weekday closes)
      else if textBefore closes opens then
        some (momentAt now weekday opens,
          (momentAt now weekday closes).nextDay)
      else none
  | _, _ => none

def validateBusinessHours (now : Moment) (hours : Weekday → DayHours)
    (filter : OpenFilter) : Bool :=
  if filter.isOpen = false then true
  else
    (weekdays.filterMap (workingBlock now hours)).any fun block =>
      (momentAt now filter.isOpenAtDay filter.isOpenAtTime).isBetween
        block.1 block.2

/-! ## Schedules -/

/-- A time of the day. -/
structure Clock where
  hour : Fin 24
  minute : Fin 60
deriving DecidableEq

namespace Clock

/-- The time as `HH:MM`. -/
def text (clock : Clock) : String := clockText clock.hour clock.minute

/-- The minutes since midnight. -/
def minutes (clock : Clock) : Int := clock.hour.val * 60 + clock.minute.val

theorem minutes_bounds (clock : Clock) :
    0 ≤ clock.minutes ∧ clock.minutes < 1440 := by
  have hour := clock.hour.isLt
  have minute := clock.minute.isLt
  unfold minutes
  omega

end Clock

/-- The opening and closing time of each weekday, if it has any. -/
abbrev Schedule := Weekday → Option (Clock × Clock)

/-- The schedule as the page has it; the close of a closed day may be left. -/
def Schedule.hours (schedule : Schedule) (left : Weekday → Option String)
    (weekday : Weekday) : DayHours :=
  match schedule weekday with
  | none => ⟨none, left weekday⟩
  | some (opens, closes) => ⟨some opens.text, some closes.text⟩

/-- A time of the week, in minutes. -/
def Weekday.minuteOf (weekday : Weekday) (clock : Clock) : Int :=
  weekday.number * 1440 + clock.minutes

/-- How long a shop is open; an earlier close belongs to the next day. -/
def openFor (opens closes : Clock) : Int :=
  if closes.minutes < opens.minutes then
    closes.minutes + 1440 - opens.minutes
  else closes.minutes - opens.minutes

/-- Some weekday has hours that cover the time, in a week that is a cycle. -/
def OpenAt (schedule : Schedule) (day : Weekday) (time : Clock) : Prop :=
  ∃ weekday opens closes,
    schedule weekday = some (opens, closes) ∧
      OnArc 10080 (weekday.minuteOf opens) (openFor opens closes)
        (day.minuteOf time)

/-! ## Times as texts -/

theorem twoDigits_no_colon {value : Nat} (small : value < 100) :
    ∀ character ∈ twoDigits value, character ≠ ':' := by
  have all : ∀ value : Fin 100,
      (twoDigits value).all fun character => decide (character ≠ ':') := by
    decide
  simpa using all ⟨value, small⟩

theorem text_toList (clock : Clock) :
    clock.text.toList =
      twoDigits clock.hour ++ ':' :: twoDigits clock.minute := by
  rw [Clock.text, clockText, String.toList_ofList]

/-- Splitting a time gives its hours and minutes. -/
theorem splitTime_text (clock : Clock) :
    splitTime clock.text = (clock.hour.val, clock.minute.val) := by
  have hour := clock.hour.isLt
  have minute := clock.minute.isLt
  have plainHours : ∀ character ∈ twoDigits clock.hour,
      decide (character ≠ ':') = true := by
    intro character member
    simpa using twoDigits_no_colon (by omega) character member
  have plainMinutes : ∀ character ∈ twoDigits clock.minute,
      decide (character ≠ ':') = true := by
    intro character member
    simpa using twoDigits_no_colon (by omega) character member
  have takesHours :
      (clock.text.toList).takeWhile (· ≠ ':') = twoDigits clock.hour := by
    rw [text_toList, List.takeWhile_append_of_pos plainHours]
    simp
  have dropsHours :
      (clock.text.toList).dropWhile (· ≠ ':') =
        ':' :: twoDigits clock.minute := by
    rw [text_toList, List.dropWhile_append_of_pos plainHours]
    simp
  have takesMinutes :
      (twoDigits clock.minute).takeWhile (· ≠ ':') =
        twoDigits clock.minute :=
    List.takeWhile_eq_self_iff.mpr plainMinutes
  simp only [splitTime, takesHours, dropsHours, List.drop_one,
    List.tail_cons, takesMinutes]
  rw [digitsValue_twoDigits (by omega), digitsValue_twoDigits (by omega)]

/-- Two digits are ordered as the numbers they write. -/
theorem twoDigits_lt {left right : Nat} (leftSmall : left < 100)
    (rightSmall : right < 100) (leftRest rightRest : List Char) :
    twoDigits left ++ leftRest < twoDigits right ++ rightRest ↔
      left < right ∨ left = right ∧ leftRest < rightRest := by
  have less : ∀ left right : Fin 10,
      twoDigits.digitChar left < twoDigits.digitChar right ↔
        left.val < right.val := by
    decide
  have same : ∀ left right : Fin 10,
      twoDigits.digitChar left = twoDigits.digitChar right ↔
        left.val = right.val := by
    decide
  have tens := less ⟨left / 10, by omega⟩ ⟨right / 10, by omega⟩
  have sameTens := same ⟨left / 10, by omega⟩ ⟨right / 10, by omega⟩
  have ones := less ⟨left % 10, by omega⟩ ⟨right % 10, by omega⟩
  have sameOnes := same ⟨left % 10, by omega⟩ ⟨right % 10, by omega⟩
  simp only at tens sameTens ones sameOnes
  simp only [twoDigits, List.cons_append, List.nil_append,
    List.cons_lt_cons_iff, tens, sameTens, ones, sameOnes]
  constructor
  · rintro (higher | ⟨equalTens, higher | ⟨equalOnes, later⟩⟩)
    · exact Or.inl (by omega)
    · exact Or.inl (by omega)
    · exact Or.inr ⟨by omega, later⟩
  · rintro (less | ⟨equal, later⟩)
    · by_cases equalTens : left / 10 = right / 10
      · exact Or.inr ⟨equalTens, Or.inl (by omega)⟩
      · exact Or.inl (by omega)
    · exact Or.inr ⟨by omega, Or.inr ⟨by omega, later⟩⟩

/-- Times are ordered as their texts. -/
theorem textBefore_text (left right : Clock) :
    textBefore left.text right.text =
      decide (left.minutes < right.minutes) := by
  have leftHour := left.hour.isLt
  have rightHour := right.hour.isLt
  have leftMinute := left.minute.isLt
  have rightMinute := right.minute.isLt
  have minutes := @twoDigits_lt left.minute right.minute (by omega)
    (by omega) [] []
  simp only [List.append_nil, List.lt_irrefl, and_false, or_false]
    at minutes
  have hours := @twoDigits_lt left.hour right.hour (by omega) (by omega)
    (':' :: twoDigits left.minute) (':' :: twoDigits right.minute)
  have colon : ¬ ':' < ':' := by decide
  rw [textBefore, decide_eq_decide, text_toList, text_toList, hours,
    List.cons_lt_cons_iff, minutes]
  simp only [colon, false_or, true_and, Clock.minutes]
  omega

/-- Setting the day, the hour and the minute of an instant. -/
theorem set_moment (now number hour minute : Int) :
    let day := now + (number - now / 86400000 % 7) * 86400000
    let atHour := day + (hour - day % 86400000 / 3600000) * 3600000
    atHour + (minute - atHour % 3600000 / 60000) * 60000 =
      now - now % 604800000 +
        (number * 1440 + (hour * 60 + minute)) * 60000 + now % 60000 := by
  intro day atHour
  have sameTime : day % 86400000 = now % 86400000 := by omega
  have sameMinutes : atHour % 3600000 = now % 3600000 := by omega
  omega

theorem momentAt_eq (now : Moment) (weekday : Weekday) (text : String) :
    momentAt now weekday text =
      now - now % 604800000 +
        (weekday.number * 1440 +
          ((splitTime text).1 * 60 + (splitTime text).2)) * 60000 +
        now % 60000 :=
  set_moment now weekday.number (splitTime text).1 (splitTime text).2

/-- How far the moments of one instant lie after those of another. -/
def shiftBetween (now later : Moment) : Int :=
  later - later % 604800000 + later % 60000 -
    (now - now % 604800000 + now % 60000)

theorem momentAt_shift (now later : Moment) (weekday : Weekday)
    (text : String) :
    momentAt later weekday text =
      momentAt now weekday text + shiftBetween now later := by
  have atNow : (_ : Int) = _ := momentAt_eq now weekday text
  have atLater : (_ : Int) = _ := momentAt_eq later weekday text
  show (_ : Int) = _
  rw [atNow, atLater, shiftBetween]
  omega

theorem workingBlock_shift (now later : Moment)
    (hours : Weekday → DayHours) (weekday : Weekday) :
    workingBlock later hours weekday =
      (workingBlock now hours weekday).map fun block =>
        (block.1 + shiftBetween now later,
          block.2 + shiftBetween now later) := by
  simp only [workingBlock, momentAt_shift now later, Moment.nextDay]
  split
  · split_ifs
    · rfl
    · rw [Option.map_some, Int.add_right_comm]
    · rfl
  · rfl

/-- Which instant the moments are made from does not matter. -/
theorem validateBusinessHours_now (now later : Moment)
    (hours : Weekday → DayHours) (filter : OpenFilter) :
    validateBusinessHours later hours filter =
      validateBusinessHours now hours filter := by
  have blocks :
      weekdays.filterMap (workingBlock later hours) =
        (weekdays.filterMap (workingBlock now hours)).map fun block =>
          (block.1 + shiftBetween now later,
            block.2 + shiftBetween now later) := by
    rw [List.map_filterMap]
    apply List.filterMap_congr
    intro weekday _
    exact workingBlock_shift now later hours weekday
  simp only [validateBusinessHours, blocks, List.any_map, Function.comp_def,
    momentAt_shift now later, Moment.isBetween, Int.add_le_add_iff_right,
    Int.add_lt_add_iff_right]

/-- A moment of the current week. -/
theorem momentAt_text (now : Moment) (weekday : Weekday) (clock : Clock) :
    momentAt now weekday clock.text =
      now - now % 604800000 + weekday.minuteOf clock * 60000 +
        now % 60000 := by
  rw [momentAt, splitTime_text]
  exact set_moment now weekday.number clock.hour clock.minute

/-! ## Blocks and arcs -/

/-- The block of a weekday, in minutes of the week, contains the time. -/
def InBlock (schedule : Schedule) (weekday day : Weekday)
    (time : Clock) : Prop :=
  ∃ opens closes,
    schedule weekday = some (opens, closes) ∧
      weekday.minuteOf opens ≤ day.minuteOf time ∧
      day.minuteOf time < weekday.minuteOf opens + openFor opens closes

/-- The moments of one evaluation are ordered as the times of the week. -/
theorem isBetween_momentAt
    (now : Moment) (day weekday : Weekday) (time opens closes : Clock)
    (shift : Int) :
    (momentAt now day time.text).isBetween
        (momentAt now weekday opens.text)
        (momentAt now weekday closes.text + shift * 60000) = true ↔
      weekday.minuteOf opens ≤ day.minuteOf time ∧
        day.minuteOf time < weekday.minuteOf closes + shift := by
  simp only [Moment.isBetween, momentAt_text, decide_eq_true_eq]
  have order : ∀ base rest left right : Int,
      base + left * 60000 + rest ≤ base + right * 60000 + rest ↔
        left ≤ right := by
    intro base rest left right
    omega
  have strict : ∀ base rest left right : Int,
      base + left * 60000 + rest <
          base + right * 60000 + rest + shift * 60000 ↔
        left < right + shift := by
    intro base rest left right
    omega
  rw [order, strict]

/-- A weekday accepts the target exactly if its block contains it. -/
theorem workingBlock_accepts
    (now : Moment) (schedule : Schedule) (left : Weekday → Option String)
    (weekday day : Weekday) (time : Clock) :
    (∃ block, workingBlock now (schedule.hours left) weekday =
          some block ∧
        (momentAt now day time.text).isBetween block.1 block.2 = true) ↔
      InBlock schedule weekday day time := by
  cases hours : schedule weekday with
  | none => simp [workingBlock, Schedule.hours, hours, InBlock]
  | some pair =>
      obtain ⟨opens, closes⟩ := pair
      have sameDay :=
        isBetween_momentAt now day weekday time opens closes 0
      have nextDay :=
        isBetween_momentAt now day weekday time opens closes 1440
      simp only [Int.zero_mul, Int.add_zero] at sameDay
      have block : InBlock schedule weekday day time ↔
          weekday.minuteOf opens ≤ day.minuteOf time ∧
            day.minuteOf time <
              weekday.minuteOf opens + openFor opens closes := by
        simp [InBlock, hours]
      rw [block]
      rcases lt_trichotomy opens.minutes closes.minutes with
        early | equal | overnight
      · have length : weekday.minuteOf opens + openFor opens closes =
            weekday.minuteOf closes := by
          simp only [Weekday.minuteOf, openFor]
          omega
        rw [length, ← sameDay]
        simp [workingBlock, Schedule.hours, hours, textBefore_text, early]
      · have length : weekday.minuteOf opens + openFor opens closes =
            weekday.minuteOf opens := by
          simp only [openFor]
          omega
        rw [length]
        simp [workingBlock, Schedule.hours, hours, textBefore_text, equal]
      · have length : weekday.minuteOf opens + openFor opens closes =
            weekday.minuteOf closes + 1440 := by
          simp only [Weekday.minuteOf, openFor]
          omega
        have notEarly : ¬ opens.minutes < closes.minutes := by omega
        rw [length, ← nextDay]
        simp [workingBlock, Schedule.hours, hours, textBefore_text,
          overnight, notEarly, Moment.nextDay]

theorem Weekday.number_bounds (weekday : Weekday) :
    0 ≤ weekday.number ∧ weekday.number ≤ 6 := by
  cases weekday <;> decide

theorem Weekday.number_eq_zero {weekday : Weekday} :
    weekday.number = 0 ↔ weekday = .sunday := by
  cases weekday <;> decide

theorem Weekday.number_eq_six {weekday : Weekday} :
    weekday.number = 6 ↔ weekday = .saturday := by
  cases weekday <;> decide

theorem mem_weekdays (weekday : Weekday) : weekday ∈ weekdays := by
  cases weekday <;> decide

/-- The filter accepts a target that is in the block of some weekday. -/
theorem validateBusinessHours_iff
    (now : Moment) (schedule : Schedule) (left : Weekday → Option String)
    (day : Weekday) (time : Clock) :
    validateBusinessHours now (schedule.hours left)
        ⟨true, day, time.text⟩ = true ↔
      ∃ weekday, InBlock schedule weekday day time := by
  have accepts : ∀ weekday, InBlock schedule weekday day time ↔
      ∃ block,
        workingBlock now (schedule.hours left) weekday = some block ∧
          (momentAt now day time.text).isBetween block.1 block.2 = true :=
    fun weekday =>
      (workingBlock_accepts now schedule left weekday day time).symm
  simp only [validateBusinessHours, Bool.true_eq_false, if_false,
    List.any_eq_true, List.mem_filterMap, accepts]
  constructor
  · rintro ⟨block, ⟨weekday, -, pushed⟩, between⟩
    exact ⟨weekday, block, pushed, between⟩
  · rintro ⟨weekday, block, pushed, between⟩
    exact ⟨block, ⟨weekday, mem_weekdays weekday, pushed⟩, between⟩

/-- Only the hours of a Saturday night end in the next week. -/
theorem wraps_iff (weekday day : Weekday) (time opens closes : Clock) :
    day.minuteOf time + 10080 <
        weekday.minuteOf opens + openFor opens closes ↔
      weekday = .saturday ∧ closes.minutes < opens.minutes ∧
        day = .sunday ∧ time.minutes < closes.minutes := by
  have weekdayBounds := weekday.number_bounds
  have dayBounds := day.number_bounds
  have timeBounds := time.minutes_bounds
  have opensBounds := opens.minutes_bounds
  have closesBounds := closes.minutes_bounds
  rw [← Weekday.number_eq_zero, ← Weekday.number_eq_six]
  simp only [Weekday.minuteOf, openFor]
  split
  · constructor
    · intro wraps
      refine ⟨?_, ?_, ?_, ?_⟩ <;> omega
    · rintro ⟨last, overnight, first, before⟩
      omega
  · constructor
    · intro wraps
      omega
    · rintro ⟨last, overnight, first, before⟩
      omega

/-- The hours of a Saturday night cover a time of the Sunday after. -/
def OpenSaturdayNight (schedule : Schedule) (time : Clock) : Prop :=
  ∃ opens closes,
    schedule .saturday = some (opens, closes) ∧
      closes.minutes < opens.minutes ∧ time.minutes < closes.minutes

/-- The week is a cycle of blocks, and of what wraps. -/
theorem openAt_iff (schedule : Schedule) (day : Weekday) (time : Clock) :
    OpenAt schedule day time ↔
      (∃ weekday, InBlock schedule weekday day time) ∨
        day = .sunday ∧ OpenSaturdayNight schedule time := by
  have inTurn : ∀ (weekday : Weekday) (clock : Clock),
      0 ≤ weekday.minuteOf clock ∧ weekday.minuteOf clock < 10080 := by
    intro weekday clock
    have weekdayBounds := weekday.number_bounds
    have clockBounds := clock.minutes_bounds
    simp only [Weekday.minuteOf]
    omega
  have atMost : ∀ opens closes : Clock, openFor opens closes ≤ 10080 := by
    intro opens closes
    have opensBounds := opens.minutes_bounds
    have closesBounds := closes.minutes_bounds
    simp only [openFor]
    split <;> omega
  have arc : ∀ (weekday : Weekday) (opens closes : Clock),
      OnArc 10080 (weekday.minuteOf opens) (openFor opens closes)
          (day.minuteOf time) ↔
        (weekday.minuteOf opens ≤ day.minuteOf time ∧
            day.minuteOf time <
              weekday.minuteOf opens + openFor opens closes) ∨
          (weekday = .saturday ∧ closes.minutes < opens.minutes ∧
            day = .sunday ∧ time.minutes < closes.minutes) := by
    intro weekday opens closes
    rw [onArc_iff (inTurn weekday opens) (inTurn day time)
      (atMost opens closes), wraps_iff]
  simp only [OpenAt, arc, InBlock]
  constructor
  · rintro ⟨weekday, opens, closes, hours, inside |
      ⟨rfl, overnight, sunday, before⟩⟩
    · exact Or.inl ⟨weekday, opens, closes, hours, inside⟩
    · exact Or.inr ⟨sunday, opens, closes, hours, overnight, before⟩
  · rintro (⟨weekday, opens, closes, hours, inside⟩ |
      ⟨sunday, opens, closes, hours, overnight, before⟩)
    · exact ⟨weekday, opens, closes, hours, Or.inl inside⟩
    · exact ⟨.saturday, opens, closes, hours,
        Or.inr ⟨rfl, overnight, sunday, before⟩⟩

/-! ## The week boundary -/

/-- The own hours of a Sunday cover a time of that Sunday. -/
def OpenOnSunday (schedule : Schedule) (time : Clock) : Prop :=
  ∃ opens closes,
    schedule .sunday = some (opens, closes) ∧
      opens.minutes ≤ time.minutes ∧
      (time.minutes < closes.minutes ∨ closes.minutes < opens.minutes)

/--
The target is early on a Sunday, when only the hours of the Saturday night
before cover it.
-/
def OnlySaturdayNight (schedule : Schedule) (day : Weekday)
    (time : Clock) : Prop :=
  day = .sunday ∧ OpenSaturdayNight schedule time ∧
    ¬ OpenOnSunday schedule time

/-- On a Sunday no block but its own contains a time. -/
theorem inBlock_sunday (schedule : Schedule) (time : Clock) :
    (∃ weekday, InBlock schedule weekday .sunday time) ↔
      OpenOnSunday schedule time := by
  have timeBounds := time.minutes_bounds
  constructor
  · rintro ⟨weekday, opens, closes, hours, after, before⟩
    have opensBounds := opens.minutes_bounds
    have weekdayBounds := weekday.number_bounds
    have isSunday : weekday = .sunday := by
      apply Weekday.number_eq_zero.mp
      have first : Weekday.sunday.number = 0 := rfl
      simp only [Weekday.minuteOf, first] at after
      omega
    subst isSunday
    refine ⟨opens, closes, hours, ?_, ?_⟩
    · simpa [Weekday.minuteOf] using after
    · simp only [Weekday.minuteOf, openFor] at before
      split at before
      · exact Or.inr (by omega)
      · exact Or.inl (by omega)
  · rintro ⟨opens, closes, hours, after, before⟩
    have closesBounds := closes.minutes_bounds
    refine ⟨.sunday, opens, closes, hours, ?_, ?_⟩
    · simpa [Weekday.minuteOf] using after
    · simp only [Weekday.minuteOf, openFor]
      split <;> omega

/--
For every schedule, target and current instant, the filter is right around the
week exactly if the target is not covered by a Saturday night alone.
-/
theorem open_filter_right_iff
    (now : Moment) (schedule : Schedule) (left : Weekday → Option String)
    (day : Weekday) (time : Clock) :
    (validateBusinessHours now (schedule.hours left)
          ⟨true, day, time.text⟩ = true ↔
        OpenAt schedule day time) ↔
      ¬ OnlySaturdayNight schedule day time := by
  rw [validateBusinessHours_iff, openAt_iff]
  by_cases sunday : day = .sunday
  · subst sunday
    rw [inBlock_sunday]
    unfold OnlySaturdayNight
    tauto
  · unfold OnlySaturdayNight
    tauto

/-- Open on Saturdays from 22:00 to 02:00, and on no other day. -/
def saturdayNight : Schedule
  | .saturday => some (⟨22, 0⟩, ⟨2, 0⟩)
  | _ => none

/-- On Sunday at 01:00 the shop is open, and filtered out. -/
theorem saturday_night_is_missed :
    OpenAt saturdayNight .sunday ⟨1, 0⟩ ∧
      validateBusinessHours 0 (saturdayNight.hours fun _ => none)
          ⟨true, .sunday, Clock.text ⟨1, 0⟩⟩ = false := by
  refine ⟨⟨.saturday, ⟨22, 0⟩, ⟨2, 0⟩, rfl, ?_⟩, ?_⟩
  · decide
  · decide +kernel

end NomadiCore
