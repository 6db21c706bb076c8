import Mathlib.Data.List.Iterate
import Mathlib.Order.Basic
import Mathlib.Order.Nat
import Mathlib.Tactic.Common

/-!
# Calendar days

Days of the Gregorian calendar in chronological order, the day after a day,
and the days of a range.  The order is that of a code which gives every month
thirty-one places: the code skips numbers, but it orders the days as their
years, months and days do.
-/

namespace NomadiCore.Library.Calendar

def IsLeap (year : Nat) : Prop :=
  year % 4 = 0 ∧ (year % 100 ≠ 0 ∨ year % 400 = 0)

instance (year : Nat) : Decidable (IsLeap year) :=
  inferInstanceAs (Decidable (_ ∧ _))

def daysIn (year month : Nat) : Nat :=
  if month = 2 then if IsLeap year then 29 else 28
  else if month = 4 ∨ month = 6 ∨ month = 9 ∨ month = 11 then 30
  else 31

theorem daysIn_bounds (year month : Nat) :
    1 ≤ daysIn year month ∧ daysIn year month ≤ 31 := by
  unfold daysIn
  split_ifs <;> omega

/-- A day of the calendar. -/
structure Date where
  year : Nat
  month : Nat
  day : Nat
  inYear : 1 ≤ month ∧ month ≤ 12
  inMonth : 1 ≤ day ∧ day ≤ daysIn year month
deriving DecidableEq

namespace Date

theorem day_le (date : Date) : date.day ≤ 31 :=
  date.inMonth.2.trans (daysIn_bounds _ _).2

/-- The day after a day. -/
def next (date : Date) : Date :=
  if inside : date.day < daysIn date.year date.month then
    { date with
      day := date.day + 1
      inMonth := ⟨by omega, inside⟩ }
  else if early : date.month < 12 then
    ⟨date.year, date.month + 1, 1, ⟨by omega, early⟩,
      ⟨le_rfl, (daysIn_bounds _ _).1⟩⟩
  else
    ⟨date.year + 1, 1, 1, ⟨le_rfl, by omega⟩,
      ⟨le_rfl, (daysIn_bounds _ _).1⟩⟩

/-- The place of a day when every month has thirty-one. -/
def code (date : Date) : Nat :=
  date.year * 372 + date.month * 31 + date.day

theorem code_lt_iff (first second : Date) :
    first.code < second.code ↔
      first.year < second.year ∨
        first.year = second.year ∧
          (first.month < second.month ∨
            first.month = second.month ∧ first.day < second.day) := by
  have firstMonth := first.inYear
  have secondMonth := second.inYear
  have firstDay := first.inMonth.1
  have secondDay := second.inMonth.1
  have firstLe := first.day_le
  have secondLe := second.day_le
  unfold code
  omega

theorem code_injective : Function.Injective code := by
  intro first second same
  have notBefore := mt (code_lt_iff first second).mpr (by omega)
  have notAfter := mt (code_lt_iff second first).mpr (by omega)
  obtain ⟨firstYear, firstMonth, firstDay, _, _⟩ := first
  obtain ⟨secondYear, secondMonth, secondDay, _, _⟩ := second
  simp only at notBefore notAfter
  have sameYear : firstYear = secondYear := by omega
  have sameMonth : firstMonth = secondMonth := by omega
  have sameDay : firstDay = secondDay := by omega
  subst sameYear sameMonth sameDay
  rfl

instance : LinearOrder Date := LinearOrder.lift' code code_injective

theorem lt_iff_code (first second : Date) :
    first < second ↔ first.code < second.code := Iff.rfl

theorem year_le_of_le {first second : Date} (order : first ≤ second) :
    first.year ≤ second.year := by
  by_contra later
  have before := (code_lt_iff second first).mpr (Or.inl (by omega))
  exact absurd order (not_le.mpr before)

/-- There is no day between a day and the next one. -/
theorem next_le_iff (first second : Date) :
    first.next ≤ second ↔ first < second := by
  rw [← not_lt, lt_iff_code, lt_iff_code, code_lt_iff, code_lt_iff]
  have firstMonth := first.inYear
  have secondMonth := second.inYear
  have firstDay := first.inMonth
  have secondDay := second.inMonth
  have lastDay :
      first.year = second.year → first.month = second.month →
        second.day ≤ daysIn first.year first.month := by
    intro sameYear sameMonth
    rw [sameYear, sameMonth]
    exact secondDay.2
  unfold next
  split_ifs with inside early
  · simp only
    omega
  · simp only
    omega
  · simp only
    omega

theorem lt_next (date : Date) : date < date.next :=
  (next_le_iff date date.next).mp le_rfl

/-! ## Ranges -/

/-- The days from a day on. -/
def daysFrom (first : Date) (count : Nat) : List Date :=
  List.iterate next first count

@[simp]
theorem daysFrom_zero (first : Date) : daysFrom first 0 = [] := rfl

@[simp]
theorem daysFrom_succ (first : Date) (count : Nat) :
    daysFrom first (count + 1) = first :: daysFrom first.next count := rfl

/-- Every later day is reached day by day. -/
theorem exists_iterate_next {first last : Date} (order : first ≤ last) :
    ∃ count, next^[count] first = last := by
  induction distance : last.code - first.code using Nat.strong_induction_on
    generalizing first with
  | _ distance inductionHypothesis =>
      rcases order.eq_or_lt with same | before
      · exact ⟨0, same⟩
      · have nextLe := (next_le_iff first last).mpr before
        have further := lt_next first
        rw [lt_iff_code] at further before
        obtain ⟨count, reached⟩ :=
          inductionHypothesis (last.code - first.next.code) (by omega)
            nextLe rfl
        exact ⟨count + 1, reached⟩

theorem le_iterate_next (first : Date) (count : Nat) :
    first ≤ next^[count] first := by
  induction count generalizing first with
  | zero => exact le_rfl
  | succ count inductionHypothesis =>
      rw [Function.iterate_succ_apply]
      exact (lt_next first).le.trans (inductionHypothesis first.next)

/-- The days of a range are those from its first to its last day. -/
theorem mem_daysFrom
    {first date : Date} {count : Nat} :
    date ∈ daysFrom first (count + 1) ↔
      first ≤ date ∧ date ≤ next^[count] first := by
  induction count generalizing first with
  | zero =>
      simp only [daysFrom_succ, daysFrom_zero, List.mem_singleton,
        Function.iterate_zero, id_eq]
      constructor
      · rintro rfl
        exact ⟨le_rfl, le_rfl⟩
      · rintro ⟨low, high⟩
        exact le_antisymm high low
  | succ count inductionHypothesis =>
      rw [daysFrom_succ, List.mem_cons, inductionHypothesis,
        Function.iterate_succ_apply, next_le_iff]
      constructor
      · rintro (rfl | ⟨later, high⟩)
        · exact ⟨le_rfl, le_iterate_next date (count + 1)⟩
        · exact ⟨later.le, high⟩
      · rintro ⟨low, high⟩
        rcases low.eq_or_lt with rfl | later
        · exact Or.inl rfl
        · exact Or.inr ⟨later, high⟩

theorem daysFrom_eq_append (first : Date) (count : Nat) :
    daysFrom first (count + 1) =
      daysFrom first count ++ [next^[count] first] := by
  induction count generalizing first with
  | zero => rfl
  | succ count inductionHypothesis =>
      rw [daysFrom_succ, inductionHypothesis]
      rfl

theorem daysFrom_pairwise (first : Date) (count : Nat) :
    (daysFrom first count).Pairwise (· < ·) := by
  induction count generalizing first with
  | zero => exact List.Pairwise.nil
  | succ count inductionHypothesis =>
      rw [daysFrom_succ, List.pairwise_cons]
      refine ⟨?_, inductionHypothesis first.next⟩
      intro date member
      cases count with
      | zero => cases member
      | succ count =>
          exact (next_le_iff first date).mp (mem_daysFrom.mp member).1

end Date

end NomadiCore.Library.Calendar
