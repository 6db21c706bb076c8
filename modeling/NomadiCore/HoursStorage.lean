import NomadiCore.EditingApproval
import NomadiCore.HoursRoundTrip

/-!
# What is stored of opening hours

Two properties of `createBusinessHours` that fail.  Hours are shown under the
day of their row only if the relation returns the rows in a fitting order: the
sort keeps the key of a row, and the key picks the day.  And the old rows are
deleted before the new ones are read, so a text that is no full week takes
them away.
-/

namespace NomadiCore

open NomadiCore.Library.JsonText
open NomadiCore.Library.RowTable
open NomadiCore.Library.StatementProcess

/-! ## Schedules -/

/-- A time written as `HH:MM`. -/
def IsClockText (text : String) : Prop :=
  ∃ hour minute, hour < 24 ∧ minute < 60 ∧ text = clockText hour minute

/-- Seven days, each closed or with times written as `HH:MM`. -/
structure ClockWeek (week : List ShownDay) : Prop where
  seven : week.length = 7
  clock : ∀ shown ∈ week, ∀ times ∈ shown,
    IsClockText times.1 ∧ IsClockText times.2

theorem IsClockText.plain {text : String} (clock : IsClockText text) :
    PlainText text := by
  obtain ⟨hour, minute, inDay, inHour, rfl⟩ := clock
  exact clockText_plain inDay inHour

/-- Each position has a row with the hours of the day at that position. -/
def HoursInPlace (week : List ShownDay) (order : List BusinessHour) :
    Prop :=
  ∀ (index : Nat) (row : BusinessHour), order[index]? = some row →
    week[row.day - 1]? = week[index]?

section ColumnFormats

variable [ColumnFormat]

/-- A `time` column and `Carbon::parse` keep hours and minutes. -/
def KeepsClock : Prop :=
  ∀ hour minute, hour < 24 → minute < 60 →
    shownTime (clockText hour minute) = some (clockText hour minute)

omit [ColumnFormat] in
theorem ClockWeek.plain {week : List ShownDay} (clock : ClockWeek week) :
    ∀ shown ∈ week, PlainDay shown := by
  intro shown member times isShown
  obtain ⟨opens, closes⟩ := clock.clock shown member times isShown
  exact ⟨opens.plain, closes.plain⟩

/-- A schedule is stored and shown as itself. -/
theorem ClockWeek.stored {week : List ShownDay} (clock : ClockWeek week)
    (keeps : KeepsClock) : storedWeek week = some week := by
  apply storedWeek_of_kept
  intro shown member
  cases shown with
  | none => rfl
  | some times =>
      obtain ⟨opens, closes⟩ := times
      obtain ⟨isOpen, isClose⟩ := clock.clock _ member (opens, closes) rfl
      obtain ⟨hour, minute, inDay, inHour, rfl⟩ := isOpen
      obtain ⟨lastHour, lastMinute, lastInDay, lastInHour, rfl⟩ := isClose
      simp [storedDay, keeps hour minute inDay inHour,
        keeps lastHour lastMinute lastInDay lastInHour]

/-! ## Whole weeks are read -/

/-- The loop ends exactly if it writes a row for every day. -/
theorem readsWeek_ok_iff (entity : String) (data : Json)
    (days : List (Nat × String)) :
    readsWeek data days = .ok () ↔
      (writtenRows entity data days).length = days.length := by
  induction days with
  | nil => simp [readsWeek, writtenRows]
  | cons head rest induction =>
      obtain ⟨day, name⟩ := head
      cases read : readDay data name with
      | error failure => simp [readsWeek, writtenRows, read]
      | ok times => simp [readsWeek, writtenRows, read, induction]

theorem weekOutcome_ok_iff (entity : String) (json : Input) :
    weekOutcome json = .ok () ↔ (weekRows entity json).length = 7 := by
  cases decoded : decodeInput json with
  | error failure => simp [weekOutcome, weekRows, decoded]
  | ok data =>
      simp only [weekOutcome, weekRows, decoded]
      exact readsWeek_ok_iff entity data weekDays

/-! ## Rows in another order -/

/-- The rows of a stored schedule, and what each of them shows. -/
theorem weekRows_shown {week : List ShownDay} (entity : String)
    (clock : ClockWeek week) (keeps : KeepsClock) :
    (weekRows entity (.text (encodeWeek week))).length = 7 ∧
      ∀ row ∈ weekRows entity (.text (encodeWeek week)),
        ∃ shown, showRow row = .ok shown ∧
          week[row.day - 1]? = some shown := by
  obtain ⟨days, shown⟩ :=
    weekRows_of_storedWeek entity clock.seven (clock.stored keeps)
  have length :
      (weekRows entity (.text (encodeWeek week))).length = 7 := by
    simpa [weekDays] using congrArg List.length days
  refine ⟨length, ?_⟩
  intro row member
  obtain ⟨index, bound, equal⟩ := List.getElem_of_mem member
  have weekBound : index < week.length := by
    rw [← shown.length_eq]
    exact bound
  refine ⟨week.get ⟨index, weekBound⟩, ?_, ?_⟩
  · have shows := shown.get bound weekBound
    simpa [equal] using shows
  · have numbers : ∀ day : Fin 7,
        (weekDays.map Prod.fst)[day.val]? = some (day.val + 1) := by
      decide
    have number := congrArg (fun list => list[index]?) days
    simp only [List.getElem?_map (f := BusinessHour.day),
      List.getElem?_eq_getElem bound, equal, Option.map_some,
      numbers ⟨index, by omega⟩, Option.some.injEq] at number
    rw [number]
    simp

/-- The JSON that rows in some order are shown as. -/
theorem generate_reordered {week : List ShownDay} {entity : String}
    {order : List BusinessHour}
    (clock : ClockWeek week) (keeps : KeepsClock)
    (reordered :
      order.Perm (weekRows entity (.text (encodeWeek week)))) :
    generateBusinessHoursJson order =
      .ok (encodeWeek (order.map fun row =>
        (week[row.day - 1]?).getD none)) := by
  obtain ⟨length, shows⟩ := weekRows_shown entity clock keeps
  have shown : List.Forall₂ (fun row day => showRow row = .ok day) order
      (order.map fun row => (week[row.day - 1]?).getD none) := by
    rw [List.forall₂_map_right_iff, List.forall₂_same]
    intro row member
    obtain ⟨day, isShown, atDay⟩ :=
      shows row (reordered.mem_iff.mp member)
    rw [atDay]
    exact isShown
  rw [generateBusinessHoursJson, generateWeek_shown
    (by rw [reordered.length_eq, length]) shown]
  rfl

omit [ColumnFormat] in
/-- The hours are in place exactly if each position shows its own day. -/
theorem hoursInPlace_iff {week : List ShownDay} {order : List BusinessHour}
    (seven : week.length = 7) (orderSeven : order.length = 7)
    (days : ∀ row ∈ order, (week[row.day - 1]?).isSome) :
    (order.map fun row => (week[row.day - 1]?).getD none) = week ↔
      HoursInPlace week order := by
  constructor
  · intro equal index row atIndex
    have member := List.mem_of_getElem? atIndex
    obtain ⟨shown, atDay⟩ := Option.isSome_iff_exists.mp (days row member)
    have positions := congrArg (fun list => list[index]?) equal
    simp only [List.getElem?_map, atIndex, Option.map_some, atDay,
      Option.getD_some] at positions
    rw [atDay, ← positions]
  · intro inPlace
    apply List.ext_getElem?
    intro index
    rw [List.getElem?_map]
    cases atIndex : order[index]? with
    | none =>
        rw [List.getElem?_eq_none_iff] at atIndex
        rw [Option.map_none, List.getElem?_eq_none (by omega)]
    | some row =>
        have member := List.mem_of_getElem? atIndex
        obtain ⟨shown, atDay⟩ :=
          Option.isSome_iff_exists.mp (days row member)
        rw [Option.map_some, ← inPlace index row atIndex, atDay,
          Option.getD_some]

/--
Whatever the order in which the stored rows are returned, a schedule is shown
as itself exactly if every row is returned at the position of a day that has
the same hours.
-/
theorem hours_survive_iff
    {database : Database} {entity : String} {week : List ShownDay}
    {order : List BusinessHour}
    (keeps : KeepsClock) (clock : ClockWeek week)
    (reordered : order.Perm
      (hoursOf ((createBusinessHours entity
        (.text (encodeWeek week))).final database) entity)) :
    ((createBusinessHours entity (.text (encodeWeek week))).run
          database).1 = .ok () ∧
      (generateBusinessHoursJson order = .ok (encodeWeek week) ↔
        HoursInPlace week order) := by
  rw [hoursOf_createBusinessHours] at reordered
  obtain ⟨length, shows⟩ := weekRows_shown entity clock keeps
  constructor
  · obtain ⟨table, ran, -⟩ := createBusinessHours_run entity
      (.text (encodeWeek week)) database
    have accepted : weekOutcome (.text (encodeWeek week)) = .ok () :=
      (weekOutcome_ok_iff entity _).mpr length
    rw [ran, accepted]
  · have orderSeven : order.length = 7 := by
      rw [reordered.length_eq, length]
    have days : ∀ row ∈ order, (week[row.day - 1]?).isSome := by
      intro row member
      obtain ⟨shown, -, atDay⟩ := shows row (reordered.mem_iff.mp member)
      simp [atDay]
    rw [generate_reordered clock keeps reordered,
      ← hoursInPlace_iff clock.seven orderSeven days]
    constructor
    · intro same
      exact encodeWeek_injective (by simp [orderSeven]) clock.seven
        (Except.ok.inj same)
    · intro same
      rw [same]

end ColumnFormats

theorem clock_keepsClock : @KeepsClock clock := by
  intro hour minute inDay inHour
  exact @shownTime_eq clock _ _ _ (clockStore_clockText inDay inHour)
    (clockFormat_clockTime inDay inHour)

/-- A schedule that is open on Mondays. -/
def openMonday : List ShownDay :=
  [some ("09:00", "17:00"), none, none, none, none, none, none]

theorem openMonday_clock : ClockWeek openMonday := by
  refine ⟨rfl, ?_⟩
  intro shown member times isShown
  have isMonday : times = ("09:00", "17:00") := by
    simp only [openMonday, List.mem_cons, List.not_mem_nil, or_false,
      or_self] at member
    rcases member with rfl | rfl
    · exact (Option.some.inj isShown).symm
    · cases isShown
  rw [isMonday]
  exact ⟨⟨9, 0, by decide, by decide, by decide⟩,
    ⟨17, 0, by decide, by decide, by decide⟩⟩

/-- The rows of the schedule. -/
def mondayRows : List BusinessHour :=
  [⟨"e", 1, some (clockTime 9 0), some (clockTime 17 0)⟩,
    ⟨"e", 2, none, none⟩, ⟨"e", 3, none, none⟩, ⟨"e", 4, none, none⟩,
    ⟨"e", 5, none, none⟩, ⟨"e", 6, none, none⟩, ⟨"e", 7, none, none⟩]

theorem hoursOf_openMonday (database : Database) :
    hoursOf
        (Process.final (@createBusinessHours clock "e"
          (.text (encodeWeek openMonday))) database) "e" =
      mondayRows := by
  rw [@hoursOf_createBusinessHours clock]
  simp only [weekRows, decodeInput, decode_encodeWeek openMonday]
  rfl

theorem monday_stays_monday :
    @generateBusinessHoursJson clock mondayRows =
      .ok (encodeWeek openMonday) := by
  have survives := @hours_survive_iff clock Database.empty "e" openMonday
    mondayRows clock_keepsClock openMonday_clock
    (by rw [hoursOf_openMonday Database.empty])
  refine survives.2.mpr ?_
  intro index row atIndex
  have bound : index < 7 := (List.getElem?_eq_some_iff.mp atIndex).1
  have positions : ∀ index : Fin 7,
      (mondayRows[index.val]?).all fun row =>
        openMonday[row.day - 1]? = openMonday[index.val]? := by
    decide
  simpa [atIndex] using positions ⟨index, bound⟩

/-- The rows of Monday and Tuesday, returned in the other order. -/
def swappedRows : List BusinessHour :=
  ⟨"e", 2, none, none⟩ ::
    ⟨"e", 1, some (clockTime 9 0), some (clockTime 17 0)⟩ ::
      mondayRows.drop 2

/-- A schedule that is open on Tuesdays. -/
def openTuesday : List ShownDay :=
  [none, some ("09:00", "17:00"), none, none, none, none, none]

theorem swappedRows_shown :
    List.Forall₂ (fun row day => @showRow clock row = .ok day)
      swappedRows openTuesday := by
  have closed : ∀ day,
      @showRow clock ⟨"e", day, none, none⟩ = .ok none := fun _ => rfl
  have isOpen :
      @showRow clock
          ⟨"e", 1, some (clockTime 9 0), some (clockTime 17 0)⟩ =
        .ok (some ("09:00", "17:00")) := by
    decide
  simp [swappedRows, mondayRows, openTuesday, closed, isOpen]

/-- The hours of the Monday are shown on Tuesday. -/
theorem monday_moves_to_tuesday :
    @KeepsClock clock ∧ ClockWeek openMonday ∧
      swappedRows.Perm
        (hoursOf
          (Process.final (@createBusinessHours clock "e"
            (.text (encodeWeek openMonday))) Database.empty) "e") ∧
      @generateBusinessHoursJson clock swappedRows =
        .ok (encodeWeek openTuesday) ∧
      @generateBusinessHoursJson clock swappedRows ≠
        .ok (encodeWeek openMonday) := by
  have moved : @generateBusinessHoursJson clock swappedRows =
      .ok (encodeWeek openTuesday) := by
    unfold generateBusinessHoursJson
    rw [@generateWeek_shown clock _ _ rfl swappedRows_shown]
    rfl
  refine ⟨clock_keepsClock, openMonday_clock, ?_, moved, ?_⟩
  · rw [hoursOf_openMonday Database.empty]
    exact List.Perm.swap _ _ _
  · intro same
    rw [moved] at same
    have equal := encodeWeek_injective rfl rfl (Except.ok.inj same)
    revert equal
    decide

/-! ## Texts that are no full week -/

section ColumnFormats

variable [ColumnFormat]

/-- The columns of a day with these hours, when they can be stored. -/
def boundDay (opens closes : Json) : Option (Option Time × Option Time) :=
  match opens with
  | .null => some (none, none)
  | opens =>
      match bindTime opens, bindTime closes with
      | .ok openTime, .ok closeTime => some (openTime, closeTime)
      | _, _ => none

/-- A day of a full week has both `open` and `close`. -/
def fullDay (data : Json) (name : String) :
    Option (Option Time × Option Time) :=
  match data with
  | .object days =>
      match lookup name days with
      | some (.object day) =>
          match lookup "open" day, lookup "close" day with
          | some opens, some closes => boundDay opens closes
          | _, _ => none
      | _ => none
  | _ => none

def fullRows (entity : String) (data : Json) :
    List (Nat × String) → Option (List BusinessHour)
  | [] => some []
  | (day, name) :: rest =>
      match fullDay data name, fullRows entity data rest with
      | some times, some rows =>
          some (⟨entity, day, times.1, times.2⟩ :: rows)
      | _, _ => none

/-- The rows of a text that decodes to a full week. -/
def fullWeek (entity json : String) : Option (List BusinessHour) :=
  fullRows entity (decode json) weekDays

/-- What `createBusinessHours` leaves of a text. -/
def hoursAfter (entity json : String) (database : Database) :
    List BusinessHour :=
  hoursOf ((createBusinessHours entity (.text json)).final database) entity

/--
The call ends with the rows of the full week, or raises and leaves the rows;
and a text that is no full week leaves them in any case.
-/
structure ReplacesWhole (entity json : String) (database : Database) :
    Prop where
  outcome :
    (((createBusinessHours entity (.text json)).run database).1 = .ok () ∧
        fullWeek entity json = some (hoursAfter entity json database)) ∨
      (∃ failure,
        ((createBusinessHours entity (.text json)).run database).1 =
          .error failure) ∧
        hoursAfter entity json database = hoursOf database entity
  unchanged : fullWeek entity json = none →
    hoursAfter entity json database = hoursOf database entity

theorem readDay_of_full
    {data : Json} {name : String} {times : Option Time × Option Time}
    (full : fullDay data name = some times) :
    readDay data name = .ok times := by
  apply readDay_of_described
  unfold fullDay at full
  split at full
  · rename_i days
    split at full
    · rename_i day dayFound
      split at full
      · rename_i opens closes openFound closeFound
        unfold boundDay at full
        split at full
        · cases full
          simp [describedDay, dayFound, openFound]
        · rename_i notNull
          split at full
          · rename_i openTime closeTime openBound closeBound
            cases full
            cases opens <;>
              simp_all [describedDay]
          · cases full
      · cases full
    · cases full
  · cases full

/-- A full week is what is written. -/
theorem writtenRows_of_full
    {entity : String} {data : Json} {days : List (Nat × String)}
    {rows : List BusinessHour}
    (full : fullRows entity data days = some rows) :
    writtenRows entity data days = rows ∧ rows.length = days.length := by
  induction days generalizing rows with
  | nil =>
      cases full
      exact ⟨rfl, rfl⟩
  | cons head rest induction =>
      obtain ⟨day, name⟩ := head
      simp only [fullRows] at full
      split at full
      · rename_i times later dayFull restFull
        cases full
        obtain ⟨written, length⟩ := induction restFull
        rw [writtenRows, readDay_of_full dayFull]
        exact ⟨by rw [written], by simp [length]⟩
      · cases full

/--
On seven stored rows, the hours are replaced as a whole or not at all exactly
if the text is a full week.
-/
theorem replaces_whole_iff
    {entity json : String} {database : Database}
    (seven : (hoursOf database entity).length = 7) :
    ReplacesWhole entity json database ↔
      (fullWeek entity json).isSome := by
  have left : hoursAfter entity json database =
      weekRows entity (.text json) :=
    hoursOf_createBusinessHours entity (.text json) database
  have outcome :
      ((createBusinessHours entity (.text json)).run database).1 =
        weekOutcome (.text json) := by
    obtain ⟨table, ran, -⟩ :=
      createBusinessHours_run entity (.text json) database
    rw [ran]
  constructor
  · intro whole
    rcases whole.outcome with ⟨-, full⟩ | ⟨⟨failure, raised⟩, same⟩
    · simp [full]
    · exfalso
      rw [left] at same
      have ended := (weekOutcome_ok_iff entity (.text json)).mpr
        (by rw [same, seven])
      rw [outcome, ended] at raised
      cases raised
  · intro full
    obtain ⟨rows, full⟩ := Option.isSome_iff_exists.mp full
    obtain ⟨written, length⟩ := writtenRows_of_full full
    have equal : weekRows entity (.text json) = rows := written
    refine ⟨Or.inl ⟨?_, ?_⟩, ?_⟩
    · rw [outcome, weekOutcome_ok_iff entity, equal, length]
      rfl
    · rw [left, equal, full]
    · intro none
      rw [full] at none
      cases none

end ColumnFormats

/-- A site that has stored the schedule. -/
def mondaySite : Database :=
  Process.final
    (@createBusinessHours clock "e" (.text (encodeWeek openMonday)))
    Database.empty

/-- Open on two other days. -/
def openAfternoons : List ShownDay :=
  [none, some ("10:30", "18:00"), none, none, none, none,
    some ("12:00", "15:45")]

theorem full_week_is_replaced :
    @ReplacesWhole clock "e" (encodeWeek openAfternoons) mondaySite ∧
      @hoursAfter clock "e" (encodeWeek openAfternoons) mondaySite ≠
        hoursOf mondaySite "e" := by
  have replaced :=
    (@replaces_whole_iff clock "e" (encodeWeek openAfternoons) mondaySite
      (by rw [mondaySite, hoursOf_openMonday Database.empty]; rfl)).mpr (by
        unfold fullWeek
        rw [decode_encodeWeek openAfternoons]
        rfl)
  refine ⟨replaced, ?_⟩
  unfold hoursAfter
  rw [@hoursOf_createBusinessHours clock, mondaySite,
    hoursOf_openMonday Database.empty]
  simp only [weekRows, decodeInput, decode_encodeWeek openAfternoons]
  decide

/-- A text that is no JSON closes the shop for the whole week. -/
theorem undecodable_text_closes_week :
    (hoursOf mondaySite "e").length = 7 ∧
      ((@createBusinessHours clock "e" (.text "x")).run mondaySite).1 =
        .ok () ∧
      (∀ row ∈ @hoursAfter clock "e" "x" mondaySite,
        row.openTime = none) ∧
      ¬ @ReplacesWhole clock "e" "x" mondaySite := by
  have ended :
      ((@createBusinessHours clock "e" (.text "x")).run mondaySite).1 =
        .ok () := by
    obtain ⟨table, ran, -⟩ :=
      @createBusinessHours_run clock "e" (.text "x") mondaySite
    rw [ran]
    show @weekOutcome clock (.text "x") = .ok ()
    decide
  have closed : ∀ row ∈ @hoursAfter clock "e" "x" mondaySite,
      row.openTime = none := by
    unfold hoursAfter
    rw [@hoursOf_createBusinessHours clock]
    decide
  refine ⟨by rw [mondaySite, hoursOf_openMonday Database.empty]; rfl, ended, closed, ?_⟩
  intro whole
  rcases @ReplacesWhole.outcome clock _ _ _ whole with
    ⟨-, full⟩ | ⟨⟨failure, raised⟩, -⟩
  · have none : @fullWeek clock "e" "x" = none := by decide
    rw [none] at full
    cases full
  · rw [ended] at raised
    cases raised

end NomadiCore
