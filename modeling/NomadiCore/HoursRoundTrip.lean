import NomadiCore.BusinessHours

/-!
# Storing hours and showing them again

The JSON of a week is stored by `createBusinessHours` and shown again by
`generateBusinessHoursJson`.  A time that was shown once is stored and shown
as itself; of any other text the column may keep something else, such as
midnight of an empty one.
-/

namespace NomadiCore

open NomadiCore.Library.DecimalNumeral
open NomadiCore.Library.JsonText
open NomadiCore.Library.RowTable
open NomadiCore.Library.StatementProcess

/-- What a stored text is shown as. -/
def shownTime [ColumnFormat] (text : String) : Option String :=
  (ColumnFormat.store (.text text)).bind ColumnFormat.format

theorem shownTime_eq [ColumnFormat] {text shown : String} {time : Time}
    (stored : ColumnFormat.store (.text text) = some time)
    (formatted : ColumnFormat.format time = some shown) :
    shownTime text = some shown := by
  rw [shownTime, stored, Option.bind_some, formatted]

/--
Times are shown as hours and minutes, in plain characters, and a `time` column
keeps these.
-/
class ClockColumn extends ColumnFormat where
  plain : ∀ {time : Time} {text : String},
    format time = some text → PlainText text
  kept : ∀ {time : Time} {text : String},
    format time = some text → shownTime text = some text

/-! ## Shown days and weeks -/

section ColumnFormats

variable [ColumnFormat]

/-- What the stored hours of a day are shown as. -/
def storedDay : ShownDay → Option ShownDay
  | none => some none
  | some (opens, closes) =>
      match shownTime opens, shownTime closes with
      | some opens, some closes => some (some (opens, closes))
      | _, _ => none

/-- What the stored hours of a week are shown as. -/
def storedWeek : List ShownDay → Option (List ShownDay)
  | [] => some []
  | day :: rest =>
      match storedDay day, storedWeek rest with
      | some day, some rest => some (day :: rest)
      | _, _ => none

/-- A week whose hours can be written as JSON, stored and shown. -/
structure StorableWeek (week : List ShownDay) : Prop where
  seven : week.length = 7
  plain : ∀ shown ∈ week, PlainDay shown
  stored : (storedWeek week).isSome

theorem storedWeek_cons
    {day : ShownDay} {rest after : List ShownDay}
    (stored : storedWeek (day :: rest) = some after) :
    ∃ dayAfter restAfter,
      storedDay day = some dayAfter ∧
        storedWeek rest = some restAfter ∧
        after = dayAfter :: restAfter := by
  simp only [storedWeek] at stored
  split at stored
  · rename_i dayAfter restAfter dayStored restStored
    exact ⟨dayAfter, restAfter, dayStored, restStored,
      (Option.some.inj stored).symm⟩
  · cases stored

/-- A row is closed, or shown, or raises. -/
theorem showRow_cases (row : BusinessHour) :
    (row.openTime = none ∧ showRow row = .ok none) ∨
      (∃ openTime closeTime opens closes,
        row.openTime = some openTime ∧ row.closeTime = some closeTime ∧
          ColumnFormat.format openTime = some opens ∧
          ColumnFormat.format closeTime = some closes ∧
          showRow row = .ok (some (opens, closes))) ∨
      (showRow row = .error .error ∧ ∃ openTime,
        row.openTime = some openTime ∧
          (ColumnFormat.format openTime = none ∨ row.closeTime = none ∨
            ∃ closeTime, row.closeTime = some closeTime ∧
              ColumnFormat.format closeTime = none)) := by
  cases opens : row.openTime with
  | none => simp [showRow, opens]
  | some openTime =>
      cases openShown : ColumnFormat.format openTime with
      | none => simp [showRow, opens, openShown]
      | some openText =>
          cases closes : row.closeTime with
          | none => simp [showRow, opens, openShown, closes]
          | some closeTime =>
              cases closeShown : ColumnFormat.format closeTime with
              | none => simp [showRow, opens, openShown, closes, closeShown]
              | some closeText =>
                  simp [showRow, opens, openShown, closes, closeShown]

/-- The row of a stored day is shown as that day. -/
theorem showRow_of_readDay
    {data : Json} {name : String} {day after : ShownDay}
    (found : offset data name = .ok (shownDayJson day))
    (stored : storedDay day = some after) :
    ∃ openTime closeTime,
      readDay data name = .ok (openTime, closeTime) ∧
        ∀ entity number,
          showRow ⟨entity, number, openTime, closeTime⟩ = .ok after := by
  cases day with
  | none =>
      have closed : after = none := (Option.some.inj stored).symm
      subst closed
      have read : readDay data name = .ok (none, none) := by
        rw [readDay, found]
        rfl
      exact ⟨none, none, read, fun entity number => rfl⟩
  | some times =>
      obtain ⟨opens, closes⟩ := times
      simp only [storedDay] at stored
      split at stored
      · rename_i opensShown closesShown opensEqual closesEqual
        cases stored
        obtain ⟨openTime, openStored, openShown⟩ :=
          Option.bind_eq_some_iff.mp opensEqual
        obtain ⟨closeTime, closeStored, closeShown⟩ :=
          Option.bind_eq_some_iff.mp closesEqual
        have read :
            readDay data name = .ok (some openTime, some closeTime) := by
          have opensRead :
              offset (shownDayJson (some (opens, closes))) "open" =
                .ok (.text opens) := rfl
          have closesRead :
              offset (shownDayJson (some (opens, closes))) "close" =
                .ok (.text closes) := rfl
          simp [readDay, found, opensRead, closesRead, bindTime, openStored,
            closeStored, bind, Except.bind, pure, Except.pure]
        refine ⟨some openTime, some closeTime, read, ?_⟩
        intro entity number
        simp [showRow, openShown, closeShown]
      · cases stored

omit [ColumnFormat] in
theorem exists_seven {Item : Type} {items : List Item}
    (seven : items.length = 7) :
    ∃ a b c d e f g, items = [a, b, c, d, e, f, g] := by
  rcases items with
    _ | ⟨a, _ | ⟨b, _ | ⟨c, _ | ⟨d, _ | ⟨e, _ | ⟨f, _ | ⟨g, _ | ⟨h, more⟩⟩⟩⟩⟩⟩⟩⟩
  all_goals simp at seven ⊢

/-- The loop over the rows, in any order, fills the week. -/
theorem foldlM_putDay
    {pairs : List (BusinessHour × Nat)} {before week : List ShownDay}
    (seven : week.length = 7) (sameLength : before.length = 7)
    (shown : ∀ pair ∈ pairs, ∃ day,
      showRow pair.1 = .ok day ∧ week[pair.2]? = some day)
    (outside : ∀ index, index ∉ pairs.map Prod.snd →
      before[index]? = week[index]?) :
    pairs.foldlM (fun week pair => putDay week pair.1 pair.2) before =
      .ok week := by
  induction pairs generalizing before with
  | nil =>
      have same : before = week :=
        List.ext_getElem? fun index => outside index (by simp)
      rw [same]
      rfl
  | cons pair rest induction =>
      obtain ⟨row, index⟩ := pair
      obtain ⟨day, shows, inWeek⟩ := shown (row, index) (by simp)
      have bound : index < 7 := by
        rw [← seven]
        exact (List.getElem?_eq_some_iff.mp inWeek).1
      have put : putDay before row index = .ok (before.set index day) := by
        simp [putDay, shows, bound, bind, Except.bind, pure, Except.pure]
      rw [List.foldlM_cons, put]
      apply induction
      · simp [sameLength]
      · intro later member
        exact shown later (by simp [member])
      · intro other absent
        by_cases same : index = other
        · subst same
          rw [List.getElem?_set_self (by omega)]
          exact inWeek.symm
        · rw [List.getElem?_set_ne same]
          apply outside
          simp only [List.map_cons, List.mem_cons, not_or]
          exact ⟨fun equal => same equal.symm, absent⟩

/-- Seven rows are shown in the order in which the relation has them. -/
theorem generateWeek_shown
    {rows : List BusinessHour} {week : List ShownDay}
    (seven : rows.length = 7)
    (shown : List.Forall₂ (fun row day => showRow row = .ok day) rows week) :
    generateWeek rows = .ok week := by
  have weekSeven : week.length = 7 := by
    rw [← shown.length_eq, seven]
  have sorted := List.perm_insertionSort
    (fun left right : BusinessHour × Nat => right.1.day ≤ left.1.day)
    rows.zipIdx
  refine foldlM_putDay weekSeven (by simp) ?_ ?_
  · intro pair member
    obtain ⟨row, index⟩ := pair
    have atIndex : rows[index]? = some row := by
      simpa using List.mem_zipIdx_iff_getElem?.mp (sorted.mem_iff.mp member)
    obtain ⟨bound, equal⟩ := List.getElem?_eq_some_iff.mp atIndex
    have weekBound : index < week.length := by
      rw [← shown.length_eq]
      exact bound
    refine ⟨week.get ⟨index, weekBound⟩, ?_, ?_⟩
    · have shows := shown.get bound weekBound
      simpa [equal] using shows
    · simp
  · intro index absent
    have outside : 7 ≤ index := by
      by_contra inside
      apply absent
      rw [(sorted.map Prod.snd).mem_iff, List.mem_map]
      have bound : index < rows.length := by omega
      exact ⟨(rows.get ⟨index, bound⟩, index),
        List.mem_zipIdx_iff_getElem?.mpr (by simp), rfl⟩
    rw [List.getElem?_eq_none (by simpa using outside),
      List.getElem?_eq_none (by omega)]

/-- The rows written of described days are shown as what is stored. -/
theorem writtenRows_shown
    (entity : String) {data : Json} {days : List (Nat × String)}
    {week after : List ShownDay}
    (sameLength : days.length = week.length)
    (found : ∀ pair ∈ days.zip week,
      offset data pair.1.2 = .ok (shownDayJson pair.2))
    (stored : storedWeek week = some after) :
    (writtenRows entity data days).map BusinessHour.day =
        days.map Prod.fst ∧
      List.Forall₂ (fun row day => showRow row = .ok day)
        (writtenRows entity data days) after := by
  induction days generalizing week after with
  | nil =>
      have empty : week = [] :=
        List.eq_nil_of_length_eq_zero sameLength.symm
      subst empty
      cases stored
      exact ⟨rfl, .nil⟩
  | cons head rest induction =>
      obtain ⟨number, name⟩ := head
      cases week with
      | nil => simp at sameLength
      | cons day week =>
          obtain ⟨dayAfter, weekAfter, dayStored, weekStored, rfl⟩ :=
            storedWeek_cons stored
          obtain ⟨openTime, closeTime, read, shown⟩ :=
            showRow_of_readDay
              (found ((number, name), day) (by simp)) dayStored
          obtain ⟨numbers, later⟩ :=
            induction (by simpa using sameLength)
              (fun pair member => found pair (by simp [member])) weekStored
          constructor
          · simp [writtenRows, read, numbers]
          · simp only [writtenRows, read]
            exact .cons (shown entity number) later

/-- The rows of a stored week, one for each day, as they are shown. -/
theorem weekRows_of_storedWeek
    (entity : String) {week after : List ShownDay}
    (seven : week.length = 7) (stored : storedWeek week = some after) :
    (weekRows entity (.text (encodeWeek week))).map BusinessHour.day =
        weekDays.map Prod.fst ∧
      List.Forall₂ (fun row day => showRow row = .ok day)
        (weekRows entity (.text (encodeWeek week))) after := by
  have decoded :
      decodeInput (.text (encodeWeek week)) =
        .ok (.object (weekFields week)) := by
    rw [decodeInput, decode_encodeWeek week]
  have found : ∀ pair ∈ weekDays.zip week,
      offset (.object (weekFields week)) pair.1.2 =
        .ok (shownDayJson pair.2) := by
    obtain ⟨_, _, _, _, _, _, _, rfl⟩ := exists_seven seven
    simp [weekFields, weekDays, offset, lookup]
  rw [weekRows, decoded]
  exact writtenRows_shown entity (by simp [weekDays, seven]) found stored

/-- Stored hours are shown as what the columns keep of them. -/
theorem generate_weekRows
    (entity : String) {week after : List ShownDay}
    (seven : week.length = 7) (stored : storedWeek week = some after) :
    generateBusinessHoursJson
        (weekRows entity (.text (encodeWeek week))) =
      .ok (encodeWeek after) := by
  obtain ⟨days, shown⟩ := weekRows_of_storedWeek entity seven stored
  have length :
      (weekRows entity (.text (encodeWeek week))).length = 7 := by
    simpa [weekDays] using congrArg List.length days
  rw [generateBusinessHoursJson, generateWeek_shown length shown]
  rfl

/-! ## Weeks that were shown -/

/-- The generated week has seven days, each shown of a row or closed. -/
theorem generateWeek_spec
    {property : ShownDay → Prop} (closed : property none)
    (ofRow : ∀ row shown, showRow row = .ok shown → property shown)
    {rows : List BusinessHour} {week : List ShownDay}
    (generated : generateWeek rows = .ok week) :
    week.length = 7 ∧ ∀ shown ∈ week, property shown := by
  have step :
      ∀ (pairs : List (BusinessHour × Nat)) (before after : List ShownDay),
        (before.length = 7 ∧ ∀ shown ∈ before, property shown) →
        pairs.foldlM (fun week pair => putDay week pair.1 pair.2)
            before = .ok after →
        after.length = 7 ∧ ∀ shown ∈ after, property shown := by
    intro pairs
    induction pairs with
    | nil =>
        intro before after invariant ran
        have same : before = after := by
          simpa [pure, Except.pure] using ran
        exact same ▸ invariant
    | cons pair rest induction =>
        obtain ⟨row, index⟩ := pair
        intro before after invariant ran
        cases shown : showRow row with
        | error failure =>
            simp [putDay, shown, bind, Except.bind] at ran
        | ok day =>
            by_cases inWeek : index < 7
            · refine induction (before.set index day) after ?_ ?_
              · refine ⟨by simp [invariant.1], ?_⟩
                intro other member
                rcases List.mem_or_eq_of_mem_set member with old | new
                · exact invariant.2 other old
                · exact new ▸ ofRow row day shown
              · simpa [putDay, shown, inWeek, bind, Except.bind, pure,
                  Except.pure] using ran
            · simp [putDay, shown, inWeek, bind, Except.bind, throw,
                throwThe, MonadExceptOf.throw] at ran
  refine step _ (List.replicate 7 none) week ⟨by simp, ?_⟩ generated
  intro shown member
  rw [List.eq_of_mem_replicate member]
  exact closed

theorem storedWeek_of_kept {week : List ShownDay}
    (kept : ∀ shown ∈ week, storedDay shown = some shown) :
    storedWeek week = some week := by
  induction week with
  | nil => rfl
  | cons day rest induction =>
      have day_kept := kept day (by simp)
      have rest_kept := induction fun shown member =>
        kept shown (by simp [member])
      simp [storedWeek, day_kept, rest_kept]

theorem storedWeek_length {week after : List ShownDay}
    (stored : storedWeek week = some after) :
    after.length = week.length := by
  induction week generalizing after with
  | nil => cases stored; rfl
  | cons day rest induction =>
      obtain ⟨dayAfter, restAfter, -, restStored, rfl⟩ :=
        storedWeek_cons stored
      simp [induction restStored]

end ColumnFormats

theorem shownDayJson_injective {left right : ShownDay}
    (equal : shownDayJson left = shownDayJson right) : left = right := by
  cases left with
  | none =>
      cases right with
      | none => rfl
      | some times => simp [shownDayJson, nullableJson] at equal
  | some leftTimes =>
      cases right with
      | none => simp [shownDayJson, nullableJson] at equal
      | some rightTimes =>
          have both : leftTimes.1 = rightTimes.1 ∧
              leftTimes.2 = rightTimes.2 := by
            simpa [shownDayJson, nullableJson] using equal
          rw [Prod.ext both.1 both.2]

/-- Different weeks are written differently. -/
theorem encodeWeek_injective
    {left right : List ShownDay}
    (leftSeven : left.length = 7) (rightSeven : right.length = 7)
    (equal : encodeWeek left = encodeWeek right) :
    left = right := by
  have decoded := congrArg decode equal
  rw [decode_encodeWeek left, decode_encodeWeek right] at decoded
  obtain ⟨_, _, _, _, _, _, _, rfl⟩ := exists_seven leftSeven
  obtain ⟨_, _, _, _, _, _, _, rfl⟩ := exists_seven rightSeven
  simp only [weekFields, weekDays, List.zip_cons_cons, List.zip_nil_right,
    List.map_cons, List.map_nil, Json.object.injEq, List.cons.injEq,
    Prod.mk.injEq, true_and, and_true] at decoded
  obtain ⟨monday, tuesday, wednesday, thursday, friday, saturday,
    sunday⟩ := decoded
  rw [shownDayJson_injective monday, shownDayJson_injective tuesday,
    shownDayJson_injective wednesday, shownDayJson_injective thursday,
    shownDayJson_injective friday, shownDayJson_injective saturday,
    shownDayJson_injective sunday]

section ClockColumns

variable [ClockColumn]

/-- A day that was shown is plain, and stored and shown as itself. -/
def KeptDay (shown : ShownDay) : Prop :=
  PlainDay shown ∧ storedDay shown = some shown

theorem keptDay_closed : KeptDay none := ⟨by simp [PlainDay], rfl⟩

theorem keptDay_of_format
    {openTime closeTime : Time} {opens closes : String}
    (openShown : ColumnFormat.format openTime = some opens)
    (closeShown : ColumnFormat.format closeTime = some closes) :
    KeptDay (some (opens, closes)) := by
  constructor
  · intro times member
    cases member
    exact ⟨ClockColumn.plain openShown, ClockColumn.plain closeShown⟩
  · simp [storedDay, ClockColumn.kept openShown,
      ClockColumn.kept closeShown]

theorem keptDay_of_showRow {row : BusinessHour} {shown : ShownDay}
    (shows : showRow row = .ok shown) : KeptDay shown := by
  rcases showRow_cases row with ⟨-, closed⟩ |
    ⟨openTime, closeTime, opens, closes, -, -, openShown, closeShown,
      isShown⟩ | ⟨raised, -⟩
  · rw [closed] at shows
    cases shows
    exact keptDay_closed
  · rw [isShown] at shows
    cases shows
    exact keptDay_of_format openShown closeShown
  · rw [raised] at shows
    cases shows

/-- A week of days that were shown. -/
structure KeptWeek (week : List ShownDay) : Prop where
  seven : week.length = 7
  kept : ∀ shown ∈ week, KeptDay shown

namespace KeptWeek

variable {week : List ShownDay}

theorem plain (shown : KeptWeek week) : ∀ day ∈ week, PlainDay day :=
  fun day member => (shown.kept day member).1

theorem stored (shown : KeptWeek week) : storedWeek week = some week :=
  storedWeek_of_kept fun day member => (shown.kept day member).2

end KeptWeek

theorem keptWeek_of_generate
    {rows : List BusinessHour} {json : String}
    (generated : generateBusinessHoursJson rows = .ok json) :
    ∃ week, json = encodeWeek week ∧ KeptWeek week := by
  cases shown : generateWeek rows with
  | error failure =>
      simp [generateBusinessHoursJson, shown, Except.map] at generated
  | ok week =>
      have equal : encodeWeek week = json := by
        simpa [generateBusinessHoursJson, shown, Except.map] using generated
      obtain ⟨seven, kept⟩ :=
        generateWeek_spec keptDay_closed
          (fun row day => keptDay_of_showRow) shown
      exact ⟨week, equal.symm, seven, kept⟩

theorem storedDay_kept {day after : ShownDay}
    (stored : storedDay day = some after) : KeptDay after := by
  cases day with
  | none =>
      cases stored
      exact keptDay_closed
  | some times =>
      obtain ⟨opens, closes⟩ := times
      simp only [storedDay] at stored
      split at stored
      · rename_i opensShown closesShown opensEqual closesEqual
        cases stored
        obtain ⟨openTime, -, openShown⟩ :=
          Option.bind_eq_some_iff.mp opensEqual
        obtain ⟨closeTime, -, closeShown⟩ :=
          Option.bind_eq_some_iff.mp closesEqual
        exact keptDay_of_format openShown closeShown
      · cases stored

/-- What is shown of stored hours is stored and shown as itself. -/
theorem storedWeek_kept {week after : List ShownDay}
    (seven : week.length = 7) (stored : storedWeek week = some after) :
    KeptWeek after := by
  refine ⟨by rw [storedWeek_length stored, seven], ?_⟩
  clear seven
  induction week generalizing after with
  | nil =>
      cases stored
      simp
  | cons day rest induction =>
      obtain ⟨dayAfter, restAfter, dayStored, restStored, rfl⟩ :=
        storedWeek_cons stored
      intro shown member
      rcases List.mem_cons.mp member with equal | later
      · exact equal ▸ storedDay_kept dayStored
      · exact induction restStored shown later

end ClockColumns

/-! ## The clock keeps its times -/

theorem digitsValue_twoDigits {value : Nat} (small : value < 100) :
    digitsValue (twoDigits value) = value := by
  have all : ∀ value : Fin 100, digitsValue (twoDigits value) = value := by
    decide
  exact all ⟨value, small⟩

theorem twoDigits_plain {value : Nat} (small : value < 100) :
    ∀ character ∈ twoDigits value, Plain character := by
  have all : ∀ value : Fin 100,
      (twoDigits value).all fun character => decide (Plain character) := by
    decide
  simpa using all ⟨value, small⟩

theorem clockText_plain {hour minute : Nat}
    (inDay : hour < 24) (inHour : minute < 60) :
    PlainText (clockText hour minute) := by
  intro character member
  rw [clockText, String.toList_ofList, List.mem_append, List.mem_cons]
    at member
  rcases member with inHours | colon | inMinutes
  · exact twoDigits_plain (by omega) character inHours
  · subst colon
    decide
  · exact twoDigits_plain (by omega) character inMinutes

theorem clockFormat_eq_some {time : Int} {text : String}
    (formatted : clockFormat time = some text) :
    ∃ hour minute, hour < 24 ∧ minute < 60 ∧
      text = clockText hour minute := by
  unfold clockFormat at formatted
  split at formatted
  · rename_i onClock
    refine ⟨time.toNat / 3600, time.toNat / 60 % 60, by omega, by omega, ?_⟩
    exact (Option.some.inj formatted).symm
  · cases formatted

theorem clockStore_clockText {hour minute : Nat}
    (inDay : hour < 24) (inHour : minute < 60) :
    clockStore (.text (clockText hour minute)) =
      some (clockTime hour minute) := by
  have written :
      clockStore (.text (clockText hour minute)) =
        some (clockTime (digitsValue (twoDigits hour))
          (digitsValue (twoDigits minute))) := by
    rw [clockStore, clockText, String.toList_ofList]
    rfl
  rw [written, digitsValue_twoDigits (by omega),
    digitsValue_twoDigits (by omega)]

theorem clockFormat_clockTime {hour minute : Nat}
    (inDay : hour < 24) (inHour : minute < 60) :
    clockFormat (clockTime hour minute) =
      some (clockText hour minute) := by
  have seconds :
      (clockTime hour minute).toNat = (hour * 60 + minute) * 60 := rfl
  have hours : (hour * 60 + minute) * 60 / 3600 = hour := by omega
  have minutes : (hour * 60 + minute) * 60 / 60 % 60 = minute := by omega
  have positive : 0 ≤ clockTime hour minute := Int.natCast_nonneg _
  have below : clockTime hour minute < 86400 := by
    unfold clockTime
    omega
  rw [clockFormat, if_pos ⟨positive, below⟩, seconds, hours, minutes]

/-- The clock of the concrete runs shows its times and keeps them. -/
@[reducible]
def clockColumn : ClockColumn where
  toColumnFormat := clock
  plain := by
    intro time text formatted
    obtain ⟨hour, minute, inDay, inHour, rfl⟩ :=
      clockFormat_eq_some formatted
    exact clockText_plain inDay inHour
  kept := by
    intro time text formatted
    obtain ⟨hour, minute, inDay, inHour, rfl⟩ :=
      clockFormat_eq_some formatted
    exact @shownTime_eq clock _ _ _ (clockStore_clockText inDay inHour)
      (clockFormat_clockTime inDay inHour)

end NomadiCore
