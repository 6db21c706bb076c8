import NomadiCore.EditingMerge
import NomadiCore.HoursStorage

/-!
# The hours of an untouched form

The edit form prints the hours with `Presenter::openTime` and `closeTime`; its
script reads the inputs back and posts `JSON.stringify` of them.  The server
compares that text with `generateBusinessHoursJson`, so the two encoders have
to agree to the byte.
-/

namespace NomadiCore

open NomadiCore.Library.JsonText
open NomadiCore.Library.RowTable
open NomadiCore.Library.StatementProcess

/-! ## The form -/

section ColumnFormats

variable [ColumnFormat]

/-- `Carbon::format('H:i')` of a stored time; `null` has no `format`. -/
def formatTime : Option Time → Except Raised String
  | none => .error .error
  | some time =>
      match ColumnFormat.format time with
      | none => .error .error
      | some text => .ok text

namespace Presenter

/-- The row of a day, which has to be there. -/
def row (rows : List BusinessHour) (number : Nat) :
    Except Raised BusinessHour :=
  match rows.find? fun row => row.day = number with
  | none => .error .errorException
  | some row => .ok row

def openTime (rows : List BusinessHour) (number : Nat) :
    Except Raised (Option String) := do
  let row ← Presenter.row rows number
  if row.openTime = none then return none
  else return some (← formatTime row.openTime)

/-- Asks for the opening time, too. -/
def closeTime (rows : List BusinessHour) (number : Nat) :
    Except Raised (Option String) := do
  let row ← Presenter.row rows number
  if row.openTime = none then return none
  else return some (← formatTime row.closeTime)

end Presenter

/-- The inputs of one day. -/
structure DayInputs where
  opens : String
  closes : String
  dayoff : Bool
deriving DecidableEq

/-- The inputs as they are rendered; `null` is printed as an empty text. -/
def renderDay (rows : List BusinessHour) (number : Nat) :
    Except Raised DayInputs := do
  let opens ← Presenter.openTime rows number
  let closes ← Presenter.closeTime rows number
  return ⟨inputText (opens.getD ""), inputText (closes.getD ""),
    opens.isNone⟩

def renderDays (rows : List BusinessHour) :
    List (Nat × String) → Except Raised (List DayInputs)
  | [] => .ok []
  | (number, _) :: rest => do
      let inputs ← renderDay rows number
      let later ← renderDays rows rest
      return inputs :: later

end ColumnFormats

/-! ## The script -/

/-- `data[day]` after `generateDataModel`. -/
def DayInputs.data (inputs : DayInputs) : Option String × Option String :=
  if inputs.dayoff then (none, none)
  else (some inputs.opens, some inputs.closes)

/-- One character of a text in `JSON.stringify`. -/
def quote (character : Char) : List Char :=
  match character with
  | '"' => ['\\', '"']
  | '\\' => ['\\', '\\']
  | '\x08' => ['\\', 'b']
  | '\x0c' => ['\\', 'f']
  | '\n' => ['\\', 'n']
  | '\r' => ['\\', 'r']
  | '\t' => ['\\', 't']
  | _ =>
      if character.toNat < 0x20 then unicodeEscape character.toNat
      else [character]

def stringifyText (text : String) : List Char :=
  '"' :: (text.toList.flatMap quote ++ ['"'])

def stringifyNullable : Option String → List Char
  | none => ['n', 'u', 'l', 'l']
  | some text => stringifyText text

/-- An object with the given members, in the order of their insertion. -/
def stringifyObject (members : List (String × List Char)) : List Char :=
  '{' :: (List.intercalate [',']
    (members.map fun member =>
      stringifyText member.1 ++ ':' :: member.2) ++ ['}'])

/-- `JSON.stringify(data)`. -/
def stringify (data : List (String × Option String × Option String)) :
    String :=
  String.ofList
    (stringifyObject (data.map fun day =>
      (day.1, stringifyObject
        [("open", stringifyNullable day.2.1),
          ("close", stringifyNullable day.2.2)])))

/-- The text that the form posts in `business_hours` when it is untouched. -/
def postedHours [ColumnFormat] (rows : List BusinessHour) :
    Except Raised String :=
  (renderDays rows weekDays).map fun inputs =>
    stringify ((weekDays.map Prod.snd).zip (inputs.map DayInputs.data))

/-! ## The encoders agree -/

theorem quote_plain {character : Char} (plain : Plain character) :
    quote character = [character] := by
  obtain ⟨noQuote, noBackslash, -, printable⟩ := plain
  unfold quote
  split
  · exact absurd rfl noQuote
  · exact absurd rfl noBackslash
  · exact absurd (by decide) printable
  · exact absurd (by decide) printable
  · exact absurd (by decide) printable
  · exact absurd (by decide) printable
  · exact absurd (by decide) printable
  · rw [if_neg printable]

theorem stringifyText_plain {text : String} (plain : PlainText text) :
    stringifyText text = encodeText text := by
  have same : text.toList.flatMap quote = text.toList.flatMap escape := by
    apply List.flatMap_congr
    intro character member
    have isPlain := plain character member
    rw [quote_plain isPlain, isPlain.2.2.1]
  rw [stringifyText, encodeText, same]

theorem stringifyNullable_plain {text : Option String}
    (plain : ∀ value, text = some value → PlainText value) :
    stringifyNullable text = encodeNullable text := by
  cases text with
  | none => decide
  | some value => exact stringifyText_plain (plain value rfl)

theorem stringifyObject_plain {members : List (String × List Char)}
    (plain : ∀ member ∈ members, PlainText member.1) :
    stringifyObject members = encodeObject members := by
  have same :
      (members.map fun member =>
        stringifyText member.1 ++ ':' :: member.2) =
      members.map fun member =>
        encodeText member.1 ++ ':' :: member.2 := by
    apply List.map_congr_left
    intro member listed
    rw [stringifyText_plain (plain member listed)]
  rw [stringifyObject, encodeObject, same]

/-- The hours of a day in the script and on the server. -/
theorem stringify_hours {shown : ShownDay} (plain : PlainDay shown) :
    stringifyObject
        [("open", stringifyNullable (shown.map Prod.fst)),
          ("close", stringifyNullable (shown.map Prod.snd))] =
      encodeHours shown := by
  have opens : stringifyNullable (shown.map Prod.fst) =
      encodeNullable (shown.map Prod.fst) := by
    apply stringifyNullable_plain
    intro value equal
    obtain ⟨times, isShown, rfl⟩ := Option.map_eq_some_iff.mp equal
    exact (plain times isShown).1
  have closes : stringifyNullable (shown.map Prod.snd) =
      encodeNullable (shown.map Prod.snd) := by
    apply stringifyNullable_plain
    intro value equal
    obtain ⟨times, isShown, rfl⟩ := Option.map_eq_some_iff.mp equal
    exact (plain times isShown).2
  have names : ∀ name ∈ ["open", "close"], PlainText name := by decide
  rw [opens, closes, encodeHours]
  apply stringifyObject_plain
  intro member listed
  exact names member.1 (List.mem_map_of_mem listed)

theorem weekDays_plain : ∀ day ∈ weekDays, PlainText day.2 := by
  decide

/-- Both encoders write the same week. -/
theorem stringify_week {week : List ShownDay}
    (plain : ∀ shown ∈ week, PlainDay shown) :
    stringify ((weekDays.map Prod.snd).zip
        (week.map fun shown => (shown.map Prod.fst, shown.map Prod.snd))) =
      encodeWeek week := by
  have members :
      (((weekDays.map Prod.snd).zip
          (week.map fun shown =>
            (shown.map Prod.fst, shown.map Prod.snd))).map fun day =>
        (day.1, stringifyObject
          [("open", stringifyNullable day.2.1),
            ("close", stringifyNullable day.2.2)])) =
      (weekDays.zip week).map fun day => (day.1.2, encodeHours day.2) := by
    rw [List.zip_map, List.map_map]
    apply List.map_congr_left
    intro day member
    exact congrArg (Prod.mk day.1.2)
      (stringify_hours (plain day.2 (List.of_mem_zip member).2))
  rw [stringify, members, encodeWeek_eq]
  apply congrArg
  apply stringifyObject_plain
  intro member listed
  obtain ⟨day, paired, rfl⟩ := List.mem_map.mp listed
  exact weekDays_plain day.1 (List.of_mem_zip paired).1

/-! ## The presenter shows what the server shows -/

/-- The inputs in which a day is shown. -/
def dayInputs (shown : ShownDay) : DayInputs :=
  ⟨inputText ((shown.map Prod.fst).getD ""),
    inputText ((shown.map Prod.snd).getD ""), shown.isNone⟩

theorem inputText_plain {text : String} (plain : PlainText text) :
    inputText text = text := by
  have kept : (text.toList.filter fun character =>
      character ≠ '\n' ∧ character ≠ '\r') = text.toList := by
    apply List.filter_eq_self.mpr
    intro character member
    have printable := (plain character member).2.2.2
    simp only [decide_eq_true_eq]
    constructor
    · rintro rfl
      exact printable (by decide)
    · rintro rfl
      exact printable (by decide)
  rw [inputText, kept, String.ofList_toList]

/-- The script reads a day as it was shown. -/
theorem data_dayInputs {shown : ShownDay} (plain : PlainDay shown) :
    (dayInputs shown).data = (shown.map Prod.fst, shown.map Prod.snd) := by
  cases shown with
  | none => rfl
  | some times =>
      obtain ⟨opens, closes⟩ := plain times rfl
      simp [dayInputs, DayInputs.data, inputText_plain opens,
        inputText_plain closes]

section ColumnFormats

variable [ColumnFormat]

theorem renderDay_eq {rows : List BusinessHour} {row : BusinessHour}
    {number : Nat}
    (found : (rows.find? fun row => row.day = number) = some row) :
    renderDay rows number = (showRow row).map dayInputs := by
  obtain ⟨entity, day, opens, closes⟩ := row
  have isRow :
      Presenter.row rows number = .ok ⟨entity, day, opens, closes⟩ := by
    rw [Presenter.row, found]
  simp only [renderDay, Presenter.openTime, Presenter.closeTime, isRow,
    showRow, bind, Except.bind, pure, Except.pure, Except.map]
  cases opens with
  | none => rfl
  | some openTime =>
      cases openShown : ColumnFormat.format openTime with
      | none => simp [formatTime, openShown]
      | some openText =>
          cases closes with
          | none => simp [formatTime, openShown]
          | some closeTime =>
              cases closeShown : ColumnFormat.format closeTime with
              | none => simp [formatTime, openShown, closeShown]
              | some closeText =>
                  simp [formatTime, openShown, closeShown, dayInputs]

/-- The inputs show the days of the form. -/
theorem renderDays_eq (rows : List BusinessHour)
    (days : List (Nat × String)) :
    renderDays rows days = (shownDays rows days).map (List.map dayInputs) := by
  induction days with
  | nil => rfl
  | cons head rest induction =>
      obtain ⟨number, name⟩ := head
      cases found : rows.find? fun row => row.day = number with
      | none =>
          simp [renderDays, renderDay, Presenter.openTime, Presenter.row,
            shownDays, found, bind, Except.bind, Except.map]
      | some row =>
          rw [renderDays, renderDay_eq found, induction]
          cases shown : showRow row with
          | error failure =>
              simp [shownDays, found, shown, bind, Except.bind, Except.map]
          | ok day =>
              cases later : shownDays rows rest with
              | error failure =>
                  simp [shownDays, found, shown, later, bind, Except.bind,
                    Except.map]
              | ok week =>
                  simp [shownDays, found, shown, later, bind, Except.bind,
                    Except.map, pure, Except.pure]

theorem showRow_error {row : BusinessHour} {failure : Raised}
    (raised : showRow row = .error failure) : failure = .error := by
  rcases showRow_cases row with ⟨-, shown⟩ |
    ⟨_, _, _, _, -, -, -, -, shown⟩ | ⟨shown, -⟩
  · rw [shown] at raised
    cases raised
  · rw [shown] at raised
    cases raised
  · rw [shown] at raised
    cases raised
    rfl

/-- All the rows are shown, or one of them raises. -/
theorem shown_or_raises (rows : List BusinessHour) :
    (∃ week,
        List.Forall₂ (fun row day => showRow row = .ok day) rows week) ∨
      ∃ row ∈ rows, showRow row = .error .error := by
  induction rows with
  | nil => exact Or.inl ⟨[], .nil⟩
  | cons row rest induction =>
      cases shown : showRow row with
      | error failure =>
          have kind := showRow_error shown
          subst kind
          exact Or.inr ⟨row, by simp, shown⟩
      | ok day =>
          rcases induction with ⟨week, later⟩ | ⟨other, member, raised⟩
          · exact Or.inl ⟨day :: week, .cons shown later⟩
          · exact Or.inr ⟨other, by simp [member], raised⟩

/-! ### Rows that are shown -/

/-- The form shows the rows that the presenter finds. -/
theorem shownDays_shown {rows found : List BusinessHour}
    {days : List (Nat × String)} {week : List ShownDay}
    (finds : List.Forall₂ (fun row day =>
      (rows.find? fun row => row.day = day.1) = some row) found days)
    (shown : List.Forall₂ (fun row day => showRow row = .ok day)
      found week) :
    shownDays rows days = .ok week := by
  induction finds generalizing week with
  | nil =>
      cases shown
      rfl
  | cons isRow _ induction =>
      cases shown with
      | cons shows later =>
          rw [shownDays, isRow]
          simp [shows, induction later, bind, Except.bind, pure,
            Except.pure]

/-! ### Rows that raise -/

theorem raises_later {Item : Type} {row : Item → BusinessHour}
    {first : Item} {rest : List Item} {day : ShownDay}
    (shown : showRow (row first) = .ok day)
    (raises : ∃ item ∈ first :: rest,
      showRow (row item) = .error .error) :
    ∃ item ∈ rest, showRow (row item) = .error .error := by
  obtain ⟨item, member, raised⟩ := raises
  rcases List.mem_cons.mp member with rfl | member
  · rw [shown] at raised
    cases raised
  · exact ⟨item, member, raised⟩

theorem shownDays_raises {rows found : List BusinessHour}
    {days : List (Nat × String)}
    (finds : List.Forall₂ (fun row day =>
      (rows.find? fun row => row.day = day.1) = some row) found days)
    (raises : ∃ row ∈ found, showRow row = .error .error) :
    shownDays rows days = .error .error := by
  induction finds with
  | nil =>
      obtain ⟨row, member, -⟩ := raises
      cases member
  | @cons row day _ _ isRow _ induction =>
      rw [shownDays, isRow]
      cases shown : showRow row with
      | error failure =>
          rw [showRow_error shown] at shown
          simp [shown, bind, Except.bind]
      | ok first =>
          have later := induction (@raises_later _ _ id _ _ _ shown raises)
          simp [shown, later, bind, Except.bind]

theorem foldlM_putDay_raises
    {pairs : List (BusinessHour × Nat)} {before : List ShownDay}
    (inWeek : ∀ pair ∈ pairs, pair.2 < 7)
    (raises : ∃ pair ∈ pairs, showRow pair.1 = .error .error) :
    pairs.foldlM (fun week pair => putDay week pair.1 pair.2) before =
      .error .error := by
  induction pairs generalizing before with
  | nil =>
      obtain ⟨pair, member, -⟩ := raises
      cases member
  | cons pair rest induction =>
      rw [List.foldlM_cons]
      cases shown : showRow pair.1 with
      | error failure =>
          rw [showRow_error shown] at shown
          simp [putDay, shown, bind, Except.bind]
      | ok day =>
          have put : putDay before pair.1 pair.2 =
              .ok (before.set pair.2 day) := by
            simp [putDay, shown, inWeek pair (by simp), bind, Except.bind,
              pure, Except.pure]
          rw [put]
          apply induction
          · intro later member
            exact inWeek later (by simp [member])
          · exact @raises_later _ _ Prod.fst _ _ _ shown raises

theorem generateWeek_raises {rows : List BusinessHour}
    (seven : rows.length = 7)
    (raises : ∃ row ∈ rows, showRow row = .error .error) :
    generateWeek rows = .error .error := by
  have sorted := List.perm_insertionSort
    (fun left right : BusinessHour × Nat => right.1.day ≤ left.1.day)
    rows.zipIdx
  apply foldlM_putDay_raises
  · intro pair member
    have bound := List.snd_lt_of_mem_zipIdx (sorted.mem_iff.mp member)
    omega
  · obtain ⟨row, member, raised⟩ := raises
    obtain ⟨index, bound, equal⟩ := List.getElem_of_mem member
    refine ⟨(row, index), sorted.mem_iff.mpr ?_, raised⟩
    rw [List.mem_zipIdx_iff_getElem?]
    exact List.getElem?_eq_some_iff.mpr ⟨bound, equal⟩

/-! ## An untouched form -/

/-- `format('H:i')` gives hours and minutes. -/
def FormatsClock : Prop :=
  ∀ (time : Time) (text : String),
    ColumnFormat.format time = some text → IsClockText text

omit [ColumnFormat] in
/-- The rows of a week, in primary-key order. -/
structure DailyHours (rows : List BusinessHour) : Prop where
  days : rows.map BusinessHour.day = weekDays.map Prod.fst
  closed : ∀ row ∈ rows, row.openTime = none ↔ row.closeTime = none

/-- Both times of a row can be formatted. -/
def Formatted (row : BusinessHour) : Prop :=
  ∀ time, row.openTime = some time ∨ row.closeTime = some time →
    (ColumnFormat.format time).isSome

theorem plain_of_showRow (formats : FormatsClock)
    {row : BusinessHour} {shown : ShownDay}
    (shows : showRow row = .ok shown) : PlainDay shown := by
  rcases showRow_cases row with ⟨-, closed⟩ |
    ⟨openTime, closeTime, opens, closes, -, -, openShown, closeShown,
      isShown⟩ | ⟨raised, -⟩
  · rw [closed] at shows
    cases shows
    simp [PlainDay]
  · rw [isShown] at shows
    cases shows
    intro times isTimes
    cases isTimes
    exact ⟨(formats openTime opens openShown).plain,
      (formats closeTime closes closeShown).plain⟩
  · rw [raised] at shows
    cases shows

/-- A form with these days posts the JSON of the week. -/
theorem postedHours_of_shown
    {rows : List BusinessHour} {week : List ShownDay}
    (plain : ∀ day ∈ week, PlainDay day)
    (shown : shownDays rows weekDays = .ok week) :
    postedHours rows = .ok (encodeWeek week) := by
  have data : (week.map dayInputs).map DayInputs.data =
      week.map fun shown =>
        (shown.map Prod.fst, shown.map Prod.snd) := by
    rw [List.map_map]
    apply List.map_congr_left
    intro day member
    exact data_dayInputs (plain day member)
  rw [postedHours, renderDays_eq, shown]
  simp only [Except.map]
  rw [data, stringify_week plain]

namespace DailyHours

variable {rows : List BusinessHour}

omit [ColumnFormat] in
theorem seven (daily : DailyHours rows) : rows.length = 7 := by
  simpa [weekDays] using congrArg List.length daily.days

omit [ColumnFormat] in
/-- The presenter finds the row of every day. -/
theorem finds (daily : DailyHours rows) :
    List.Forall₂ (fun row day =>
      (rows.find? fun row => row.day = day.1) = some row)
      rows weekDays := by
  have days := daily.days
  obtain ⟨a, b, c, d, e, f, g, rfl⟩ := exists_seven daily.seven
  simp only [weekDays, List.map_cons, List.map_nil, List.cons.injEq,
    and_true] at days
  obtain ⟨monday, tuesday, wednesday, thursday, friday, saturday,
    sunday⟩ := days
  simp [weekDays, List.find?_cons, monday, tuesday, wednesday, thursday,
    friday, saturday, sunday]

/-- The form posts what the server generates, or both raise. -/
theorem posted_eq_generated (daily : DailyHours rows)
    (formats : FormatsClock) :
    postedHours rows = generateBusinessHoursJson rows := by
  rcases shown_or_raises rows with ⟨week, shown⟩ | raises
  · have plain : ∀ day ∈ week, PlainDay day := by
      intro day member
      obtain ⟨index, bound, rfl⟩ := List.getElem_of_mem member
      have rowBound : index < rows.length := by
        rw [shown.length_eq]
        exact bound
      exact plain_of_showRow formats (shown.get rowBound bound)
    rw [postedHours_of_shown plain (shownDays_shown daily.finds shown),
      generateBusinessHoursJson, generateWeek_shown daily.seven shown]
    rfl
  · rw [postedHours, renderDays_eq, shownDays_raises daily.finds raises,
      generateBusinessHoursJson, generateWeek_raises daily.seven raises]
    rfl

/-- The form is rendered when the times can be formatted. -/
theorem posts (daily : DailyHours rows)
    (formatted : ∀ row ∈ rows, Formatted row) :
    ∃ posted, postedHours rows = .ok posted := by
  rcases shown_or_raises rows with ⟨week, shown⟩ | ⟨row, member, raised⟩
  · rw [postedHours, renderDays_eq, shownDays_shown daily.finds shown]
    exact ⟨_, rfl⟩
  · exfalso
    have shows := formatted row member
    rcases showRow_cases row with ⟨-, shown⟩ |
      ⟨_, _, _, _, -, -, -, -, shown⟩ | ⟨-, openTime, opens, reason⟩
    · rw [shown] at raised
      cases raised
    · rw [shown] at raised
      cases raised
    · rcases reason with unformatted | unset | ⟨closeTime, closes, unformatted⟩
      · simpa [unformatted] using shows openTime (Or.inl opens)
      · rw [← daily.closed row member, opens] at unset
        cases unset
      · simpa [unformatted] using shows closeTime (Or.inr closes)

end DailyHours

/-! ## Submitting it -/

/-- Without hours `approve` writes the status and the entity only. -/
theorem approve_without_hours
    {editing : Editing} (unchanged : editing.businessHours = none)
    (id : Nat) (geocode : Geocode) (database : Database) :
    ((approve id editing geocode).final database).businessHours =
        database.businessHours ∧
      ((approve id editing geocode).final database).editings =
        (withApprovedStatus database id).editings := by
  cases belongs : database.entities.find editing.entityId with
  | none =>
      rw [approve_orphan belongs]
      exact ⟨rfl, rfl⟩
  | some entity =>
      cases geocode with
      | location latitude longitude =>
          rw [approve_located belongs]
          simp only [unchanged]
          exact ⟨rfl, rfl⟩
      | noResults =>
          rw [approve_unlocated belongs (by simp)]
          exact ⟨rfl, rfl⟩
      | exception =>
          rw [approve_unlocated belongs (by simp)]
          exact ⟨rfl, rfl⟩

omit [ColumnFormat] in
/-- The entry of an approved editing has the hours of the editing. -/
theorem hours_of_new_editing
    {table : Table Editing} {editing : Editing} {entry : Entry Editing}
    {status : Int}
    (member : entry ∈ ((table.insert editing).update table.next
      fun row => { row with status := status }).entries)
    (new : entry ∉ table.entries) :
    entry.row.businessHours = editing.businessHours := by
  obtain ⟨old, stored, rfl⟩ := Table.mem_update.mp member
  rcases Table.mem_insert.mp stored with before | rfl
  · have different : old.id ≠ table.next :=
      Nat.ne_of_lt (table.fresh old before)
    rw [if_neg different] at new
    exact absurd before new
  · simp

/--
The form of a week posts the JSON that the server generates, and submitting it
leaves the hours of the editing `null` and the stored rows as they are.
-/
theorem untouched_form_keeps_hours
    {database : Database} {entity : String}
    (formats : FormatsClock)
    (daily : DailyHours (hoursOf database entity)) :
    postedHours (hoursOf database entity) =
        generateBusinessHoursJson (hoursOf database entity) ∧
      ((∀ row ∈ hoursOf database entity, Formatted row) →
        ∃ posted, postedHours (hoursOf database entity) = .ok posted) ∧
      ∀ (posted : String) (request : Request),
        postedHours (hoursOf database entity) = .ok posted →
        request.get "entity_id" = .text entity →
        request.get "business_hours" = .text posted →
        ((submitEditing request).final database).businessHours =
            database.businessHours ∧
          ∀ entry ∈ ((submitEditing request).final
              database).editings.entries,
            entry ∉ database.editings.entries →
              entry.row.businessHours = none := by
  have same := daily.posted_eq_generated formats
  refine ⟨same, daily.posts, ?_⟩
  intro posted request rendered ofEntity hoursPosted
  rcases submitEditing_run request database with ⟨failure, refused⟩ |
    ⟨other, current, name, address, hours, ofOther, generated, -, -, bound,
      left⟩
  · rw [Process.final, refused]
    exact ⟨rfl, fun entry member new => absurd member new⟩
  · have isEntity : other = entity := by
      rw [ofEntity] at ofOther
      exact (Input.text.inj ofOther).symm
    subst isEntity
    have isPosted : posted = current := by
      rw [same, generated] at rendered
      exact (Except.ok.inj rendered).symm
    subst isPosted
    have unchanged : hours = none := by
      rw [changedHours, hoursPosted] at bound
      simpa [Input.bound, eq_comm] using bound
    subst unchanged
    have noHours :
        (postedEditing request other name address none).businessHours =
          none := rfl
    obtain ⟨rowsLeft, editingsLeft⟩ :=
      approve_without_hours noHours database.editings.next request.geocode
        { database with
          editings := database.editings.insert
            (postedEditing request other name address none).kept }
    rw [left]
    refine ⟨rowsLeft, ?_⟩
    intro entry member new
    rw [editingsLeft] at member
    exact hours_of_new_editing member new

end ColumnFormats

/-! ## A shop that is open on Mondays -/

theorem clock_formatsClock : @FormatsClock clock := by
  intro time text formatted
  exact clockFormat_eq_some formatted

def shopWithHours : Database :=
  Process.final
    (@createBusinessHours clock "e" (.text (encodeWeek openMonday)))
    chickenSite

theorem hoursOf_shopWithHours : hoursOf shopWithHours "e" = mondayRows :=
  hoursOf_openMonday chickenSite

theorem mondayRows_daily : DailyHours mondayRows where
  days := by decide
  closed := by decide

/-- The form of the shop, with nothing but its hours filled in. -/
def mondayPost : Request where
  user := some 1
  parameters :=
    [("entity_id", .text "e"), ("business_hours", .text mondayWeek)]
  geocode := .location 25 121

theorem monday_form_keeps_hours :
    @postedHours clock (hoursOf shopWithHours "e") = .ok mondayWeek ∧
      (Process.final (@submitEditing clock mondayPost)
        shopWithHours).businessHours = shopWithHours.businessHours := by
  have posted :
      @postedHours clock (hoursOf shopWithHours "e") = .ok mondayWeek := by
    rw [hoursOf_shopWithHours]
    exact @postedHours_of_shown clock mondayRows openMonday
      openMonday_clock.plain rfl
  have daily : DailyHours (hoursOf shopWithHours "e") := by
    rw [hoursOf_shopWithHours]
    exact mondayRows_daily
  have kept := @untouched_form_keeps_hours clock shopWithHours "e"
    clock_formatsClock daily
  exact ⟨posted, (kept.2.2 mondayWeek mondayPost posted rfl rfl).1⟩

end NomadiCore
