import Mathlib.Data.List.Sort
import NomadiCore.Library.JsonText
import NomadiCore.RequestInput

/-!
# Opening hours

`Entity::createBusinessHours`, `generateBusinessHoursJson` and
`getBusinessHoursJson`.  The hours of an entity are rows of their own table,
one for each day; the entity keeps the JSON that was generated from them when
it was first shown.

What a `time` column keeps of a bound value and how it is shown again belong
to MySQL and Carbon, and are a parameter, together with the collation of the
server and the way PHP writes a number into a JSON text.
-/

namespace NomadiCore

open NomadiCore.Library.DecimalNumeral
open NomadiCore.Library.JsonText
open NomadiCore.Library.RowTable
open NomadiCore.Library.StatementProcess
open NomadiCore.Library.TextColumn

/--
The collation of the server, its `time` columns with the accessors of
`BusinessHour`, and the numbers in a JSON column.
-/
class ColumnFormat extends Collation where
  /-- What the column keeps of a value; `none` when it cannot be bound. -/
  store : Json → Option Time
  /-- `Carbon::parse($value)->format('H:i')`; `none` when it raises. -/
  format : Time → Option String
  /-- `json_encode` of a number. -/
  encodeNumber : ℚ → List Char

/-- The names of the days, with their numbers. -/
def weekDays : List (Nat × String) :=
  [(1, "monday"), (2, "tuesday"), (3, "wednesday"), (4, "thursday"),
    (5, "friday"), (6, "saturday"), (7, "sunday")]

/-! ## Storing -/

/--
`$value[$key]`.  An unknown index of an array and an offset of a string raise;
of `null`, a number or a boolean PHP 7.1 silently reads `null`.
-/
def offset (value : Json) (key : String) : Except Raised Json :=
  match value with
  | .object fields =>
      match lookup key fields with
      | some field => .ok field
      | none => .error .errorException
  | .list _ => .error .errorException
  | .text _ => .error .errorException
  | .null => .ok .null
  | .number _ => .ok .null
  | .bool _ => .ok .null

/-- `json_decode($json, true)` of a posted value. -/
def decodeInput : Input → Except Raised Json
  | .missing => .ok (decode "")
  | .text json => .ok (decode json)
  | .list _ => .error .errorException

section ColumnFormats

variable [ColumnFormat]

/-- A value bound to a nullable `time` column. -/
def bindTime (value : Json) : Except Raised (Option Time) :=
  match value with
  | .null => .ok none
  | value =>
      match ColumnFormat.store value with
      | some time => .ok (some time)
      | none => .error .errorException

/-- The columns of one day, as the loop of `createBusinessHours` reads them. -/
def readDay (data : Json) (name : String) :
    Except Raised (Option Time × Option Time) := do
  let day ← offset data name
  let opens ← offset day "open"
  match opens with
  | .null => return (none, none)
  | opens =>
      let closes ← offset day "close"
      let openTime ← bindTime opens
      let closeTime ← bindTime closes
      return (openTime, closeTime)

def saveBusinessHour (row : BusinessHour) : Handler Unit :=
  .perform fun database =>
    match database.businessHours.insert row with
    | some table => (.ok (), { database with businessHours := table })
    | none => (.error .queryException, database)

def deleteBusinessHours (entity : String) : Handler Unit :=
  .execute fun database =>
    { database with
      businessHours := database.businessHours.delete fun row =>
        row.entityId = entity }

/-- The loop over the days. -/
def insertDays (entity : String) (data : Json) :
    List (Nat × String) → Handler Unit
  | [] => pure ()
  | (day, name) :: rest => do
      let (openTime, closeTime) ← .ofExcept (readDay data name)
      saveBusinessHour ⟨entity, day, openTime, closeTime⟩
      insertDays entity data rest

def createBusinessHours (entity : String) (json : Input) :
    Handler Unit := do
  deleteBusinessHours entity
  let data ← .ofExcept (decodeInput json)
  insertDays entity data weekDays

/-! ## Showing -/

/-- The hours of one day as they are shown, `none` when closed. -/
abbrev ShownDay := Option (String × String)

def showRow (row : BusinessHour) : Except Raised ShownDay :=
  match row.openTime with
  | none => .ok none
  | some openTime =>
      match ColumnFormat.format openTime with
      | none => .error .error
      | some opens =>
          match row.closeTime with
          | none => .error .error
          | some closeTime =>
              match ColumnFormat.format closeTime with
              | none => .error .error
              | some closes => .ok (some (opens, closes))

/-- The day of a row at its position in the week. -/
def putDay (week : List ShownDay) (row : BusinessHour) (index : Nat) :
    Except Raised (List ShownDay) := do
  let shown ← showRow row
  if index < 7 then return week.set index shown
  else throw .errorException

/--
The loop of `generateBusinessHoursJson`.  `sortByDesc` keeps the position of a
row in the relation as its key, and the key picks the day.
-/
def generateWeek (rows : List BusinessHour) :
    Except Raised (List ShownDay) :=
  ((rows.zipIdx).insertionSort
      fun left right => right.1.day ≤ left.1.day).foldlM
    (fun week pair => putDay week pair.1 pair.2)
    (List.replicate 7 none)

def encodeNullable : Option String → List Char
  | none => "null".toList
  | some text => encodeText text

/-- One day of the generated JSON. -/
def encodeDay (name : String) (shown : ShownDay) : List Char :=
  encodeText name ++ ":\x7b\"open\":".toList ++
    encodeNullable (shown.map Prod.fst) ++ ",\"close\":".toList ++
    encodeNullable (shown.map Prod.snd) ++ "\x7d".toList

/-- `json_encode` of the week. -/
def encodeWeek (week : List ShownDay) : String :=
  String.ofList
    ("\x7b".toList ++
      List.intercalate ",".toList
        ((weekDays.zip week).map fun (day, shown) =>
          encodeDay day.2 shown) ++
      "\x7d".toList)

def generateBusinessHoursJson (rows : List BusinessHour) :
    Except Raised String :=
  (generateWeek rows).map encodeWeek

/-- The `business_hours` relation of an entity, in primary-key order. -/
def hoursOf (database : Database) (entity : String) : List BusinessHour :=
  (database.businessHours.select fun row => row.entityId = entity).insertionSort
    fun left right => left.day ≤ right.day

def setBusinessHoursJson (entity json : String) : Handler Unit :=
  .execute fun database =>
    { database with
      entities := database.entities.update entity
        (fun row => { row with businessHoursJson := json })
        (by intro row; rfl) }

def getBusinessHoursJson (entity : String) : Handler String := do
  let found ← .query fun database => database.entities.find entity
  let row ← .require .error found
  if row.businessHoursJson = "" then
    let rows ← .query fun database => hoursOf database entity
    let json ← .ofExcept (generateBusinessHoursJson rows)
    setBusinessHoursJson entity json
    return json
  else return row.businessHoursJson

/-! ## What the loop writes -/

/-- The rows written before the first day that cannot be read. -/
def writtenRows (entity : String) (data : Json) :
    List (Nat × String) → List BusinessHour
  | [] => []
  | (day, name) :: rest =>
      match readDay data name with
      | .ok (openTime, closeTime) =>
          ⟨entity, day, openTime, closeTime⟩ :: writtenRows entity data rest
      | .error _ => []

/-- Whether every day can be read. -/
def readsWeek (data : Json) : List (Nat × String) → Except Raised Unit
  | [] => .ok ()
  | (_, name) :: rest =>
      match readDay data name with
      | .ok _ => readsWeek data rest
      | .error failure => .error failure

theorem mem_writtenRows
    {entity : String} {data : Json} {days : List (Nat × String)}
    {row : BusinessHour}
    (member : row ∈ writtenRows entity data days) :
    row.entityId = entity ∧ row.day ∈ days.map Prod.fst := by
  induction days with
  | nil => simp [writtenRows] at member
  | cons head rest induction =>
      obtain ⟨day, name⟩ := head
      simp only [writtenRows] at member
      cases read : readDay data name with
      | error failure => simp [read] at member
      | ok times =>
          simp only [read, List.mem_cons] at member
          rcases member with equal | member
          · subst equal
            simp
          · obtain ⟨sameEntity, listed⟩ := induction member
            exact ⟨sameEntity, by simp [listed]⟩

/--
The loop appends the rows it can read, when their keys are free.
-/
theorem insertDays_run
    (entity : String) (data : Json)
    (days : List (Nat × String)) (database : Database)
    (increasing : (days.map Prod.fst).Nodup)
    (free : ∀ row ∈ database.businessHours.rows,
      row.entityId = entity → row.day ∉ days.map Prod.fst) :
    ∃ table,
      (insertDays entity data days).run database =
          (readsWeek data days,
            { database with businessHours := table }) ∧
        table.rows =
          database.businessHours.rows ++ writtenRows entity data days := by
  induction days generalizing database with
  | nil =>
      exact ⟨database.businessHours,
        by simp [insertDays, readsWeek, writtenRows]⟩
  | cons head rest induction =>
      obtain ⟨day, name⟩ := head
      cases read : readDay data name with
      | error failure =>
          exact ⟨database.businessHours,
            by simp [insertDays, readsWeek, writtenRows, read]⟩
      | ok times =>
          obtain ⟨openTime, closeTime⟩ := times
          have keyFree :
              (entity, day) ∉
                database.businessHours.rows.map
                  fun row => (row.entityId, row.day) := by
            intro taken
            obtain ⟨row, member, equal⟩ := List.mem_map.mp taken
            rw [Prod.mk.injEq] at equal
            exact free row member equal.1 (by simp [equal.2])
          simp only [List.map_cons, List.nodup_cons] at increasing
          obtain ⟨table, ran, rows⟩ :=
            induction
              { database with
                businessHours :=
                  database.businessHours.append
                    ⟨entity, day, openTime, closeTime⟩ keyFree }
              increasing.2 (by
                intro row member sameEntity
                rcases List.mem_append.mp member with old | new
                · intro listed
                  exact free row old sameEntity (by simp [listed])
                · rw [List.mem_singleton] at new
                  subst row
                  exact increasing.1)
          have inserted :=
            Keyed.insert_of_free database.businessHours
              ⟨entity, day, openTime, closeTime⟩ keyFree
          refine ⟨table, ?_, ?_⟩
          · simpa [insertDays, readsWeek, read, saveBusinessHour,
              inserted] using ran
          · simp [rows, writtenRows, read, Keyed.append]

/-- The rows that `createBusinessHours` leaves of a posted value. -/
def weekRows (entity : String) (json : Input) : List BusinessHour :=
  match decodeInput json with
  | .ok data => writtenRows entity data weekDays
  | .error _ => []

/-- How `createBusinessHours` ends on a posted value. -/
def weekOutcome (json : Input) : Except Raised Unit :=
  match decodeInput json with
  | .ok data => readsWeek data weekDays
  | .error failure => .error failure

theorem mem_weekRows
    {entity : String} {json : Input} {row : BusinessHour}
    (member : row ∈ weekRows entity json) :
    row.entityId = entity := by
  unfold weekRows at member
  split at member
  · exact (mem_writtenRows member).1
  · simp at member

/-- The rows are written in the order of the days. -/
theorem writtenRows_days
    (entity : String) (data : Json) (days : List (Nat × String)) :
    ((writtenRows entity data days).map BusinessHour.day).Sublist
      (days.map Prod.fst) := by
  induction days with
  | nil => simp [writtenRows]
  | cons head rest induction =>
      obtain ⟨day, name⟩ := head
      cases read : readDay data name with
      | error failure => simp [writtenRows, read]
      | ok times => simpa [writtenRows, read] using induction

theorem weekRows_ordered (entity : String) (json : Input) :
    (weekRows entity json).Pairwise
      fun left right => left.day ≤ right.day := by
  unfold weekRows
  split
  · rename_i data _
    have ordered : (weekDays.map Prod.fst).Pairwise (· ≤ ·) := by decide
    exact List.pairwise_map.mp
      (ordered.sublist (writtenRows_days entity data weekDays))
  · exact .nil

/-- `createBusinessHours` replaces the rows of the entity. -/
theorem createBusinessHours_run
    (entity : String) (json : Input) (database : Database) :
    ∃ table,
      (createBusinessHours entity json).run database =
          (weekOutcome json, { database with businessHours := table }) ∧
        table.rows =
          (database.businessHours.rows.filter
            fun row => !decide (row.entityId = entity)) ++
              weekRows entity json := by
  cases decoded : decodeInput json with
  | error failure =>
      refine ⟨database.businessHours.delete
        fun row => row.entityId = entity, ?_, ?_⟩
      · simp [createBusinessHours, deleteBusinessHours, decoded,
          weekOutcome]
      · simp [weekRows, decoded, Keyed.delete]
  | ok data =>
      obtain ⟨table, ran, rows⟩ :=
        insertDays_run entity data weekDays
          { database with
            businessHours := database.businessHours.delete
              fun row => row.entityId = entity }
          (by decide)
          (by
            intro row member sameEntity
            have kept := (List.mem_filter.mp member).2
            simp [sameEntity] at kept)
      refine ⟨table, ?_, ?_⟩
      · simpa [createBusinessHours, deleteBusinessHours, decoded,
          weekOutcome] using ran
      · simpa [weekRows, decoded, Keyed.delete] using rows

/-- Only the table of the hours is written. -/
theorem createBusinessHours_final
    (entity : String) (json : Input) (database : Database) :
    ∃ table, (createBusinessHours entity json).final database =
      { database with businessHours := table } := by
  obtain ⟨table, ran, -⟩ := createBusinessHours_run entity json database
  exact ⟨table, by rw [Process.final, ran]⟩

/-- The hours of an entity are those that were last written for it. -/
theorem hoursOf_createBusinessHours
    (entity : String) (json : Input) (database : Database) :
    hoursOf ((createBusinessHours entity json).final database) entity =
      weekRows entity json := by
  obtain ⟨table, ran, rows⟩ :=
    createBusinessHours_run entity json database
  have selected :
      (table.select fun row => row.entityId = entity) =
        weekRows entity json := by
    have left :
        ((database.businessHours.rows.filter
            fun row => !decide (row.entityId = entity)).filter
          fun row => row.entityId = entity) = [] := by
      rw [List.filter_filter]
      apply List.filter_eq_nil_iff.mpr
      intro row _
      simp
    have written :
        ((weekRows entity json).filter
          fun row => row.entityId = entity) = weekRows entity json := by
      apply List.filter_eq_self.mpr
      intro row member
      simpa using mem_weekRows member
    rw [Keyed.select, rows, List.filter_append, left, written,
      List.nil_append]
  rw [Process.final, ran, hoursOf, selected]
  exact (weekRows_ordered entity json).insertionSort_eq

/-- The hours of the other entities stay. -/
theorem hoursOf_createBusinessHours_of_ne
    {entity other : String} (different : other ≠ entity)
    (json : Input) (database : Database) :
    hoursOf ((createBusinessHours entity json).final database) other =
      hoursOf database other := by
  obtain ⟨table, ran, rows⟩ :=
    createBusinessHours_run entity json database
  have selected :
      (table.select fun row => row.entityId = other) =
        database.businessHours.select fun row => row.entityId = other := by
    have kept :
        ((database.businessHours.rows.filter
            fun row => !decide (row.entityId = entity)).filter
          fun row => row.entityId = other) =
          database.businessHours.rows.filter
            fun row => row.entityId = other := by
      rw [List.filter_filter]
      apply List.filter_congr
      intro row _
      by_cases same : row.entityId = other
      · simp [same, different]
      · simp [same]
    have none :
        ((weekRows entity json).filter
          fun row => row.entityId = other) = [] := by
      apply List.filter_eq_nil_iff.mpr
      intro row member
      have written := mem_weekRows member
      simpa [written] using different.symm
    rw [Keyed.select, rows, List.filter_append, kept, none,
      List.append_nil, Keyed.select]
  rw [Process.final, ran, hoursOf, selected, hoursOf]

end ColumnFormats

/-! ## Reading back an encoded week -/

/-- The hours of a day are shown in plain characters. -/
def PlainDay (shown : ShownDay) : Prop :=
  ∀ times ∈ shown, PlainText times.1 ∧ PlainText times.2

instance (shown : ShownDay) : Decidable (PlainDay shown) :=
  decidable_of_iff
    (shown.all fun times => PlainText times.1 ∧ PlainText times.2) (by
      cases shown with
      | none => simp [PlainDay]
      | some times => simp [PlainDay])

def nullableJson : Option String → Json
  | none => .null
  | some text => .text text

/-- What the JSON of a day decodes to. -/
def shownDayJson (shown : ShownDay) : Json :=
  .object
    [("open", nullableJson (shown.map Prod.fst)),
      ("close", nullableJson (shown.map Prod.snd))]

theorem reads_nullable (nesting : Nat) (text : Option String) :
    Reads nesting (encodeNullable text) (nullableJson text) := by
  cases text with
  | none => exact reads_null nesting
  | some value => exact reads_text nesting value

/-- The JSON of a day, without its name. -/
def encodeHours (shown : ShownDay) : List Char :=
  encodeObject
    [("open", encodeNullable (shown.map Prod.fst)),
      ("close", encodeNullable (shown.map Prod.snd))]

theorem encodeDay_eq (name : String) (shown : ShownDay) :
    encodeDay name shown =
      encodeText name ++ ':' :: encodeHours shown := by
  have opening :
      ":\x7b\"open\":".toList =
        ':' :: '{' :: (encodeText "open" ++ [':']) := by decide
  have closing :
      ",\"close\":".toList = ',' :: (encodeText "close" ++ [':']) := by
    decide
  have brace : "\x7d".toList = ['}'] := by decide
  simp [encodeDay, encodeHours, encodeObject, List.intercalate, opening,
    closing, brace]

theorem reads_shownDay (shown : ShownDay) :
    Reads 1 (encodeHours shown) (shownDayJson shown) := by
  have reads : ∀ field ∈
      [("open", encodeNullable (shown.map Prod.fst),
          nullableJson (shown.map Prod.fst)),
        ("close", encodeNullable (shown.map Prod.snd),
          nullableJson (shown.map Prod.snd))],
      Reads 0 field.2.1 field.2.2 := by
    intro field member
    simp only [List.mem_cons, List.not_mem_nil, or_false] at member
    rcases member with rfl | rfl
    · exact reads_nullable 0 _
    · exact reads_nullable 0 _
  exact reads_object reads

/-- The week is written as an object with a field for each day. -/
theorem encodeWeek_eq (week : List ShownDay) :
    encodeWeek week =
      String.ofList (encodeObject ((weekDays.zip week).map fun day =>
        (day.1.2, encodeHours day.2))) := by
  have opening : "\x7b".toList = ['{'] := by decide
  have comma : ",".toList = [','] := by decide
  have closing : "\x7d".toList = ['}'] := by decide
  simp [encodeWeek, encodeObject, encodeDay_eq, opening, comma, closing,
    Function.comp_def]

/-- The fields of a decoded week. -/
def weekFields (week : List ShownDay) : List (String × Json) :=
  (weekDays.zip week).map fun (day, shown) => (day.2, shownDayJson shown)

/-- Decoding an encoded week gives back its days. -/
theorem decode_encodeWeek (week : List ShownDay) :
    decode (encodeWeek week) = .object (weekFields week) := by
  have reads : ∀ field ∈ (weekDays.zip week).map fun day =>
      (day.1.2, encodeHours day.2, shownDayJson day.2),
      Reads 1 field.2.1 field.2.2 := by
    intro field member
    obtain ⟨day, -, rfl⟩ := List.mem_map.mp member
    exact reads_shownDay day.2
  have decoded := decode_of_reads (reads_object reads) (by omega)
  simpa [encodeWeek_eq, weekFields, Function.comp_def] using decoded

/-! ## A clock -/

def twoDigits (value : Nat) : List Char :=
  [digitChar (value / 10), digitChar (value % 10)]
where
  digitChar (digit : Nat) : Char := Char.ofNat ('0'.toNat + digit)

/-- Hours and minutes as a text. -/
def clockText (hour minute : Nat) : String :=
  String.ofList (twoDigits hour ++ ':' :: twoDigits minute)

/-- The time of hours and minutes, in seconds. -/
def clockTime (hour minute : Nat) : Int :=
  (((hour * 60 + minute) * 60 : Nat) : Int)

def clockStore : Json → Option Time
  | .text text =>
      match text.toList with
      | [a, b, ':', c, d] =>
          some (clockTime (digitsValue [a, b]) (digitsValue [c, d]))
      | _ => some 0
  | .list _ => none
  | .object _ => none
  | _ => some 0

def clockFormat (time : Int) : Option String :=
  if 0 ≤ time ∧ time < 86400 then
    some (clockText (time.toNat / 3600) (time.toNat / 60 % 60))
  else none

/-- Times written as hours and minutes, for concrete runs. -/
@[reducible]
def clock : ColumnFormat where
  toCollation := caseBlind
  store := clockStore
  format := clockFormat
  encodeNumber value := (toString value).toList

end NomadiCore
