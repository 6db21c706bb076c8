import NomadiCore.Library.LikePattern
import NomadiCore.ShopStats
import NomadiCore.SocialHandlers
import NomadiCore.TagPage

/-!
# The views of a shop

`/ajax/modal/{id}` records each opened shop as a `view-shop` event with a JSON
payload, and `ShopController::search` records each keyword as an event of
another category.  `ShopController::stats` reads the views back: it selects the
payloads that contain the id anywhere, decodes them and counts those of the
shop under the `m/d` of the event.  The `mode` of a view is a parameter of the
request, so it may hold the id of another shop.
-/

namespace NomadiCore.ViewEvents

open NomadiCore.Library.Calendar
open NomadiCore.Library.JsonText
open NomadiCore.Library.LabelledRun
open NomadiCore.Library.LikePattern
open NomadiCore.Library.RowTable
open NomadiCore.Library.StatementProcess
open NomadiCore.ShopStats
open NomadiCore.TagPage

/-! ## The events -/

/-- The payload is taken to fit its column. -/
structure SystemEvent where
  category : String
  payload : String
  createdAt : Date
deriving DecidableEq

structure World where
  database : Database
  systemEvents : Table SystemEvent

/-- A parameter as `json_encode` writes it. -/
def encodeInput : Input → List Char
  | .missing => "null".toList
  | .text value => encodeText value
  | .list items => encodeList (items.map encodeText)

/-- A parameter as `json_decode` gives it back. -/
def inputJson : Input → Json
  | .missing => .null
  | .text value => .text value
  | .list items => .list (items.map .text)

/-- The event that `SystemEvent::track` stores. -/
def trackedEvent
    (category : String) (payload : List (String × List Char))
    (today : Date) : SystemEvent :=
  ⟨category, String.ofList (encodeObject payload), today⟩

/-- `SystemEvent::track`. -/
def track
    (category : String) (payload : List (String × List Char))
    (today : Date) : Process World Raised Unit :=
  .execute fun world =>
    { world with
      systemEvents :=
        world.systemEvents.insert (trackedEvent category payload today) }

/-- `City::getFields`; no city of the configuration sets its own `fields`. -/
def getFields (city : String) : Except Raised (List String) :=
  match getField cityConfig city with
  | some _ =>
      .ok ["name", "wifi", "seat", "quiet", "tasty", "cheap", "music",
        "open-time", "address", "limited-time", "socket", "standing-desk",
        "parking", "who", "note", "url"]
  | none => .error .errorException

/-- The payload of a view. -/
def viewPayload (id : String) (mode : Input) : List (String × List Char) :=
  [("id", encodeText id), ("mode", encodeInput mode)]

/-- `/ajax/modal/{id}`, up to the fields that are passed to the view. -/
def modal (id : String) (mode : Input) (today : Date) :
    Process World Raised (List String) := do
  let found ← .query fun world => world.database.entities.find id
  let entity ← .require .errorException found
  let fields ← .ofExcept (getFields entity.city)
  track "view-shop" (viewPayload entity.id mode) today
  return fields

/-- `ShopController::search`, up to the search itself; `'0'` is empty too. -/
def search (query : Input) (today : Date) :
    Process World Raised Unit := do
  let keyword ← .ofExcept (trimmedInput query)
  if keyword = "" ∨ keyword = "0" then return ()
  else track "algolia-search" [("keyword", encodeText keyword)] today

/-! ## The statistics -/

/-- The events that the query selects. -/
def viewEvents (events : List SystemEvent) (id : String) :
    List SystemEvent :=
  events.filter fun event =>
    event.category = "view-shop" &&
      like ('%' :: (id.toList ++ ['%'])) event.payload.toList

/-- `$event->getPayload()->id`. -/
def payloadId (event : SystemEvent) : Except Raised Json :=
  match decode event.payload with
  | .object fields =>
      match lookup "id" fields with
      | some value => .ok value
      | none => .error .errorException
  | _ => .error .errorException

/-- `===` of a decoded value and a text. -/
def isText (value : Json) (text : String) : Bool :=
  match value with
  | .text other => other = text
  | _ => false

/-- One more view on a day. -/
def addView (data : Series) (joinDate : String) : Series :=
  match getField data joinDate with
  | some count => setField data joinDate (count + 1)
  | none => setField data joinDate 1

def countView (id : String) (data : Series) (event : SystemEvent) :
    Except Raised Series := do
  let shop ← payloadId event
  if isText shop id then return addView data (formatDay event.createdAt)
  else return data

/-- `$data` of `ShopController::stats`. -/
def viewData (world : World) (id : String) : Except Raised Series :=
  (viewEvents (world.systemEvents.entries.map Entry.row) id).foldlM
    (countView id) []

/-! ## Runs -/

/-- A request that reaches its end, or one that changes other tables. -/
inductive Action where
  | modal (id : String) (mode : Input) (today : Date)
  | search (query : Input) (today : Date)
  | other (database : Database)

/-- The state after a request that does not fail. -/
def step (world : World) : Action → Option World
  | .modal id mode today =>
      match (modal id mode today).run world with
      | (.ok _, after) => some after
      | (.error _, _) => none
  | .search query today =>
      match (search query today).run world with
      | (.ok _, after) => some after
      | (.error _, _) => none
  | .other database => some { world with database := database }

/-- No event is stored yet. -/
def start (database : Database) : World := ⟨database, .empty⟩

/-- The action opens the shop, on a date that meets the condition. -/
def Action.opens (id : String) (condition : Date → Bool) : Action → Bool
  | .modal shop _ today => shop = id && condition today
  | _ => false

/-- How often a run opened the shop on dates that meet the condition. -/
def opened
    (history : List Action) (id : String) (condition : Date → Bool) : Nat :=
  history.countP (Action.opens id condition)

/-- Two dates have the same month and the same day of it. -/
def sameDay (date other : Date) : Bool :=
  date.month = other.month && date.day = other.day

/-- A count as the series shows it: without views there is no entry. -/
def shown (count : Nat) : Option Nat :=
  if count = 0 then none else some count

/-- The series shows the openings of the shop. -/
structure ShowsViews
    (history : List Action) (id : String) (data : Series) : Prop where
  /-- The series does not tell the years apart. -/
  days : ∀ date, getField data (formatDay date) =
    shown (opened history id (sameDay date))
  only : ∀ key, (∀ date, formatDay date ≠ key) → getField data key = none
  /-- Without openings in other years, each date has its own count. -/
  dates : ∀ date, opened history id (fun other => other.year ≠ date.year) = 0 →
    getField data (formatDay date) =
      shown (opened history id fun other => other = date)

/-! ## Payloads -/

theorem reads_input (input : Input) :
    Reads 1 (encodeInput input) (inputJson input) := by
  cases input with
  | missing => exact reads_null 1
  | text value => exact reads_text 1 value
  | list items => exact reads_texts 0 items

/-- Whatever the mode is, a view is read back with its own shop. -/
theorem payloadId_view (id : String) (mode : Input) (today : Date) :
    payloadId (trackedEvent "view-shop" (viewPayload id mode) today) =
      .ok (.text id) := by
  have both : ∀ field ∈
      [("id", encodeText id, Json.text id),
        ("mode", encodeInput mode, inputJson mode)],
      Reads 1 field.2.1 field.2.2 := by
    intro field member
    rcases List.mem_cons.mp member with rfl | later
    · exact reads_text 1 id
    · rw [List.mem_singleton] at later
      subst later
      exact reads_input mode
  have read := decode_of_reads (reads_object both) (by omega)
  simp only [List.map_cons, List.map_nil] at read
  rw [payloadId, trackedEvent]
  simp only [viewPayload]
  rw [read]
  simp [lookup]

theorem ordinary_of_isUuid {id : String} (uuid : IsUuid id) :
    ∀ letter ∈ id.toList, Ordinary letter ∧ escape letter = [letter] := by
  have allowed : ("-0123456789abcdefABCDEF".toList.all fun letter =>
      letter ≠ '%' && letter ≠ '_' && letter ≠ '\\' &&
        escape letter = [letter]) = true := by
    decide
  intro letter member
  have shape := List.all_eq_true.mp uuid.2 letter member
  have listed : letter ∈ "-0123456789abcdefABCDEF".toList := by
    have letters : "-0123456789abcdefABCDEF".toList =
        '-' :: "0123456789abcdefABCDEF".toList := by decide
    rw [letters, List.mem_cons]
    simpa [isHexDigit] using shape
  have holds := List.all_eq_true.mp allowed letter listed
  simp only [Bool.and_eq_true, decide_eq_true_eq] at holds
  exact ⟨⟨holds.1.1.1, holds.1.1.2, holds.1.2⟩, holds.2⟩

/-- A UUID stands in the payload as it is. -/
theorem infix_encodeObject {id : String} (uuid : IsUuid id) (mode : Input) :
    id.toList <:+: encodeObject (viewPayload id mode) := by
  have same : id.toList.flatMap escape = id.toList := by
    have letters : ∀ letter ∈ id.toList, escape letter = [letter] :=
      fun letter member => (ordinary_of_isUuid uuid letter member).2
    rw [List.flatMap_congr letters, List.flatMap_singleton']
  refine ⟨'{' :: (encodeText "id" ++ [':', '"']),
    '"' :: ',' :: (encodeText "mode" ++ ':' :: (encodeInput mode ++ ['}'])),
    ?_⟩
  simp [encodeObject, viewPayload, encodeText, same, List.intercalate]

/-! ## What is stored -/

/-- The events that an action stores. -/
def recorded : Action → List SystemEvent
  | .modal id mode today =>
      [trackedEvent "view-shop" (viewPayload id mode) today]
  | .search query today =>
      match trimmedInput query with
      | .ok keyword =>
          if keyword = "" ∨ keyword = "0" then []
          else
            [trackedEvent "algolia-search"
              [("keyword", encodeText keyword)] today]
      | .error _ => []
  | .other _ => []

theorem modal_run_ok
    {id : String} {mode : Input} {today : Date} {world after : World}
    {fields : List String}
    (ran : (modal id mode today).run world = (.ok fields, after)) :
    after.systemEvents = world.systemEvents.insert
      (trackedEvent "view-shop" (viewPayload id mode) today) := by
  unfold modal at ran
  cases found : world.database.entities.find id with
  | none => simp [found] at ran
  | some entity =>
      have sameId : entity.id = id := (Keyed.find_eq_some found).2
      cases known : getFields entity.city with
      | error failure => simp [found, known] at ran
      | ok shown =>
          simp only [Process.run_bind, Process.run_query, found,
            Process.run_require_some, known, Process.run_ofExcept, track,
            Process.run_execute, Process.run_pure, Prod.mk.injEq] at ran
          rw [← ran.2, sameId]

theorem step_events
    {world target : World} {action : Action}
    (moved : step world action = some target) :
    target.systemEvents.entries.map Entry.row =
      world.systemEvents.entries.map Entry.row ++ recorded action := by
  cases action with
  | modal id mode today =>
      simp only [step] at moved
      split at moved
      · rename_i fields after ran
        cases moved
        simp [modal_run_ok ran, recorded]
      · cases moved
  | search query today =>
      cases trimmed : trimmedInput query with
      | error failure => simp [step, search, trimmed] at moved
      | ok keyword =>
          by_cases empty : keyword = "" ∨ keyword = "0"
          · simp only [step, search, Process.run_bind,
              Process.run_ofExcept, trimmed, if_pos empty,
              Process.run_pure, Option.some.injEq] at moved
            simp [recorded, trimmed, empty, ← moved]
          · simp only [step, search, Process.run_bind,
              Process.run_ofExcept, trimmed, if_neg empty, track,
              Process.run_execute, Option.some.injEq] at moved
            simp [recorded, trimmed, empty, ← moved]
  | other database =>
      cases moved
      simp [recorded]

/-- The stored events are those of the history. -/
theorem events_of_run
    {database : Database} {history : List Action} {world : World}
    (run : Reaches step Anything (start database) history world) :
    world.systemEvents.entries.map Entry.row =
      history.reverse.flatMap recorded := by
  induction run with
  | start => rfl
  | next earlier condition moved inductionHypothesis =>
      rw [step_events moved, inductionHypothesis, List.reverse_cons,
        List.flatMap_append, List.flatMap_singleton]

/-! ## Counting -/

theorem getField_addView (data : Series) (joinDate key : String) :
    getField (addView data joinDate) key =
      if key = joinDate then some ((getField data key).getD 0 + 1)
      else getField data key := by
  unfold addView
  cases found : getField data joinDate with
  | none =>
      by_cases same : key = joinDate
      · simp [same, found]
      · simp [same]
  | some count =>
      by_cases same : key = joinDate
      · simp [same, found]
      · simp [same]

/-- What an action adds to the series of a shop. -/
def countAction (id : String) (data : Series) : Action → Series
  | .modal shop _ today =>
      if shop = id then addView data (formatDay today) else data
  | _ => data

/-- The selected events of an action are counted as the action is. -/
theorem countView_recorded
    {id : String} (uuid : IsUuid id) (data : Series) (action : Action) :
    (viewEvents (recorded action) id).foldlM (countView id) data =
      .ok (countAction id data action) := by
  cases action with
  | modal shop mode today =>
      have counted :
          countView id data
              (trackedEvent "view-shop" (viewPayload shop mode) today) =
            .ok (countAction id data (.modal shop mode today)) := by
        rw [countView, payloadId_view]
        by_cases same : shop = id
        · simp [isText, same, countAction, trackedEvent, bind, Except.bind,
            pure, Except.pure]
        · simp [isText, same, countAction, bind, Except.bind, pure,
            Except.pure]
      by_cases selected :
          like ('%' :: (id.toList ++ ['%']))
            (encodeObject (viewPayload shop mode)) = true
      · have only : viewEvents (recorded (.modal shop mode today)) id =
            [trackedEvent "view-shop" (viewPayload shop mode) today] := by
          simp [viewEvents, recorded, trackedEvent, selected]
        rw [only, List.foldlM_cons, counted]
        rfl
      · -- the payload of the shop itself is always selected
        have other : shop ≠ id := by
          rintro rfl
          exact selected ((like_contains_iff
            (fun letter member =>
              (ordinary_of_isUuid uuid letter member).1) _).mpr
            (infix_encodeObject uuid mode))
        have none : viewEvents (recorded (.modal shop mode today)) id =
            [] := by
          simp [viewEvents, recorded, trackedEvent, selected]
        rw [none, countAction, if_neg other]
        rfl
  | search query today =>
      have none : viewEvents (recorded (.search query today)) id = [] := by
        cases trimmed : trimmedInput query with
        | error failure => simp [recorded, trimmed, viewEvents]
        | ok keyword =>
            by_cases empty : keyword = "" ∨ keyword = "0"
            · simp [recorded, trimmed, empty, viewEvents]
            · simp [recorded, trimmed, empty, viewEvents, trackedEvent]
      rw [none]
      rfl
  | other database => rfl

theorem countView_history
    {id : String} (uuid : IsUuid id) (actions : List Action)
    (data : Series) :
    (viewEvents (actions.flatMap recorded) id).foldlM (countView id) data =
      .ok (actions.foldl (countAction id) data) := by
  induction actions generalizing data with
  | nil => rfl
  | cons action actions inductionHypothesis =>
      have split :
          viewEvents ((action :: actions).flatMap recorded) id =
            viewEvents (recorded action) id ++
              viewEvents (actions.flatMap recorded) id := by
        simp [viewEvents]
      rw [split, List.foldlM_append, countView_recorded uuid]
      exact inductionHypothesis _

theorem shown_succ (count : Nat) :
    some ((shown count).getD 0 + 1) = shown (count + 1) := by
  by_cases zero : count = 0
  · simp [shown, zero]
  · simp [shown, zero]

theorem getField_countAction
    (id key : String) (data : Series) (action : Action) {count : Nat}
    (before : getField data key = shown count) :
    getField (countAction id data action) key =
      shown (count + [action].countP
        (Action.opens id fun date => formatDay date = key)) := by
  cases action with
  | modal shop mode today =>
      rw [countAction]
      by_cases same : shop = id
      · rw [if_pos same, getField_addView, before]
        by_cases sameDay : key = formatDay today
        · rw [if_pos sameDay, shown_succ]
          simp [Action.opens, same, sameDay]
        · have otherDay : ¬ formatDay today = key :=
            fun equal => sameDay equal.symm
          rw [if_neg sameDay]
          simp [Action.opens, otherDay]
      · rw [if_neg same, before]
        simp [Action.opens, same]
  | search query today => simpa [countAction, Action.opens] using before
  | other database => simpa [countAction, Action.opens] using before

theorem getField_countActions
    (id key : String) (actions : List Action) (data : Series) {count : Nat}
    (before : getField data key = shown count) :
    getField (actions.foldl (countAction id) data) key =
      shown (count +
        opened actions id fun date => formatDay date = key) := by
  induction actions generalizing data count with
  | nil => simpa [opened] using before
  | cons action actions inductionHypothesis =>
      have later := inductionHypothesis _
        (getField_countAction id key data action before)
      rw [List.foldl_cons, later, Nat.add_assoc, opened, opened,
        ← List.countP_append, List.singleton_append]

/-- The series of a shop, read off the history. -/
theorem viewData_of_run
    {database : Database} {history : List Action} {world : World}
    (run : Reaches step Anything (start database) history world)
    {id : String} (uuid : IsUuid id) :
    viewData world id =
      .ok (history.reverse.foldl (countAction id) []) := by
  rw [viewData, events_of_run run, countView_history uuid]

theorem getField_of_run (history : List Action) (id key : String) :
    getField (history.reverse.foldl (countAction id) []) key =
      shown (opened history id fun date => formatDay date = key) := by
  have counted := getField_countActions id key history.reverse []
    (show getField [] key = shown 0 from rfl)
  rw [counted, Nat.zero_add, opened, opened, List.countP_reverse]

theorem formatDay_eq_iff (date other : Date) :
    formatDay other = formatDay date ↔ sameDay date other = true := by
  constructor
  · intro same
    have notBefore : ¬ (formatDay other).toList < (formatDay date).toList := by
      rw [same]
      exact List.lt_irrefl _
    have notAfter : ¬ (formatDay date).toList < (formatDay other).toList := by
      rw [same]
      exact List.lt_irrefl _
    rw [formatDay_lt_iff] at notBefore notAfter
    simp only [sameDay, Bool.and_eq_true, decide_eq_true_eq]
    omega
  · intro same
    simp only [sameDay, Bool.and_eq_true, decide_eq_true_eq] at same
    rw [formatDay, formatDay, same.1, same.2]

theorem opened_congr
    {history : List Action} {id : String} {one other : Date → Bool}
    (same : ∀ shop mode today, .modal shop mode today ∈ history →
      shop = id → one today = other today) :
    opened history id one = opened history id other := by
  apply List.countP_congr
  intro action member
  cases action with
  | modal shop mode today =>
      by_cases isShop : shop = id
      · rw [Action.opens, Action.opens, same _ _ _ member isShop]
      · simp [Action.opens, isShop]
  | search query today => exact Iff.rfl
  | other database => exact Iff.rfl

theorem opened_date
    {history : List Action} {id : String} {date : Date}
    (oneYear : opened history id (fun other => other.year ≠ date.year) = 0) :
    opened history id (sameDay date) =
      opened history id fun other => other = date := by
  apply opened_congr
  intro shop mode today member isShop
  have sameYear : today.year = date.year := by
    have outside := List.countP_eq_zero.mp oneYear _ member
    simpa [Action.opens, isShop] using outside
  rw [Bool.eq_iff_iff, ← formatDay_eq_iff, decide_eq_true_eq]
  exact ⟨formatDay_injective_of_year sameYear, fun same => by rw [same]⟩

/--
After every run, the series of a shop has an entry for exactly the days of the
calendar on which the shop was opened, and it is the number of times it was
opened on that day, in whichever year; when the shop was opened in one year
only, these are the numbers for each of its dates.
-/
theorem views_counted_along_runs
    {database : Database} {history : List Action} {world : World}
    (run : Reaches step Anything (start database) history world)
    {id : String} (uuid : IsUuid id) :
    ∃ data, viewData world id = .ok data ∧ ShowsViews history id data := by
  have days : ∀ date,
      getField (history.reverse.foldl (countAction id) [])
          (formatDay date) =
        shown (opened history id (sameDay date)) := by
    intro date
    rw [getField_of_run]
    congr 1
    exact opened_congr fun _ _ today _ _ => by
      rw [Bool.eq_iff_iff, ← formatDay_eq_iff, decide_eq_true_eq]
  refine ⟨_, viewData_of_run run uuid, days, ?_, ?_⟩
  · intro key noDay
    have unopened :
        opened history id (fun date => formatDay date = key) = 0 := by
      rw [opened, List.countP_eq_zero]
      intro action _
      cases action with
      | modal shop mode today => simp [Action.opens, noDay]
      | search query today => exact Bool.false_ne_true
      | other database => exact Bool.false_ne_true
    rw [getField_of_run, unopened]
    rfl
  · intro date oneYear
    rw [days, opened_date oneYear]

/-- A view of the shop from the map. -/
def viewOn (today : Date) : Action :=
  .modal wifiShop.id (.text "map") today

/-- Two views on a New Year's Day, one the day after and one a year later. -/
def fourViews : List Action :=
  [viewOn EventCounters.newYear,
    .search (.text "quiet") EventCounters.newYear,
    viewOn EventCounters.newYear, viewOn EventCounters.newYear.next,
    viewOn (yearStart 2019)]

theorem four_views_are_counted :
    ∃ world data,
      Reaches step Anything (start wifiSite) fourViews.reverse world ∧
        viewData world wifiShop.id = .ok data ∧
        getField data (formatDay EventCounters.newYear) = some 3 ∧
        getField data (formatDay EventCounters.newYear.next) = some 1 := by
  have replayed :
      (replay step (start wifiSite) fourViews).isSome = true := by
    decide +kernel
  obtain ⟨world, moved⟩ := Option.isSome_iff_exists.mp replayed
  have run := Reaches.of_replay moved
  obtain ⟨data, counted, shows⟩ := views_counted_along_runs run
    (show IsUuid wifiShop.id by decide +kernel)
  refine ⟨world, data, run, counted, ?_, ?_⟩
  · rw [shows.days]
    decide +kernel
  · rw [shows.days]
    decide +kernel

/-! ## Totals -/

/-- The action opens the shop. -/
def Action.isOf (id : String) : Action → Bool
  | .modal shop _ _ => shop = id
  | _ => false

/-- The total of a series. -/
def total (data : Series) : Nat := (data.map Prod.snd).sum

/-- Writing over a value replaces it in the total. -/
theorem total_replace
    {data : Series} (distinct : (data.map Prod.fst).Nodup)
    {key : String} {old : Nat} (found : getField data key = some old)
    (value : Nat) :
    total (data.map fun field =>
        if field.1 = key then (key, value) else field) + old =
      total data + value := by
  induction data with
  | nil => cases found
  | cons field rest inductionHypothesis =>
      obtain ⟨name, count⟩ := field
      rw [List.map_cons, List.nodup_cons] at distinct
      rw [getField_cons] at found
      by_cases here : name = key
      · rw [if_pos here] at found
        cases found
        have unchanged : (rest.map fun field =>
            if field.1 = key then (key, value) else field) = rest := by
          have other : ∀ field ∈ rest,
              (if field.1 = key then (key, value) else field) = field := by
            intro field member
            rw [if_neg]
            intro same
            have listed : field.1 ∈ rest.map Prod.fst :=
              List.mem_map_of_mem member
            rw [same, ← here] at listed
            exact distinct.1 listed
          rw [List.map_congr_left other, List.map_id']
        simp only [total, List.map_cons, here, if_pos, unchanged,
          List.sum_cons]
        omega
      · rw [if_neg here] at found
        have later := inductionHypothesis distinct.2 found
        simp only [total, List.map_cons, here, if_false,
          List.sum_cons] at later ⊢
        omega

theorem total_addView
    {data : Series} (distinct : (data.map Prod.fst).Nodup)
    (joinDate : String) :
    total (addView data joinDate) = total data + 1 := by
  unfold addView
  cases found : getField data joinDate with
  | none => simp [setField, found, total]
  | some count =>
      have replaced := total_replace distinct found (count + 1)
      simp only [setField, found]
      omega

theorem addView_distinct
    {data : Series} (distinct : (data.map Prod.fst).Nodup)
    (joinDate : String) :
    ((addView data joinDate).map Prod.fst).Nodup := by
  unfold addView
  split
  · exact setField_distinct distinct _ _
  · exact setField_distinct distinct _ _

/-- The series of a shop adds up to the times it was opened. -/
theorem total_countActions
    (id : String) (actions : List Action) {data : Series}
    (distinct : (data.map Prod.fst).Nodup) :
    total (actions.foldl (countAction id) data) =
      total data + actions.countP (Action.isOf id) := by
  induction actions generalizing data with
  | nil => rfl
  | cons action actions inductionHypothesis =>
      rw [List.foldl_cons, List.countP_cons]
      cases action with
      | modal shop mode today =>
          by_cases same : shop = id
          · rw [countAction, if_pos same,
              inductionHypothesis (addView_distinct distinct _),
              total_addView distinct]
            simp only [Action.isOf, same, decide_true, if_true]
            omega
          · rw [countAction, if_neg same, inductionHypothesis distinct]
            simp [Action.isOf, same]
      | search query today =>
          simpa [countAction, Action.isOf] using
            inductionHypothesis distinct
      | other database =>
          simpa [countAction, Action.isOf] using
            inductionHypothesis distinct

end NomadiCore.ViewEvents
