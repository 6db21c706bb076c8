import NomadiCore.Library.Calendar
import NomadiCore.Library.InterleavedPool
import NomadiCore.Library.LabelledRun
import NomadiCore.RequestInput

/-!
# Daily event counters

`DailyEventCounter::track` looks up the counter of a category, a shop and a
day and stores it in a later statement, with no transaction, unique key or
atomic increment.  Its statements name the shop `cafe_id`; the snapshot's table
calls the column `entity_id`, so the name of the column is part of the model.
-/

namespace NomadiCore.EventCounters

open NomadiCore.Library.Calendar
open NomadiCore.Library.InterleavedPool
open NomadiCore.Library.LabelledRun
open NomadiCore.Library.RowTable
open NomadiCore.Library.StatementProcess

/-! ## The table and `track` -/

/--
Categories and ids are taken to fit their columns, and to be told apart by the
collation.
-/
structure DailyEventCounter where
  category : String
  cafeId : String
  eventDate : Date
  value : Nat
deriving DecidableEq

/-- What the table calls the column of the shop. -/
inductive ShopColumn where
  | entityId
  | cafeId
deriving DecidableEq

structure Counters where
  column : ShopColumn
  rows : Table DailyEventCounter
deriving DecidableEq

def Counters.empty (column : ShopColumn) : Counters := ⟨column, Table.empty⟩

/-- What `track` is called for. -/
structure Event where
  category : String
  cafeId : String
  date : Date
deriving DecidableEq

/-- The row counts the event. -/
def Event.isOf (event : Event) (entry : Entry DailyEventCounter) : Bool :=
  entry.row.category = event.category ∧
    entry.row.cafeId = event.cafeId ∧
    entry.row.eventDate = event.date

/-- The largest value of the column; a larger one is cut off to it. -/
def largestValue : Nat := 2147483647

/-- A statement that names the column `cafe_id`. -/
def namingCafeId {Value : Type} (effect : Counters → Value × Counters) :
    Process Counters Raised Value :=
  .perform fun counters =>
    match counters.column with
    | .entityId => (.error .queryException, counters)
    | .cafeId => (.ok (effect counters).1, (effect counters).2)

/-- The three `where`s and `first()`. -/
def lookupCounter (event : Event) :
    Process Counters Raised (Option (Entry DailyEventCounter)) :=
  namingCafeId fun counters => (counters.rows.first event.isOf, counters)

/-- The value that was read, plus one, is stored under the counter's id. -/
def increment (counter : Entry DailyEventCounter) (counters : Counters) :
    Counters :=
  { counters with
    rows := counters.rows.update counter.id fun row =>
      { row with value := min (counter.row.value + 1) largestValue } }

def insertCounter (event : Event) (counters : Counters) : Counters :=
  { counters with
    rows := counters.rows.insert
      ⟨event.category, event.cafeId, event.date, 1⟩ }

/-- The second statement of `track`. -/
def saveCounter (event : Event) :
    Option (Entry DailyEventCounter) → Process Counters Raised Unit
  | some counter => .execute (increment counter)
  | none => namingCafeId fun counters => ((), insertCounter event counters)

/-- `DailyEventCounter::track`. -/
def track (event : Event) : Process Counters Raised Unit := do
  let counter ← lookupCounter event
  saveCounter event counter

/-! ## Runs of many calls -/

abbrev TrackPool := Pool Counters Event (Process Counters Raised Unit)

/-- Every call has ended. -/
def AllEnded (pool : TrackPool) : Prop :=
  ∀ task ∈ pool.running, Process.advance task.2 pool.state = none

/-- The rows that count an event. -/
def rowsFor (counters : Counters) (event : Event) :
    List (Entry DailyEventCounter) :=
  counters.rows.select event.isOf

/-- Every tracked event has one row, which counts the calls. -/
def AllCounted (history : List (Move Event)) (counters : Counters) : Prop :=
  ∀ event, 0 < history.count (.arrive event) →
    ∃ entry, rowsFor counters event = [entry] ∧
      entry.row.value = history.count (.arrive event)

/--
A lookup happens only when no other running call for the same event is
between its lookup and its write, and finds a counter that is not full.
-/
def TracksAlone (pool : TrackPool) : Move Event → Prop
  | .arrive _ => True
  | .advance index =>
      ∀ event, pool.running[index]? = some (event, track event) →
        (∀ other found, other ≠ index →
          pool.running[other]? ≠ some (event, saveCounter event found)) ∧
        ∀ counter, pool.state.rows.first event.isOf = some counter →
          counter.row.value < largestValue

/-! ## The stages of a call -/

/-- Where a call stands between two statements. -/
inductive TrackStage where
  | looking
  | saving (found : Option (Entry DailyEventCounter))
  | ended (outcome : Except Raised Unit)

namespace TrackStage

/-- The rest of the call. -/
def rest (event : Event) : TrackStage → Process Counters Raised Unit
  | .looking => track event
  | .saving found => saveCounter event found
  | .ended outcome => .ofExcept outcome

def act (event : Event) :
    TrackStage → Counters → Option (Counters × TrackStage)
  | .looking, counters =>
      match counters.column with
      | .entityId => some (counters, .ended (.error .queryException))
      | .cafeId =>
          some (counters, .saving (counters.rows.first event.isOf))
  | .saving (some counter), counters =>
      some (increment counter counters, .ended (.ok ()))
  | .saving none, counters =>
      match counters.column with
      | .entityId => some (counters, .ended (.error .queryException))
      | .cafeId => some (insertCounter event counters, .ended (.ok ()))
  | .ended _, _ => none

/-- The stages are those of the call. -/
theorem advance_rest
    (event : Event) (stage : TrackStage) (counters : Counters) :
    Process.advance (stage.rest event) counters =
      (stage.act event counters).map fun after =>
        (after.1, after.2.rest event) := by
  cases stage with
  | looking =>
      obtain ⟨column, rows⟩ := counters
      cases column <;> rfl
  | saving found =>
      obtain ⟨column, rows⟩ := counters
      cases found with
      | none => cases column <;> rfl
      | some counter => rfl
  | ended outcome => cases outcome <;> rfl

/-- The call has ended. -/
def isEnded : TrackStage → Bool
  | .ended _ => true
  | _ => false

end TrackStage

abbrev StagedCalls := Pool Counters Event TrackStage

/-- How many calls for an event have ended. -/
def endedCalls (pool : StagedCalls) (event : Event) : Nat :=
  pool.running.countP fun task => task.1 = event ∧ task.2.isEnded

/-- The invariant of the staged calls. -/
structure TrackInvariant (pool : StagedCalls) : Prop where
  column : pool.state.column = .cafeId
  counted : ∀ event,
    (rowsFor pool.state event).map (fun entry => entry.row.value) =
      if endedCalls pool event = 0 then [] else [endedCalls pool event]
  current : ∀ {index : Nat} {event found},
    pool.running[index]? = some (event, .saving found) →
      pool.state.rows.first event.isOf = found ∧
        ∀ counter, found = some counter → counter.row.value < largestValue
  alone : ∀ {first second : Nat} {event one other},
    pool.running[first]? = some (event, .saving one) →
      pool.running[second]? = some (event, .saving other) →
        first = second

/-! ## What a write does -/

/-- The event that a row counts. -/
def DailyEventCounter.event (row : DailyEventCounter) : Event :=
  ⟨row.category, row.cafeId, row.eventDate⟩

theorem isOf_iff (event : Event) (entry : Entry DailyEventCounter) :
    event.isOf entry = true ↔ entry.row.event = event := by
  obtain ⟨category, cafeId, date⟩ := event
  simp [Event.isOf, DailyEventCounter.event]

theorem rowsFor_insertCounter (event other : Event) (counters : Counters) :
    rowsFor (insertCounter event counters) other =
      rowsFor counters other ++
        if other = event then
          [⟨counters.rows.next,
            ⟨event.category, event.cafeId, event.date, 1⟩⟩]
        else [] := by
  rw [rowsFor, insertCounter, Table.select_insert]
  congr 1
  exact if_congr ((isOf_iff other _).trans eq_comm) rfl rfl

theorem rowsFor_increment_self
    {event : Event} {counters : Counters}
    {counter : Entry DailyEventCounter}
    (only : rowsFor counters event = [counter]) :
    rowsFor (increment counter counters) event =
      [{ counter with
        row := { counter.row with
          value := min (counter.row.value + 1) largestValue } }] := by
  rw [rowsFor, increment, Table.select_update_of_kept]
  · rw [rowsFor] at only
    simp [only]
  · intro entry _
    rfl

theorem rowsFor_increment_other
    {event other : Event} {counters : Counters}
    {counter : Entry DailyEventCounter}
    (found : counters.rows.first event.isOf = some counter)
    (different : other ≠ event) :
    rowsFor (increment counter counters) other = rowsFor counters other := by
  obtain ⟨stored, isOf⟩ := Table.first_eq_some found
  have notOther : other.isOf counter = false := by
    rw [isOf_iff] at isOf
    rw [← Bool.not_eq_true, isOf_iff, isOf]
    exact Ne.symm different
  rw [rowsFor, increment, Table.select_update_of_disjoint]
  · rfl
  · intro entry member same
    rw [Table.eq_of_id_eq member stored same]
    exact notOther
  · intro entry member same
    rw [Table.eq_of_id_eq member stored same]
    exact notOther

/-! ## Every move keeps the invariant -/

variable {pool : StagedCalls}

theorem endedCalls_set
    {index : Nat} {event : Event} {stage next : TrackStage}
    (running : pool.running[index]? = some (event, stage))
    (notEnded : stage.isEnded = false) (state : Counters) (other : Event) :
    endedCalls ⟨state, pool.running.set index (event, next)⟩ other =
      endedCalls pool other +
        if event = other ∧ next.isEnded then 1 else 0 := by
  obtain ⟨inside, isTask⟩ := List.getElem?_eq_some_iff.mp running
  simp only [endedCalls]
  rw [List.countP_set inside, isTask]
  simp [notEnded]

/-- A task of a changed pool is the changed one or an old one. -/
theorem running_set
    {index wanted : Nat} {event : Event} {next : TrackStage}
    {task : Event × TrackStage}
    (found : (pool.running.set index (event, next))[wanted]? = some task) :
    wanted = index ∧ task = (event, next) ∨
      wanted ≠ index ∧ pool.running[wanted]? = some task := by
  rw [List.getElem?_set] at found
  split_ifs at found with same inside
  · exact Or.inl ⟨same.symm, (Option.some.inj found).symm⟩
  · exact Or.inr ⟨Ne.symm same, found⟩

theorem TrackInvariant.arrive
    (invariant : TrackInvariant pool) (event : Event) :
    TrackInvariant ⟨pool.state, pool.running ++ [(event, .looking)]⟩ := by
  have older : ∀ {index : Nat} {other found},
      (pool.running ++ [(event, TrackStage.looking)])[index]? =
          some (other, .saving found) →
        pool.running[index]? = some (other, .saving found) := by
    intro index other found isSaving
    rw [List.getElem?_append] at isSaving
    split_ifs at isSaving
    · exact isSaving
    · rw [List.getElem?_singleton] at isSaving
      split_ifs at isSaving
      cases isSaving
  constructor
  · exact invariant.column
  · intro other
    have same :
        endedCalls ⟨pool.state, pool.running ++ [(event, .looking)]⟩ other =
          endedCalls pool other := by
      simp [endedCalls, TrackStage.isEnded]
    rw [same]
    exact invariant.counted other
  · intro index other found isSaving
    exact invariant.current (older isSaving)
  · intro first second other one another isFirst isSecond
    exact invariant.alone (older isFirst) (older isSecond)

/-- A lookup, alone, reads the current counter. -/
theorem TrackInvariant.look
    (invariant : TrackInvariant pool) {index : Nat} {event : Event}
    (running : pool.running[index]? = some (event, .looking))
    (alone : TracksAlone (pool.map TrackStage.rest) (.advance index)) :
    TrackInvariant
      ⟨pool.state,
        pool.running.set index
          (event, .saving (pool.state.rows.first event.isOf))⟩ := by
  obtain ⟨noRival, room⟩ :=
    alone event (by simp [Pool.map, running, TrackStage.rest])
  have notSaving : ∀ other found, other ≠ index →
      pool.running[other]? ≠ some (event, .saving found) := by
    intro other found different isSaving
    exact noRival other found different
      (by simp [Pool.map, isSaving, TrackStage.rest])
  constructor
  · exact invariant.column
  · intro other
    rw [endedCalls_set running rfl]
    simpa [TrackStage.isEnded] using invariant.counted other
  · intro wanted other found isSaving
    rcases running_set isSaving with ⟨-, isNew⟩ | ⟨-, isOld⟩
    · cases isNew
      exact ⟨rfl, room⟩
    · exact invariant.current isOld
  · intro first second other one another isFirst isSecond
    rcases running_set isFirst with ⟨atFirst, isNew⟩ | ⟨notFirst, firstOld⟩
    · cases isNew
      rcases running_set isSecond with ⟨atSecond, -⟩ | ⟨notSecond, secondOld⟩
      · rw [atFirst, atSecond]
      · exact absurd secondOld (notSaving second another notSecond)
    · rcases running_set isSecond with ⟨-, isNew⟩ | ⟨-, secondOld⟩
      · cases isNew
        exact absurd firstOld (notSaving first one notFirst)
      · exact invariant.alone firstOld secondOld

/-- A write that counts its event and keeps the rows of the others. -/
theorem TrackInvariant.save
    (invariant : TrackInvariant pool) {index : Nat} {event : Event}
    {found : Option (Entry DailyEventCounter)} {state : Counters}
    (running : pool.running[index]? = some (event, .saving found))
    (column : state.column = .cafeId)
    (own :
      (rowsFor state event).map (fun entry => entry.row.value) =
        [endedCalls pool event + 1])
    (others : ∀ other, other ≠ event →
      rowsFor state other = rowsFor pool.state other) :
    TrackInvariant
      ⟨state, pool.running.set index (event, .ended (.ok ()))⟩ := by
  constructor
  · exact column
  · intro other
    rw [endedCalls_set running rfl]
    by_cases same : event = other
    · subst same
      simpa [TrackStage.isEnded] using own
    · rw [others other (Ne.symm same)]
      simpa [same] using invariant.counted other
  · intro wanted other saved isSaving
    rcases running_set isSaving with ⟨-, isNew⟩ | ⟨notIndex, isOld⟩
    · cases isNew
    · have different : other ≠ event := by
        rintro rfl
        exact notIndex (invariant.alone isOld running)
      obtain ⟨current, room⟩ := invariant.current isOld
      refine ⟨?_, room⟩
      rw [← current, Table.first_eq_head?, Table.first_eq_head?]
      exact congrArg List.head? (others other different)
  · intro first second other one another isFirst isSecond
    rcases running_set isFirst with ⟨-, isNew⟩ | ⟨-, firstOld⟩
    · cases isNew
    · rcases running_set isSecond with ⟨-, isNew⟩ | ⟨-, secondOld⟩
      · cases isNew
      · exact invariant.alone firstOld secondOld

/-- The rows of an event, from what the last lookup found. -/
theorem TrackInvariant.rows_of_found
    (invariant : TrackInvariant pool) {index : Nat} {event : Event}
    {found : Option (Entry DailyEventCounter)}
    (running : pool.running[index]? = some (event, .saving found)) :
    rowsFor pool.state event = found.toList ∧
      (found.map fun entry => entry.row.value).getD 0 =
        endedCalls pool event := by
  have counted := invariant.counted event
  have current := (invariant.current running).1
  rw [Table.first_eq_head?] at current
  change (rowsFor pool.state event).head? = found at current
  by_cases noneEnded : endedCalls pool event = 0
  · rw [if_pos noneEnded, List.map_eq_nil_iff] at counted
    rw [counted] at current
    subst current
    exact ⟨counted, noneEnded.symm⟩
  · rw [if_neg noneEnded] at counted
    obtain ⟨entry, isOnly, value⟩ := List.map_eq_singleton_iff.mp counted
    rw [isOnly] at current
    subst current
    exact ⟨isOnly, value⟩

/-- Every move of the staged calls keeps the invariant. -/
theorem TrackInvariant.moves
    {target : StagedCalls} {move : Move Event}
    (invariant : TrackInvariant pool)
    (alone : TracksAlone (pool.map TrackStage.rest) move)
    (moved :
      pool.step (fun _ => .looking) TrackStage.act move = some target) :
    TrackInvariant target := by
  rcases Pool.step_cases moved with
    ⟨event, -, rfl⟩ |
      ⟨index, event, stage, state, next, rfl, running, acted, rfl⟩
  · exact invariant.arrive event
  · cases stage with
    | looking =>
        simp only [TrackStage.act, invariant.column] at acted
        cases acted
        exact invariant.look running alone
    | ended outcome => cases acted
    | saving found =>
        obtain ⟨rows, value⟩ := invariant.rows_of_found running
        obtain ⟨current, room⟩ := invariant.current running
        cases found with
        | none =>
            simp only [TrackStage.act, invariant.column] at acted
            cases acted
            apply invariant.save running
            · exact invariant.column
            · rw [rowsFor_insertCounter, rows, ← value]
              simp
            · intro other different
              rw [rowsFor_insertCounter, if_neg different, List.append_nil]
        | some counter =>
            cases acted
            apply invariant.save running
            · exact invariant.column
            · rw [rowsFor_increment_self rows, ← value]
              have notFull := room counter rfl
              simp only [List.map_cons, List.map_nil, Option.map_some,
                Option.getD_some]
              rw [Nat.min_eq_left (by omega)]
            · intro other different
              exact rowsFor_increment_other current different

/-! ## Whole runs -/

/-- The pool of calls moves as the pool of stages does. -/
theorem processStep_rest (pool : StagedCalls) (move : Move Event) :
    processStep track (pool.map TrackStage.rest) move =
      (pool.step (fun _ => .looking) TrackStage.act move).map
        (Pool.map TrackStage.rest) := by
  unfold processStep
  apply Pool.step_map
  · intro event
    rfl
  · exact TrackStage.advance_rest

/-- How many calls for an event there are. -/
def callsFor (pool : StagedCalls) (event : Event) : Nat :=
  pool.running.countP fun task => task.1 = event

/-- A move adds the call that it brings in. -/
theorem callsFor_step
    {target : StagedCalls} {move : Move Event}
    (moved :
      pool.step (fun _ => .looking) TrackStage.act move = some target)
    (event : Event) :
    callsFor target event =
      callsFor pool event + if move = .arrive event then 1 else 0 := by
  rcases Pool.step_cases moved with
    ⟨arrived, rfl, rfl⟩ |
      ⟨index, tag, stage, state, next, rfl, running, -, rfl⟩
  · simp [callsFor, List.countP_append, List.countP_singleton]
  · obtain ⟨inside, isTask⟩ := List.getElem?_eq_some_iff.mp running
    simp only [callsFor]
    rw [List.countP_set inside, isTask]
    by_cases same : tag = event
    · have counted : 0 < callsFor pool event := by
        rw [callsFor, List.countP_pos_iff]
        exact ⟨(tag, stage), List.mem_of_getElem? running, by simp [same]⟩
      simp only [callsFor] at counted
      simp only [same, decide_true, if_true]
      simp only [reduceCtorEq, if_false]
      omega
    · simp [same]

/-- The calls are at stages that keep the invariant and none is forgotten. -/
def InStages (history : List (Move Event)) (pool : TrackPool) : Prop :=
  ∃ staged : StagedCalls,
    pool = staged.map TrackStage.rest ∧
      TrackInvariant staged ∧
      ∀ event, callsFor staged event = history.count (.arrive event)

theorem reaches_inStages
    {history : List (Move Event)} {pool : TrackPool}
    (run :
      Reaches (processStep track) TracksAlone
        ⟨Counters.empty .cafeId, []⟩ history pool) :
    InStages history pool := by
  induction run with
  | start =>
      refine ⟨⟨Counters.empty .cafeId, []⟩, rfl, ?_, fun _ => rfl⟩
      constructor
      · rfl
      · intro event
        rfl
      · intro index event found isSaving
        simp at isSaving
      · intro first second event one other isFirst
        simp at isFirst
  | next earlier condition moved inductionHypothesis =>
      obtain ⟨staged, rfl, invariant, calls⟩ := inductionHypothesis
      rw [processStep_rest] at moved
      obtain ⟨after, stagedMoved, rfl⟩ := Option.map_eq_some_iff.mp moved
      refine ⟨after, rfl, invariant.moves condition stagedMoved, ?_⟩
      intro event
      rw [callsFor_step stagedMoved, calls, List.count_cons]
      simp only [beq_iff_eq]

/-- A call that cannot advance has ended. -/
theorem isEnded_of_advance_eq_none
    {event : Event} {stage : TrackStage} {counters : Counters}
    (stuck : Process.advance (stage.rest event) counters = none) :
    stage.isEnded = true := by
  rw [TrackStage.advance_rest, Option.map_eq_none_iff] at stuck
  obtain ⟨column, rows⟩ := counters
  cases stage with
  | looking => cases column <;> cases stuck
  | saving found => cases found <;> cases column <;> cases stuck
  | ended outcome => rfl

/--
In every interleaving of calls in which calls look up alone and find counters
that are not full, once all calls have ended every tracked event has exactly
one row, and its value is the number of calls made for the event.
-/
theorem track_counts_every_call
    {history : List (Move Event)} {pool : TrackPool}
    (run :
      Reaches (processStep track) TracksAlone
        ⟨Counters.empty .cafeId, []⟩ history pool)
    (ended : AllEnded pool) :
    AllCounted history pool.state := by
  obtain ⟨staged, rfl, invariant, calls⟩ := reaches_inStages run
  intro event tracked
  have allEnded : endedCalls staged event = callsFor staged event := by
    apply List.countP_congr
    intro task member
    have stuck :=
      ended (task.1, task.2.rest task.1)
        (List.mem_map_of_mem (f := fun task : Event × TrackStage =>
          (task.1, task.2.rest task.1)) member)
    simp [isEnded_of_advance_eq_none stuck]
  have counted := invariant.counted event
  rw [allEnded, calls, if_neg (by omega)] at counted
  exact List.map_eq_singleton_iff.mp counted

/-! ## Calls one after another, and calls that overlap -/

/-- A call looks up alone when all other calls have ended. -/
theorem tracksAlone_of_others_ended
    {pool : TrackPool} {index : Nat}
    (ended : ∀ other task, other ≠ index →
      pool.running[other]? = some task →
        (Process.advance task.2 pool.state).isNone = true)
    (room : ∀ entry ∈ pool.state.rows.entries,
      entry.row.value < largestValue) :
    TracksAlone pool (.advance index) := by
  intro event _
  constructor
  · intro other found different isSaving
    have stuck := ended other _ different isSaving
    cases found <;> cases stuck
  · intro counter found
    exact room counter (Table.first_eq_some found).1

def newYear : Date := ⟨2018, 1, 1, by decide, by decide⟩

/-- The first day of 2018 on the list of shops. -/
def shown : Event := ⟨"display-shop-list", "e", newYear⟩

/-- The values stored for the event, and whether all calls have ended. -/
def shownAfter (pool : TrackPool) : List Nat × Bool :=
  ((rowsFor pool.state shown).map (fun entry => entry.row.value),
    pool.running.all fun task =>
      (Process.advance task.2 pool.state).isNone)

theorem allEnded_of_shownAfter
    {pool : TrackPool} {values : List Nat}
    (after : shownAfter pool = (values, true)) :
    AllEnded pool := by
  intro task member
  have all := (Prod.mk.injEq _ _ _ _ ▸ after).2
  exact Option.isNone_iff_eq_none.mp (List.all_eq_true.mp all task member)

/-- All calls but one have ended, and no counter is full. -/
def othersEnded (pool : TrackPool) : Move Event → Bool
  | .arrive _ => true
  | .advance index =>
      (pool.running.zipIdx.all fun task =>
        task.2 = index || (Process.advance task.1.2 pool.state).isNone) &&
        pool.state.rows.entries.all fun entry =>
          entry.row.value < largestValue

theorem tracksAlone_of_othersEnded
    {pool : TrackPool} {move : Move Event}
    (ended : othersEnded pool move = true) : TracksAlone pool move := by
  cases move with
  | arrive event => trivial
  | advance index =>
      simp only [othersEnded, Bool.and_eq_true] at ended
      apply tracksAlone_of_others_ended
      · intro other task different isTask
        have inList : (task, other) ∈ pool.running.zipIdx :=
          List.mk_mem_zipIdx_iff_getElem?.mpr isTask
        have stuck := List.all_eq_true.mp ended.1 _ inList
        simpa [different] using stuck
      · intro entry member
        simpa using List.all_eq_true.mp ended.2 entry member

/-- The list of shops on another day. -/
def shownLater : Event :=
  { shown with date := ⟨2018, 1, 2, by decide, by decide⟩ }

/-- Three calls on one day, with one on another day between them. -/
def fourCalls : List (Move Event) :=
  [.arrive shown, .advance 0, .advance 0, .arrive shown, .advance 1,
    .advance 1, .arrive shownLater, .advance 2, .advance 2, .arrive shown,
    .advance 3, .advance 3]

theorem four_calls_are_counted :
    ∃ pool,
      Reaches (processStep track) TracksAlone ⟨Counters.empty .cafeId, []⟩
          fourCalls.reverse pool ∧
        shownAfter pool = ([3], true) ∧
        AllCounted fourCalls.reverse pool.state := by
  have replayed :
      (replay (guarded (processStep track) othersEnded)
          ⟨Counters.empty .cafeId, []⟩ fourCalls).map shownAfter =
        some ([3], true) := by
    decide +kernel
  obtain ⟨pool, stored, after⟩ := Option.map_eq_some_iff.mp replayed
  have run := Reaches.of_guarded tracksAlone_of_othersEnded
    (.of_replay stored)
  exact ⟨pool, run, after,
    track_counts_every_call run (allEnded_of_shownAfter after)⟩

/-- Two calls whose lookups both come before their writes. -/
def overlapping : List (Move Event) :=
  [.arrive shown, .arrive shown, .advance 0, .advance 1, .advance 0,
    .advance 1]

/-- A call alone, and then two that overlap. -/
def losing : List (Move Event) :=
  [.arrive shown, .advance 0, .advance 0, .arrive shown, .arrive shown,
    .advance 1, .advance 2, .advance 1, .advance 2]

/-- The calls of a schedule have ended and their event is not counted. -/
def Miscounts (column : ShopColumn) (schedule : List (Move Event)) : Prop :=
  ∃ pool,
    Reaches (processStep track) Anything ⟨Counters.empty column, []⟩
        schedule.reverse pool ∧
      AllEnded pool ∧ ¬ AllCounted schedule.reverse pool.state

theorem miscounts_of_replay
    {column : ShopColumn} {schedule : List (Move Event)}
    {values : List Nat}
    (replayed :
      (replay (processStep track) ⟨Counters.empty column, []⟩
        schedule).map shownAfter = some (values, true))
    (tracked : 0 < schedule.count (.arrive shown))
    (wrong : values ≠ [schedule.count (.arrive shown)]) :
    Miscounts column schedule := by
  obtain ⟨pool, moved, after⟩ := Option.map_eq_some_iff.mp replayed
  refine ⟨pool, .of_replay moved, allEnded_of_shownAfter after, ?_⟩
  intro counted
  obtain ⟨entry, only, value⟩ :=
    counted shown (by rw [List.count_reverse]; exact tracked)
  rw [shownAfter, only, List.map_singleton, value, List.count_reverse] at after
  exact wrong (Prod.mk.inj after).1.symm

/--
Two overlapping calls store two rows, an overlap on a stored row loses an
increment, and on the snapshot's table a call stores nothing at all.
-/
theorem overlapping_calls_miscount :
    Miscounts .cafeId overlapping ∧
      Miscounts .cafeId losing ∧
      Miscounts .entityId [.arrive shown, .advance 0] := by
  have twoRows :
      (replay (processStep track) ⟨Counters.empty .cafeId, []⟩
        overlapping).map shownAfter = some ([1, 1], true) := by
    decide +kernel
  have lostOne :
      (replay (processStep track) ⟨Counters.empty .cafeId, []⟩
        losing).map shownAfter = some ([2], true) := by
    decide +kernel
  have raised :
      (replay (processStep track) ⟨Counters.empty .entityId, []⟩
        [.arrive shown, .advance 0]).map shownAfter = some ([], true) := by
    decide +kernel
  exact ⟨miscounts_of_replay twoRows (by decide) (by decide),
    miscounts_of_replay lostOne (by decide) (by decide),
    miscounts_of_replay raised (by decide) (by decide)⟩

end NomadiCore.EventCounters
