import Mathlib.Logic.Function.Basic
import Mathlib.Tactic.Common

/-!
# Timed maps

A timed map is a map whose entries may have a deadline; an entry is gone once
its deadline is past.  A store keeps such entries and may hold on to one that
is gone until it is touched or collected in the background.  `Implements` lists
what a store has to do so that none of this can be observed, and `replies_eq`
is the rule: along every schedule, the store never fails and replies as the
timed map does.
-/

namespace NomadiCore.Library.TimedMap

/-! ## Deadlines -/

/-- A value with a deadline, or without one. -/
structure Timed (Value : Type) where
  value : Value
  deadline : Option Int

variable {State Key Value Command Reply : Type}

def Timed.isPast (now : Int) (entry : Timed Value) : Bool :=
  match entry.deadline with
  | some deadline => deadline < now
  | none => false

/-- The entry, unless its deadline is past. -/
def alive (now : Int) (entry : Option (Timed Value)) :
    Option (Timed Value) :=
  entry.filter fun entry => !entry.isPast now

@[simp]
theorem alive_none (now : Int) :
    alive now (none : Option (Timed Value)) = none := rfl

@[simp]
theorem alive_persistent (now : Int) (value : Value) :
    alive now (some ⟨value, none⟩) = some ⟨value, none⟩ := rfl

theorem alive_deadline (now : Int) (value : Value) (deadline : Int) :
    alive now (some ⟨value, some deadline⟩) =
      if deadline < now then none else some ⟨value, some deadline⟩ := by
  by_cases past : deadline < now
  · simp [alive, Timed.isPast, past]
  · simp [alive, Timed.isPast, past]

/-- What is gone stays gone. -/
theorem alive_alive {earlier now : Int} (order : earlier ≤ now)
    (entry : Option (Timed Value)) :
    alive now (alive earlier entry) = alive now entry := by
  cases entry with
  | none => rfl
  | some entry =>
      obtain ⟨value, deadline⟩ := entry
      cases deadline with
      | none => rfl
      | some deadline =>
          rw [alive_deadline]
          by_cases past : deadline < earlier
          · rw [if_pos past, alive_deadline, if_pos (by omega)]
            rfl
          · rw [if_neg past]

/-- A map of entries with deadlines. -/
abbrev Entries (Key Value : Type) := Key → Option (Timed Value)

/-- The part of a map that is not gone. -/
def living (now : Int) (map : Entries Key Value) : Entries Key Value :=
  fun key => alive now (map key)

@[simp]
theorem living_apply (now : Int) (map : Entries Key Value) (key : Key) :
    living now map key = alive now (map key) := rfl

theorem living_living {earlier now : Int} (order : earlier ≤ now)
    (map : Entries Key Value) :
    living now (living earlier map) = living now map := by
  funext key
  exact alive_alive order (map key)

/-- What is gone may be dropped before another key is written. -/
theorem living_update [DecidableEq Key] (now : Int)
    (map : Entries Key Value) (key : Key) (entry : Option (Timed Value)) :
    living now (Function.update (living now map) key entry) =
      living now (Function.update map key entry) := by
  funext other
  by_cases same : other = key
  · subst same
    simp
  · simp only [living_apply, Function.update_of_ne same]
    exact alive_alive (Int.le_refl now) (map other)

/-- Dropping what is gone cannot be seen. -/
theorem living_update_alive [DecidableEq Key] (now : Int)
    (map : Entries Key Value) (key : Key) :
    living now (Function.update map key (alive now (map key))) =
      living now map := by
  rw [← living_apply now map key, ← living_update,
    Function.update_eq_self, living_living (Int.le_refl now)]

/-! ## Commands -/

/-- A command is performed, or the store collects what is gone. -/
inductive Event (Key Command : Type) where
  | command (now : Int) (command : Command)
  | collect (now : Int) (key : Key)

def Event.now : Event Key Command → Int
  | .command now _ => now
  | .collect now _ => now

/-- The replies of a store; `none` once a command has failed. -/
def storeReplies
    (act : Command → Int → State → Option (Reply × State))
    (collect : Key → Int → State → State) :
    State → List (Event Key Command) → Option (List Reply)
  | _, [] => some []
  | state, .command now command :: rest =>
      (act command now state).bind fun result =>
        (storeReplies act collect result.2 rest).map (result.1 :: ·)
  | state, .collect now key :: rest =>
      storeReplies act collect (collect key now state) rest

/-- The replies of the timed map, which has nothing to collect. -/
def mapReplies
    (perform : Command → Int → Entries Key Value →
      Reply × Entries Key Value) :
    Entries Key Value → List (Event Key Command) → List Reply
  | _, [] => []
  | map, .command now command :: rest =>
      (perform command now (living now map)).1 ::
        mapReplies perform (perform command now (living now map)).2 rest
  | map, .collect _ _ :: rest => mapReplies perform map rest

/--
What a store has to do: as long as it is valid and the commands are allowed,
it replies by what is not gone, and it collects only what is gone.
-/
structure Implements
    (act : Command → Int → State → Option (Reply × State))
    (collect : Key → Int → State → State)
    (perform : Command → Int → Entries Key Value →
      Reply × Entries Key Value)
    (entries : State → Entries Key Value)
    (valid : State → Prop) (allowed : Int → Command → Prop) : Prop where
  performs : ∀ {state now command}, valid state → allowed now command →
    ∃ after,
      act command now state =
        some ((perform command now (living now (entries state))).1, after) ∧
      valid after ∧
      living now (entries after) =
        living now (perform command now (living now (entries state))).2
  collects : ∀ {state now key}, valid state →
    valid (collect key now state) ∧
      living now (entries (collect key now state)) =
        living now (entries state)

/-- Each event is no earlier than the one before it. -/
def Ordered : Int → List (Event Key Command) → Prop
  | _, [] => True
  | time, event :: rest => time ≤ event.now ∧ Ordered event.now rest

/-- Every command of a schedule is allowed at its time. -/
def AllAllowed (allowed : Int → Command → Prop)
    (events : List (Event Key Command)) : Prop :=
  ∀ now command, .command now command ∈ events → allowed now command

theorem living_eq_later {earlier now : Int} (order : earlier ≤ now)
    {first second : Entries Key Value}
    (same : living earlier first = living earlier second) :
    living now first = living now second := by
  rw [← living_living order, same, living_living order]

/-- Along every schedule, the store replies as the timed map does. -/
theorem Implements.replies_eq
    {act : Command → Int → State → Option (Reply × State)}
    {collect : Key → Int → State → State}
    {perform : Command → Int → Entries Key Value →
      Reply × Entries Key Value}
    {entries : State → Entries Key Value}
    {valid : State → Prop} {allowed : Int → Command → Prop}
    (implements : Implements act collect perform entries valid allowed)
    {events : List (Event Key Command)} {time : Int} {state : State}
    {map : Entries Key Value} (isValid : valid state)
    (same : living time (entries state) = living time map)
    (ordered : Ordered time events)
    (allAllowed : AllAllowed allowed events) :
    storeReplies act collect state events =
      some (mapReplies perform map events) := by
  induction events generalizing time state map with
  | nil => rfl
  | cons event rest inductionHypothesis =>
      obtain ⟨order, laterOrdered⟩ := ordered
      have restAllowed : AllAllowed allowed rest :=
        fun now command member =>
          allAllowed now command (List.mem_cons_of_mem event member)
      have sameNow := living_eq_later order same
      cases event with
      | command now command =>
          obtain ⟨after, performed, afterValid, sameAfter⟩ :=
            implements.performs isValid
              (allAllowed now command List.mem_cons_self)
          change living now (entries state) = living now map at sameNow
          rw [sameNow] at performed sameAfter
          have later := inductionHypothesis afterValid sameAfter
            laterOrdered restAllowed
          rw [storeReplies, mapReplies, performed, Option.bind_some, later]
          rfl
      | collect now key =>
          obtain ⟨afterValid, sameAfter⟩ :=
            @implements.collects state now key isValid
          rw [storeReplies, mapReplies]
          exact inductionHypothesis afterValid (sameAfter.trans sameNow)
            laterOrdered restAllowed

end NomadiCore.Library.TimedMap
