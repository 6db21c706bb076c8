import Mathlib.Data.List.Nodup
import NomadiCore.Library.LabelledRun
import NomadiCore.Library.StatementProcess

/-!
# Interleaved pools

A pool runs any number of tasks over one shared state.  A new task may arrive
at any time, and at each move one running task executes its next statement.
The tasks may be processes, or first-order stages that stand for processes;
`Pool.step_map` relates the two.

The second part is the bookkeeping of exclusive keys: keys that are stored in
the shared state, and keys that a running task is about to store.
-/

namespace NomadiCore.Library.InterleavedPool

open NomadiCore.Library.LabelledRun
open NomadiCore.Library.StatementProcess

/-- A shared state with the running tasks, each with the tag it arrived with. -/
structure Pool (State Tag Task : Type) where
  state : State
  running : List (Tag × Task)

/-- A task arrives, or a running one executes a statement. -/
inductive Move (Tag : Type) where
  | arrive (tag : Tag)
  | advance (index : Nat)
deriving DecidableEq

namespace Pool

variable {State Tag Task Image : Type}

def step
    (launch : Tag → Task)
    (act : Tag → Task → State → Option (State × Task))
    (pool : Pool State Tag Task) :
    Move Tag → Option (Pool State Tag Task)
  | .arrive tag =>
      some ⟨pool.state, pool.running ++ [(tag, launch tag)]⟩
  | .advance index =>
      match pool.running[index]? with
      | none => none
      | some (tag, task) =>
          (act tag task pool.state).map fun after =>
            ⟨after.1, pool.running.set index (tag, after.2)⟩

/-- What a move can do. -/
theorem step_cases
    {launch : Tag → Task}
    {act : Tag → Task → State → Option (State × Task)}
    {pool target : Pool State Tag Task} {move : Move Tag}
    (moved : pool.step launch act move = some target) :
    (∃ tag, move = .arrive tag ∧
        target = ⟨pool.state, pool.running ++ [(tag, launch tag)]⟩) ∨
      ∃ index tag task state next,
        move = .advance index ∧
          pool.running[index]? = some (tag, task) ∧
          act tag task pool.state = some (state, next) ∧
          target = ⟨state, pool.running.set index (tag, next)⟩ := by
  cases move with
  | arrive tag =>
      cases moved
      exact Or.inl ⟨tag, rfl, rfl⟩
  | advance index =>
      simp only [step] at moved
      split at moved
      · cases moved
      · rename_i tag task running
        obtain ⟨⟨state, next⟩, acted, equal⟩ :=
          Option.map_eq_some_iff.mp moved
        exact Or.inr
          ⟨index, tag, task, state, next, rfl, running, acted, equal.symm⟩

/-- Replace every task by its image. -/
def map (embed : Tag → Task → Image) (pool : Pool State Tag Task) :
    Pool State Tag Image where
  state := pool.state
  running := pool.running.map fun task => (task.1, embed task.1 task.2)

/-- When the images act as the tasks do, the pools move alike. -/
theorem step_map
    {launch : Tag → Task}
    {act : Tag → Task → State → Option (State × Task)}
    {launchImage : Tag → Image}
    {actImage : Tag → Image → State → Option (State × Image)}
    {embed : Tag → Task → Image}
    (launches : ∀ tag, embed tag (launch tag) = launchImage tag)
    (acts : ∀ tag task state,
      actImage tag (embed tag task) state =
        (act tag task state).map fun after =>
          (after.1, embed tag after.2))
    (pool : Pool State Tag Task) (move : Move Tag) :
    (pool.map embed).step launchImage actImage move =
      (pool.step launch act move).map (map embed) := by
  cases move with
  | arrive tag => simp [step, map, launches]
  | advance index =>
      cases running : pool.running[index]? with
      | none => simp [step, map, running]
      | some task =>
          obtain ⟨tag, task⟩ := task
          cases acted : act tag task pool.state with
          | none => simp [step, map, running, acts, acted]
          | some after => simp [step, map, running, acts, acted]

end Pool

/-- Execute the next statement of a process, if it has one. -/
def Process.advance {State Failure Value : Type} :
    Process State Failure Value → State →
      Option (State × Process State Failure Value)
  | .done _, _ => none
  | .raised _, _ => none
  | .statement write next, state => some (write state, next state)

theorem Process.advance_query_bind
    {State Failure Value Result : Type}
    (read : State → Value)
    (rest : Value → Process State Failure Result) (state : State) :
    Process.advance (Process.query read >>= rest) state =
      some (state, rest (read state)) := rfl

/-- A composed process advances by its first part. -/
theorem Process.advance_bind
    {State Failure Value Result : Type}
    {process next : Process State Failure Value} {state after : State}
    (advanced : Process.advance process state = some (after, next))
    (rest : Value → Process State Failure Result) :
    Process.advance (process >>= rest) state =
      some (after, next >>= rest) := by
  cases process with
  | done value => cases advanced
  | raised failure => cases advanced
  | statement write continuation =>
      cases advanced
      rfl

/-- A process that is cut off later first advances. -/
theorem Process.stopAfter_succ
    {State Failure Value : Type}
    (process : Process State Failure Value) (count : Nat) (state : State) :
    process.stopAfter (count + 1) state =
      match Process.advance process state with
      | none => state
      | some after => after.2.stopAfter count after.1 := by
  cases process with
  | done value => rfl
  | raised failure => rfl
  | statement write next => rfl

/-- A pool of processes. -/
def processStep
    {State Tag Failure Value : Type}
    (launch : Tag → Process State Failure Value)
    (pool : Pool State Tag (Process State Failure Value)) :
    Move Tag → Option (Pool State Tag (Process State Failure Value)) :=
  pool.step launch fun _ process state => Process.advance process state

/-- What is left of a process keeps to the relation of the whole. -/
theorem Process.within_advance
    {State Failure Value : Type} {relation : State → State → Prop}
    {process next : Process State Failure Value} {state after : State}
    (within : process.Within relation)
    (advanced : Process.advance process state = some (after, next)) :
    relation state after ∧ next.Within relation := by
  cases process with
  | done value => cases advanced
  | raised failure => cases advanced
  | statement write continuation =>
      cases advanced
      exact within state

/-- The shared state has a property that every running process keeps. -/
structure KeptByAll {State Tag Failure Value : Type}
    (property : State → Prop)
    (pool : Pool State Tag (Process State Failure Value)) : Prop where
  holds : property pool.state
  running : ∀ task ∈ pool.running, task.2.Within
    fun before after => property before → property after

theorem KeptByAll.step
    {State Tag Failure Value : Type}
    {launch : Tag → Process State Failure Value}
    {property : State → Prop}
    (launched : ∀ tag, (launch tag).Within
      fun before after => property before → property after)
    {pool target : Pool State Tag (Process State Failure Value)}
    {move : Move Tag}
    (kept : KeptByAll property pool)
    (moved : processStep launch pool move = some target) :
    KeptByAll property target := by
  rcases Pool.step_cases moved with
    ⟨tag, -, rfl⟩ |
      ⟨index, tag, process, state, next, -, running, advanced, rfl⟩
  · refine ⟨kept.holds, fun task member => ?_⟩
    rcases List.mem_append.mp member with old | new
    · exact kept.running task old
    · rw [List.mem_singleton.mp new]
      exact launched tag
  · obtain ⟨along, rest⟩ := Process.within_advance
      (kept.running _ (List.mem_of_getElem? running)) advanced
    refine ⟨along kept.holds, fun task member => ?_⟩
    rcases List.mem_or_eq_of_mem_set member with old | new
    · exact kept.running task old
    · rw [new]
      exact rest

/--
A property of the shared state that every statement of every process keeps
holds along every interleaved run.
-/
theorem processStep_invariant
    {State Tag Failure Value : Type}
    {launch : Tag → Process State Failure Value}
    {property : State → Prop}
    (launched : ∀ tag, (launch tag).Within
      fun before after => property before → property after)
    {initial : State} (initially : property initial)
    {history : List (Move Tag)}
    {pool : Pool State Tag (Process State Failure Value)}
    (run : Reaches (processStep launch) Anything ⟨initial, []⟩ history
      pool) :
    property pool.state := by
  have kept : KeptByAll property pool :=
    run.invariant ⟨initially, by simp⟩
      fun before _ moved => before.step launched moved
  exact kept.holds

/-! ## Exclusive keys -/

section Keys

variable {Key : Type}

/--
No key is stored twice, held by two running tasks, or both stored and held.
The keys held are listed by the index of the task.
-/
structure Exclusive (stored : List Key) (held : List (Option Key)) :
    Prop where
  once : stored.Nodup
  single : ∀ (first second : Nat) (key : Key),
    held[first]? = some (some key) → held[second]? = some (some key) →
      first = second
  apart : ∀ (index : Nat) (key : Key),
    held[index]? = some (some key) → key ∉ stored

namespace Exclusive

variable {stored : List Key} {held : List (Option Key)}

/-- Nothing is running. -/
theorem idle (once : stored.Nodup) : Exclusive stored [] where
  once := once
  single := by
    intro first second key isFirst
    simp at isFirst
  apart := by
    intro index key isHeld
    simp at isHeld

/-- Where a key is held after one task has changed. -/
theorem held_set
    {index wanted : Nat} {change : Option Key} {key : Key}
    (isHeld : (held.set index change)[wanted]? = some (some key)) :
    wanted = index ∧ change = some key ∨
      wanted ≠ index ∧ held[wanted]? = some (some key) := by
  rw [List.getElem?_set] at isHeld
  split at isHeld
  · rename_i same
    split at isHeld
    · exact Or.inl ⟨same.symm, Option.some.inj isHeld⟩
    · cases isHeld
  · rename_i different
    exact Or.inr ⟨fun equal => different equal.symm, isHeld⟩

/-- A task arrives with no key. -/
theorem arrive (exclusive : Exclusive stored held) :
    Exclusive stored (held ++ [none]) := by
  have older : ∀ (index : Nat) (key : Key),
      (held ++ [none])[index]? = some (some key) →
        held[index]? = some (some key) := by
    intro index key isHeld
    rw [List.getElem?_append] at isHeld
    split at isHeld
    · exact isHeld
    · rw [List.getElem?_singleton] at isHeld
      split at isHeld <;> cases isHeld
  refine ⟨exclusive.once, ?_, ?_⟩
  · intro first second key isFirst isSecond
    exact exclusive.single first second key (older first key isFirst)
      (older second key isSecond)
  · intro index key isHeld
    exact exclusive.apart index key (older index key isHeld)

/-- A task takes a key that is free. -/
theorem acquire
    (exclusive : Exclusive stored held) {index : Nat} {key : Key}
    (unstored : key ∉ stored)
    (unheld : ∀ other : Nat, other ≠ index → held[other]? ≠ some (some key)) :
    Exclusive stored (held.set index (some key)) := by
  refine ⟨exclusive.once, ?_, ?_⟩
  · intro first second wanted isFirst isSecond
    rcases held_set isFirst with
      ⟨firstIs, firstKey⟩ | ⟨firstOther, firstHeld⟩
    · rcases held_set isSecond with
        ⟨secondIs, -⟩ | ⟨secondOther, secondHeld⟩
      · rw [firstIs, secondIs]
      · cases firstKey
        exact absurd secondHeld (unheld second secondOther)
    · rcases held_set isSecond with
        ⟨-, secondKey⟩ | ⟨-, secondHeld⟩
      · cases secondKey
        exact absurd firstHeld (unheld first firstOther)
      · exact exclusive.single first second wanted firstHeld secondHeld
  · intro wanted other isHeld
    rcases held_set isHeld with ⟨-, isKey⟩ | ⟨-, stillHeld⟩
    · cases isKey
      exact unstored
    · exact exclusive.apart wanted other stillHeld

/-- A task keeps its key. -/
theorem keep
    (exclusive : Exclusive stored held) {index : Nat} {key : Key}
    (isHeld : held[index]? = some (some key)) :
    Exclusive stored (held.set index (some key)) :=
  exclusive.acquire (exclusive.apart index key isHeld)
    fun other different otherHeld =>
      different (exclusive.single other index key otherHeld isHeld)

/-- A task gives up its key, if it has one. -/
theorem release (exclusive : Exclusive stored held) (index : Nat) :
    Exclusive stored (held.set index none) := by
  refine ⟨exclusive.once, ?_, ?_⟩
  · intro first second key isFirst isSecond
    rcases held_set isFirst with ⟨-, nothing⟩ | ⟨-, firstHeld⟩
    · cases nothing
    rcases held_set isSecond with ⟨-, nothing⟩ | ⟨-, secondHeld⟩
    · cases nothing
    exact exclusive.single first second key firstHeld secondHeld
  · intro wanted key isHeld
    rcases held_set isHeld with ⟨-, nothing⟩ | ⟨-, stillHeld⟩
    · cases nothing
    · exact exclusive.apart wanted key stillHeld

/-- A task stores its key. -/
theorem store
    (exclusive : Exclusive stored held) {index : Nat} {key : Key}
    (isHeld : held[index]? = some (some key)) :
    Exclusive (stored ++ [key]) (held.set index none) := by
  have released := exclusive.release index
  refine ⟨?_, released.single, ?_⟩
  · refine List.nodup_append.mpr
      ⟨exclusive.once, List.nodup_singleton key, ?_⟩
    intro old oldMember new newMember equal
    rw [List.mem_singleton] at newMember
    subst newMember
    subst equal
    exact exclusive.apart index old isHeld oldMember
  · intro wanted other stillHeld member
    rcases List.mem_append.mp member with old | new
    · exact released.apart wanted other stillHeld old
    · rw [List.mem_singleton] at new
      subst new
      rcases held_set stillHeld with ⟨-, nothing⟩ | ⟨different, earlier⟩
      · cases nothing
      · exact different
          (exclusive.single wanted index other earlier isHeld)

end Exclusive

end Keys

end NomadiCore.Library.InterleavedPool
