import Mathlib.Tactic.Basic

/-!
# Processes of atomic statements

A process reads and writes a shared state in atomic statements.  It may stop
early with a failure, and a failure keeps every write made before it: there
is no transaction.  The same process can be run alone (`Process.run`) or one
statement at a time between the statements of other processes.
-/

namespace NomadiCore.Library.StatementProcess

/--
A process over a shared state.

A `statement` writes the state and continues with `next`, which is applied to
the state the statement was executed in.
-/
inductive Process (State Failure Value : Type) where
  | done (value : Value)
  | raised (failure : Failure)
  | statement
      (write : State → State)
      (next : State → Process State Failure Value)

namespace Process

variable {State Failure Value Result : Type}

/-- Sequential composition; a failure skips the rest. -/
def bind :
    Process State Failure Value →
      (Value → Process State Failure Result) →
        Process State Failure Result
  | .done value, rest => rest value
  | .raised failure, _ => .raised failure
  | .statement write next, rest =>
      .statement write fun state => (next state).bind rest

instance : Monad (Process State Failure) where
  pure := .done
  bind := bind

/-- Continue with the value, or stop with the failure. -/
def ofExcept : Except Failure Value → Process State Failure Value
  | .ok value => .done value
  | .error failure => .raised failure

/-- Continue with the value of an option, or stop with the given failure. -/
def require (failure : Failure) :
    Option Value → Process State Failure Value
  | some value => .done value
  | none => .raised failure

/-- One statement that only reads. -/
def query (read : State → Value) : Process State Failure Value :=
  .statement id fun state => .done (read state)

/-- One statement that only writes. -/
def execute (write : State → State) : Process State Failure Unit :=
  .statement write fun _ => .done ()

/-- One statement that writes and answers, possibly with a failure. -/
def perform
    (effect : State → Except Failure Value × State) :
    Process State Failure Value :=
  .statement
    (fun state => (effect state).2)
    (fun state => ofExcept (effect state).1)

/-- Run a process alone: its outcome and the state it leaves. -/
def run :
    Process State Failure Value → State → Except Failure Value × State
  | .done value, state => (.ok value, state)
  | .raised failure, state => (.error failure, state)
  | .statement write next, state => (next state).run (write state)

/-- The state a process leaves when it runs alone. -/
def final (process : Process State Failure Value) (state : State) : State :=
  (process.run state).2

/-- The state left by a process that is cut off after `count` statements. -/
def stopAfter :
    Nat → Process State Failure Value → State → State
  | 0, _, state => state
  | _ + 1, .done _, state => state
  | _ + 1, .raised _, state => state
  | count + 1, .statement write next, state =>
      (next state).stopAfter count (write state)

/-! ## Running alone -/

@[simp]
theorem run_done (value : Value) (state : State) :
    (done value : Process State Failure Value).run state =
      (.ok value, state) := rfl

@[simp]
theorem run_raised (failure : Failure) (state : State) :
    (raised failure : Process State Failure Value).run state =
      (.error failure, state) := rfl

@[simp]
theorem run_pure (value : Value) (state : State) :
    (pure value : Process State Failure Value).run state =
      (.ok value, state) := rfl

@[simp]
theorem run_query (read : State → Value) (state : State) :
    (query read : Process State Failure Value).run state =
      (.ok (read state), state) := rfl

@[simp]
theorem run_execute (write : State → State) (state : State) :
    (execute write : Process State Failure Unit).run state =
      (.ok (), write state) := rfl

@[simp]
theorem run_ofExcept
    (outcome : Except Failure Value) (state : State) :
    (ofExcept outcome : Process State Failure Value).run state =
      (outcome, state) := by
  cases outcome <;> rfl

@[simp]
theorem run_perform
    (effect : State → Except Failure Value × State) (state : State) :
    (perform effect).run state = effect state := by
  simp [perform, run]

@[simp]
theorem run_require_some
    (failure : Failure) (value : Value) (state : State) :
    (require failure (some value) :
        Process State Failure Value).run state =
      (.ok value, state) := rfl

@[simp]
theorem run_require_none (failure : Failure) (state : State) :
    (require failure none : Process State Failure Value).run state =
      (.error failure, state) := rfl

/-- A composed process runs its first part, then the rest if it is done. -/
@[simp]
theorem run_bind
    (process : Process State Failure Value)
    (rest : Value → Process State Failure Result)
    (state : State) :
    (process >>= rest).run state =
      match process.run state with
      | (.ok value, after) => (rest value).run after
      | (.error failure, after) => (.error failure, after) := by
  induction process generalizing state with
  | done value => rfl
  | raised failure => rfl
  | statement write next induction =>
      exact induction state (write state)

/-- A composed process that is done was done with both of its parts. -/
theorem run_bind_eq_ok
    {process : Process State Failure Value}
    {rest : Value → Process State Failure Result}
    {state after : State} {result : Result}
    (ran : (process >>= rest).run state = (.ok result, after)) :
    ∃ value middle,
      process.run state = (.ok value, middle) ∧
        (rest value).run middle = (.ok result, after) := by
  rw [run_bind] at ran
  cases first : process.run state with
  | mk outcome middle =>
      rw [first] at ran
      cases outcome with
      | ok value => exact ⟨value, middle, rfl, ran⟩
      | error failure => cases ran

theorem run_require_eq_ok
    {failure : Failure} {found : Option Value} {state after : State}
    {value : Value}
    (ran : (require failure found : Process State Failure Value).run
      state = (.ok value, after)) :
    found = some value ∧ after = state := by
  cases found with
  | none => cases ran
  | some value =>
      cases ran
      exact ⟨rfl, rfl⟩

/-- What only computes an answer leaves the state. -/
theorem final_bind_pure
    (process : Process State Failure Value)
    (answer : Value → Result) (state : State) :
    (process >>= fun value => pure (answer value)).final state =
      process.final state := by
  simp only [final, run_bind]
  split
  · rename_i value after ran
    simp [ran]
  · rename_i failure after ran
    simp [ran]

/-! ## Statement-wise relations -/

/-- Every statement of the process, in every state, moves along `relation`. -/
def Within (relation : State → State → Prop) :
    Process State Failure Value → Prop
  | .done _ => True
  | .raised _ => True
  | .statement write next =>
      ∀ state, relation state (write state) ∧ (next state).Within relation

namespace Within

variable {relation : State → State → Prop}

theorem pure (value : Value) :
    (Pure.pure value : Process State Failure Value).Within relation :=
  trivial

theorem ofExcept (outcome : Except Failure Value) :
    (Process.ofExcept outcome :
      Process State Failure Value).Within relation := by
  cases outcome with
  | ok value => exact trivial
  | error failure => exact trivial

theorem require (failure : Failure) (value : Option Value) :
    (Process.require failure value :
      Process State Failure Value).Within relation := by
  cases value with
  | none => exact trivial
  | some value => exact trivial

theorem query
    (reflexive : ∀ state, relation state state) (read : State → Value) :
    (Process.query read : Process State Failure Value).Within relation :=
  fun state => ⟨reflexive state, trivial⟩

theorem execute
    {write : State → State} (along : ∀ state, relation state (write state)) :
    (Process.execute write :
      Process State Failure Unit).Within relation :=
  fun state => ⟨along state, trivial⟩

theorem perform
    {effect : State → Except Failure Value × State}
    (along : ∀ state, relation state (effect state).2) :
    (Process.perform effect).Within relation :=
  fun state => ⟨along state, ofExcept _⟩

theorem bind
    {process : Process State Failure Value}
    {rest : Value → Process State Failure Result}
    (within : process.Within relation)
    (later : ∀ value, (rest value).Within relation) :
    (process >>= rest).Within relation := by
  induction process with
  | done value => exact later value
  | raised failure => exact trivial
  | statement write next induction =>
      exact fun state =>
        ⟨(within state).1, induction state (within state).2⟩

theorem imp
    {weaker : State → State → Prop}
    (implied : ∀ {before after}, relation before after → weaker before after)
    {process : Process State Failure Value}
    (within : process.Within relation) :
    process.Within weaker := by
  induction process with
  | done value => exact trivial
  | raised failure => exact trivial
  | statement write next induction =>
      exact fun state =>
        ⟨implied (within state).1, induction state (within state).2⟩

end Within

/-- A process whose statements move along a preorder moves along it. -/
theorem Within.run
    {relation : State → State → Prop}
    (reflexive : ∀ state, relation state state)
    (transitive : ∀ {first second third},
      relation first second → relation second third →
        relation first third)
    {process : Process State Failure Value}
    (within : process.Within relation)
    (state : State) :
    relation state (process.final state) := by
  induction process generalizing state with
  | done value => exact reflexive state
  | raised failure => exact reflexive state
  | statement write next induction =>
      exact transitive (within state).1
        (induction state (within state).2 (write state))

/-- What is cut off also moves along the preorder. -/
theorem Within.stopAfter
    {relation : State → State → Prop}
    (reflexive : ∀ state, relation state state)
    (transitive : ∀ {first second third},
      relation first second → relation second third →
        relation first third)
    {process : Process State Failure Value}
    (within : process.Within relation)
    (count : Nat) (state : State) :
    relation state (process.stopAfter count state) := by
  induction count generalizing process state with
  | zero => exact reflexive state
  | succ count induction =>
      cases process with
      | done value => exact reflexive state
      | raised failure => exact reflexive state
      | statement write next =>
          exact transitive (within state).1
            (induction (within state).2 (write state))

/-- A process that is given enough statements runs to its end. -/
theorem exists_stopAfter_eq_final
    (process : Process State Failure Value) (state : State) :
    ∃ enough, ∀ count, enough ≤ count →
      process.stopAfter count state = process.final state := by
  induction process generalizing state with
  | done value =>
      refine ⟨0, fun count _ => ?_⟩
      cases count <;> rfl
  | raised failure =>
      refine ⟨0, fun count _ => ?_⟩
      cases count <;> rfl
  | statement write next induction =>
      obtain ⟨enough, ends⟩ := induction state (write state)
      refine ⟨enough + 1, fun count bound => ?_⟩
      cases count with
      | zero => omega
      | succ count => exact ends count (by omega)

end Process

end NomadiCore.Library.StatementProcess
