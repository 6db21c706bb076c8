import Mathlib.Logic.Basic
import Mathlib.Tactic.Common

/-!
# Readers of a buffer that fills piece by piece

A reader takes its input from a buffer to which a stream is appended in
pieces.  One step of it may take something off the front of the buffer and
change the state; when no step is possible the reader waits for the next piece.
A step that was possible stays possible, with the same result, when more input
follows.  So the state depends on the stream and not on how it was cut.
-/

namespace NomadiCore.Library

/-- A reader of symbols, with what makes its steps come to an end. -/
structure BufferedReader (State Symbol : Type*) where
  next : State → List Symbol → Option (State × List Symbol)
  weight : State → List Symbol → Nat
  lighter : ∀ {state buffer after left},
    next state buffer = some (after, left) →
      weight after left < weight state buffer
  stable : ∀ {state buffer after left} (more : List Symbol),
    next state buffer = some (after, left) →
      next state (buffer ++ more) = some (after, left ++ more)

namespace BufferedReader

variable {State Symbol : Type*} (reader : BufferedReader State Symbol)

/-- Steps are made until none is possible. -/
def settle (state : State) (buffer : List Symbol) : State × List Symbol :=
  match _ : reader.next state buffer with
  | none => (state, buffer)
  | some (after, left) => settle after left
termination_by reader.weight state buffer
decreasing_by
  rename_i step
  exact reader.lighter step

theorem settle_of_none {state : State} {buffer : List Symbol}
    (waits : reader.next state buffer = none) :
    reader.settle state buffer = (state, buffer) := by
  rw [settle]
  split
  next => rfl
  next step => simp [waits] at step

theorem settle_of_some {state after : State} {buffer left : List Symbol}
    (step : reader.next state buffer = some (after, left)) :
    reader.settle state buffer = reader.settle after left := by
  rw [settle]
  split
  next waits => simp [step] at waits
  next after' left' step' =>
    rw [step, Option.some.injEq, Prod.mk.injEq] at step'
    obtain ⟨rfl, rfl⟩ := step'
    rfl

/-- What every step keeps holds when the reader waits. -/
theorem settle_induction {motive : State → List Symbol → Prop}
    (keeps : ∀ {state buffer after left}, motive state buffer →
      reader.next state buffer = some (after, left) → motive after left)
    {state : State} {buffer : List Symbol} (holds : motive state buffer) :
    motive (reader.settle state buffer).1
      (reader.settle state buffer).2 := by
  cases step : reader.next state buffer with
  | none =>
      rw [reader.settle_of_none step]
      exact holds
  | some result =>
      obtain ⟨after, left⟩ := result
      have lighter := reader.lighter step
      rw [reader.settle_of_some step]
      exact settle_induction keeps (keeps holds step)
termination_by reader.weight state buffer

theorem next_settle (state : State) (buffer : List Symbol) :
    reader.next (reader.settle state buffer).1
      (reader.settle state buffer).2 = none := by
  cases step : reader.next state buffer with
  | none => rw [reader.settle_of_none step, step]
  | some result =>
      obtain ⟨after, left⟩ := result
      have lighter := reader.lighter step
      rw [reader.settle_of_some step]
      exact next_settle after left
termination_by reader.weight state buffer

/-- The reader may settle before the rest of the stream arrives. -/
theorem settle_append (state : State) (buffer more : List Symbol) :
    reader.settle state (buffer ++ more) =
      reader.settle (reader.settle state buffer).1
        ((reader.settle state buffer).2 ++ more) := by
  cases step : reader.next state buffer with
  | none => rw [reader.settle_of_none step]
  | some result =>
      obtain ⟨after, left⟩ := result
      have lighter := reader.lighter step
      rw [reader.settle_of_some step,
        reader.settle_of_some (reader.stable more step)]
      exact settle_append after left more
termination_by reader.weight state buffer

end BufferedReader

end NomadiCore.Library
