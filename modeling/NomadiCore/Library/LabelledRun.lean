import Mathlib.Tactic.Basic

/-!
# Labelled runs

A system is given by a partial step function.  `Reaches` collects the states
of all finite runs in which every step meets a condition on the state it is
taken in, together with the history of the run, newest label first.
-/

namespace NomadiCore.Library.LabelledRun

variable {State Label : Type}

/--
States reached from `initial`, with the history that leads to them.

Every step of the run is enabled and meets the condition `meets`.
-/
inductive Reaches
    (step : State → Label → Option State)
    (meets : State → Label → Prop)
    (initial : State) :
    List Label → State → Prop where
  | start : Reaches step meets initial [] initial
  | next
      {history : List Label} {state target : State} {label : Label}
      (earlier : Reaches step meets initial history state)
      (condition : meets state label)
      (moved : step state label = some target) :
      Reaches step meets initial (label :: history) target

/-- The condition met by every step. -/
def Anything (_ : State) (_ : Label) : Prop := True

namespace Reaches

variable
    {step : State → Label → Option State}
    {meets : State → Label → Prop}
    {initial : State}

/-- A property of the initial state kept by every step holds throughout. -/
theorem invariant
    {property : State → Prop}
    (initially : property initial)
    (kept : ∀ {state target label},
      property state → meets state label →
        step state label = some target → property target)
    {history : List Label} {state : State}
    (run : Reaches step meets initial history state) :
    property state := by
  induction run with
  | start => exact initially
  | next earlier condition moved induction =>
      exact kept induction condition moved

end Reaches

/-! ## Replaying a schedule -/

/-- Execute a list of labels, oldest first. -/
def replay (step : State → Label → Option State) :
    State → List Label → Option State
  | state, [] => some state
  | state, label :: rest =>
      (step state label).bind fun target => replay step target rest

/-- Replaying a schedule after a run continues the run. -/
theorem Reaches.replay
    {step : State → Label → Option State}
    {initial : State}
    {history : List Label} {state target : State}
    {schedule : List Label}
    (run : Reaches step Anything initial history state)
    (replayed :
      LabelledRun.replay step state schedule = some target) :
    Reaches step Anything initial
      (schedule.reverse ++ history) target := by
  induction schedule generalizing history state with
  | nil =>
      have equal : state = target := by
        simpa [LabelledRun.replay] using replayed
      subst target
      exact run
  | cons label rest induction =>
      simp only [LabelledRun.replay, Option.bind_eq_some_iff] at replayed
      obtain ⟨middle, moved, remaining⟩ := replayed
      simpa using induction (.next run trivial moved) remaining

/-- A schedule that can be replayed is a run. -/
theorem Reaches.of_replay
    {step : State → Label → Option State}
    {initial target : State} {schedule : List Label}
    (replayed :
      LabelledRun.replay step initial schedule = some target) :
    Reaches step Anything initial schedule.reverse target := by
  have run := Reaches.start.replay replayed
  rwa [List.append_nil] at run

/-! ## Runs seen through another system -/

/-- A view that takes steps to steps takes runs to runs. -/
theorem Reaches.image
    {Other : Type}
    {step : State → Label → Option State} {meets : State → Label → Prop}
    {otherStep : Other → Label → Option Other}
    {otherMeets : Other → Label → Prop}
    (view : State → Other)
    (moves : ∀ {state target label}, meets state label →
      step state label = some target →
        otherMeets (view state) label ∧
          otherStep (view state) label = some (view target))
    {initial state : State} {history : List Label}
    (run : Reaches step meets initial history state) :
    Reaches otherStep otherMeets (view initial) history (view state) := by
  induction run with
  | start => exact .start
  | next earlier condition moved induction =>
      obtain ⟨met, stepped⟩ := moves condition moved
      exact .next induction met stepped

/-- The step, where a check allows it. -/
def guarded
    (step : State → Label → Option State) (allowed : State → Label → Bool)
    (state : State) (label : Label) : Option State :=
  if allowed state label then step state label else none

theorem guarded_eq_some
    {step : State → Label → Option State} {allowed : State → Label → Bool}
    {state target : State} {label : Label} :
    guarded step allowed state label = some target ↔
      allowed state label = true ∧ step state label = some target := by
  unfold guarded
  split
  · rename_i checked
    exact (and_iff_right checked).symm
  · rename_i refused
    exact iff_of_false nofun fun both => refused both.1

/-- A run of checked steps meets what the check is enough for. -/
theorem Reaches.of_guarded
    {step : State → Label → Option State}
    {allowed : State → Label → Bool} {meets : State → Label → Prop}
    (enough : ∀ {state label}, allowed state label = true →
      meets state label)
    {initial state : State} {history : List Label}
    (run : Reaches (guarded step allowed) Anything initial history state) :
    Reaches step meets initial history state :=
  run.image id fun _ moved =>
    have checked := guarded_eq_some.mp moved
    ⟨enough checked.1, checked.2⟩

end NomadiCore.Library.LabelledRun
