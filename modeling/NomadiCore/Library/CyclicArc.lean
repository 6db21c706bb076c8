import Mathlib.Tactic.Basic

/-!
# Arcs of a cycle

The points of a cycle are the integers up to multiples of its period.  An arc
is given by the point it starts at and its length, and is half open.
-/

namespace NomadiCore.Library.CyclicArc

/-- The point lies on the arc of this length that starts at `start`. -/
def OnArc (period start length point : Int) : Prop :=
  (point - start) % period < length

instance (period start length point : Int) :
    Decidable (OnArc period start length point) :=
  inferInstanceAs (Decidable ((point - start) % period < length))

/--
A point is on an arc if it lies between the ends of the arc, or does so one
turn later.
-/
theorem onArc_iff
    {period start length point : Int}
    (startInTurn : 0 ≤ start ∧ start < period)
    (pointInTurn : 0 ≤ point ∧ point < period)
    (atMostOneTurn : length ≤ period) :
    OnArc period start length point ↔
      (start ≤ point ∧ point < start + length) ∨
        point + period < start + length := by
  unfold OnArc
  by_cases later : start ≤ point
  · have distance : (point - start) % period = point - start :=
      Int.emod_eq_of_lt (by omega) (by omega)
    rw [distance]
    constructor
    · intro near
      exact Or.inl ⟨later, by omega⟩
    · rintro (⟨_, before⟩ | wrapped)
      · omega
      · omega
  · have distance : (point - start) % period = point - start + period := by
      rw [← Int.add_emod_right]
      exact Int.emod_eq_of_lt (by omega) (by omega)
    rw [distance]
    constructor
    · intro near
      exact Or.inr (by omega)
    · rintro (⟨after, _⟩ | wrapped)
      · exact absurd after later
      · omega

end NomadiCore.Library.CyclicArc
