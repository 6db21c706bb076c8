import NomadiCore.Library.DescendingSwaps
import Mathlib.Data.List.FinRange
import Mathlib.Data.List.OfFn

/-!
# The shuffle helper

`fisher_yates_shuffle` forgets the keys of an array and swaps its items from
the last one down.  What `mt_rand(0, $i)` returns for each `$i` is given by
the seed and taken here as an arbitrary sequence of draws.
-/

namespace NomadiCore.Shuffle

open Equiv
open NomadiCore.Library.DescendingSwaps

variable {Item : Type}

/-- A key of an array: a number or a text. -/
inductive ArrayKey where
  | index (position : Int)
  | name (text : String)
deriving Repr, DecidableEq

/--
`array_values`: the items in order.  Their new keys are their positions, so
from here on the array is the list of its items.
-/
def arrayValues (items : List (ArrayKey × Item)) : List Item :=
  items.map Prod.snd

/-- The three assignments through `$tmp`. -/
def exchange (items : List Item) (i j : Nat) : List Item :=
  match items[i]?, items[j]? with
  | some tmp, some other => (items.set i other).set j tmp
  | _, _ => items

/-- `for ($i = …; $i > 0; $i--)`, where `draw i` is `mt_rand(0, $i)`. -/
def shuffleLoop (draw : Nat → Nat) : Nat → List Item → List Item
  | 0, items => items
  | i + 1, items => shuffleLoop draw i (exchange items (i + 1) (draw (i + 1)))

/-- `fisher_yates_shuffle`. -/
def fisherYatesShuffle
    (items : List (ArrayKey × Item)) (draw : Nat → Nat) : List Item :=
  shuffleLoop draw ((arrayValues items).length - 1) (arrayValues items)

/-- Exchanging two items composes the array with a swap of its positions. -/
theorem exchange_ofFn
    {count : Nat} (items : Fin count → Item) (i j : Fin count) :
    exchange (List.ofFn items) i.val j.val =
      List.ofFn (items ∘ swap i j) := by
  apply List.ext_getElem
  · simp [exchange]
  · intro position inside _
    have below : position < count := by
      simpa [exchange] using inside
    simp only [exchange, List.length_ofFn, i.isLt, j.isLt,
      List.getElem?_eq_getElem, List.getElem_ofFn, Function.comp_apply,
      List.getElem_set]
    by_cases atJ : j.val = position
    · have isJ : (⟨position, below⟩ : Fin count) = j := Fin.ext atJ.symm
      simp [atJ, isJ]
    · by_cases atI : i.val = position
      · have isI : (⟨position, below⟩ : Fin count) = i := Fin.ext atI.symm
        simp [atJ, atI, isI]
      · have notI : (⟨position, below⟩ : Fin count) ≠ i :=
          fun same => atI (congrArg Fin.val same).symm
        have notJ : (⟨position, below⟩ : Fin count) ≠ j :=
          fun same => atJ (congrArg Fin.val same).symm
        simp [atJ, atI, swap_apply_of_ne_of_ne notI notJ]

/-- The loop composes the array with the permutation its draws make. -/
theorem shuffleLoop_ofFn
    {count : Nat} (draws : Draws count)
    {steps : Nat} (inside : steps ≤ count - 1) (items : Fin count → Item) :
    shuffleLoop draws.drawAt steps (List.ofFn items) =
      List.ofFn (items ∘ arrangeFrom draws steps inside) := by
  induction steps generalizing items with
  | zero => rfl
  | succ steps inductionHypothesis =>
      have low := draws.drawAt_le steps
      have exchanged :=
        exchange_ofFn items ⟨steps + 1, by omega⟩
          ⟨draws.drawAt (steps + 1), by omega⟩
      simp only at exchanged
      rw [shuffleLoop, exchanged,
        inductionHypothesis (by omega)]
      rfl

theorem arrayValues_eq_ofFn (items : List (ArrayKey × Item)) :
    arrayValues items = List.ofFn (fun place => (items.get place).2) := by
  apply List.ext_getElem <;> simp [arrayValues]

/-- The shuffled array holds at each position the item its image names. -/
theorem fisherYatesShuffle_eq
    (items : List (ArrayKey × Item)) (draws : Draws items.length) :
    fisherYatesShuffle items draws.drawAt =
      List.ofFn (fun position =>
        (items.get (arrangement draws position)).2) := by
  have shuffled :=
    shuffleLoop_ofFn draws le_rfl (fun place => (items.get place).2)
  rw [fisherYatesShuffle, arrayValues_eq_ofFn, List.length_ofFn]
  exact shuffled

/--
The shuffle is an unbiased permutation.  Whatever is drawn, the result is a
rearrangement of the items, and position by position it is the arrangement
of the draws; every arrangement of the positions belongs to exactly one
sequence of draws.
-/
theorem fisherYatesShuffle_unbiased (items : List (ArrayKey × Item)) :
    (∀ draws : Draws items.length,
      (fisherYatesShuffle items draws.drawAt).Perm (arrayValues items) ∧
        ∀ position : Fin items.length,
          (fisherYatesShuffle items draws.drawAt)[position.val]? =
            some (items.get (arrangement draws position)).2) ∧
      Function.Bijective
        (arrangement : Draws items.length → Perm (Fin items.length)) := by
  constructor
  · intro draws
    constructor
    · rw [fisherYatesShuffle_eq, arrayValues_eq_ofFn]
      exact Equiv.Perm.ofFn_comp_perm (arrangement draws)
        (fun place => (items.get place).2)
    · intro position
      rw [fisherYatesShuffle_eq]
      simp
  · exact arrangement_bijective

end NomadiCore.Shuffle
