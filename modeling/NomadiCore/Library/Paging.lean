import Mathlib.Data.List.Basic

/-!
# Pages of a list

A list is shown in pages of one size, numbered from one.
-/

namespace NomadiCore.Library.Paging

variable {Item : Type}

/-- The items of a page. -/
def forPage (items : List Item) (page size : Nat) : List Item :=
  (items.drop ((page - 1) * size)).take size

/-- The number of pages that are needed. -/
def pageCount (count size : Nat) : Nat := (count + size - 1) / size

theorem le_pageCount_mul {size : Nat} (positive : 0 < size) (count : Nat) :
    count ≤ pageCount count size * size := by
  have remainder := Nat.mod_lt (count + size - 1) positive
  have division := Nat.div_add_mod (count + size - 1) size
  rw [pageCount, Nat.mul_comm]
  omega

theorem pageCount_mul_lt {size : Nat} (positive : 0 < size) {count : Nat}
    {page : Nat} (inside : page < pageCount count size) :
    page * size < count := by
  have next : (page + 1) * size ≤ count + size - 1 :=
    (Nat.le_div_iff_mul_le positive).mp inside
  rw [Nat.succ_mul] at next
  omega

/-- The first pages hold the first items. -/
theorem flatMap_forPage_take (items : List Item) (size count : Nat) :
    (List.range count).flatMap (fun index => forPage items (index + 1) size) =
      items.take (count * size) := by
  induction count with
  | zero => simp
  | succ count inductionHypothesis =>
      rw [List.range_succ, List.flatMap_append, inductionHypothesis,
        Nat.succ_mul, List.take_add]
      simp [forPage]

/-- All pages together are the list. -/
theorem flatMap_forPage {size : Nat} (positive : 0 < size)
    (items : List Item) :
    (List.range (pageCount items.length size)).flatMap
        (fun index => forPage items (index + 1) size) =
      items := by
  rw [flatMap_forPage_take]
  exact List.take_of_length_le (le_pageCount_mul positive items.length)

/-- A page is empty if it comes after the last one. -/
theorem forPage_eq_nil_iff {size : Nat} (positive : 0 < size)
    {items : List Item} {index : Nat} :
    forPage items (index + 1) size = [] ↔
      pageCount items.length size ≤ index := by
  simp only [forPage, Nat.add_sub_cancel, ← List.length_eq_zero_iff,
    List.length_take, List.length_drop]
  constructor
  · intro empty
    by_contra inside
    have start := pageCount_mul_lt positive (Nat.lt_of_not_le inside)
    omega
  · intro past
    have all := le_pageCount_mul positive items.length
    have scaled := Nat.mul_le_mul_right size past
    omega

end NomadiCore.Library.Paging
