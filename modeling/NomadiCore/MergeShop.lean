import NomadiCore.Library.RowTable
import NomadiCore.VerifyNewCafe

/-!
# Merging shops

`MergeShop::handle` moves five kinds of rows from a duplicate shop to a
target, row by row, and marks the duplicate.  Each kind is a table whose rows
name a shop in `cafe_id` and a user; what else a row holds is not looked at.
-/

namespace NomadiCore.MergeShop

open NomadiCore.Library.RowTable
open NomadiCore.VerifyNewCafe

def duplicateStatus : Int := -30

/-- A row that belongs to a shop. -/
structure Belonging (Content : Type) where
  cafeId : String
  userId : Nat
  content : Content
deriving DecidableEq

structure Shops (Review Comment Photo : Type) where
  cafes : Cafes
  wishes : Table (Belonging Unit)
  recommendations : Table (Belonging Unit)
  reviews : Table (Belonging Review)
  comments : Table (Belonging Comment)
  photos : Table (Belonging Photo)

variable {Content Review Comment Photo : Type}

/-! ## The merge -/

/-- A relation of a shop: its rows in a table. -/
def rowsOf (table : Table (Belonging Content)) (cafeId : String) :
    List (Entry (Belonging Content)) :=
  table.select fun entry => entry.row.cafeId = cafeId

/-- `$row->cafe_id = $target->id`. -/
def Belonging.relink (targetId : String) (row : Belonging Content) :
    Belonging Content :=
  { row with cafeId := targetId }

/-- One `foreach` of `handle`: the rows are read first and saved one by one. -/
def moveRows
    (duplicateId targetId : String) (table : Table (Belonging Content)) :
    Table (Belonging Content) :=
  (rowsOf table duplicateId).foldl
    (fun table entry => table.update entry.id (Belonging.relink targetId))
    table

/-- `MergeShop::handle`. -/
def handle
    (duplicate target : Cafe) (shops : Shops Review Comment Photo) :
    Shops Review Comment Photo where
  wishes := moveRows duplicate.id target.id shops.wishes
  recommendations := moveRows duplicate.id target.id shops.recommendations
  reviews := moveRows duplicate.id target.id shops.reviews
  comments := moveRows duplicate.id target.id shops.comments
  photos := moveRows duplicate.id target.id shops.photos
  cafes := save shops.cafes { duplicate with status := duplicateStatus }

/-! ## What a merge should do -/

/-- The user has a row on the shop. -/
def Has (table : Table (Belonging Content)) (cafeId : String)
    (userId : Nat) : Prop :=
  ∃ entry ∈ rowsOf table cafeId, entry.row.userId = userId

/-- How many rows a user has on a shop. -/
def countOf (table : Table (Belonging Content)) (cafeId : String)
    (userId : Nat) : Nat :=
  table.entries.countP fun entry =>
    entry.row.cafeId = cafeId ∧ entry.row.userId = userId

/-- Each user has at most one row on the shop. -/
def OneEach (table : Table (Belonging Content)) (cafeId : String) : Prop :=
  ∀ userId, countOf table cafeId userId ≤ 1

/-- The rows that were on either shop, on the target. -/
def joined
    (table : Table (Belonging Content)) (duplicateId targetId : String) :
    List (Entry (Belonging Content)) :=
  (table.select fun entry =>
      entry.row.cafeId = duplicateId ∨ entry.row.cafeId = targetId).map
    fun entry => { entry with row := entry.row.relink targetId }

/-- The duplicate has no row left and the other shops have theirs. -/
structure Emptied
    (before after : Table (Belonging Content))
    (duplicateId targetId : String) : Prop where
  duplicate : rowsOf after duplicateId = []
  others : ∀ cafeId, cafeId ≠ duplicateId → cafeId ≠ targetId →
    rowsOf after cafeId = rowsOf before cafeId

/-- A table with one row for each user and shop is merged. -/
structure UsersMerged
    (before after : Table (Belonging Content))
    (duplicateId targetId : String) : Prop where
  emptied : Emptied before after duplicateId targetId
  has : ∀ userId,
    Has after targetId userId ↔
      Has before duplicateId userId ∨ Has before targetId userId
  oneEach : OneEach after targetId

/-- A table without such a rule is merged. -/
structure RowsMerged
    (before after : Table (Belonging Content))
    (duplicateId targetId : String) : Prop where
  emptied : Emptied before after duplicateId targetId
  rows : rowsOf after targetId = joined before duplicateId targetId

/-- The merge loses nothing and duplicates nothing. -/
structure Merged
    (before after : Shops Review Comment Photo)
    (duplicate target : Cafe) : Prop where
  wishes :
    UsersMerged before.wishes after.wishes duplicate.id target.id
  recommendations :
    UsersMerged before.recommendations after.recommendations
      duplicate.id target.id
  reviews :
    UsersMerged before.reviews after.reviews duplicate.id target.id
  comments :
    RowsMerged before.comments after.comments duplicate.id target.id
  photos :
    RowsMerged before.photos after.photos duplicate.id target.id
  marked :
    (after.cafes.find duplicate.id).map Cafe.status = some duplicateStatus
  otherCafes : ∀ id, id ≠ duplicate.id →
    after.cafes.find id = before.cafes.find id

/-! ## Moving rows -/

variable {table : Table (Belonging Content)} {duplicateId targetId : String}

/-- Every row of the duplicate is relinked, and no other is touched. -/
theorem moveRows_entries
    (duplicateId targetId : String) (table : Table (Belonging Content)) :
    (moveRows duplicateId targetId table).entries =
      table.entries.map fun entry =>
        if entry.row.cafeId = duplicateId then
          { entry with row := entry.row.relink targetId }
        else entry := by
  rw [moveRows, rowsOf, Table.foldl_update_select]
  simp only [decide_eq_true_eq]

theorem moveRows_emptied (different : duplicateId ≠ targetId) :
    Emptied table (moveRows duplicateId targetId table)
      duplicateId targetId := by
  constructor
  · rw [rowsOf, Table.select, moveRows_entries, List.filter_eq_nil_iff]
    intro entry member
    obtain ⟨before, -, rfl⟩ := List.mem_map.mp member
    by_cases onDuplicate : before.row.cafeId = duplicateId
    · simp [onDuplicate, Belonging.relink, Ne.symm different]
    · simp [onDuplicate]
  · intro cafeId notDuplicate notTarget
    rw [rowsOf, rowsOf, Table.select, Table.select, moveRows_entries]
    induction table.entries with
    | nil => rfl
    | cons entry entries inductionHypothesis =>
        rw [List.map_cons, List.filter_cons, List.filter_cons,
          inductionHypothesis]
        by_cases onDuplicate : entry.row.cafeId = duplicateId
        · simp [onDuplicate, Belonging.relink, Ne.symm notDuplicate,
            Ne.symm notTarget]
        · simp [onDuplicate]

theorem rowsOf_moveRows (different : duplicateId ≠ targetId) :
    rowsOf (moveRows duplicateId targetId table) targetId =
      joined table duplicateId targetId := by
  rw [rowsOf, joined, Table.select, Table.select, moveRows_entries]
  induction table.entries with
  | nil => rfl
  | cons entry entries inductionHypothesis =>
      rw [List.map_cons, List.filter_cons, inductionHypothesis,
        List.filter_cons]
      by_cases onDuplicate : entry.row.cafeId = duplicateId
      · simp [onDuplicate, Belonging.relink]
      · by_cases onTarget : entry.row.cafeId = targetId
        · have relinked : entry.row.relink targetId = entry.row := by
            rw [Belonging.relink, ← onTarget]
          simp [onTarget, Ne.symm different, relinked]
        · simp [onDuplicate, onTarget]

theorem has_iff_countOf (cafeId : String) (userId : Nat) :
    Has table cafeId userId ↔ 0 < countOf table cafeId userId := by
  rw [Has, countOf, List.countP_pos_iff]
  simp [rowsOf, Table.mem_select, and_assoc]

/-- The rows of the two shops add up on the target. -/
theorem countOf_moveRows (different : duplicateId ≠ targetId) (userId : Nat) :
    countOf (moveRows duplicateId targetId table) targetId userId =
      countOf table duplicateId userId + countOf table targetId userId := by
  rw [countOf, moveRows_entries, countOf, countOf]
  induction table.entries with
  | nil => rfl
  | cons entry entries inductionHypothesis =>
      rw [List.map_cons, List.countP_cons, List.countP_cons,
        List.countP_cons, inductionHypothesis]
      by_cases onDuplicate : entry.row.cafeId = duplicateId
      · simp only [onDuplicate, different, Belonging.relink, if_true,
          true_and, false_and, decide_false, Bool.false_eq_true, if_false]
        omega
      · simp only [onDuplicate, if_false, false_and, decide_false,
          Bool.false_eq_true]
        omega

theorem has_moveRows (different : duplicateId ≠ targetId) (userId : Nat) :
    Has (moveRows duplicateId targetId table) targetId userId ↔
      Has table duplicateId userId ∨ Has table targetId userId := by
  rw [has_iff_countOf, has_iff_countOf, has_iff_countOf,
    countOf_moveRows different]
  omega

/-- No user has a row on both shops. -/
def NoneOnBoth
    (table : Table (Belonging Content)) (duplicateId targetId : String) :
    Prop :=
  ∀ userId, ¬ (Has table duplicateId userId ∧ Has table targetId userId)

/-- The rule of one row each survives exactly when no user is on both. -/
theorem oneEach_moveRows_iff
    (different : duplicateId ≠ targetId)
    (onDuplicate : OneEach table duplicateId)
    (onTarget : OneEach table targetId) :
    OneEach (moveRows duplicateId targetId table) targetId ↔
      NoneOnBoth table duplicateId targetId := by
  constructor
  · intro oneEach userId both
    have counted := oneEach userId
    rw [countOf_moveRows different] at counted
    rw [has_iff_countOf, has_iff_countOf] at both
    omega
  · intro noneOnBoth userId
    have notBoth := noneOnBoth userId
    rw [has_iff_countOf, has_iff_countOf] at notBoth
    have first := onDuplicate userId
    have second := onTarget userId
    rw [countOf_moveRows different]
    omega

theorem usersMerged_moveRows_iff
    (different : duplicateId ≠ targetId)
    (oneEach : ∀ cafeId, OneEach table cafeId) :
    UsersMerged table (moveRows duplicateId targetId table)
        duplicateId targetId ↔
      NoneOnBoth table duplicateId targetId := by
  rw [← oneEach_moveRows_iff different (oneEach _) (oneEach _)]
  constructor
  · intro merged
    exact merged.oneEach
  · intro kept
    exact ⟨moveRows_emptied different, has_moveRows different, kept⟩

theorem rowsMerged_moveRows (different : duplicateId ≠ targetId) :
    RowsMerged table (moveRows duplicateId targetId table)
      duplicateId targetId :=
  ⟨moveRows_emptied different, rowsOf_moveRows different⟩

/--
A merge of two shops does what it should if and only if no user has a wish, a
recommendation or a review on both of them.
-/
theorem merged_handle_iff
    (shops : Shops Review Comment Photo) (duplicate target : Cafe)
    (different : duplicate.id ≠ target.id)
    (stored : shops.cafes.find duplicate.id = some duplicate)
    (wishes : ∀ cafeId, OneEach shops.wishes cafeId)
    (recommendations : ∀ cafeId, OneEach shops.recommendations cafeId)
    (reviews : ∀ cafeId, OneEach shops.reviews cafeId) :
    Merged shops (handle duplicate target shops) duplicate target ↔
      NoneOnBoth shops.wishes duplicate.id target.id ∧
        NoneOnBoth shops.recommendations duplicate.id target.id ∧
        NoneOnBoth shops.reviews duplicate.id target.id := by
  rw [← usersMerged_moveRows_iff different wishes,
    ← usersMerged_moveRows_iff different recommendations,
    ← usersMerged_moveRows_iff different reviews]
  constructor
  · intro merged
    exact ⟨merged.wishes, merged.recommendations, merged.reviews⟩
  · rintro ⟨wishesMerged, recommendationsMerged, reviewsMerged⟩
    refine ⟨wishesMerged, recommendationsMerged, reviewsMerged,
      rowsMerged_moveRows different, rowsMerged_moveRows different, ?_, ?_⟩
    · simp [handle, save, Keyed.find_update, stored]
    · intro id otherId
      rw [handle, save, Keyed.find_update]
      cases found : shops.cafes.find id with
      | none => rfl
      | some row =>
          have rowId := (Keyed.find_eq_some found).2
          simp [rowId, otherId]

/-- A shop on each of which one user has a wish. -/
def wishedBy (first second : Nat) : Shops Unit Unit Unit where
  cafes := ⟨[newCafe "duplicate", newCafe "target"], by decide⟩
  wishes :=
    (Table.empty.insert ⟨"duplicate", first, ()⟩).insert
      ⟨"target", second, ()⟩
  recommendations := Table.empty
  reviews := Table.empty
  comments := Table.empty
  photos := Table.empty

theorem wishedBy_oneEach (first second : Nat) (cafeId : String) :
    OneEach (wishedBy first second).wishes cafeId := by
  intro userId
  simp only [countOf, wishedBy, Table.insert_entries, Table.empty,
    List.nil_append, List.singleton_append, List.countP_cons,
    List.countP_nil]
  by_cases isTarget : "target" = cafeId
  · subst isTarget
    simp only [decide_eq_true_eq]
    split_ifs <;> simp_all
  · simp only [isTarget, false_and, decide_false, Bool.false_eq_true,
      if_false]
    split_ifs <;> omega

theorem empty_oneEach (cafeId : String) :
    OneEach (Table.empty : Table (Belonging Content)) cafeId := by
  intro userId
  simp [countOf, Table.empty]

theorem empty_noneOnBoth (duplicateId targetId : String) :
    NoneOnBoth (Table.empty : Table (Belonging Content))
      duplicateId targetId := by
  rintro userId ⟨⟨entry, member, -⟩, -⟩
  cases member

theorem merged_handle_iff_apart :
    Merged (wishedBy 7 8)
      (handle (newCafe "duplicate") (newCafe "target") (wishedBy 7 8))
      (newCafe "duplicate") (newCafe "target") := by
  refine (merged_handle_iff (wishedBy 7 8) _ _ (by decide) (by decide)
    (wishedBy_oneEach 7 8) empty_oneEach empty_oneEach).mpr
    ⟨?_, empty_noneOnBoth _ _, empty_noneOnBoth _ _⟩
  rintro userId ⟨onDuplicate, onTarget⟩
  rw [has_iff_countOf] at onDuplicate onTarget
  simp [countOf, wishedBy, Table.empty, newCafe, List.countP_cons]
    at onDuplicate onTarget
  split_ifs at onDuplicate onTarget <;> omega

/-- A user with a wish on both shops has two on the target after the merge. -/
theorem merge_doubles_wish :
    (wishedBy 7 7).cafes.find "duplicate" = some (newCafe "duplicate") ∧
      (∀ cafeId, OneEach (wishedBy 7 7).wishes cafeId) ∧
      (∀ cafeId, OneEach (wishedBy 7 7).recommendations cafeId) ∧
      (∀ cafeId, OneEach (wishedBy 7 7).reviews cafeId) ∧
      ¬ Merged (wishedBy 7 7)
        (handle (newCafe "duplicate") (newCafe "target") (wishedBy 7 7))
        (newCafe "duplicate") (newCafe "target") := by
  refine ⟨by decide, wishedBy_oneEach 7 7, empty_oneEach, empty_oneEach, ?_⟩
  intro merged
  have atMostOne := merged.wishes.oneEach 7
  have two :
      countOf (handle (newCafe "duplicate") (newCafe "target")
        (wishedBy 7 7)).wishes "target" 7 = 2 := by
    decide
  rw [show (newCafe "target").id = "target" from rfl, two] at atMostOne
  omega

end NomadiCore.MergeShop
