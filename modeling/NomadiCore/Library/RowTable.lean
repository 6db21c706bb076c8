import Mathlib.Data.List.Basic
import Mathlib.Data.List.Nodup
import Mathlib.Tactic.Common

/-!
# Tables of rows

`Table` is a table with an auto-increment key: its rows are kept in key order
and the next key is above all of them.  `Keyed` is a table whose primary key
is a function of the row.  Both carry their well-formedness, so a duplicate
key cannot be stored.
-/

namespace NomadiCore.Library.RowTable

/-! ## Auto-increment tables -/

/-- A stored row with the key it was given. -/
structure Entry (Row : Type) where
  id : Nat
  row : Row
deriving DecidableEq

/-- A table with an auto-increment key, in key order. -/
structure Table (Row : Type) where
  entries : List (Entry Row)
  next : Nat
  ordered : entries.Pairwise fun first second => first.id < second.id
  fresh : ∀ entry ∈ entries, entry.id < next
deriving DecidableEq

namespace Table

variable {Row : Type}

/-- The empty table; the first key is one. -/
def empty : Table Row where
  entries := []
  next := 1
  ordered := .nil
  fresh := by simp

/-- Store a row under the next key. -/
def insert (table : Table Row) (row : Row) : Table Row where
  entries := table.entries ++ [⟨table.next, row⟩]
  next := table.next + 1
  ordered := by
    rw [List.pairwise_append]
    refine ⟨table.ordered, List.pairwise_singleton _ _, ?_⟩
    intro entry member last lastMember
    rw [List.mem_singleton] at lastMember
    subst last
    exact table.fresh entry member
  fresh := by
    intro entry member
    rcases List.mem_append.mp member with old | new
    · exact Nat.lt_succ_of_lt (table.fresh entry old)
    · rw [List.mem_singleton] at new
      subst entry
      exact Nat.lt_succ_self _

/-- The rows selected by a condition, in key order. -/
def select
    (table : Table Row) (condition : Entry Row → Bool) :
    List (Entry Row) :=
  table.entries.filter condition

/-- The first row that meets a condition. -/
def first
    (table : Table Row) (condition : Entry Row → Bool) :
    Option (Entry Row) :=
  table.entries.find? condition

/-- The row stored under a key. -/
def find (table : Table Row) (id : Nat) : Option (Entry Row) :=
  table.first fun entry => entry.id = id

/-- Rewrite the row stored under a key. -/
def update
    (table : Table Row) (id : Nat) (change : Row → Row) :
    Table Row where
  entries := table.entries.map fun entry =>
    if entry.id = id then { entry with row := change entry.row } else entry
  next := table.next
  ordered := by
    refine List.pairwise_map.mpr (table.ordered.imp ?_)
    intro left right ordered
    split <;> split <;> exact ordered
  fresh := by
    intro entry member
    obtain ⟨old, oldMember, equal⟩ := List.mem_map.mp member
    have bound := table.fresh old oldMember
    subst equal
    split <;> exact bound

/-- Delete the rows that meet a condition. -/
def delete
    (table : Table Row) (condition : Entry Row → Bool) :
    Table Row where
  entries := table.entries.filter fun entry => !condition entry
  next := table.next
  ordered := table.ordered.filter _
  fresh := fun entry member =>
    table.fresh entry (List.mem_of_mem_filter member)

@[simp]
theorem insert_entries (table : Table Row) (row : Row) :
    (table.insert row).entries =
      table.entries ++ [⟨table.next, row⟩] := rfl

@[simp]
theorem insert_next (table : Table Row) (row : Row) :
    (table.insert row).next = table.next + 1 := rfl

theorem mem_insert
    {table : Table Row} {row : Row} {entry : Entry Row} :
    entry ∈ (table.insert row).entries ↔
      entry ∈ table.entries ∨ entry = ⟨table.next, row⟩ := by
  simp

theorem mem_update
    {table : Table Row} {id : Nat} {change : Row → Row}
    {entry : Entry Row} :
    entry ∈ (table.update id change).entries ↔
      ∃ old ∈ table.entries,
        entry =
          if old.id = id then { old with row := change old.row }
          else old := by
  simp only [update, List.mem_map, eq_comm]

theorem mem_delete
    {table : Table Row} {condition : Entry Row → Bool}
    {entry : Entry Row} :
    entry ∈ (table.delete condition).entries ↔
      entry ∈ table.entries ∧ condition entry = false := by
  simp [delete]

theorem mem_select
    {table : Table Row} {condition : Entry Row → Bool}
    {entry : Entry Row} :
    entry ∈ table.select condition ↔
      entry ∈ table.entries ∧ condition entry = true := by
  simp [select]

theorem select_insert
    (table : Table Row) (row : Row) (condition : Entry Row → Bool) :
    (table.insert row).select condition =
      table.select condition ++
        if condition ⟨table.next, row⟩ then [⟨table.next, row⟩] else [] := by
  by_cases selected : condition ⟨table.next, row⟩ = true
  · simp [select, selected]
  · simp [select, selected]

theorem select_delete
    (table : Table Row) (deleted condition : Entry Row → Bool) :
    (table.delete deleted).select condition =
      (table.select condition).filter fun entry => !deleted entry := by
  simp only [select, delete, List.filter_filter, Bool.and_comm]

/-- A selection that has none of the deleted rows stays. -/
theorem select_delete_of_disjoint
    {table : Table Row} {deleted condition : Entry Row → Bool}
    (disjoint : ∀ entry ∈ table.entries,
      deleted entry = true → condition entry = false) :
    (table.delete deleted).select condition = table.select condition := by
  rw [select_delete]
  apply List.filter_eq_self.mpr
  intro entry member
  obtain ⟨stored, selected⟩ := mem_select.mp member
  by_contra kept
  have isDeleted : deleted entry = true := by simpa using kept
  rw [disjoint entry stored isDeleted] at selected
  cases selected

/-- A selection that has the updated row neither before nor after stays. -/
theorem select_update_of_disjoint
    {table : Table Row} {id : Nat} {change : Row → Row}
    {condition : Entry Row → Bool}
    (before : ∀ entry ∈ table.entries,
      entry.id = id → condition entry = false)
    (after : ∀ entry ∈ table.entries, entry.id = id →
      condition { entry with row := change entry.row } = false) :
    (table.update id change).select condition =
      table.select condition := by
  have general : ∀ entries : List (Entry Row),
      (∀ entry ∈ entries, entry.id = id → condition entry = false) →
      (∀ entry ∈ entries, entry.id = id →
        condition { entry with row := change entry.row } = false) →
      (entries.map fun entry =>
          if entry.id = id then { entry with row := change entry.row }
          else entry).filter condition =
        entries.filter condition := by
    intro entries out outAfter
    induction entries with
    | nil => rfl
    | cons entry rest induction =>
        have later := induction
          (fun other member => out other (by simp [member]))
          (fun other member => outAfter other (by simp [member]))
        by_cases changed : entry.id = id
        · have wasOut := out entry (by simp) changed
          have staysOut := outAfter entry (by simp) changed
          rw [List.map_cons, if_pos changed, List.filter_cons, staysOut,
            List.filter_cons, wasOut]
          exact later
        · simp [changed, List.filter_cons, later]
  exact general table.entries before after

/-- A change that a selection does not see is made inside it. -/
theorem select_update_of_kept
    {table : Table Row} {id : Nat} {change : Row → Row}
    {condition : Entry Row → Bool}
    (kept : ∀ entry, entry.id = id →
      condition { entry with row := change entry.row } = condition entry) :
    (table.update id change).select condition =
      (table.select condition).map fun entry =>
        if entry.id = id then { entry with row := change entry.row }
        else entry := by
  rw [select, select, update, List.filter_map]
  congr 2
  funext entry
  simp only [Function.comp]
  split_ifs with updated
  · exact kept entry updated
  · rfl

/-- The first row is the first of the selected ones. -/
theorem first_eq_head?
    (table : Table Row) (condition : Entry Row → Bool) :
    table.first condition = (table.select condition).head? := by
  rw [first, select, List.head?_filter]

theorem first_eq_some
    {table : Table Row} {condition : Entry Row → Bool}
    {entry : Entry Row}
    (found : table.first condition = some entry) :
    entry ∈ table.entries ∧ condition entry = true :=
  ⟨List.mem_of_find?_eq_some found, List.find?_some found⟩

theorem first_eq_none
    {table : Table Row} {condition : Entry Row → Bool} :
    table.first condition = none ↔
      ∀ entry ∈ table.entries, condition entry = false := by
  simp [first]

/-- Deleting twice is deleting what either condition selects. -/
theorem delete_delete
    (table : Table Row) (first second : Entry Row → Bool) :
    (table.delete first).delete second =
      table.delete fun entry => first entry || second entry := by
  simp only [delete, Table.mk.injEq, and_true, List.filter_filter]
  apply List.filter_congr
  intro entry _
  cases first entry <;> cases second entry <;> rfl

theorem delete_nothing (table : Table Row) :
    (table.delete fun _ => false) = table := by
  simp [delete]

/-- Storing a row changes the table. -/
theorem insert_ne (table : Table Row) (row : Row) :
    table.insert row ≠ table := by
  intro equal
  have impossible := congrArg Table.next equal
  simp at impossible

/-- An update rewrites the row stored under the key and no other. -/
theorem find_update
    (table : Table Row) (id wanted : Nat) (change : Row → Row) :
    (table.update id change).find wanted =
      (table.find wanted).map fun entry =>
        if entry.id = id then { entry with row := change entry.row }
        else entry := by
  simp only [find, first, update, List.find?_map]
  congr 2
  funext entry
  simp only [Function.comp]
  split <;> rfl

/-- No stored row has a key that is still to come. -/
theorem filter_next_eq_nil (table : Table Row) :
    (table.entries.filter fun entry => table.next ≤ entry.id) = [] := by
  apply List.filter_eq_nil_iff.mpr
  intro entry member
  have below := table.fresh entry member
  simp only [decide_eq_true_eq]
  omega

theorem nodup (table : Table Row) : table.entries.Nodup :=
  table.ordered.imp fun below equal => by
    subst equal
    exact absurd below (Nat.lt_irrefl _)

/-- Two stored rows with the same key are the same row. -/
theorem eq_of_id_eq
    {table : Table Row} {left right : Entry Row}
    (leftMember : left ∈ table.entries)
    (rightMember : right ∈ table.entries)
    (equal : left.id = right.id) :
    left = right := by
  by_contra different
  have ordered :
      left.id < right.id ∨ right.id < left.id :=
    List.Pairwise.forall_of_forall_of_flip
      (R := fun left right : Entry Row =>
        left ≠ right → left.id < right.id ∨ right.id < left.id)
      (fun entry _ distinct => absurd rfl distinct)
      (table.ordered.imp fun below _ => Or.inl below)
      (table.ordered.imp fun below _ => Or.inr below)
      leftMember rightMember different
  omega

/-- A stored row is the one found under its key. -/
theorem find_of_mem
    {table : Table Row} {entry : Entry Row}
    (member : entry ∈ table.entries) :
    table.find entry.id = some entry := by
  cases found : table.find entry.id with
  | none => simpa using first_eq_none.mp found entry member
  | some other =>
      obtain ⟨otherMember, same⟩ := first_eq_some found
      rw [eq_of_id_eq otherMember member (by simpa using same)]

/-- Rewriting rows one by one under different keys rewrites each once. -/
theorem foldl_update_entries
    (table : Table Row) (change : Row → Row) (ids : List Nat)
    (different : ids.Nodup) :
    (ids.foldl (fun table id => table.update id change) table).entries =
      table.entries.map fun entry =>
        if entry.id ∈ ids then { entry with row := change entry.row }
        else entry := by
  induction ids generalizing table with
  | nil => simp
  | cons id ids inductionHypothesis =>
      obtain ⟨notLater, laterDifferent⟩ := List.nodup_cons.mp different
      rw [List.foldl_cons, inductionHypothesis _ laterDifferent, update,
        List.map_map]
      apply List.map_congr_left
      intro entry _
      by_cases here : entry.id = id
      · simp [here, notLater]
      · simp [here]

/-- Rewriting the selected rows one by one. -/
theorem foldl_update_select
    (table : Table Row) (condition : Entry Row → Bool)
    (change : Row → Row) :
    ((table.select condition).foldl
        (fun table entry => table.update entry.id change) table).entries =
      table.entries.map fun entry =>
        if condition entry then { entry with row := change entry.row }
        else entry := by
  have different : ((table.select condition).map Entry.id).Nodup := by
    apply List.Pairwise.map _ _ (table.ordered.filter condition)
    intro first second below
    exact Nat.ne_of_lt below
  have folded := foldl_update_entries table change _ different
  rw [List.foldl_map] at folded
  rw [folded]
  apply List.map_congr_left
  intro entry member
  have selected :
      entry.id ∈ (table.select condition).map Entry.id ↔
        condition entry = true := by
    constructor
    · intro found
      obtain ⟨other, otherFound, same⟩ := List.mem_map.mp found
      obtain ⟨otherMember, otherSelected⟩ := mem_select.mp otherFound
      rw [← eq_of_id_eq otherMember member same]
      exact otherSelected
    · intro holds
      exact List.mem_map_of_mem (mem_select.mpr ⟨member, holds⟩)
  simp only [selected]

end Table

/-! ## Tables with a natural key -/

/-- With distinct keys, a row is the one found under its key. -/
theorem find?_of_distinct
    {Row Key : Type} [DecidableEq Key] {key : Row → Key} {rows : List Row}
    (distinct : (rows.map key).Nodup) {row : Row} (member : row ∈ rows) :
    (rows.find? fun other => key other = key row) = some row := by
  cases found : rows.find? fun other => key other = key row with
  | none => simpa using List.find?_eq_none.mp found row member
  | some other =>
      have same : key other = key row := by
        simpa using List.find?_some found
      rw [List.inj_on_of_nodup_map distinct
        (List.mem_of_find?_eq_some found) member same]

/-- A table whose primary key is read off the row. -/
structure Keyed (Row Key : Type) (key : Row → Key) where
  rows : List Row
  distinct : (rows.map key).Nodup
deriving DecidableEq

namespace Keyed

variable {Row Key : Type} {key : Row → Key}

def empty : Keyed Row Key key where
  rows := []
  distinct := List.nodup_nil

/-- Store a row under a free key. -/
def append (table : Keyed Row Key key) (row : Row)
    (free : key row ∉ table.rows.map key) : Keyed Row Key key where
  rows := table.rows ++ [row]
  distinct := by
    rw [List.map_append, List.map_singleton]
    refine List.nodup_append.mpr
      ⟨table.distinct, List.nodup_singleton _, ?_⟩
    intro left leftMember right rightMember equal
    rw [List.mem_singleton] at rightMember
    subst rightMember
    exact free (equal ▸ leftMember)

/-- Store a row, unless its key is taken. -/
def insert [DecidableEq Key]
    (table : Keyed Row Key key) (row : Row) :
    Option (Keyed Row Key key) :=
  if taken : key row ∈ table.rows.map key then none
  else some (table.append row taken)

/-- The row stored under a key. -/
def find [DecidableEq Key]
    (table : Keyed Row Key key) (wanted : Key) : Option Row :=
  table.rows.find? fun row => key row = wanted

/-- The rows selected by a condition. -/
def select (table : Keyed Row Key key) (condition : Row → Bool) :
    List Row :=
  table.rows.filter condition

/-- Rewrite the row stored under a key by a change that keeps the key. -/
def update [DecidableEq Key]
    (table : Keyed Row Key key) (wanted : Key) (change : Row → Row)
    (kept : ∀ row, key (change row) = key row) :
    Keyed Row Key key where
  rows := table.rows.map fun row =>
    if key row = wanted then change row else row
  distinct := by
    have keys :
        (table.rows.map fun row =>
            if key row = wanted then change row else row).map key =
          table.rows.map key := by
      rw [List.map_map]
      apply List.map_congr_left
      intro row _
      simp only [Function.comp]
      split
      · exact kept row
      · rfl
    rw [keys]
    exact table.distinct

/-- Delete the rows that meet a condition. -/
def delete (table : Keyed Row Key key) (condition : Row → Bool) :
    Keyed Row Key key where
  rows := table.rows.filter fun row => !condition row
  distinct :=
    table.distinct.sublist
      (List.Sublist.map key (List.filter_sublist))

theorem insert_of_free [DecidableEq Key]
    (table : Keyed Row Key key) (row : Row)
    (free : key row ∉ table.rows.map key) :
    table.insert row = some (table.append row free) := by
  simp only [insert, dif_neg free]

theorem insert_eq_some [DecidableEq Key]
    {table inserted : Keyed Row Key key} {row : Row}
    (equal : table.insert row = some inserted) :
    key row ∉ table.rows.map key ∧ inserted.rows = table.rows ++ [row] := by
  unfold insert at equal
  split at equal
  · cases equal
  · rename_i free
    cases equal
    exact ⟨free, rfl⟩

theorem delete_of_none
    {table : Keyed Row Key key} {condition : Row → Bool}
    (none : ∀ row ∈ table.rows, condition row = false) :
    table.delete condition = table := by
  have kept : (table.rows.filter fun row => !condition row) = table.rows :=
    List.filter_eq_self.mpr fun row member => by simp [none row member]
  simp only [delete, kept]

/-- A selection that has none of the deleted rows stays. -/
theorem select_delete_of_disjoint
    {table : Keyed Row Key key} {deleted condition : Row → Bool}
    (disjoint : ∀ row ∈ table.rows,
      deleted row = true → condition row = false) :
    (table.delete deleted).select condition = table.select condition := by
  simp only [select, delete, List.filter_filter]
  apply List.filter_congr
  intro row member
  cases isDeleted : deleted row with
  | false => simp
  | true => simp [disjoint row member isDeleted]

/-- An update rewrites the row stored under the key and no other. -/
theorem find_update [DecidableEq Key]
    (table : Keyed Row Key key) (updated wanted : Key)
    (change : Row → Row) (kept : ∀ row, key (change row) = key row) :
    (table.update updated change kept).find wanted =
      (table.find wanted).map fun row =>
        if key row = updated then change row else row := by
  simp only [find, update, List.find?_map]
  congr 2
  funext row
  simp only [Function.comp]
  split
  · rw [kept]
  · rfl

theorem find_eq_some [DecidableEq Key]
    {table : Keyed Row Key key} {wanted : Key} {row : Row}
    (found : table.find wanted = some row) :
    row ∈ table.rows ∧ key row = wanted :=
  ⟨List.mem_of_find?_eq_some found, by simpa using List.find?_some found⟩

/-- Two stored rows with the same key are the same row. -/
theorem eq_of_key_eq
    {table : Keyed Row Key key} {left right : Row}
    (leftMember : left ∈ table.rows) (rightMember : right ∈ table.rows)
    (equal : key left = key right) :
    left = right :=
  List.inj_on_of_nodup_map table.distinct leftMember rightMember equal

/-- A stored row is the one found under its key. -/
theorem find_of_mem [DecidableEq Key]
    {table : Keyed Row Key key} {row : Row} (member : row ∈ table.rows) :
    table.find (key row) = some row :=
  find?_of_distinct table.distinct member

end Keyed

end NomadiCore.Library.RowTable
