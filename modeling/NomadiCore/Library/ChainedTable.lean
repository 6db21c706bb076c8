import Mathlib.Data.List.Perm.Basic
import Mathlib.Tactic.Common

/-!
# Tables of chains

A table keeps bindings of keys to values in chains; the place of a binding in
the table is a function of its key.  Keys are compared by a relation that need
not be equality.  Which chain a binding is in, and where in the chain, does not
matter for what a lookup finds: permutations of distinct bindings are the same
map.
-/

namespace NomadiCore.Library.ChainedTable

variable {Key Value : Type}

/-- How keys are compared. -/
structure KeyRelation (Key : Type) where
  same : Key → Key → Bool
  refl : ∀ key, same key key = true
  symm : ∀ {first second},
    same first second = true → same second first = true
  trans : ∀ {first second third},
    same first second = true → same second third = true →
      same first third = true

structure Binding (Key Value : Type) where
  key : Key
  val : Value
deriving DecidableEq

/-- No two bindings are of the same key. -/
def Distinct (relation : KeyRelation Key)
    (bindings : List (Binding Key Value)) : Prop :=
  bindings.Pairwise fun first second =>
    relation.same first.key second.key = false

/-- The value of a key. -/
def lookup (relation : KeyRelation Key)
    (bindings : List (Binding Key Value)) (key : Key) : Option Value :=
  (bindings.find? fun binding => relation.same key binding.key).map (·.val)

variable {relation : KeyRelation Key}
  {bindings others : List (Binding Key Value)}
  {binding : Binding Key Value} {key other : Key} {val : Value}

namespace KeyRelation

theorem same_comm (relation : KeyRelation Key) (first second : Key) :
    relation.same first second = relation.same second first := by
  cases forward : relation.same first second with
  | true => exact (relation.symm forward).symm
  | false =>
      cases backward : relation.same second first with
      | true => rw [relation.symm backward] at forward; cases forward
      | false => rfl

/-- Keys that are the same are compared alike. -/
theorem same_congr (isSame : relation.same key other = true) (third : Key) :
    relation.same key third = relation.same other third := by
  cases forward : relation.same other third with
  | true => exact relation.trans isSame forward
  | false =>
      cases backward : relation.same key third with
      | true =>
          rw [relation.trans (relation.symm isSame) backward] at forward
          cases forward
      | false => rfl

theorem same_congr_right (isSame : relation.same key other = true)
    (third : Key) : relation.same third key = relation.same third other := by
  rw [relation.same_comm third key, relation.same_comm third other,
    same_congr isSame]

end KeyRelation

/-! ## Lookups -/

@[simp]
theorem lookup_nil (key : Key) :
    lookup relation ([] : List (Binding Key Value)) key = none := rfl

theorem lookup_cons (binding : Binding Key Value)
    (bindings : List (Binding Key Value)) (key : Key) :
    lookup relation (binding :: bindings) key =
      if relation.same key binding.key then some binding.val
      else lookup relation bindings key := by
  cases isSame : relation.same key binding.key with
  | true => simp [lookup, isSame]
  | false => simp [lookup, isSame]

theorem lookup_eq_none_iff :
    lookup relation bindings key = none ↔
      ∀ binding ∈ bindings, relation.same key binding.key = false := by
  simp [lookup]

theorem distinct_cons :
    Distinct relation (binding :: bindings) ↔
      lookup relation bindings binding.key = none ∧
        Distinct relation bindings := by
  rw [lookup_eq_none_iff, Distinct, List.pairwise_cons]
  rfl

theorem lookup_congr (isSame : relation.same key other = true)
    (bindings : List (Binding Key Value)) :
    lookup relation bindings key = lookup relation bindings other := by
  simp only [lookup, KeyRelation.same_congr isSame]

theorem lookup_eq_some_iff (distinct : Distinct relation bindings) :
    lookup relation bindings key = some val ↔
      ∃ binding ∈ bindings,
        relation.same key binding.key = true ∧ binding.val = val := by
  induction bindings with
  | nil => simp
  | cons first later inductionHypothesis =>
      obtain ⟨fresh, laterDistinct⟩ := distinct_cons.mp distinct
      rw [lookup_cons]
      cases isSame : relation.same key first.key with
      | true =>
          have alone : ∀ binding ∈ later,
              relation.same key binding.key = false := by
            intro binding member
            rw [KeyRelation.same_congr isSame]
            exact lookup_eq_none_iff.mp fresh binding member
          constructor
          · intro isVal
            exact ⟨first, List.mem_cons_self, isSame, by simpa using isVal⟩
          · rintro ⟨binding, member, matched, isVal⟩
            rcases List.mem_cons.mp member with rfl | inLater
            · simp [isVal]
            · rw [alone binding inLater] at matched
              cases matched
      | false =>
          simp only [Bool.false_eq_true, if_false,
            inductionHypothesis laterDistinct, List.mem_cons]
          constructor
          · rintro ⟨binding, member, matched, isVal⟩
            exact ⟨binding, Or.inr member, matched, isVal⟩
          · rintro ⟨binding, rfl | member, matched, isVal⟩
            · rw [isSame] at matched
              cases matched
            · exact ⟨binding, member, matched, isVal⟩

theorem Distinct.perm (distinct : Distinct relation bindings)
    (perm : bindings.Perm others) : Distinct relation others := by
  refine (perm.pairwise_iff ?_).mp distinct
  intro first second different
  rw [relation.same_comm, different]

theorem Distinct.sublist (distinct : Distinct relation bindings)
    (sublist : others.Sublist bindings) : Distinct relation others :=
  List.Pairwise.sublist sublist distinct

/-- The order of the bindings does not matter. -/
theorem lookup_perm (distinct : Distinct relation bindings)
    (perm : bindings.Perm others) :
    lookup relation bindings = lookup relation others := by
  funext key
  apply Option.ext
  intro val
  rw [lookup_eq_some_iff distinct, lookup_eq_some_iff (distinct.perm perm)]
  simp only [perm.mem_iff]

/-- What is left when a binding is taken out. -/
theorem lookup_erased (distinct : Distinct relation bindings)
    (perm : bindings.Perm (binding :: others)) (key : Key) :
    lookup relation others key =
      if relation.same key binding.key then none
      else lookup relation bindings key := by
  rw [lookup_perm distinct perm, lookup_cons]
  obtain ⟨fresh, -⟩ := distinct_cons.mp (distinct.perm perm)
  cases isSame : relation.same key binding.key with
  | true => rw [lookup_congr isSame, fresh]; rfl
  | false => simp

theorem lookup_append (bindings others : List (Binding Key Value))
    (key : Key) :
    lookup relation (bindings ++ others) key =
      (lookup relation bindings key).or (lookup relation others key) := by
  rw [lookup, List.find?_append, Option.map_or]
  rfl

/-! ## Chains -/

/-- The first binding of a key gets another value. -/
def write (relation : KeyRelation Key) (key : Key) (val : Value) :
    List (Binding Key Value) → List (Binding Key Value)
  | [] => []
  | binding :: later =>
      if relation.same key binding.key then { binding with val } :: later
      else binding :: write relation key val later

/-- The first binding of a key is taken out. -/
def erase (relation : KeyRelation Key) (key : Key)
    (bindings : List (Binding Key Value)) : List (Binding Key Value) :=
  bindings.eraseP fun binding => relation.same key binding.key

theorem exists_of_lookup (found : lookup relation bindings key = some val) :
    ∃ binding others,
      relation.same key binding.key = true ∧ binding.val = val ∧
      bindings.Perm (binding :: others) ∧
      (erase relation key bindings).Perm others ∧
      ∀ new, (write relation key new bindings).Perm
        ({ binding with val := new } :: others) := by
  induction bindings with
  | nil => cases found
  | cons first later inductionHypothesis =>
      rw [lookup_cons] at found
      cases isSame : relation.same key first.key with
      | true =>
          refine ⟨first, later, isSame, by simpa [isSame] using found, .rfl,
            ?_, ?_⟩
          · simp [erase, isSame]
          · intro new
            simp [write, isSame]
      | false =>
          simp only [isSame, Bool.false_eq_true, if_false] at found
          obtain ⟨binding, others, matched, isVal, perm, erased, written⟩ :=
            inductionHypothesis found
          refine ⟨binding, first :: others, matched, isVal,
            (perm.cons first).trans (.swap binding first others), ?_, ?_⟩
          · rw [erase, List.eraseP_cons, isSame]
            exact erased.cons first
          · intro new
            rw [write, isSame]
            exact ((written new).cons first).trans (.swap _ first others)

/-! ## Tables -/

/-- Each binding is in the chain of its place. -/
def Placed (place : Key → Nat)
    (table : List (List (Binding Key Value))) : Prop :=
  ∀ index chain, table[index]? = some chain →
    ∀ binding ∈ chain, place binding.key = index

variable {place : Key → Nat} {table : List (List (Binding Key Value))}
  {chain next : List (Binding Key Value)} {index : Nat}

/-- A chain and the rest of the table. -/
theorem flatten_perm (found : table[index]? = some chain) :
    table.flatten.Perm (chain ++ (table.set index []).flatten) := by
  induction table generalizing index with
  | nil => simp at found
  | cons first later inductionHypothesis =>
      cases index with
      | zero =>
          have isFirst : first = chain := by simpa using found
          simp [isFirst]
      | succ index =>
          simp only [List.getElem?_cons_succ] at found
          simp only [List.set_cons_succ, List.flatten_cons]
          calc
            (first ++ later.flatten).Perm
                (first ++ (chain ++ (later.set index []).flatten)) :=
              (inductionHypothesis found).append_left first
            _ |>.Perm (first ++ chain ++ (later.set index []).flatten) := by
              rw [List.append_assoc]
            _ |>.Perm (chain ++ first ++ (later.set index []).flatten) :=
              List.perm_append_comm.append_right _
            _ |>.Perm (chain ++ (first ++ (later.set index []).flatten)) := by
              rw [List.append_assoc]

theorem flatten_set_perm (found : table[index]? = some chain)
    (next : List (Binding Key Value)) :
    (table.set index next).flatten.Perm
      (next ++ (table.set index []).flatten) := by
  have inside : index < table.length :=
    (List.getElem?_eq_some_iff.mp found).1
  have perm := @flatten_perm _ _ (table.set index next) next index
    (by simp [inside])
  rwa [List.set_set] at perm

theorem Placed.set (placed : Placed place table)
    (own : ∀ binding ∈ next, place binding.key = index) :
    Placed place (table.set index next) := by
  intro at_ chain found
  rw [List.getElem?_set] at found
  split at found
  · split at found
    · cases found
      rename_i isIndex _
      rw [← isIndex]
      exact own
    · cases found
  · exact placed at_ chain found

theorem placed_replicate (place : Key → Nat) (size : Nat) :
    Placed place
      (List.replicate size ([] : List (Binding Key Value))) := by
  intro index chain found
  rw [List.getElem?_replicate] at found
  split at found
  · cases found
    simp
  · cases found

theorem Placed.mem_chain (placed : Placed place table)
    (member : binding ∈ table.flatten)
    (found : table[place binding.key]? = some chain) :
    binding ∈ chain := by
  obtain ⟨own, isChain, inOwn⟩ := List.mem_flatten.mp member
  obtain ⟨index, isAt⟩ := List.mem_iff_getElem?.mp isChain
  rw [placed index own isAt binding inOwn, isAt] at found
  cases found
  exact inOwn

/-- A key is looked up in the chain of its place. -/
theorem Placed.lookup_chain (placed : Placed place table)
    (congruent : ∀ {first second},
      relation.same first second = true → place first = place second)
    (found : table[place key]? = some chain)
    (distinct : Distinct relation table.flatten) :
    lookup relation chain key = lookup relation table.flatten key := by
  have isChain : chain ∈ table := List.mem_of_getElem? found
  have chainDistinct : Distinct relation chain :=
    distinct.sublist (List.sublist_flatten_of_mem isChain)
  apply Option.ext
  intro val
  rw [lookup_eq_some_iff chainDistinct, lookup_eq_some_iff distinct]
  constructor
  · rintro ⟨binding, member, matched, isVal⟩
    exact ⟨binding, List.mem_flatten.mpr ⟨chain, isChain, member⟩, matched,
      isVal⟩
  · rintro ⟨binding, member, matched, isVal⟩
    rw [congruent matched] at found
    exact ⟨binding, placed.mem_chain member found, matched, isVal⟩

end NomadiCore.Library.ChainedTable
