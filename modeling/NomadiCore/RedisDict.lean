import NomadiCore.Library.ChainedTable
import NomadiCore.Library.ReverseCursor

/-!
# The dictionaries of the Redis server

`dict.c` keeps the entries of a dictionary in a table of chains, and in two
such tables while it changes the size: the other operations move the chains of
the first table to the second, a few at a time.  A failed assertion, a place
outside a table and memory that has run out stop the server: here such a run
has no result.
-/

namespace NomadiCore.Redis

open NomadiCore.Library.ChainedTable
open NomadiCore.Library.ReverseCursor

/-! ## The tables -/

/-- Hashes and masks have 64 bits. -/
abbrev Word := BitVec 64

/-- Keys that are compared as the same have the same hash. -/
structure DictType (Key : Type) where
  keyCompare : KeyRelation Key
  hashFunction : Key → Word
  hash_congr : ∀ {first second},
    keyCompare.same first second = true →
      hashFunction first = hashFunction second

abbrev DictEntry (Key Value : Type) := Binding Key Value

structure Dictht (Key Value : Type) where
  table : List (List (DictEntry Key Value)) := []
  size : Nat := 0
  sizemask : Word := 0
  used : Nat := 0

/-- There is no `rehashidx` unless the dictionary is rehashing. -/
structure Dict (Key Value : Type) where
  ht0 : Dictht Key Value := {}
  ht1 : Dictht Key Value := {}
  rehashidx : Option Nat := none
  iterators : Word := 0

variable {Key Value : Type}

def dictIsRehashing (d : Dict Key Value) : Bool := d.rehashidx.isSome

def dictSize (d : Dict Key Value) : Nat := d.ht0.used + d.ht1.used

def dictHtInitialSize : Nat := 4

def dictForceResizeRatio : Nat := 5

def longMax : Nat := 2 ^ 63 - 1

/-- The loop doubles its number at most 61 times. -/
def nextPowerLoop (size : Nat) : Nat → Nat → Nat
  | 0, i => i
  | rounds + 1, i =>
      if i ≥ size then i else nextPowerLoop size rounds (i * 2)

def dictNextPower (size : Nat) : Nat :=
  if size ≥ longMax then longMax + 1
  else nextPowerLoop size 62 dictHtInitialSize

def newTable (realsize : Nat) : Dictht Key Value where
  table := List.replicate realsize []
  size := realsize
  sizemask := BitVec.ofNat 64 (realsize - 1)
  used := 0

/-- Whether a table was made. -/
def dictExpand (d : Dict Key Value) (size : Nat) : Bool × Dict Key Value :=
  if dictIsRehashing d ∨ d.ht0.used > size then (false, d)
  else if dictNextPower size = d.ht0.size then (false, d)
  else if d.ht0.table.isEmpty then
    (true, { d with ht0 := newTable (dictNextPower size) })
  else
    (true,
      { d with ht1 := newTable (dictNextPower size), rehashidx := some 0 })

/-- The number of entries is cut to an `int`. -/
def dictResize (dictCanResize : Bool) (d : Dict Key Value) :
    Bool × Dict Key Value :=
  if !dictCanResize ∨ dictIsRehashing d then (false, d)
  else
    let minimal := (BitVec.ofNat 32 d.ht0.used).toInt
    if minimal < dictHtInitialSize then dictExpand d dictHtInitialSize
    else dictExpand d minimal.toNat

def dictExpandIfNeeded (dictCanResize : Bool) (d : Dict Key Value) :
    Bool × Dict Key Value :=
  if dictIsRehashing d then (true, d)
  else if d.ht0.size = 0 then dictExpand d dictHtInitialSize
  else if d.ht0.used ≥ d.ht0.size ∧
      (dictCanResize ∨ d.ht0.used / d.ht0.size > dictForceResizeRatio) then
    dictExpand d (d.ht0.used * 2)
  else (true, d)

def dictEmpty (_ : Dict Key Value) : Dict Key Value := {}

/-! ## Rehashing -/

/-- A chain to move, or too many empty places. -/
inductive Visit (Key Value : Type) where
  | found (rehashidx emptyVisits : Nat) (chain : List (DictEntry Key Value))
  | stopped (rehashidx : Nat)

def visitEmpty (table : List (List (DictEntry Key Value))) :
    Nat → Nat → Option (Visit Key Value)
  | 0, _ => none
  | emptyVisits + 1, rehashidx =>
      match table[rehashidx]? with
      | none => none
      | some [] =>
          if emptyVisits = 0 then some (.stopped (rehashidx + 1))
          else visitEmpty table emptyVisits (rehashidx + 1)
      | some (de :: nextde) =>
          some (.found rehashidx (emptyVisits + 1) (de :: nextde))

/-- Whether there is more to rehash. -/
def finishRehash (d : Dict Key Value) : Bool × Dict Key Value :=
  if d.ht0.used = 0 then
    (false, { d with ht0 := d.ht1, ht1 := {}, rehashidx := none })
  else (true, d)

section Operations

variable (type : DictType Key)

/-- The place of a key in a table. -/
def Dictht.index (ht : Dictht Key Value) (key : Key) : Nat :=
  (type.hashFunction key &&& ht.sizemask).toNat

/-- A new entry is the first of its chain. -/
def Dictht.insert (ht : Dictht Key Value) (de : DictEntry Key Value) :
    Option (Dictht Key Value) := do
  let chain ← ht.table[ht.index type de.key]?
  some
    { ht with
      table := ht.table.set (ht.index type de.key) (de :: chain)
      used := ht.used + 1 }

/-- The entries of a chain are moved one after another. -/
def moveEntries : Dict Key Value → List (DictEntry Key Value) →
    Option (Dict Key Value)
  | d, [] => some d
  | d, de :: nextde => do
      let ht1 ← d.ht1.insert type de
      moveEntries
        { d with
          ht0 := { d.ht0 with used := d.ht0.used - 1 }
          ht1 := ht1 }
        nextde

def rehashLoop : Nat → Nat → Nat → Dict Key Value →
    Option (Bool × Dict Key Value)
  | 0, _, rehashidx, d =>
      some (finishRehash { d with rehashidx := some rehashidx })
  | n + 1, emptyVisits, rehashidx, d =>
      if d.ht0.used = 0 then
        some (finishRehash { d with rehashidx := some rehashidx })
      else if d.ht0.size ≤ rehashidx then none
      else
        match visitEmpty d.ht0.table emptyVisits rehashidx with
        | none => none
        | some (.stopped rehashidx) =>
            some (true, { d with rehashidx := some rehashidx })
        | some (.found rehashidx emptyVisits chain) => do
            let moved ← moveEntries type d chain
            rehashLoop n emptyVisits (rehashidx + 1)
              { moved with
                ht0 :=
                  { moved.ht0 with
                    table := moved.ht0.table.set rehashidx [] } }

def dictRehash (d : Dict Key Value) (n : Nat) :
    Option (Bool × Dict Key Value) :=
  match d.rehashidx with
  | none => some (false, d)
  | some rehashidx => rehashLoop type n (n * 10) rehashidx d

/-- No step while a safe iterator runs. -/
def dictRehashStep (d : Dict Key Value) : Option (Dict Key Value) :=
  if d.iterators = 0 then (dictRehash type d 1).map (·.2) else some d

/-! ## The operations -/

inductive Which where
  | first
  | second
deriving DecidableEq

def Dict.ht (d : Dict Key Value) : Which → Dictht Key Value
  | .first => d.ht0
  | .second => d.ht1

def Dict.setHt (d : Dict Key Value) (which : Which)
    (ht : Dictht Key Value) : Dict Key Value :=
  match which with
  | .first => { d with ht0 := ht }
  | .second => { d with ht1 := ht }

/-- The value of a key in the chain of its place. -/
def Dictht.search (ht : Dictht Key Value) (key : Key) :
    Option (Option Value) := do
  let chain ← ht.table[ht.index type key]?
  some (lookup type.keyCompare chain key)

/-- The loop over the tables that the operations share. -/
def searchTables (d : Dict Key Value) (key : Key) :
    Option (Option (Which × Value)) := do
  match ← d.ht0.search type key with
  | some val => some (some (.first, val))
  | none =>
      if dictIsRehashing d then
        match ← d.ht1.search type key with
        | some val => some (some (.second, val))
        | none => some none
      else some none

def dictFind (d : Dict Key Value) (key : Key) :
    Option (Option Value × Dict Key Value) :=
  if d.ht0.used + d.ht1.used = 0 then some (none, d)
  else do
    let d ← dictRehashStep type d
    let found ← searchTables type d key
    some (found.map (·.2), d)

/-- The first entry of a key is unlinked from its chain. -/
def Dictht.unlink (ht : Dictht Key Value) (key : Key) :
    Option (Dictht Key Value) := do
  let chain ← ht.table[ht.index type key]?
  some
    { ht with
      table := ht.table.set (ht.index type key)
        (erase type.keyCompare key chain)
      used := ht.used - 1 }

/-- The value of the entry that was unlinked. -/
def dictGenericDelete (d : Dict Key Value) (key : Key) :
    Option (Option Value × Dict Key Value) :=
  if d.ht0.used = 0 ∧ d.ht1.used = 0 then some (none, d)
  else do
    let d ← dictRehashStep type d
    match ← searchTables type d key with
    | none => some (none, d)
    | some (which, val) =>
        let ht ← (d.ht which).unlink type key
        some (some val, d.setHt which ht)

/-- A free place, or where the key is; it is neither if a resize failed. -/
inductive KeyIndex where
  | free
  | existing (which : Which)
  | refused

def dictKeyIndex (dictCanResize : Bool) (d : Dict Key Value) (key : Key) :
    Option (KeyIndex × Dict Key Value) :=
  let expanded := dictExpandIfNeeded dictCanResize d
  if !expanded.1 then some (.refused, expanded.2)
  else do
    match ← searchTables type expanded.2 key with
    | none => some (.free, expanded.2)
    | some (which, _) => some (.existing which, expanded.2)

/-- The table that takes new entries. -/
def Dict.target (d : Dict Key Value) : Which :=
  if dictIsRehashing d then .second else .first

/--
The value is the one that the caller sets in the new entry.  `memory` is the
number of entries there is memory for.
-/
def dictAddRaw (memory : Nat) (dictCanResize : Bool) (d : Dict Key Value)
    (key : Key) (val : Value) : Option (KeyIndex × Dict Key Value) := do
  let d ← dictRehashStep type d
  let index ← dictKeyIndex type dictCanResize d key
  match index.1 with
  | .free =>
      if dictSize index.2 ≥ memory then none
      else
        let ht ← (index.2.ht index.2.target).insert type ⟨key, val⟩
        some (.free, index.2.setHt index.2.target ht)
  | .existing which => some (.existing which, index.2)
  | .refused => some (.refused, index.2)

/-- The value of the entry that a key has in a table. -/
def Dictht.setVal (ht : Dictht Key Value) (key : Key) (val : Value) :
    Option (Dictht Key Value) := do
  let chain ← ht.table[ht.index type key]?
  some
    { ht with
      table := ht.table.set (ht.index type key)
        (write type.keyCompare key val chain) }

def dictSetVal (d : Dict Key Value) (which : Which) (key : Key)
    (val : Value) : Option (Dict Key Value) := do
  let ht ← (d.ht which).setVal type key val
  some (d.setHt which ht)

def dictAdd (memory : Nat) (dictCanResize : Bool) (d : Dict Key Value)
    (key : Key) (val : Value) : Option (Bool × Dict Key Value) := do
  let added ← dictAddRaw type memory dictCanResize d key val
  match added.1 with
  | .free => some (true, added.2)
  | _ => some (false, added.2)

/-- Without an entry there is nothing to write to. -/
def dictReplace (memory : Nat) (dictCanResize : Bool) (d : Dict Key Value)
    (key : Key) (val : Value) : Option (Bool × Dict Key Value) := do
  let added ← dictAddRaw type memory dictCanResize d key val
  match added.1 with
  | .free => some (true, added.2)
  | .existing which =>
      let d ← dictSetVal type added.2 which key val
      some (false, d)
  | .refused => none

end Operations

/-! ## The invariant -/

/-- All entries, those of the first table first. -/
def dictEntries (d : Dict Key Value) : List (DictEntry Key Value) :=
  d.ht0.table.flatten ++ d.ht1.table.flatten

/-- A table that was made: its size is a power of two. -/
structure TableValid (type : DictType Key) (ht : Dictht Key Value) :
    Prop where
  sized : ∃ bits, 2 ≤ bits ∧ bits ≤ 63 ∧ ht.size = 2 ^ bits ∧
    ht.sizemask = mask 64 bits
  length : ht.table.length = ht.size
  used : ht.used = ht.table.flatten.length
  placed : Placed (ht.index type) ht.table

/-- Two tables of which the places below `rehashidx` have been moved. -/
structure TablesValid (type : DictType Key) (d : Dict Key Value)
    (rehashidx : Nat) : Prop where
  first : TableValid type d.ht0
  second : TableValid type d.ht1
  moved : ∀ index < rehashidx, d.ht0.table[index]? = some []

structure DictValid (type : DictType Key) (d : Dict Key Value) : Prop where
  distinct : Distinct type.keyCompare (dictEntries d)
  first : d.ht0 = {} ∨ TableValid type d.ht0
  alone : d.rehashidx = none → d.ht1 = {}
  rehashing : ∀ {rehashidx}, d.rehashidx = some rehashidx →
    TablesValid type d rehashidx ∧ rehashidx < d.ht0.size

section Tables

variable {type : DictType Key} {ht : Dictht Key Value}
  {de : DictEntry Key Value} {key : Key}

theorem index_congr {first second : Key}
    (same : type.keyCompare.same first second = true) :
    ht.index type first = ht.index type second := by
  rw [Dictht.index, Dictht.index, type.hash_congr same]

theorem and_mask_lt (word : Word) {bits : Nat} (bound : bits ≤ 63) :
    (word &&& mask 64 bits).toNat < 2 ^ bits := by
  have fits : 2 ^ bits - 1 < 2 ^ 64 := by
    have smaller : 2 ^ bits ≤ 2 ^ 63 := Nat.pow_le_pow_right (by decide) bound
    omega
  rw [BitVec.toNat_and, mask, BitVec.toNat_ofNat, Nat.mod_eq_of_lt fits,
    Nat.and_two_pow_sub_one_eq_mod]
  exact Nat.mod_lt _ (Nat.two_pow_pos bits)

/-- A key has a chain in every table that was made. -/
theorem TableValid.exists_chain (valid : TableValid type ht) (key : Key) :
    ∃ chain, ht.table[ht.index type key]? = some chain := by
  obtain ⟨bits, -, bound, isSize, isMask⟩ := valid.sized
  have inside : ht.index type key < ht.table.length := by
    rw [valid.length, isSize, Dictht.index, isMask]
    exact and_mask_lt _ bound
  exact ⟨_, List.getElem?_eq_getElem inside⟩

theorem TableValid.size_pos (valid : TableValid type ht) : 4 ≤ ht.size := by
  obtain ⟨bits, least, -, isSize, -⟩ := valid.sized
  rw [isSize]
  calc
    4 = 2 ^ 2 := by decide
    _ ≤ 2 ^ bits := Nat.pow_le_pow_right (by decide) least

theorem TableValid.table_ne_nil (valid : TableValid type ht) :
    ht.table.isEmpty = false := by
  have positive := valid.size_pos
  rw [← valid.length] at positive
  cases isTable : ht.table with
  | nil => rw [isTable] at positive; simp at positive
  | cons chain later => rfl

/-- A table after a change that fills no empty chain. -/
structure TableStep (type : DictType Key) (ht after : Dictht Key Value) :
    Prop where
  valid : TableValid type after
  size : after.size = ht.size
  empty : ∀ index : Nat, ht.table[index]? = some [] →
    after.table[index]? = some []

theorem getElem?_set_nil {table : List (List (DictEntry Key Value))}
    {place : Nat} {chain next : List (DictEntry Key Value)}
    (found : table[place]? = some chain) (kept : chain = [] → next = [])
    (index : Nat) (empty : table[index]? = some []) :
    (table.set place next)[index]? = some [] := by
  rw [List.getElem?_set]
  split
  next isPlace =>
    subst isPlace
    rw [found] at empty
    cases empty
    have inside := (List.getElem?_eq_some_iff.mp found).1
    rw [if_pos inside, kept rfl]
  · exact empty

/-- The chain of a key is replaced by one of the same place. -/
theorem TableValid.set (valid : TableValid type ht)
    {chain next : List (DictEntry Key Value)} {used : Nat}
    (found : ht.table[ht.index type key]? = some chain)
    (own : ∀ binding ∈ next, ht.index type binding.key = ht.index type key)
    (count : used + chain.length = ht.used + next.length) :
    TableValid type
      { ht with table := ht.table.set (ht.index type key) next, used } where
  sized := valid.sized
  length := by simpa using valid.length
  used := by
    have before := (flatten_perm found).length_eq
    have after := (flatten_set_perm found next).length_eq
    have isUsed := valid.used
    simp only [List.length_append] at before after
    dsimp only
    omega
  placed := valid.placed.set own

/-- A new entry. -/
theorem TableValid.insert (valid : TableValid type ht)
    (de : DictEntry Key Value) :
    ∃ after, ht.insert type de = some after ∧ TableValid type after ∧
      after.size = ht.size ∧
      after.table.flatten.Perm (de :: ht.table.flatten) := by
  obtain ⟨chain, found⟩ := valid.exists_chain de.key
  refine ⟨{ ht with
      table := ht.table.set (ht.index type de.key) (de :: chain)
      used := ht.used + 1 }, by rw [Dictht.insert, found]; rfl, ?_, rfl, ?_⟩
  · refine valid.set found ?_ (by rw [List.length_cons]; omega)
    intro binding member
    rcases List.mem_cons.mp member with rfl | inChain
    · rfl
    · exact valid.placed _ chain found binding inChain
  · exact (flatten_set_perm found (de :: chain)).trans
      ((flatten_perm found).symm.cons de)

theorem TableValid.search (valid : TableValid type ht)
    (distinct : Distinct type.keyCompare ht.table.flatten) (key : Key) :
    ht.search type key =
      some (lookup type.keyCompare ht.table.flatten key) := by
  obtain ⟨chain, found⟩ := valid.exists_chain key
  have same := valid.placed.lookup_chain index_congr found distinct
  rw [Dictht.search, found, ← same]
  rfl

/-- The entry of a key that is there, and the others of the table. -/
theorem TableValid.exists_entry (valid : TableValid type ht)
    (distinct : Distinct type.keyCompare ht.table.flatten) {old : Value}
    (present : lookup type.keyCompare ht.table.flatten key = some old) :
    ∃ binding others,
      type.keyCompare.same key binding.key = true ∧ binding.val = old ∧
      ht.table.flatten.Perm (binding :: others) ∧
      (∃ after, ht.unlink type key = some after ∧
        TableStep type ht after ∧ after.table.flatten.Perm others) ∧
      ∀ new, ∃ after, ht.setVal type key new = some after ∧
        TableStep type ht after ∧
        after.table.flatten.Perm ({ binding with val := new } :: others) := by
  obtain ⟨chain, found⟩ := valid.exists_chain key
  rw [← valid.placed.lookup_chain index_congr found distinct] at present
  obtain ⟨binding, rest, matched, isOld, perm, erased, written⟩ :=
    exists_of_lookup present
  have own : ∀ member ∈ chain,
      ht.index type member.key = ht.index type key :=
    valid.placed _ chain found
  have counted := perm.length_eq
  have erasedCount := erased.length_eq
  have nonempty : 0 < ht.used := by
    have more := (flatten_perm found).length_eq
    have isUsed := valid.used
    simp only [List.length_append, List.length_cons] at more counted
    omega
  rw [List.length_cons] at counted
  refine ⟨binding, rest ++ (ht.table.set (ht.index type key) []).flatten,
    matched, isOld, (flatten_perm found).trans (perm.append_right _), ?_, ?_⟩
  · refine ⟨{ ht with
        table := ht.table.set (ht.index type key)
          (erase type.keyCompare key chain)
        used := ht.used - 1 }, by rw [Dictht.unlink, found]; rfl,
      ⟨?_, rfl, getElem?_set_nil found ?_⟩, ?_⟩
    · refine valid.set found ?_ (by omega)
      intro member inErased
      exact own member (List.eraseP_subset inErased)
    · rintro rfl
      rfl
    · exact (flatten_set_perm found _).trans (erased.append_right _)
  · intro new
    have writtenCount := (written new).length_eq
    rw [List.length_cons] at writtenCount
    refine ⟨{ ht with
        table := ht.table.set (ht.index type key)
          (write type.keyCompare key new chain) },
      by rw [Dictht.setVal, found]; rfl,
      ⟨?_, rfl, getElem?_set_nil found ?_⟩, ?_⟩
    · refine valid.set found ?_ (by omega)
      intro member inWritten
      rcases List.mem_cons.mp ((written new).mem_iff.mp inWritten) with
        rfl | inRest
      · exact own binding (perm.mem_iff.mpr List.mem_cons_self)
      · exact own member
          (perm.mem_iff.mpr (List.mem_cons_of_mem binding inRest))
    · rintro rfl
      rfl
    · exact (flatten_set_perm found _).trans ((written new).append_right _)

end Tables

/-! ## Rehashing keeps the entries -/

section Rehashing

variable {type : DictType Key} {d : Dict Key Value} {rehashidx : Nat}

/-- What a dictionary is after some rehashing. -/
structure Rehashed (type : DictType Key) (d after : Dict Key Value) :
    Prop where
  valid : DictValid type after
  perm : (dictEntries after).Perm (dictEntries d)
  iterators : after.iterators = d.iterators

/-- The places that were passed are empty. -/
def Visited (table : List (List (DictEntry Key Value))) (rehashidx : Nat) :
    Visit Key Value → Prop
  | .found next emptyVisits chain =>
      0 < emptyVisits ∧ table[next]? = some chain ∧ rehashidx ≤ next ∧
        ∀ index, rehashidx ≤ index → index < next →
          table[index]? = some []
  | .stopped next =>
      rehashidx < next ∧
        ∀ index, rehashidx ≤ index → index < next →
          table[index]? = some []

theorem visitEmpty_visited {table : List (List (DictEntry Key Value))}
    {emptyVisits : Nat} (positive : 0 < emptyVisits)
    (ahead : ∃ index chain, rehashidx ≤ index ∧
      table[index]? = some chain ∧ chain ≠ []) :
    ∃ visit, visitEmpty table emptyVisits rehashidx = some visit ∧
      Visited table rehashidx visit := by
  induction emptyVisits generalizing rehashidx with
  | zero => omega
  | succ emptyVisits inductionHypothesis =>
      obtain ⟨index, chain, least, isChain, nonempty⟩ := ahead
      have within := (List.getElem?_eq_some_iff.mp isChain).1
      cases here : table[rehashidx]? with
      | none =>
          have outside := List.getElem?_eq_none_iff.mp here
          omega
      | some bucket =>
          cases bucket with
          | cons de nextde =>
              refine ⟨.found rehashidx (emptyVisits + 1) (de :: nextde), ?_,
                by omega, here, by omega, by omega⟩
              rw [visitEmpty, here]
          | nil =>
              by_cases last : emptyVisits = 0
              · refine ⟨.stopped (rehashidx + 1), ?_, by omega, ?_⟩
                · simp only [visitEmpty, here, last, if_true]
                · intro passed above below
                  have isHere : passed = rehashidx := by omega
                  rw [isHere, here]
              · have later : rehashidx + 1 ≤ index := by
                  rcases Nat.lt_or_eq_of_le least with below | equal
                  · omega
                  · rw [← equal, here] at isChain
                    cases isChain
                    exact absurd rfl nonempty
                obtain ⟨visit, isVisit, visited⟩ :=
                  inductionHypothesis (by omega)
                    ⟨index, chain, later, isChain, nonempty⟩
                refine ⟨visit, ?_, ?_⟩
                · simp only [visitEmpty, here, last, if_false]
                  exact isVisit
                · cases visit with
                  | found next visits bucket =>
                      obtain ⟨some, isBucket, order, empty⟩ := visited
                      refine ⟨some, isBucket, by omega, ?_⟩
                      intro passed above below
                      rcases Nat.lt_or_eq_of_le above with more | equal
                      · exact empty passed more below
                      · rw [← equal, here]
                  | stopped next =>
                      obtain ⟨order, empty⟩ := visited
                      refine ⟨by omega, ?_⟩
                      intro passed above below
                      rcases Nat.lt_or_eq_of_le above with more | equal
                      · exact empty passed more below
                      · rw [← equal, here]

theorem moveEntries_eq (second : TableValid type d.ht1)
    (chain : List (DictEntry Key Value)) :
    ∃ ht1,
      moveEntries type d chain =
        some
          { d with
            ht0 := { d.ht0 with used := d.ht0.used - chain.length }
            ht1 := ht1 } ∧
      TableValid type ht1 ∧
      ht1.table.flatten.Perm (chain ++ d.ht1.table.flatten) := by
  induction chain generalizing d with
  | nil => exact ⟨d.ht1, rfl, second, .rfl⟩
  | cons de nextde inductionHypothesis =>
      obtain ⟨between, inserted, valid, -, perm⟩ := second.insert de
      obtain ⟨ht1, moved, afterValid, afterPerm⟩ :=
        @inductionHypothesis
          { d with
            ht0 := { d.ht0 with used := d.ht0.used - 1 }
            ht1 := between } valid
      refine ⟨ht1, ?_, afterValid, ?_⟩
      · rw [moveEntries, inserted, Option.bind_eq_bind, Option.bind_some,
          moved, List.length_cons, Nat.sub_sub, Nat.add_comm 1]
      · exact afterPerm.trans ((perm.append_left nextde).trans
          List.perm_middle)

/-- While there are entries in the first table, some place has them. -/
theorem TablesValid.ahead (tables : TablesValid type d rehashidx)
    (remaining : d.ht0.used ≠ 0) :
    ∃ index chain, rehashidx ≤ index ∧ index < d.ht0.size ∧
      d.ht0.table[index]? = some chain ∧ chain ≠ [] := by
  have nonempty : d.ht0.table.flatten ≠ [] := by
    intro empty
    apply remaining
    rw [tables.first.used, empty]
    rfl
  obtain ⟨entry, member⟩ := List.exists_mem_of_ne_nil _ nonempty
  obtain ⟨chain, isChain, inChain⟩ := List.mem_flatten.mp member
  obtain ⟨index, isAt⟩ := List.mem_iff_getElem?.mp isChain
  have within := (List.getElem?_eq_some_iff.mp isAt).1
  have some := List.ne_nil_of_mem inChain
  refine ⟨index, chain, ?_, by rw [← tables.first.length]; exact within, isAt,
    some⟩
  by_contra below
  rw [tables.moved index (by omega)] at isAt
  cases isAt
  exact some rfl

theorem TablesValid.lt_size (tables : TablesValid type d rehashidx)
    (remaining : d.ht0.used ≠ 0) : rehashidx < d.ht0.size := by
  obtain ⟨index, chain, least, within, -⟩ := tables.ahead remaining
  omega

/-- Between two chains. -/
theorem TablesValid.dictValid (tables : TablesValid type d rehashidx)
    (distinct : Distinct type.keyCompare (dictEntries d))
    (remaining : d.ht0.used ≠ 0) :
    DictValid type { d with rehashidx := some rehashidx } where
  distinct := distinct
  first := Or.inr tables.first
  alone := by
    intro missing
    cases missing
  rehashing := by
    intro index isIndex
    cases isIndex
    exact ⟨⟨tables.first, tables.second, tables.moved⟩,
      tables.lt_size remaining⟩

theorem finishRehash_rehashed (tables : TablesValid type d rehashidx)
    (distinct : Distinct type.keyCompare (dictEntries d)) :
    Rehashed type d
      (finishRehash { d with rehashidx := some rehashidx }).2 := by
  rw [finishRehash]
  split
  next finished =>
    have empty : d.ht0.table.flatten = [] :=
      List.eq_nil_of_length_eq_zero (by
        rw [← tables.first.used]
        exact finished)
    have same : dictEntries
        { d with ht0 := d.ht1, ht1 := {}, rehashidx := none } =
          dictEntries d := by
      simp [dictEntries, empty]
    refine ⟨⟨?_, Or.inr tables.second, fun _ => rfl, ?_⟩, ?_, rfl⟩
    · exact same ▸ distinct
    · intro index isIndex
      cases isIndex
    · exact same ▸ .rfl
  next remaining =>
    exact ⟨tables.dictValid distinct remaining, .rfl, rfl⟩

/-- A chain is moved to the second table. -/
theorem TablesValid.move (tables : TablesValid type d rehashidx)
    {chain : List (DictEntry Key Value)} {next : Nat}
    (isChain : d.ht0.table[next]? = some chain) (order : rehashidx ≤ next)
    (passed : ∀ index, rehashidx ≤ index → index < next →
      d.ht0.table[index]? = some []) :
    ∃ moved,
      moveEntries type d chain = some moved ∧
      TablesValid type
        { moved with
          ht0 := { moved.ht0 with
            table := moved.ht0.table.set next [] } } (next + 1) ∧
      moved.iterators = d.iterators ∧
      (dictEntries
        { moved with
          ht0 := { moved.ht0 with
            table := moved.ht0.table.set next [] } }).Perm
        (dictEntries d) := by
  obtain ⟨ht1, isMoved, second, perm⟩ := moveEntries_eq tables.second chain
  have within := (List.getElem?_eq_some_iff.mp isChain).1
  have split := flatten_perm isChain
  refine ⟨_, isMoved, ⟨⟨tables.first.sized, ?_, ?_, ?_⟩, second, ?_⟩, rfl, ?_⟩
  · simpa using tables.first.length
  · have count := split.length_eq
    have isUsed := tables.first.used
    simp only [List.length_append] at count
    dsimp only
    omega
  · exact tables.first.placed.set (by simp)
  · intro index below
    by_cases isNext : index = next
    · subst isNext
      simp [within]
    · dsimp only
      rw [List.getElem?_set_ne (Ne.symm isNext)]
      by_cases early : index < rehashidx
      · exact tables.moved index early
      · exact passed index (by omega) (by omega)
  · dsimp only [dictEntries]
    calc
      ((d.ht0.table.set next []).flatten ++ ht1.table.flatten).Perm
          ((d.ht0.table.set next []).flatten ++
            (chain ++ d.ht1.table.flatten)) := perm.append_left _
      _ |>.Perm
          ((d.ht0.table.set next []).flatten ++ chain ++
            d.ht1.table.flatten) := by rw [List.append_assoc]
      _ |>.Perm (d.ht0.table.flatten ++ d.ht1.table.flatten) :=
        (List.perm_append_comm.trans split.symm).append_right _

theorem rehashLoop_rehashed {n emptyVisits : Nat}
    (tables : TablesValid type d rehashidx)
    (distinct : Distinct type.keyCompare (dictEntries d))
    (positive : n ≠ 0 → 0 < emptyVisits) :
    ∃ result, rehashLoop type n emptyVisits rehashidx d = some result ∧
      Rehashed type d result.2 := by
  induction n generalizing emptyVisits rehashidx d with
  | zero => exact ⟨_, rfl, finishRehash_rehashed tables distinct⟩
  | succ n inductionHypothesis =>
      rw [rehashLoop]
      by_cases finished : d.ht0.used = 0
      · rw [if_pos finished]
        exact ⟨_, rfl, finishRehash_rehashed tables distinct⟩
      · have inside := tables.lt_size finished
        obtain ⟨index, bucket, least, -, isAt, nonempty⟩ :=
          tables.ahead finished
        obtain ⟨visit, isVisit, visited⟩ :=
          visitEmpty_visited (positive (by omega))
            ⟨index, bucket, least, isAt, nonempty⟩
        rw [if_neg finished, if_neg (by omega), isVisit]
        cases visit with
        | stopped next =>
            obtain ⟨order, passed⟩ := visited
            have ahead : TablesValid type d next := by
              refine ⟨tables.first, tables.second, ?_⟩
              intro index below
              by_cases early : index < rehashidx
              · exact tables.moved index early
              · exact passed index (by omega) below
            exact ⟨_, rfl, ahead.dictValid distinct finished, .rfl, rfl⟩
        | found next visits chain =>
            obtain ⟨some, isChain, order, passed⟩ := visited
            obtain ⟨moved, isMoved, ahead, iterators, perm⟩ :=
              tables.move isChain order passed
            obtain ⟨result, isResult, rehashed⟩ :=
              inductionHypothesis ahead (distinct.perm perm.symm)
                (fun _ => some)
            refine ⟨result, ?_, rehashed.valid, rehashed.perm.trans perm,
              rehashed.iterators.trans iterators⟩
            dsimp only
            rw [isMoved, Option.bind_eq_bind, Option.bind_some, isResult]

/-- Rehashing moves entries and loses none. -/
theorem DictValid.dictRehash (valid : DictValid type d) (n : Nat) :
    ∃ result, dictRehash type d n = some result ∧
      Rehashed type d result.2 := by
  rw [Redis.dictRehash]
  cases isRehashing : d.rehashidx with
  | none => exact ⟨_, rfl, valid, .rfl, rfl⟩
  | some rehashidx =>
      obtain ⟨tables, -⟩ := valid.rehashing isRehashing
      exact rehashLoop_rehashed tables valid.distinct (by omega)

theorem DictValid.dictRehashStep (valid : DictValid type d) :
    ∃ after, dictRehashStep type d = some after ∧
      Rehashed type d after := by
  rw [Redis.dictRehashStep]
  split
  · obtain ⟨result, isResult, rehashed⟩ := valid.dictRehash 1
    exact ⟨result.2, by rw [isResult]; rfl, rehashed⟩
  · exact ⟨d, rfl, valid, .rfl, rfl⟩

end Rehashing

/-! ## Sizes -/

section Sizes

variable {type : DictType Key} {d : Dict Key Value}

theorem nextPowerLoop_eq {size rounds bits : Nat} (least : 2 ≤ bits)
    (bound : bits ≤ 63) (enough : 63 < bits + rounds)
    (fits : size ≤ 2 ^ 63) :
    ∃ next, 2 ≤ next ∧ next ≤ 63 ∧
      nextPowerLoop size rounds (2 ^ bits) = 2 ^ next ∧ size ≤ 2 ^ next := by
  induction rounds generalizing bits with
  | zero => omega
  | succ rounds inductionHypothesis =>
      rw [nextPowerLoop]
      split
      next large => exact ⟨bits, least, bound, rfl, large⟩
      next small =>
        rw [← Nat.pow_succ]
        have below : bits ≠ 63 := by
          intro last
          rw [last] at small
          omega
        exact inductionHypothesis (by omega) (by omega) (by omega)

theorem dictNextPower_eq (size : Nat) :
    ∃ bits, 2 ≤ bits ∧ bits ≤ 63 ∧ dictNextPower size = 2 ^ bits ∧
      (size < longMax → size ≤ dictNextPower size) := by
  rw [dictNextPower]
  split
  next large => exact ⟨63, by omega, by omega, by decide, by omega⟩
  next small =>
    have fits : size ≤ 2 ^ 63 := by
      rw [longMax] at small
      omega
    obtain ⟨bits, least, bound, isPower, enough⟩ :=
      @nextPowerLoop_eq size 62 2 (by omega) (by omega) (by omega) fits
    exact ⟨bits, least, bound, isPower, fun _ => isPower ▸ enough⟩

@[simp]
theorem flatten_newTable (realsize : Nat) :
    (newTable realsize : Dictht Key Value).table.flatten = [] := by
  simp [newTable]

theorem newTable_valid (type : DictType Key) (size : Nat) :
    TableValid type (newTable (dictNextPower size) : Dictht Key Value) := by
  obtain ⟨bits, least, bound, isPower, -⟩ := dictNextPower_eq size
  exact ⟨⟨bits, least, bound, isPower, by rw [isPower]; rfl⟩,
    by simp [newTable], by simp [newTable], placed_replicate _ _⟩

theorem DictValid.ht0_eq (valid : DictValid type d)
    (empty : d.ht0.table.isEmpty = true) : d.ht0 = {} := by
  rcases valid.first with isEmpty | made
  · exact isEmpty
  · rw [made.table_ne_nil] at empty
    cases empty

theorem DictValid.made (valid : DictValid type d)
    (nonempty : d.ht0.table.isEmpty = false) : TableValid type d.ht0 := by
  rcases valid.first with isEmpty | made
  · rw [isEmpty] at nonempty
    cases nonempty
  · exact made

/-- A change of the size moves no entry yet. -/
theorem DictValid.dictExpand (valid : DictValid type d) (size : Nat) :
    DictValid type (dictExpand d size).2 ∧
      dictEntries (dictExpand d size).2 = dictEntries d ∧
      (dictExpand d size).2.iterators = d.iterators := by
  rw [Redis.dictExpand]
  split
  · exact ⟨valid, rfl, rfl⟩
  next allowed =>
    have isAlone : d.rehashidx = none := by
      simpa [dictIsRehashing] using fun rehashing =>
        allowed (Or.inl rehashing)
    split
    · exact ⟨valid, rfl, rfl⟩
    · split
      next first =>
        have same : dictEntries
            { d with ht0 := newTable (dictNextPower size) } =
              dictEntries d := by
          rw [dictEntries, dictEntries, flatten_newTable, valid.ht0_eq first]
          rfl
        refine ⟨⟨same ▸ valid.distinct, Or.inr (newTable_valid type size),
          valid.alone, ?_⟩, same, rfl⟩
        intro rehashidx isIndex
        rw [isAlone] at isIndex
        cases isIndex
      next other =>
        have made := valid.made (by simpa using other)
        have same : dictEntries
            { d with
              ht1 := newTable (dictNextPower size), rehashidx := some 0 } =
              dictEntries d := by
          rw [dictEntries, dictEntries, flatten_newTable,
            valid.alone isAlone]
          rfl
        refine ⟨⟨same ▸ valid.distinct, Or.inr made, ?_, ?_⟩, same, rfl⟩
        · intro missing
          cases missing
        · intro rehashidx isIndex
          cases isIndex
          have positive := made.size_pos
          exact ⟨⟨made, newTable_valid type size, by omega⟩, by
            dsimp only
            omega⟩

theorem DictValid.dictResize (valid : DictValid type d)
    (dictCanResize : Bool) :
    DictValid type (dictResize dictCanResize d).2 ∧
      dictEntries (dictResize dictCanResize d).2 = dictEntries d ∧
      (dictResize dictCanResize d).2.iterators = d.iterators := by
  rw [Redis.dictResize]
  split
  · exact ⟨valid, rfl, rfl⟩
  · dsimp only
    split
    · exact valid.dictExpand _
    · exact valid.dictExpand _

/-- There is a table for a new key. -/
theorem DictValid.dictExpandIfNeeded (valid : DictValid type d)
    (fits : d.ht0.used * 2 < longMax) (dictCanResize : Bool) :
    (dictExpandIfNeeded dictCanResize d).1 = true ∧
      DictValid type (dictExpandIfNeeded dictCanResize d).2 ∧
      dictEntries (dictExpandIfNeeded dictCanResize d).2 = dictEntries d ∧
      (dictExpandIfNeeded dictCanResize d).2.iterators = d.iterators ∧
      TableValid type (dictExpandIfNeeded dictCanResize d).2.ht0 := by
  rw [Redis.dictExpandIfNeeded]
  split
  next isRehashing =>
    obtain ⟨rehashidx, isIndex⟩ := Option.isSome_iff_exists.mp isRehashing
    exact ⟨rfl, valid, rfl, rfl, (valid.rehashing isIndex).1.first⟩
  next isAlone =>
    have made (positive : d.ht0.size ≠ 0) : TableValid type d.ht0 := by
      rcases valid.first with isEmpty | made
      · rw [isEmpty] at positive
        exact absurd rfl positive
      · exact made
    split
    next noTable =>
      have isEmpty : d.ht0 = {} := by
        rcases valid.first with isEmpty | made
        · exact isEmpty
        · have positive := made.size_pos
          omega
      obtain ⟨after, same, iterators⟩ := valid.dictExpand dictHtInitialSize
      have expanded : Redis.dictExpand d dictHtInitialSize =
          (true,
            { d with ht0 := newTable (dictNextPower dictHtInitialSize) }) := by
        have isPower : dictNextPower dictHtInitialSize ≠ 0 := by decide
        rw [Redis.dictExpand, isEmpty, if_neg (by simpa using isAlone),
          if_neg isPower, if_pos List.isEmpty_nil]
      rw [expanded] at after same iterators ⊢
      exact ⟨rfl, after, same, iterators, newTable_valid type _⟩
    next isTable =>
      have isMade := made isTable
      split
      next full =>
        obtain ⟨after, same, iterators⟩ := valid.dictExpand (d.ht0.used * 2)
        obtain ⟨bits, -, -, -, enough⟩ := dictNextPower_eq (d.ht0.used * 2)
        have larger := enough fits
        have expanded : Redis.dictExpand d (d.ht0.used * 2) =
            (true,
              { d with
                ht1 := newTable (dictNextPower (d.ht0.used * 2))
                rehashidx := some 0 }) := by
          have refuses : ¬ (dictIsRehashing d = true ∨
              d.ht0.used > d.ht0.used * 2) := by
            rintro (rehashing | more)
            · exact isAlone rehashing
            · omega
          rw [Redis.dictExpand, if_neg refuses, if_neg (by omega),
            isMade.table_ne_nil]
          rfl
        rw [expanded] at after same iterators ⊢
        exact ⟨rfl, after, same, iterators, isMade⟩
      · exact ⟨rfl, valid, rfl, rfl, isMade⟩

end Sizes

end NomadiCore.Redis
