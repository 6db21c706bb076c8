import NomadiCore.RedisDict

/-!
# Dictionaries are maps

Whatever the operations of `dict.c` do to the tables on the way, a run of them
gives the answers of a plain map that counts its keys, and no assertion fails:
the server stops only where a new entry finds no memory.
-/

namespace NomadiCore.Redis

open NomadiCore.Library.ChainedTable
open NomadiCore.Library.ReverseCursor

variable {Key Value : Type}

/-! ## Runs -/

inductive DictOp (Key Value : Type) where
  | add (key : Key) (val : Value)
  | replace (key : Key) (val : Value)
  | delete (key : Key)
  | unlink (key : Key)
  | fetchValue (key : Key)
  | size
  | rehash (n : Nat)
  | resize
  | empty
  | startIterator
  | releaseIterator

inductive DictAnswer (Value : Type) where
  | done
  | flag (value : Bool)
  | value (value : Option Value)
  | count (value : Nat)
deriving DecidableEq

/-- An operation, and whether `dict_can_resize` is set when it is called. -/
structure DictEvent (Key Value : Type) where
  dictCanResize : Bool
  op : DictOp Key Value

/-- A map that counts its keys. -/
structure PlainMap (Key Value : Type) where
  lookup : Key → Option Value
  count : Nat

section Machines

variable (type : DictType Key) (memory : Nat)

def dictStep (d : Dict Key Value) (event : DictEvent Key Value) :
    Option (DictAnswer Value × Dict Key Value) :=
  match event.op with
  | .add key val =>
      (dictAdd type memory event.dictCanResize d key val).map fun result =>
        (.flag result.1, result.2)
  | .replace key val =>
      (dictReplace type memory event.dictCanResize d key val).map
        fun result => (.flag result.1, result.2)
  | .delete key =>
      (dictGenericDelete type d key).map fun result =>
        (.flag result.1.isSome, result.2)
  | .unlink key =>
      (dictGenericDelete type d key).map fun result =>
        (.value result.1, result.2)
  | .fetchValue key =>
      (dictFind type d key).map fun result => (.value result.1, result.2)
  | .size => some (.count (dictSize d), d)
  | .rehash n =>
      (dictRehash type d n).map fun result => (.done, result.2)
  | .resize => some (.done, (dictResize event.dictCanResize d).2)
  | .empty => some (.done, dictEmpty d)
  | .startIterator =>
      some (.done, { d with iterators := d.iterators + 1 })
  | .releaseIterator =>
      some (.done, { d with iterators := d.iterators - 1 })

def dictRun (d : Dict Key Value) :
    List (DictEvent Key Value) →
      Option (List (DictAnswer Value) × Dict Key Value)
  | [] => some ([], d)
  | event :: later =>
      (dictStep type memory d event).bind fun result =>
        (dictRun result.2 later).map fun rest =>
          (result.1 :: rest.1, rest.2)

/-- One key is written, or removed. -/
def PlainMap.write (map : PlainMap Key Value) (key : Key)
    (val : Option Value) (count : Nat) : PlainMap Key Value where
  lookup := fun other =>
    if type.keyCompare.same other key then val else map.lookup other
  count := count

def PlainMap.insert (map : PlainMap Key Value) (key : Key) (val : Value) :
    Option (PlainMap Key Value) :=
  if map.count ≥ memory then none
  else some (map.write type key (some val) (map.count + 1))

def PlainMap.erase (map : PlainMap Key Value) (key : Key) :
    PlainMap Key Value :=
  if (map.lookup key).isSome then map.write type key none (map.count - 1)
  else map

def plainStep (map : PlainMap Key Value) :
    DictOp Key Value → Option (DictAnswer Value × PlainMap Key Value)
  | .add key val =>
      if (map.lookup key).isSome then some (.flag false, map)
      else (map.insert type memory key val).map fun map => (.flag true, map)
  | .replace key val =>
      if (map.lookup key).isSome then
        some (.flag false, map.write type key (some val) map.count)
      else (map.insert type memory key val).map fun map => (.flag true, map)
  | .delete key =>
      some (.flag (map.lookup key).isSome, map.erase type key)
  | .unlink key => some (.value (map.lookup key), map.erase type key)
  | .fetchValue key => some (.value (map.lookup key), map)
  | .size => some (.count map.count, map)
  | .empty => some (.done, ⟨fun _ => none, 0⟩)
  | .rehash _ | .resize | .startIterator | .releaseIterator =>
      some (.done, map)

def plainRun (map : PlainMap Key Value) :
    List (DictEvent Key Value) →
      Option (List (DictAnswer Value) × PlainMap Key Value)
  | [] => some ([], map)
  | event :: later =>
      (plainStep type memory map event.op).bind fun result =>
        (plainRun result.2 later).map fun rest =>
          (result.1 :: rest.1, rest.2)

/-- What a dictionary holds. -/
def plainOf (d : Dict Key Value) : PlainMap Key Value where
  lookup := lookup type.keyCompare (dictEntries d)
  count := dictSize d

end Machines

/-! ## One of the tables changes -/

section Changes

variable {type : DictType Key} {d after : Dict Key Value} {which : Which}
  {ht : Dictht Key Value} {key : Key} {val : Value}

def Which.other : Which → Which
  | .first => .second
  | .second => .first

theorem dictEntries_perm (d : Dict Key Value) (which : Which) :
    (dictEntries d).Perm
      ((d.ht which).table.flatten ++
        (d.ht which.other).table.flatten) := by
  cases which with
  | first => exact .rfl
  | second => exact List.perm_append_comm

theorem dictEntries_setHt (d : Dict Key Value) (which : Which)
    (ht : Dictht Key Value) :
    (dictEntries (d.setHt which ht)).Perm
      (ht.table.flatten ++ (d.ht which.other).table.flatten) := by
  cases which with
  | first => exact .rfl
  | second => exact List.perm_append_comm

/-- A table that the operations may use. -/
structure InUse (type : DictType Key) (d : Dict Key Value)
    (which : Which) : Prop where
  made : TableValid type (d.ht which)
  second : which = .second → dictIsRehashing d = true

theorem DictValid.setHt (valid : DictValid type d)
    (inUse : InUse type d which) (made : TableValid type ht)
    (size : ht.size = (d.ht which).size)
    (kept : which = .first → ∀ {rehashidx}, d.rehashidx = some rehashidx →
      ∀ index < rehashidx, ht.table[index]? = some [])
    (distinct : Distinct type.keyCompare (dictEntries (d.setHt which ht))) :
    DictValid type (d.setHt which ht) := by
  cases which with
  | first =>
      refine ⟨distinct, Or.inr made, valid.alone, ?_⟩
      intro rehashidx isIndex
      obtain ⟨tables, inside⟩ := valid.rehashing isIndex
      exact ⟨⟨made, tables.second, kept rfl isIndex⟩, by
        rw [show (d.setHt .first ht).ht0 = ht from rfl, size]
        exact inside⟩
  | second =>
      refine ⟨distinct, valid.first, ?_, ?_⟩
      · intro missing
        have rehashing := inUse.second rfl
        rw [dictIsRehashing, show d.rehashidx = none from missing] at rehashing
        cases rehashing
      · intro rehashidx isIndex
        obtain ⟨tables, inside⟩ := valid.rehashing isIndex
        exact ⟨⟨tables.first, made, tables.moved⟩, inside⟩

theorem DictValid.distinct_ht (valid : DictValid type d) (which : Which) :
    Distinct type.keyCompare (d.ht which).table.flatten :=
  (valid.distinct.perm (dictEntries_perm d which)).sublist
    (List.sublist_append_left _ _)

theorem DictValid.size_eq (valid : DictValid type d) :
    dictSize d = (dictEntries d).length := by
  have first : d.ht0.used = d.ht0.table.flatten.length := by
    rcases valid.first with isEmpty | made
    · rw [isEmpty]
      rfl
    · exact made.used
  have second : d.ht1.used = d.ht1.table.flatten.length := by
    cases isRehashing : d.rehashidx with
    | none =>
        rw [valid.alone isRehashing]
        rfl
    | some rehashidx => exact (valid.rehashing isRehashing).1.second.used
  rw [dictSize, dictEntries, List.length_append, first, second]

theorem DictValid.size_eq_zero_iff (valid : DictValid type d) :
    dictSize d = 0 ↔ dictEntries d = [] := by
  rw [valid.size_eq, List.length_eq_zero_iff]

/-- The order of the entries cannot be seen. -/
theorem plainOf_eq (valid : DictValid type d)
    (afterValid : DictValid type after)
    (perm : (dictEntries after).Perm (dictEntries d)) :
    plainOf type after = plainOf type d := by
  rw [plainOf, plainOf, lookup_perm afterValid.distinct perm, valid.size_eq,
    afterValid.size_eq, perm.length_eq]

theorem Rehashed.plainOf_eq (rehashed : Rehashed type d after)
    (valid : DictValid type d) : plainOf type after = plainOf type d :=
  Redis.plainOf_eq valid rehashed.valid rehashed.perm

theorem DictValid.ht0_made (valid : DictValid type d)
    (nonempty : dictEntries d ≠ []) : TableValid type d.ht0 := by
  rcases valid.first with isEmpty | made
  · cases isRehashing : d.rehashidx with
    | none =>
        rw [dictEntries, isEmpty, valid.alone isRehashing] at nonempty
        exact absurd rfl nonempty
    | some rehashidx => exact (valid.rehashing isRehashing).1.first
  · exact made

/-- Both tables are searched where there are two. -/
theorem DictValid.searchTables (valid : DictValid type d)
    (made : TableValid type d.ht0) (key : Key) :
    ∃ found, searchTables type d key = some found ∧
      found.map (·.2) = lookup type.keyCompare (dictEntries d) key ∧
      ∀ {which val}, found = some (which, val) →
        InUse type d which ∧
        lookup type.keyCompare (d.ht which).table.flatten key =
          some val := by
  have inFirst := made.search (valid.distinct_ht .first) key
  rw [Redis.searchTables, inFirst, dictEntries, lookup_append]
  cases isFirst : lookup type.keyCompare d.ht0.table.flatten key with
  | some val =>
      refine ⟨some (.first, val), rfl, rfl, ?_⟩
      intro which other isFound
      cases isFound
      exact ⟨⟨made, by intro impossible; cases impossible⟩, isFirst⟩
  | none =>
      cases isRehashing : d.rehashidx with
      | none =>
          refine ⟨none, ?_, ?_, ?_⟩
          · simp [dictIsRehashing, isRehashing]
          · rw [valid.alone isRehashing]
            rfl
          · intro which other isFound
            cases isFound
      | some rehashidx =>
          have second := (valid.rehashing isRehashing).1.second
          have inSecond := second.search (valid.distinct_ht .second) key
          cases isSecond :
              lookup type.keyCompare d.ht1.table.flatten key with
          | some val =>
              refine ⟨some (.second, val), ?_, rfl, ?_⟩
              · simp [dictIsRehashing, isRehashing, inSecond, isSecond]
              · intro which other isFound
                cases isFound
                exact ⟨⟨second, fun _ => by
                  simp [dictIsRehashing, isRehashing]⟩, isSecond⟩
          | none =>
              refine ⟨none, ?_, rfl, ?_⟩
              · simp [dictIsRehashing, isRehashing, inSecond, isSecond]
              · intro which other isFound
                cases isFound

/-! ## The operations on the map -/

theorem DictValid.dictFind (valid : DictValid type d) (key : Key) :
    ∃ after,
      dictFind type d key = some ((plainOf type d).lookup key, after) ∧
      Rehashed type d after := by
  rw [Redis.dictFind]
  split
  next isEmpty =>
    have noEntries := valid.size_eq_zero_iff.mp isEmpty
    refine ⟨d, ?_, valid, .rfl, rfl⟩
    rw [plainOf, noEntries]
    rfl
  next nonempty =>
    obtain ⟨after, isAfter, rehashed⟩ := valid.dictRehashStep
    have filled : dictEntries after ≠ [] := by
      intro noEntries
      apply nonempty
      rw [← dictSize, valid.size_eq, ← rehashed.perm.length_eq, noEntries]
      rfl
    obtain ⟨found, isFound, isValue, -⟩ :=
      rehashed.valid.searchTables (rehashed.valid.ht0_made filled) key
    refine ⟨after, ?_, rehashed⟩
    rw [isAfter, Option.bind_eq_bind, Option.bind_some, isFound,
      Option.bind_eq_bind, Option.bind_some, isValue,
      lookup_perm rehashed.valid.distinct rehashed.perm]
    rfl

/-- The entry of a key is taken out, or gets another value. -/
theorem DictValid.change (valid : DictValid type d)
    (inUse : InUse type d which) {old : Value}
    (present : lookup type.keyCompare (d.ht which).table.flatten key =
      some old) :
    (∃ ht, (d.ht which).unlink type key = some ht ∧
      DictValid type (d.setHt which ht) ∧
      plainOf type (d.setHt which ht) =
        (plainOf type d).write type key none ((plainOf type d).count - 1)) ∧
    ∀ new, ∃ ht, (d.ht which).setVal type key new = some ht ∧
      DictValid type (d.setHt which ht) ∧
      plainOf type (d.setHt which ht) =
        (plainOf type d).write type key (some new)
          (plainOf type d).count := by
  obtain ⟨binding, others, matched, -, split, ⟨gone, isGone, step, isErased⟩,
    writes⟩ := inUse.made.exists_entry (valid.distinct_ht which) present
  have whole : (dictEntries d).Perm
      (binding :: (others ++ (d.ht which.other).table.flatten)) :=
    (dictEntries_perm d which).trans (split.append_right _)
  have distinctWhole := valid.distinct.perm whole
  obtain ⟨fresh, distinctRest⟩ := distinct_cons.mp distinctWhole
  have kept {ht : Dictht Key Value}
      (step : TableStep type (d.ht which) ht) (isFirst : which = .first)
      {rehashidx : Nat} (isIndex : d.rehashidx = some rehashidx) :
      ∀ index < rehashidx, ht.table[index]? = some [] := by
    subst isFirst
    intro index below
    exact step.empty index ((valid.rehashing isIndex).1.moved index below)
  have erased (other : Key) :
      lookup type.keyCompare
          (others ++ (d.ht which.other).table.flatten) other =
        if type.keyCompare.same other key then none
        else lookup type.keyCompare (dictEntries d) other := by
    rw [lookup_erased valid.distinct whole,
      KeyRelation.same_congr_right matched]
  have count := whole.length_eq
  rw [List.length_cons, ← valid.size_eq] at count
  constructor
  · have perm := (dictEntries_setHt d which gone).trans
      (isErased.append_right _)
    have afterValid := valid.setHt inUse step.valid step.size (kept step)
      (distinctRest.perm perm.symm)
    refine ⟨gone, isGone, afterValid, ?_⟩
    rw [plainOf, lookup_perm afterValid.distinct perm, afterValid.size_eq,
      perm.length_eq, PlainMap.write]
    congr 1
    · funext other
      exact erased other
    · dsimp only [plainOf]
      omega
  · intro new
    obtain ⟨ht, isHt, written, perm⟩ := writes new
    have permAfter := (dictEntries_setHt d which ht).trans
      (perm.append_right _)
    have distinctAfter : Distinct type.keyCompare
        ({ binding with val := new } ::
          (others ++ (d.ht which.other).table.flatten)) :=
      distinct_cons.mpr ⟨fresh, distinctRest⟩
    have afterValid := valid.setHt inUse written.valid written.size
      (kept written) (distinctAfter.perm permAfter.symm)
    refine ⟨ht, isHt, afterValid, ?_⟩
    rw [plainOf, lookup_perm afterValid.distinct permAfter,
      afterValid.size_eq, permAfter.length_eq, PlainMap.write]
    congr 1
    · funext other
      have isSame : type.keyCompare.same other binding.key =
          type.keyCompare.same other key :=
        (KeyRelation.same_congr_right matched other).symm
      rw [List.cons_append, lookup_cons, erased, isSame]
      cases type.keyCompare.same other key with
      | true => rfl
      | false => rfl
    · rw [plainOf, count]
      rfl

theorem DictValid.dictGenericDelete (valid : DictValid type d)
    (key : Key) :
    ∃ after,
      dictGenericDelete type d key =
        some ((plainOf type d).lookup key, after) ∧
      DictValid type after ∧
      plainOf type after = (plainOf type d).erase type key := by
  rw [Redis.dictGenericDelete]
  split
  next isEmpty =>
    have noEntries := valid.size_eq_zero_iff.mp
      (show d.ht0.used + d.ht1.used = 0 by rw [isEmpty.1, isEmpty.2])
    have missing : (plainOf type d).lookup key = none := by
      rw [plainOf, noEntries]
      rfl
    exact ⟨d, by rw [missing], valid, by simp [PlainMap.erase, missing]⟩
  next nonempty =>
    obtain ⟨between, isBetween, rehashed⟩ := valid.dictRehashStep
    have filled : dictEntries between ≠ [] := by
      intro noEntries
      apply nonempty
      have count := rehashed.perm.length_eq
      rw [noEntries, ← valid.size_eq, dictSize, List.length_nil] at count
      omega
    have same := rehashed.plainOf_eq valid
    obtain ⟨found, isFound, isValue, located⟩ :=
      rehashed.valid.searchTables (rehashed.valid.ht0_made filled) key
    have isLookup : found.map (·.2) = (plainOf type d).lookup key := by
      rw [isValue, ← same]
      rfl
    rw [isBetween, Option.bind_eq_bind, Option.bind_some, isFound,
      Option.bind_eq_bind, Option.bind_some, ← isLookup]
    cases found with
    | none =>
        refine ⟨between, rfl, rehashed.valid, ?_⟩
        rw [same, PlainMap.erase, ← isLookup]
        rfl
    | some place =>
        obtain ⟨which, val⟩ := place
        obtain ⟨inUse, present⟩ := located rfl
        obtain ⟨⟨ht, isHt, afterValid, isAfter⟩, -⟩ :=
          rehashed.valid.change inUse present
        refine ⟨between.setHt which ht, ?_, afterValid, ?_⟩
        · dsimp only
          rw [isHt]
          rfl
        · rw [isAfter, same, PlainMap.erase, ← isLookup]
          rfl

/-- A key gets a place of its own, or has one. -/
theorem DictValid.dictKeyIndex (valid : DictValid type d)
    (fits : dictSize d * 2 < longMax) (dictCanResize : Bool) (key : Key) :
    ∃ index after,
      dictKeyIndex type dictCanResize d key = some (index, after) ∧
      DictValid type after ∧ dictEntries after = dictEntries d ∧
      TableValid type after.ht0 ∧
      ((lookup type.keyCompare (dictEntries d) key = none ∧
          index = .free) ∨
        ∃ which old,
          lookup type.keyCompare (dictEntries d) key = some old ∧
          index = .existing which ∧ InUse type after which ∧
          lookup type.keyCompare (after.ht which).table.flatten key =
            some old) := by
  have few : d.ht0.used * 2 < longMax := by
    rw [dictSize] at fits
    omega
  obtain ⟨expanded, afterValid, same, -, made⟩ :=
    valid.dictExpandIfNeeded few dictCanResize
  obtain ⟨found, isFound, isValue, located⟩ :=
    afterValid.searchTables made key
  rw [same] at isValue
  rw [Redis.dictKeyIndex]
  simp only [expanded, Bool.not_true, Bool.false_eq_true, if_false]
  rw [isFound, Option.bind_eq_bind, Option.bind_some]
  cases found with
  | none =>
      exact ⟨_, _, rfl, afterValid, same, made, Or.inl ⟨isValue.symm, rfl⟩⟩
  | some place =>
      obtain ⟨which, old⟩ := place
      obtain ⟨inUse, present⟩ := located rfl
      exact ⟨_, _, rfl, afterValid, same, made,
        Or.inr ⟨which, old, isValue.symm, rfl, inUse, present⟩⟩

/-- A new entry goes to the table that takes new entries. -/
theorem DictValid.insert (valid : DictValid type d)
    (made : TableValid type d.ht0)
    (missing : (plainOf type d).lookup key = none) (val : Value) :
    ∃ ht,
      (d.ht d.target).insert type ⟨key, val⟩ = some ht ∧
      DictValid type (d.setHt d.target ht) ∧
      plainOf type (d.setHt d.target ht) =
        (plainOf type d).write type key (some val)
          ((plainOf type d).count + 1) := by
  have inUse : InUse type d d.target := by
    rw [Dict.target]
    split
    next isRehashing =>
      obtain ⟨rehashidx, isIndex⟩ := Option.isSome_iff_exists.mp isRehashing
      exact ⟨(valid.rehashing isIndex).1.second, fun _ => isRehashing⟩
    · exact ⟨made, by intro impossible; cases impossible⟩
  have kept {ht : Dictht Key Value} (isFirst : d.target = .first)
      {rehashidx : Nat} (isIndex : d.rehashidx = some rehashidx) :
      ∀ index < rehashidx, ht.table[index]? = some [] := by
    rw [Dict.target, dictIsRehashing, isIndex] at isFirst
    cases isFirst
  obtain ⟨ht, isHt, afterMade, size, perm⟩ := inUse.made.insert ⟨key, val⟩
  have whole : (dictEntries (d.setHt d.target ht)).Perm
      (⟨key, val⟩ :: dictEntries d) :=
    (dictEntries_setHt d d.target ht).trans
      ((perm.append_right _).trans
        ((dictEntries_perm d d.target).symm.cons _))
  have distinct : Distinct type.keyCompare
      (⟨key, val⟩ :: dictEntries d) :=
    distinct_cons.mpr ⟨missing, valid.distinct⟩
  have afterValid := valid.setHt inUse afterMade size kept
    (distinct.perm whole.symm)
  refine ⟨ht, isHt, afterValid, ?_⟩
  rw [plainOf, lookup_perm afterValid.distinct whole, afterValid.size_eq,
    whole.length_eq, PlainMap.write]
  congr 1
  · funext other
    rw [lookup_cons]
    rfl
  · rw [List.length_cons, ← valid.size_eq]
    rfl

section Additions

variable {memory : Nat}

/-- What `dictAddRaw` does before it decides. -/
theorem DictValid.stepKeyIndex (valid : DictValid type d)
    (fits : dictSize d * 2 < longMax) (dictCanResize : Bool) (key : Key) :
    ∃ between index after,
      Redis.dictRehashStep type d = some between ∧
      Redis.dictKeyIndex type dictCanResize between key =
        some (index, after) ∧
      DictValid type after ∧ plainOf type after = plainOf type d ∧
      TableValid type after.ht0 ∧
      (((plainOf type d).lookup key = none ∧ index = .free) ∨
        ∃ which old,
          (plainOf type d).lookup key = some old ∧
          index = .existing which ∧ InUse type after which ∧
          lookup type.keyCompare (after.ht which).table.flatten key =
            some old) := by
  obtain ⟨between, isBetween, rehashed⟩ := valid.dictRehashStep
  have same := rehashed.plainOf_eq valid
  have size : dictSize between = dictSize d :=
    congrArg PlainMap.count same
  obtain ⟨index, after, isIndex, afterValid, entries, made, whether⟩ :=
    rehashed.valid.dictKeyIndex (by omega) dictCanResize key
  have afterSame := Redis.plainOf_eq rehashed.valid afterValid
    (by rw [entries])
  refine ⟨between, index, after, isBetween, isIndex, afterValid,
    afterSame.trans same, made, ?_⟩
  rw [← same]
  exact whether

/-- A new key needs memory. -/
theorem DictValid.dictAddRaw_free (valid : DictValid type d)
    (fits : dictSize d * 2 < longMax) (dictCanResize : Bool)
    (missing : (plainOf type d).lookup key = none) (val : Value) :
    (dictSize d ≥ memory ∧
      dictAddRaw type memory dictCanResize d key val = none) ∨
    (¬ dictSize d ≥ memory ∧ ∃ after,
      dictAddRaw type memory dictCanResize d key val = some (.free, after) ∧
      DictValid type after ∧
      plainOf type after =
        (plainOf type d).write type key (some val)
          ((plainOf type d).count + 1)) := by
  obtain ⟨between, index, found, isBetween, isFound, foundValid, same, made,
    ⟨-, rfl⟩ | ⟨which, old, isThere, -⟩⟩ :=
    valid.stepKeyIndex fits dictCanResize key
  · have size : dictSize found = dictSize d := congrArg PlainMap.count same
    rw [dictAddRaw, isBetween, Option.bind_eq_bind, Option.bind_some,
      isFound, Option.bind_eq_bind, Option.bind_some]
    dsimp only
    rw [size]
    by_cases full : dictSize d ≥ memory
    · exact Or.inl ⟨full, if_pos full⟩
    · obtain ⟨ht, isHt, afterValid, isAfter⟩ :=
        foundValid.insert made (by rw [same]; exact missing) val
      refine Or.inr ⟨full, found.setHt found.target ht, ?_, afterValid, ?_⟩
      · rw [if_neg full, isHt]
        rfl
      · rw [isAfter, same]
  · rw [missing] at isThere
    cases isThere

theorem DictValid.dictAddRaw_existing (valid : DictValid type d)
    (fits : dictSize d * 2 < longMax) (dictCanResize : Bool) {old : Value}
    (present : (plainOf type d).lookup key = some old) (val : Value) :
    ∃ which after,
      dictAddRaw type memory dictCanResize d key val =
        some (.existing which, after) ∧
      DictValid type after ∧ plainOf type after = plainOf type d ∧
      InUse type after which ∧
      lookup type.keyCompare (after.ht which).table.flatten key =
        some old := by
  obtain ⟨between, index, found, isBetween, isFound, foundValid, same, -,
    ⟨isMissing, -⟩ | ⟨which, other, isThere, rfl, inUse, inTable⟩⟩ :=
    valid.stepKeyIndex fits dictCanResize key
  · rw [present] at isMissing
    cases isMissing
  · rw [present] at isThere
    cases isThere
    refine ⟨which, found, ?_, foundValid, same, inUse, inTable⟩
    rw [dictAddRaw, isBetween, Option.bind_eq_bind, Option.bind_some,
      isFound]
    rfl

end Additions

end Changes

/-! ## Agreement -/

section Agreement

variable {type : DictType Key} {memory : Nat} {d : Dict Key Value}

/-- The same answer from a valid dictionary that holds the plain map. -/
def Agrees (type : DictType Key) {Answer : Type}
    (result : Option (Answer × Dict Key Value))
    (plain : Option (Answer × PlainMap Key Value)) : Prop :=
  result.map (fun pair => (pair.1, plainOf type pair.2)) = plain ∧
    ∀ pair ∈ result, DictValid type pair.2

theorem Agrees.of_some {Answer : Type} {answer : Answer}
    {after : Dict Key Value} {map : PlainMap Key Value}
    (valid : DictValid type after) (same : plainOf type after = map) :
    Agrees type (some (answer, after)) (some (answer, map)) := by
  refine ⟨by rw [← same]; rfl, ?_⟩
  intro pair isPair
  cases isPair
  exact valid

theorem Agrees.of_none {Answer : Type} :
    Agrees type (none : Option (Answer × Dict Key Value)) none :=
  ⟨rfl, by intro pair impossible; cases impossible⟩

theorem Agrees.map {Answer Other : Type}
    {result : Option (Answer × Dict Key Value)}
    {plain : Option (Answer × PlainMap Key Value)}
    (agrees : Agrees type result plain) (shown : Answer → Other) :
    Agrees type (result.map fun pair => (shown pair.1, pair.2))
      (plain.map fun pair => (shown pair.1, pair.2)) := by
  obtain ⟨same, valid⟩ := agrees
  cases result with
  | none =>
      rw [← same]
      exact Agrees.of_none
  | some pair =>
      rw [← same]
      exact Agrees.of_some (valid pair rfl) rfl

theorem dictValid_empty (type : DictType Key) (iterators : Word) :
    DictValid type ({ iterators } : Dict Key Value) where
  distinct := List.Pairwise.nil
  first := Or.inl rfl
  alone := fun _ => rfl
  rehashing := by
    intro rehashidx isIndex
    cases isIndex

/-- Only the tables matter. -/
theorem DictValid.setIterators (valid : DictValid type d)
    (iterators : Word) : DictValid type { d with iterators } where
  distinct := valid.distinct
  first := valid.first
  alone := valid.alone
  rehashing := fun isIndex =>
    ⟨⟨(valid.rehashing isIndex).1.first, (valid.rehashing isIndex).1.second,
      (valid.rehashing isIndex).1.moved⟩, (valid.rehashing isIndex).2⟩

section Additions

variable (valid : DictValid type d) (fits : dictSize d * 2 < longMax)
include valid fits

theorem dictAdd_agrees (dictCanResize : Bool) (key : Key) (val : Value) :
    Agrees type (dictAdd type memory dictCanResize d key val)
      (if ((plainOf type d).lookup key).isSome then
        some (false, plainOf type d)
      else ((plainOf type d).insert type memory key val).map
        fun map => (true, map)) := by
  rw [dictAdd]
  cases isLookup : (plainOf type d).lookup key with
  | some old =>
      obtain ⟨which, after, added, afterValid, same, -⟩ :=
        valid.dictAddRaw_existing fits dictCanResize isLookup val
      rw [added]
      exact Agrees.of_some afterValid same
  | none =>
      simp only [Option.isSome_none, Bool.false_eq_true, if_false]
      rcases valid.dictAddRaw_free fits dictCanResize isLookup val with
        ⟨full, stopped⟩ | ⟨free, after, added, afterValid, same⟩
      · rw [stopped, PlainMap.insert, if_pos (by exact full)]
        exact Agrees.of_none
      · rw [added, PlainMap.insert, if_neg (by exact free)]
        exact Agrees.of_some afterValid same

theorem dictReplace_agrees (dictCanResize : Bool) (key : Key)
    (val : Value) :
    Agrees type (dictReplace type memory dictCanResize d key val)
      (if ((plainOf type d).lookup key).isSome then
        some (false,
          (plainOf type d).write type key (some val) (plainOf type d).count)
      else ((plainOf type d).insert type memory key val).map
        fun map => (true, map)) := by
  rw [dictReplace]
  cases isLookup : (plainOf type d).lookup key with
  | some old =>
      obtain ⟨which, between, added, betweenValid, same, inUse, present⟩ :=
        valid.dictAddRaw_existing fits dictCanResize isLookup val
      obtain ⟨-, writes⟩ := betweenValid.change inUse present
      obtain ⟨ht, isHt, afterValid, isAfter⟩ := writes val
      rw [added, Option.bind_eq_bind, Option.bind_some]
      dsimp only
      rw [dictSetVal, isHt]
      exact Agrees.of_some afterValid (by rw [isAfter, same])
  | none =>
      simp only [Option.isSome_none, Bool.false_eq_true, if_false]
      rcases valid.dictAddRaw_free fits dictCanResize isLookup val with
        ⟨full, stopped⟩ | ⟨free, after, added, afterValid, same⟩
      · rw [stopped, PlainMap.insert, if_pos (by exact full)]
        exact Agrees.of_none
      · rw [added, PlainMap.insert, if_neg (by exact free)]
        exact Agrees.of_some afterValid same

end Additions

theorem Agrees.map_map {Answer Other : Type}
    {result : Option (Answer × Dict Key Value)} {same : Bool}
    {kept : Answer × PlainMap Key Value}
    {inserted : Option (PlainMap Key Value)} {answer : Answer}
    (agrees : Agrees type result
      (if same then some kept else inserted.map fun map => (answer, map)))
    (shown : Answer → Other) :
    Agrees type (result.map fun pair => (shown pair.1, pair.2))
      (if same then some (shown kept.1, kept.2)
      else inserted.map fun map => (shown answer, map)) := by
  have mapped := agrees.map shown
  cases same with
  | true => exact mapped
  | false => simpa [Function.comp_def] using mapped

/-- Every operation answers as the plain map does. -/
theorem dictStep_agrees (room : memory ≤ 2 ^ 59)
    (valid : DictValid type d) (fits : dictSize d ≤ memory)
    (event : DictEvent Key Value) :
    Agrees type (dictStep type memory d event)
      (plainStep type memory (plainOf type d) event.op) := by
  have few : dictSize d * 2 < longMax := by
    rw [longMax]
    omega
  obtain ⟨dictCanResize, op⟩ := event
  cases op with
  | add key val =>
      exact (dictAdd_agrees valid few dictCanResize key val).map_map
        DictAnswer.flag
  | replace key val =>
      exact (dictReplace_agrees valid few dictCanResize key val).map_map
        DictAnswer.flag
  | delete key =>
      obtain ⟨after, deleted, afterValid, same⟩ :=
        valid.dictGenericDelete key
      dsimp only [dictStep]
      rw [deleted]
      exact Agrees.of_some afterValid same
  | unlink key =>
      obtain ⟨after, deleted, afterValid, same⟩ :=
        valid.dictGenericDelete key
      dsimp only [dictStep]
      rw [deleted]
      exact Agrees.of_some afterValid same
  | fetchValue key =>
      obtain ⟨after, found, rehashed⟩ := valid.dictFind key
      dsimp only [dictStep]
      rw [found]
      exact Agrees.of_some rehashed.valid (rehashed.plainOf_eq valid)
  | size => exact Agrees.of_some valid rfl
  | rehash n =>
      obtain ⟨result, isResult, rehashed⟩ := valid.dictRehash n
      dsimp only [dictStep]
      rw [isResult]
      exact Agrees.of_some rehashed.valid (rehashed.plainOf_eq valid)
  | resize =>
      obtain ⟨afterValid, same, -⟩ := valid.dictResize dictCanResize
      exact Agrees.of_some afterValid
        (plainOf_eq valid afterValid (by rw [same]))
  | empty => exact Agrees.of_some (dictValid_empty type 0) rfl
  | startIterator => exact Agrees.of_some (valid.setIterators _) rfl
  | releaseIterator => exact Agrees.of_some (valid.setIterators _) rfl

theorem PlainMap.eq_write_of_insert {map after : PlainMap Key Value}
    {key : Key} {val : Value}
    (inserted : map.insert type memory key val = some after) :
    after = map.write type key (some val) (map.count + 1) ∧
      map.count < memory := by
  rw [PlainMap.insert] at inserted
  split at inserted
  · cases inserted
  next free =>
    cases inserted
    exact ⟨rfl, by omega⟩

theorem PlainMap.erase_count (map : PlainMap Key Value) (key : Key) :
    (map.erase type key).count ≤ map.count := by
  rw [PlainMap.erase]
  split
  · dsimp only [PlainMap.write]
    omega
  · exact Nat.le_refl _

theorem plainStep_count {map : PlainMap Key Value}
    (fits : map.count ≤ memory) {op : DictOp Key Value}
    {result : DictAnswer Value × PlainMap Key Value}
    (stepped : plainStep type memory map op = some result) :
    result.2.count ≤ memory := by
  cases op with
  | add key val =>
      rw [plainStep] at stepped
      split at stepped
      · cases stepped
        exact fits
      · obtain ⟨after, inserted, rfl⟩ := Option.map_eq_some_iff.mp stepped
        obtain ⟨rfl, free⟩ := PlainMap.eq_write_of_insert inserted
        exact free
  | replace key val =>
      rw [plainStep] at stepped
      split at stepped
      · cases stepped
        exact fits
      · obtain ⟨after, inserted, rfl⟩ := Option.map_eq_some_iff.mp stepped
        obtain ⟨rfl, free⟩ := PlainMap.eq_write_of_insert inserted
        exact free
  | delete key =>
      cases stepped
      exact Nat.le_trans (map.erase_count key) fits
  | unlink key =>
      cases stepped
      exact Nat.le_trans (map.erase_count key) fits
  | empty =>
      cases stepped
      exact Nat.zero_le _
  | fetchValue key => cases stepped; exact fits
  | size => cases stepped; exact fits
  | rehash n => cases stepped; exact fits
  | resize => cases stepped; exact fits
  | startIterator => cases stepped; exact fits
  | releaseIterator => cases stepped; exact fits

theorem plainRun_count {map : PlainMap Key Value}
    (fits : map.count ≤ memory) {events : List (DictEvent Key Value)}
    {result : List (DictAnswer Value) × PlainMap Key Value}
    (ran : plainRun type memory map events = some result) :
    result.2.count ≤ memory := by
  induction events generalizing map result with
  | nil =>
      cases ran
      exact fits
  | cons event later inductionHypothesis =>
      obtain ⟨stepResult, stepped, rest⟩ := Option.bind_eq_some_iff.mp ran
      obtain ⟨laterResult, laterRan, rfl⟩ := Option.map_eq_some_iff.mp rest
      have counted :=
        inductionHypothesis (plainStep_count fits stepped) laterRan
      exact counted

theorem dictRun_agrees (room : memory ≤ 2 ^ 59) (valid : DictValid type d)
    (fits : dictSize d ≤ memory) (events : List (DictEvent Key Value)) :
    Agrees type (dictRun type memory d events)
      (plainRun type memory (plainOf type d) events) := by
  induction events generalizing d with
  | nil => exact Agrees.of_some valid rfl
  | cons event later inductionHypothesis =>
      obtain ⟨same, afterValid⟩ := dictStep_agrees room valid fits event
      rw [dictRun, plainRun, ← same]
      cases stepped : dictStep type memory d event with
      | none => exact Agrees.of_none
      | some result =>
          have count : dictSize result.2 ≤ memory := by
            rw [stepped] at same
            exact @plainStep_count _ _ type memory (plainOf type d) fits _ _
              same.symm
          exact (inductionHypothesis (afterValid result stepped) count).map
            (result.1 :: ·)

end Agreement

/-! ## Whole runs -/

/--
A dictionary answers as the plain map whose keys there is memory for, however
its tables grow, shrink and are rehashed on the way; an entry has 24 bytes, so
the addresses of 64 bits do not suffice for this many.
-/
theorem dictionary_is_map (type : DictType Key) {memory : Nat}
    (room : memory ≤ 2 ^ 59) (events : List (DictEvent Key Value)) :
    (dictRun type memory {} events).map
        (fun result => (result.1, plainOf type result.2)) =
      plainRun type memory ⟨fun _ => none, 0⟩ events :=
  (dictRun_agrees room (dictValid_empty type 0) (Nat.zero_le memory)
    events).1

/-- Keys that are compared byte by byte, as the keys of a database are. -/
def exactDictType [DecidableEq Key] (hashFunction : Key → Word) :
    DictType Key where
  keyCompare :=
    { same := fun first second => first == second
      refl := fun key => beq_self_eq_true key
      symm := by
        intro first second isSame
        rw [eq_of_beq isSame]
        exact beq_self_eq_true second
      trans := by
        intro first second third left right
        rw [eq_of_beq left]
        exact right }
  hashFunction := hashFunction
  hash_congr := by
    intro first second isSame
    rw [eq_of_beq isSame]

/-- The fifth key starts a rehashing, during which a key is unlinked. -/
def numberEvents : List (DictEvent Nat Nat) :=
  [⟨true, .add 1 10⟩, ⟨true, .add 5 50⟩, ⟨true, .add 2 20⟩,
    ⟨true, .add 3 30⟩, ⟨true, .add 4 40⟩, ⟨true, .replace 5 51⟩,
    ⟨true, .unlink 1⟩, ⟨true, .add 5 52⟩, ⟨true, .fetchValue 5⟩,
    ⟨true, .size⟩]

theorem dictionary_is_map_numbers :
    (dictRun (exactDictType (BitVec.ofNat 64)) 1000 {} numberEvents).map
        (·.1) =
      some [.flag true, .flag true, .flag true, .flag true, .flag true,
        .flag false, .value (some 10), .flag false, .value (some 51),
        .count 4] := by
  have answers := congrArg (Option.map Prod.fst)
    (dictionary_is_map (exactDictType (BitVec.ofNat 64))
      (show 1000 ≤ 2 ^ 59 by decide) numberEvents)
  rw [Option.map_map] at answers
  exact answers.trans (by decide)

end NomadiCore.Redis
