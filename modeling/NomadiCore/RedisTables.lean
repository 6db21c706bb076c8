import NomadiCore.RedisDictMap
import NomadiCore.RedisKeyspace

/-!
# The key space in hash tables

The functions of `db.c` on the two dictionaries of a database, with the calls
of `dict.c` they make.  Between them the server rehashes and resizes the
tables.  The key space that the commands are modelled on is what these
dictionaries hold.
-/

namespace NomadiCore.Redis

open NomadiCore.Library.ChainedTable

/-- A database with its tables. -/
structure TableDb where
  dict : Dict Sds Object := {}
  expires : Dict Sds Int := {}

/-! ## The functions -/

section Functions

variable (dictSdsHash : Sds → Word) (memory : Nat) (dictCanResize : Bool)

/-- The keys of a database are compared byte by byte. -/
def dbDictType : DictType Sds := exactDictType dictSdsHash

namespace TableDb

def lookupKey (db : TableDb) (key : Sds) :
    Option (Option Object × TableDb) := do
  let de ← dictFind (dbDictType dictSdsHash) db.dict key
  some (de.1, { db with dict := de.2 })

def dbAdd (db : TableDb) (key : Sds) (val : Object) : Option TableDb := do
  let retval ← dictAdd (dbDictType dictSdsHash) memory dictCanResize db.dict
    key val
  if retval.1 then some { db with dict := retval.2 } else none

/-- The value is set in the entry that was found. -/
def dbOverwrite (db : TableDb) (key : Sds) (val : Object) :
    Option TableDb := do
  let de ← dictFind (dbDictType dictSdsHash) db.dict key
  let _ ← de.1
  let found ← searchTables (dbDictType dictSdsHash) de.2 key
  let place ← found
  let dict ← dictSetVal (dbDictType dictSdsHash) de.2 place.1 key val
  some { db with dict }

/-- The first part of `dbSyncDelete`. -/
def deleteTime (db : TableDb) (key : Sds) : Option (Dict Sds Int) :=
  if dictSize db.expires > 0 then
    (dictGenericDelete (dbDictType dictSdsHash) db.expires key).map (·.2)
  else some db.expires

def dbSyncDelete (db : TableDb) (key : Sds) : Option (Bool × TableDb) := do
  let expires ← db.deleteTime dictSdsHash key
  let deleted ← dictGenericDelete (dbDictType dictSdsHash) db.dict key
  some (deleted.1.isSome, { dict := deleted.2, expires })

def removeExpire (db : TableDb) (key : Sds) :
    Option (Bool × TableDb) := do
  let kde ← dictFind (dbDictType dictSdsHash) db.dict key
  let _ ← kde.1
  let deleted ← dictGenericDelete (dbDictType dictSdsHash) db.expires key
  some (deleted.1.isSome, { dict := kde.2, expires := deleted.2 })

/-- `dictAddOrFind` and the value of its entry are a `dictReplace`. -/
def setExpire (db : TableDb) (key : Sds) (time : Int) :
    Option TableDb := do
  let kde ← dictFind (dbDictType dictSdsHash) db.dict key
  let _ ← kde.1
  let de ← dictReplace (dbDictType dictSdsHash) memory dictCanResize
    db.expires key time
  some { dict := kde.2, expires := de.2 }

def getExpire (db : TableDb) (key : Sds) : Option (Int × TableDb) :=
  if dictSize db.expires = 0 then some (-1, db)
  else do
    let de ← dictFind (dbDictType dictSdsHash) db.expires key
    match de.1 with
    | none => some (-1, { db with expires := de.2 })
    | some time =>
        let kde ← dictFind (dbDictType dictSdsHash) db.dict key
        let _ ← kde.1
        some (time, { dict := kde.2, expires := de.2 })

end TableDb

end Functions

/-! ## Runs -/

/-- What is done to a database; the last three are done by the server. -/
inductive DbOp where
  | lookupKey (key : Sds)
  | dbAdd (key : Sds) (val : Object)
  | dbOverwrite (key : Sds) (val : Object)
  | dbSyncDelete (key : Sds)
  | removeExpire (key : Sds)
  | setExpire (key : Sds) (time : Int)
  | getExpire (key : Sds)
  | rehashKeys (n : Nat)
  | rehashExpires (n : Nat)
  | resize

inductive DbAnswer where
  | done
  | object (value : Option Object)
  | flag (value : Bool)
  | time (value : Int)
deriving DecidableEq

/-- An operation, and whether `dict_can_resize` is set when it is called. -/
structure DbEvent where
  dictCanResize : Bool
  op : DbOp

section Machines

variable (dictSdsHash : Sds → Word) (memory : Nat)

def tableStep (db : TableDb) (event : DbEvent) :
    Option (DbAnswer × TableDb) :=
  match event.op with
  | .lookupKey key =>
      (db.lookupKey dictSdsHash key).map fun result =>
        (.object result.1, result.2)
  | .dbAdd key val =>
      (db.dbAdd dictSdsHash memory event.dictCanResize key val).map
        fun db => (.done, db)
  | .dbOverwrite key val =>
      (db.dbOverwrite dictSdsHash key val).map fun db => (.done, db)
  | .dbSyncDelete key =>
      (db.dbSyncDelete dictSdsHash key).map fun result =>
        (.flag result.1, result.2)
  | .removeExpire key =>
      (db.removeExpire dictSdsHash key).map fun result =>
        (.flag result.1, result.2)
  | .setExpire key time =>
      (db.setExpire dictSdsHash memory event.dictCanResize key time).map
        fun db => (.done, db)
  | .getExpire key =>
      (db.getExpire dictSdsHash key).map fun result =>
        (.time result.1, result.2)
  | .rehashKeys n =>
      (dictRehash (dbDictType dictSdsHash) db.dict n).map fun result =>
        (.done, { db with dict := result.2 })
  | .rehashExpires n =>
      (dictRehash (dbDictType dictSdsHash) db.expires n).map fun result =>
        (.done, { db with expires := result.2 })
  | .resize =>
      some (.done,
        { dict := (dictResize event.dictCanResize db.dict).2
          expires := (dictResize event.dictCanResize db.expires).2 })

def tableRun (db : TableDb) :
    List DbEvent → Option (List DbAnswer × TableDb)
  | [] => some ([], db)
  | event :: later =>
      (tableStep dictSdsHash memory db event).bind fun result =>
        (tableRun result.2 later).map fun rest =>
          (result.1 :: rest.1, rest.2)

end Machines

/-- The operations on the key space of the commands. -/
def keyspaceStep (db : RedisDb) : DbOp → Option (DbAnswer × RedisDb)
  | .lookupKey key => some (.object (db.dict key), db)
  | .dbAdd key val => (dbAdd db key val).map fun db => (.done, db)
  | .dbOverwrite key val =>
      (dbOverwrite db key val).map fun db => (.done, db)
  | .dbSyncDelete key =>
      some (.flag (dbSyncDelete db key).1, (dbSyncDelete db key).2)
  | .removeExpire key =>
      (removeExpire db key).map fun result => (.flag result.1, result.2)
  | .setExpire key time =>
      (setExpire db key time).map fun db => (.done, db)
  | .getExpire key =>
      (getExpire db key).map fun time => (.time time, db)
  | .rehashKeys _ | .rehashExpires _ | .resize => some (.done, db)

def keyspaceRun (db : RedisDb) :
    List DbEvent → Option (List DbAnswer × RedisDb)
  | [] => some ([], db)
  | event :: later =>
      (keyspaceStep db event.op).bind fun result =>
        (keyspaceRun result.2 later).map fun rest =>
          (result.1 :: rest.1, rest.2)

/-- The key space that the tables hold. -/
def keyspaceOf (dictSdsHash : Sds → Word) (db : TableDb) : RedisDb where
  dict := (plainOf (dbDictType dictSdsHash) db.dict).lookup
  expires := (plainOf (dbDictType dictSdsHash) db.expires).lookup

/-! ## One dictionary -/

section Dictionaries

variable {Value : Type} {dictSdsHash : Sds → Word} {memory count : Nat}
  {d : Dict Sds Value} {map : Sds → Option Value} {key : Sds}

/-- A dictionary with at most this many keys that holds a map. -/
structure DictHolds (dictSdsHash : Sds → Word) (d : Dict Sds Value)
    (map : Sds → Option Value) (count : Nat) : Prop where
  valid : DictValid (dbDictType dictSdsHash) d
  isMap : (plainOf (dbDictType dictSdsHash) d).lookup = map
  size : dictSize d ≤ count

theorem lookup_write (map : PlainMap Sds Value) (key : Sds)
    (val : Option Value) (count : Nat) :
    (map.write (dbDictType dictSdsHash) key val count).lookup =
      Function.update map.lookup key val := by
  funext other
  by_cases same : other = key
  · subst same
    rw [Function.update_self]
    exact if_pos ((dbDictType dictSdsHash).keyCompare.refl other)
  · have different :
        ¬ (dbDictType dictSdsHash).keyCompare.same other key = true :=
      fun isSame => same (eq_of_beq isSame)
    rw [Function.update_of_ne same]
    exact if_neg different

theorem Agrees.exists_of_some {Answer Key : Type} {type : DictType Key}
    {result : Option (Answer × Dict Key Value)} {answer : Answer}
    {map : PlainMap Key Value}
    (agrees : Agrees type result (some (answer, map))) :
    ∃ after, result = some (answer, after) ∧ DictValid type after ∧
      plainOf type after = map := by
  obtain ⟨same, valid⟩ := agrees
  obtain ⟨pair, isPair, isSame⟩ := Option.map_eq_some_iff.mp same
  obtain ⟨given, after⟩ := pair
  cases isSame
  exact ⟨after, isPair, valid _ isPair, rfl⟩

theorem DictHolds.find (holds : DictHolds dictSdsHash d map count)
    (key : Sds) :
    ∃ after, dictFind (dbDictType dictSdsHash) d key =
        some (map key, after) ∧
      DictHolds dictSdsHash after map count := by
  obtain ⟨after, isAfter, rehashed⟩ := holds.valid.dictFind key
  have same := rehashed.plainOf_eq holds.valid
  refine ⟨after, by rw [isAfter, holds.isMap], rehashed.valid, ?_, ?_⟩
  · rw [same, holds.isMap]
  · exact Nat.le_trans (Nat.le_of_eq (congrArg PlainMap.count same))
      holds.size

theorem DictHolds.delete (holds : DictHolds dictSdsHash d map count)
    (key : Sds) :
    ∃ after, dictGenericDelete (dbDictType dictSdsHash) d key =
        some (map key, after) ∧
      DictHolds dictSdsHash after (Function.update map key none)
        count := by
  obtain ⟨after, isAfter, valid, same⟩ := holds.valid.dictGenericDelete key
  refine ⟨after, by rw [isAfter, holds.isMap], valid, ?_, ?_⟩
  · rw [same, PlainMap.erase]
    split
    · rw [lookup_write, holds.isMap]
    next missing =>
      rw [holds.isMap] at missing ⊢
      have isNone : map key = none := by simpa using missing
      rw [← isNone, Function.update_eq_self]
  · have smaller := @PlainMap.erase_count _ _ (dbDictType dictSdsHash)
      (plainOf (dbDictType dictSdsHash) d) key
    rw [← same] at smaller
    exact Nat.le_trans smaller holds.size

theorem DictHolds.few (holds : DictHolds dictSdsHash d map count)
    (room : memory ≤ 2 ^ 59) (free : count < memory) :
    dictSize d * 2 < longMax := by
  have size := holds.size
  rw [longMax]
  omega

theorem DictHolds.insert (holds : DictHolds dictSdsHash d map count)
    (free : count < memory) (val : Value) :
    (plainOf (dbDictType dictSdsHash) d).insert (dbDictType dictSdsHash)
        memory key val =
      some ((plainOf (dbDictType dictSdsHash) d).write
        (dbDictType dictSdsHash) key (some val) (dictSize d + 1)) := by
  have size := holds.size
  rw [PlainMap.insert]
  refine if_neg ?_
  dsimp only [plainOf]
  omega

theorem DictHolds.written (holds : DictHolds dictSdsHash d map count)
    {after : Dict Sds Value} {val : Value} {larger : Nat}
    (valid : DictValid (dbDictType dictSdsHash) after)
    (same : plainOf (dbDictType dictSdsHash) after =
      (plainOf (dbDictType dictSdsHash) d).write (dbDictType dictSdsHash)
        key (some val) larger)
    (bound : larger ≤ dictSize d + 1) :
    DictHolds dictSdsHash after (Function.update map key (some val))
      (count + 1) := by
  refine ⟨valid, ?_, ?_⟩
  · rw [same, lookup_write, holds.isMap]
  · have isSize : dictSize after = larger := congrArg PlainMap.count same
    have size := holds.size
    omega

theorem DictHolds.add (holds : DictHolds dictSdsHash d map count)
    (room : memory ≤ 2 ^ 59) (free : count < memory) (dictCanResize : Bool)
    (missing : map key = none) (val : Value) :
    ∃ after,
      dictAdd (dbDictType dictSdsHash) memory dictCanResize d key val =
        some (true, after) ∧
      DictHolds dictSdsHash after (Function.update map key (some val))
        (count + 1) := by
  have agrees := @dictAdd_agrees _ _ (dbDictType dictSdsHash) memory d
    holds.valid (holds.few room free) dictCanResize key val
  rw [holds.isMap, missing, holds.insert free] at agrees
  obtain ⟨after, isAfter, valid, same⟩ := agrees.exists_of_some
  exact ⟨after, isAfter, holds.written valid same (Nat.le_refl _)⟩

theorem DictHolds.add_existing (holds : DictHolds dictSdsHash d map count)
    (room : memory ≤ 2 ^ 59) (free : count < memory) (dictCanResize : Bool)
    {old : Value} (present : map key = some old) (val : Value) :
    ∃ after,
      dictAdd (dbDictType dictSdsHash) memory dictCanResize d key val =
        some (false, after) := by
  have agrees := @dictAdd_agrees _ _ (dbDictType dictSdsHash) memory d
    holds.valid (holds.few room free) dictCanResize key val
  rw [holds.isMap, present] at agrees
  obtain ⟨after, isAfter, -⟩ := agrees.exists_of_some
  exact ⟨after, isAfter⟩

theorem DictHolds.replace (holds : DictHolds dictSdsHash d map count)
    (room : memory ≤ 2 ^ 59) (free : count < memory) (dictCanResize : Bool)
    (key : Sds) (val : Value) :
    ∃ added after,
      dictReplace (dbDictType dictSdsHash) memory dictCanResize d key val =
        some (added, after) ∧
      DictHolds dictSdsHash after (Function.update map key (some val))
        (count + 1) := by
  have agrees := @dictReplace_agrees _ _ (dbDictType dictSdsHash) memory d
    holds.valid (holds.few room free) dictCanResize key val
  rw [holds.isMap] at agrees
  cases isLookup : map key with
  | none =>
      rw [isLookup, holds.insert free] at agrees
      obtain ⟨after, isAfter, valid, same⟩ := agrees.exists_of_some
      exact ⟨true, after, isAfter,
        holds.written valid same (Nat.le_refl _)⟩
  | some old =>
      rw [isLookup] at agrees
      obtain ⟨after, isAfter, valid, same⟩ := agrees.exists_of_some
      exact ⟨false, after, isAfter,
        holds.written valid same (Nat.le_succ _)⟩

/-- The value of an entry that was found is set. -/
theorem DictHolds.setVal (holds : DictHolds dictSdsHash d map count)
    {old : Value} (present : map key = some old) (val : Value) :
    ∃ place after,
      searchTables (dbDictType dictSdsHash) d key = some (some place) ∧
      dictSetVal (dbDictType dictSdsHash) d place.1 key val =
        some after ∧
      DictHolds dictSdsHash after (Function.update map key (some val))
        (count + 1) := by
  have isLookup : lookup (dbDictType dictSdsHash).keyCompare
      (dictEntries d) key = some old := by
    rw [← present, ← holds.isMap]
    rfl
  have filled : dictEntries d ≠ [] := by
    intro noEntries
    rw [noEntries] at isLookup
    cases isLookup
  obtain ⟨found, isFound, isValue, located⟩ :=
    holds.valid.searchTables (holds.valid.ht0_made filled) key
  cases found with
  | none =>
      rw [isLookup] at isValue
      cases isValue
  | some place =>
      obtain ⟨which, value⟩ := place
      obtain ⟨inUse, inTable⟩ := located rfl
      obtain ⟨-, writes⟩ := holds.valid.change inUse inTable
      obtain ⟨ht, isHt, valid, same⟩ := writes val
      refine ⟨(which, value), d.setHt which ht, isFound, ?_,
        holds.written valid same (Nat.le_succ _)⟩
      rw [dictSetVal, isHt]
      rfl

theorem DictHolds.of_perm (holds : DictHolds dictSdsHash d map count)
    {after : Dict Sds Value}
    (valid : DictValid (dbDictType dictSdsHash) after)
    (perm : (dictEntries after).Perm (dictEntries d)) :
    DictHolds dictSdsHash after map count := by
  have same := plainOf_eq holds.valid valid perm
  refine ⟨valid, by rw [same, holds.isMap], ?_⟩
  exact Nat.le_trans (Nat.le_of_eq (congrArg PlainMap.count same))
    holds.size

theorem DictHolds.later (holds : DictHolds dictSdsHash d map count) :
    DictHolds dictSdsHash d map (count + 1) :=
  ⟨holds.valid, holds.isMap, Nat.le_succ_of_le holds.size⟩

end Dictionaries

/-! ## Both dictionaries -/

section Databases

variable {dictSdsHash : Sds → Word} {memory count : Nat} {tables : TableDb}
  {db : RedisDb}

/-- The two dictionaries hold the key space. -/
structure TablesHold (dictSdsHash : Sds → Word) (tables : TableDb)
    (db : RedisDb) (count : Nat) : Prop where
  keys : DictHolds dictSdsHash tables.dict db.dict count
  times : DictHolds dictSdsHash tables.expires db.expires count

/-- Both stop, or both answer the same. -/
inductive Mirrors {Answer : Type} (dictSdsHash : Sds → Word)
    (count : Nat) :
    Option (Answer × TableDb) → Option (Answer × RedisDb) → Prop where
  | stopped : Mirrors dictSdsHash count none none
  | goesOn (answer : Answer) {tables : TableDb} {db : RedisDb}
      (holds : TablesHold dictSdsHash tables db count) :
      Mirrors dictSdsHash count (some (answer, tables)) (some (answer, db))

theorem TablesHold.lookupKey (holds : TablesHold dictSdsHash tables db count)
    (key : Sds) :
    ∃ after,
      tables.lookupKey dictSdsHash key = some (db.dict key, after) ∧
      TablesHold dictSdsHash after db count := by
  obtain ⟨dict, isDict, keys⟩ := holds.keys.find key
  refine ⟨{ tables with dict }, ?_, keys, holds.times⟩
  rw [TableDb.lookupKey, isDict]
  rfl

theorem TablesHold.dbAdd (holds : TablesHold dictSdsHash tables db count)
    (room : memory ≤ 2 ^ 59) (free : count < memory) (dictCanResize : Bool)
    (key : Sds) (val : Object) :
    Mirrors dictSdsHash (count + 1)
      ((tables.dbAdd dictSdsHash memory dictCanResize key val).map
        fun db => (DbAnswer.done, db))
      ((dbAdd db key val).map fun db => (DbAnswer.done, db)) := by
  rw [TableDb.dbAdd, Redis.dbAdd]
  cases isLookup : db.dict key with
  | none =>
      obtain ⟨dict, added, keys⟩ :=
        holds.keys.add room free dictCanResize isLookup val
      rw [added]
      exact .goesOn _ ⟨keys, holds.times.later⟩
  | some old =>
      obtain ⟨dict, refused⟩ :=
        holds.keys.add_existing room free dictCanResize isLookup val
      rw [refused]
      exact .stopped

theorem TablesHold.dbOverwrite
    (holds : TablesHold dictSdsHash tables db count) (key : Sds)
    (val : Object) :
    Mirrors dictSdsHash (count + 1)
      ((tables.dbOverwrite dictSdsHash key val).map
        fun db => (DbAnswer.done, db))
      ((dbOverwrite db key val).map fun db => (DbAnswer.done, db)) := by
  obtain ⟨between, found, keys⟩ := holds.keys.find key
  rw [TableDb.dbOverwrite, found, Redis.dbOverwrite]
  cases isLookup : db.dict key with
  | none => exact .stopped
  | some old =>
      obtain ⟨place, dict, isPlace, isDict, written⟩ :=
        keys.setVal isLookup val
      simp only [Option.bind_eq_bind, Option.bind_some, isPlace, isDict]
      exact .goesOn _ ⟨written, holds.times.later⟩

theorem DictHolds.of_empty {Value : Type} {d : Dict Sds Value}
    {map : Sds → Option Value} (holds : DictHolds dictSdsHash d map count)
    (isEmpty : dictSize d = 0) (key : Sds) : map key = none := by
  have noEntries := holds.valid.size_eq_zero_iff.mp isEmpty
  rw [← holds.isMap, plainOf, noEntries]
  rfl

theorem TablesHold.deleteTime
    (holds : TablesHold dictSdsHash tables db count) (key : Sds) :
    ∃ expires, tables.deleteTime dictSdsHash key = some expires ∧
      DictHolds dictSdsHash expires (Function.update db.expires key none)
        count := by
  rw [TableDb.deleteTime]
  split
  · obtain ⟨expires, isExpires, times⟩ := holds.times.delete key
    exact ⟨expires, by rw [isExpires]; rfl, times⟩
  next isEmpty =>
    have unchanged : Function.update db.expires key none = db.expires := by
      rw [← holds.times.of_empty (by omega) key, Function.update_eq_self]
    exact ⟨tables.expires, rfl, by rw [unchanged]; exact holds.times⟩

theorem TablesHold.dbSyncDelete
    (holds : TablesHold dictSdsHash tables db count) (key : Sds) :
    ∃ after,
      tables.dbSyncDelete dictSdsHash key =
        some ((dbSyncDelete db key).1, after) ∧
      TablesHold dictSdsHash after (dbSyncDelete db key).2 count := by
  obtain ⟨dict, isDict, keys⟩ := holds.keys.delete key
  obtain ⟨expires, isExpires, times⟩ := holds.deleteTime key
  refine ⟨{ dict, expires }, ?_, keys, times⟩
  rw [TableDb.dbSyncDelete, isExpires, Option.bind_eq_bind,
    Option.bind_some, isDict]
  rfl

theorem TablesHold.removeExpire
    (holds : TablesHold dictSdsHash tables db count) (key : Sds) :
    Mirrors dictSdsHash count
      ((tables.removeExpire dictSdsHash key).map fun result =>
        (DbAnswer.flag result.1, result.2))
      ((removeExpire db key).map fun result =>
        (DbAnswer.flag result.1, result.2)) := by
  obtain ⟨dict, found, keys⟩ := holds.keys.find key
  obtain ⟨expires, deleted, times⟩ := holds.times.delete key
  rw [TableDb.removeExpire, found, deleted, Redis.removeExpire]
  cases isLookup : db.dict key with
  | none => exact .stopped
  | some object => exact .goesOn _ ⟨keys, times⟩

theorem TablesHold.setExpire
    (holds : TablesHold dictSdsHash tables db count)
    (room : memory ≤ 2 ^ 59) (free : count < memory) (dictCanResize : Bool)
    (key : Sds) (time : Int) :
    Mirrors dictSdsHash (count + 1)
      ((tables.setExpire dictSdsHash memory dictCanResize key time).map
        fun db => (DbAnswer.done, db))
      ((setExpire db key time).map fun db => (DbAnswer.done, db)) := by
  obtain ⟨dict, found, keys⟩ := holds.keys.find key
  obtain ⟨added, expires, replaced, times⟩ :=
    holds.times.replace room free dictCanResize key time
  rw [TableDb.setExpire, found, replaced, Redis.setExpire]
  cases isLookup : db.dict key with
  | none => exact .stopped
  | some object => exact .goesOn _ ⟨keys.later, times⟩

theorem TablesHold.getExpire
    (holds : TablesHold dictSdsHash tables db count) (key : Sds) :
    Mirrors dictSdsHash count
      ((tables.getExpire dictSdsHash key).map fun result =>
        (DbAnswer.time result.1, result.2))
      ((getExpire db key).map fun time => (DbAnswer.time time, db)) := by
  obtain ⟨dict, found, keys⟩ := holds.keys.find key
  obtain ⟨expires, isExpires, times⟩ := holds.times.find key
  rw [TableDb.getExpire, Redis.getExpire]
  by_cases isEmpty : dictSize tables.expires = 0
  · rw [if_pos isEmpty, holds.times.of_empty isEmpty key]
    exact .goesOn _ holds
  · rw [if_neg isEmpty, isExpires]
    cases isTime : db.expires key with
    | none => exact .goesOn _ ⟨holds.keys, times⟩
    | some time =>
        simp only [Option.bind_eq_bind, Option.bind_some, found]
        cases isLookup : db.dict key with
        | none => exact .stopped
        | some object => exact .goesOn _ ⟨keys, times⟩

theorem TablesHold.later (holds : TablesHold dictSdsHash tables db count) :
    TablesHold dictSdsHash tables db (count + 1) :=
  ⟨holds.keys.later, holds.times.later⟩

theorem Mirrors.later {Answer : Type}
    {result : Option (Answer × TableDb)} {plain : Option (Answer × RedisDb)}
    (mirrors : Mirrors dictSdsHash count result plain) :
    Mirrors dictSdsHash (count + 1) result plain := by
  cases mirrors with
  | stopped => exact .stopped
  | goesOn answer holds => exact .goesOn answer holds.later

/-- Every operation does to the tables what it does to the key space. -/
theorem tableStep_mirrors (room : memory ≤ 2 ^ 59) (free : count < memory)
    (holds : TablesHold dictSdsHash tables db count) (event : DbEvent) :
    Mirrors dictSdsHash (count + 1)
      (tableStep dictSdsHash memory tables event)
      (keyspaceStep db event.op) := by
  obtain ⟨dictCanResize, op⟩ := event
  cases op with
  | lookupKey key =>
      obtain ⟨after, found, afterHolds⟩ := holds.lookupKey key
      dsimp only [tableStep]
      rw [found]
      exact .goesOn _ afterHolds.later
  | dbAdd key val => exact holds.dbAdd room free dictCanResize key val
  | dbOverwrite key val => exact holds.dbOverwrite key val
  | dbSyncDelete key =>
      obtain ⟨after, deleted, afterHolds⟩ := holds.dbSyncDelete key
      dsimp only [tableStep]
      rw [deleted]
      exact .goesOn _ afterHolds.later
  | removeExpire key => exact (holds.removeExpire key).later
  | setExpire key time =>
      exact holds.setExpire room free dictCanResize key time
  | getExpire key => exact (holds.getExpire key).later
  | rehashKeys n =>
      obtain ⟨result, isResult, rehashed⟩ := holds.keys.valid.dictRehash n
      dsimp only [tableStep]
      rw [isResult]
      exact .goesOn _
        ⟨(holds.keys.of_perm rehashed.valid rehashed.perm).later,
          holds.times.later⟩
  | rehashExpires n =>
      obtain ⟨result, isResult, rehashed⟩ := holds.times.valid.dictRehash n
      dsimp only [tableStep]
      rw [isResult]
      exact .goesOn _ ⟨holds.keys.later,
        (holds.times.of_perm rehashed.valid rehashed.perm).later⟩
  | resize =>
      obtain ⟨keysValid, sameKeys, -⟩ :=
        holds.keys.valid.dictResize dictCanResize
      obtain ⟨timesValid, sameTimes, -⟩ :=
        holds.times.valid.dictResize dictCanResize
      exact .goesOn _
        ⟨(holds.keys.of_perm keysValid (by rw [sameKeys])).later,
          (holds.times.of_perm timesValid (by rw [sameTimes])).later⟩

theorem tableRun_mirrors (room : memory ≤ 2 ^ 59) {events : List DbEvent}
    (holds : TablesHold dictSdsHash tables db count)
    (free : count + events.length ≤ memory) :
    Mirrors dictSdsHash (count + events.length)
      (tableRun dictSdsHash memory tables events)
      (keyspaceRun db events) := by
  induction events generalizing tables db count with
  | nil => exact .goesOn [] holds
  | cons event later inductionHypothesis =>
      rw [List.length_cons] at free
      have mirrors :=
        tableStep_mirrors room (by omega) holds event
      rw [tableRun, keyspaceRun, List.length_cons, Nat.add_comm later.length,
        ← Nat.add_assoc]
      cases isStep : tableStep dictSdsHash memory tables event with
      | none =>
          rw [isStep] at mirrors
          generalize keyspaceStep db event.op = plain at mirrors ⊢
          cases mirrors
          exact .stopped
      | some result =>
          rw [isStep] at mirrors
          generalize keyspaceStep db event.op = plain at mirrors ⊢
          cases mirrors with
          | goesOn answer afterHolds =>
              have rest := inductionHypothesis afterHolds (by omega)
              simp only [Option.bind_some]
              generalize tableRun dictSdsHash memory _ later = run at rest ⊢
              generalize keyspaceRun _ later = plainRun at rest ⊢
              cases rest with
              | stopped => exact .stopped
              | goesOn answers finalHolds => exact .goesOn _ finalHolds

end Databases

/--
The functions of `db.c` do to the two hash tables what they do to the key space
of the commands: along every run from an empty database, with the tables resized
and rehashed in between, the answers and the assertions that fail are the same,
and the tables hold that key space.
-/
theorem tables_are_keyspace (dictSdsHash : Sds → Word) {memory : Nat}
    (room : memory ≤ 2 ^ 59) (events : List DbEvent)
    (free : events.length ≤ memory) :
    (tableRun dictSdsHash memory {} events).map
        (fun result => (result.1, keyspaceOf dictSdsHash result.2)) =
      keyspaceRun ⟨fun _ => none, fun _ => none⟩ events := by
  have empty {Value : Type} :
      DictHolds dictSdsHash ({} : Dict Sds Value) (fun _ => none) 0 :=
    ⟨dictValid_empty _ 0, rfl, Nat.le_refl 0⟩
  have mirrors := @tableRun_mirrors dictSdsHash memory 0 {}
    ⟨fun _ => none, fun _ => none⟩ room events ⟨empty, empty⟩ (by omega)
  generalize tableRun dictSdsHash memory {} events = run at mirrors ⊢
  generalize keyspaceRun ⟨fun _ => none, fun _ => none⟩ events = plain
    at mirrors ⊢
  cases mirrors with
  | stopped => rfl
  | goesOn answer holds =>
      have same : keyspaceOf dictSdsHash _ = _ :=
        congrArg₂ RedisDb.mk holds.keys.isMap holds.times.isMap
      rw [Option.map_some, same]

/-- Five keys, one of them with a time, while the tables are rehashed. -/
def tableEvents : List DbEvent :=
  [⟨true, .dbAdd ['a'] (.int 1)⟩, ⟨true, .setExpire ['a'] 50⟩,
    ⟨true, .dbAdd ['b'] (.raw ['x'])⟩, ⟨true, .dbAdd ['c'] (.int 3)⟩,
    ⟨true, .dbAdd ['d'] (.int 4)⟩, ⟨true, .dbAdd ['e'] (.int 5)⟩,
    ⟨true, .rehashKeys 1⟩, ⟨true, .dbOverwrite ['a'] (.int 2)⟩,
    ⟨true, .lookupKey ['a']⟩, ⟨true, .getExpire ['a']⟩,
    ⟨true, .dbSyncDelete ['a']⟩, ⟨true, .lookupKey ['a']⟩,
    ⟨true, .removeExpire ['b']⟩]

theorem tables_are_keyspace_letters :
    (tableRun (fun key => BitVec.ofNat 64 key.length) 1000 {}
        tableEvents).map (·.1) =
      some [.done, .done, .done, .done, .done, .done, .done, .done,
        .object (some (.int 2)), .time 50, .flag true, .object none,
        .flag false] := by
  have answers := congrArg (Option.map Prod.fst)
    (tables_are_keyspace (fun key => BitVec.ofNat 64 key.length)
      (show 1000 ≤ 2 ^ 59 by decide) tableEvents (by decide))
  rw [Option.map_map] at answers
  exact answers.trans (by decide)

end NomadiCore.Redis
