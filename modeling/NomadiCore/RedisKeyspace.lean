import Mathlib.Logic.Function.Basic
import NomadiCore.Library.TimedMap
import NomadiCore.RedisNumbers

/-!
# The key space of the Redis server

`db.c` keeps the values of the keys in one dictionary and the times at which
they expire in another.  A key that has expired stays in both until a command
looks it up or the active cycle of `expire.c` comes across it.  The functions
assert what they rely on, and a failed assertion stops the server: here such a
run has no result.
-/

namespace NomadiCore.Redis

open NomadiCore.Library.TimedMap

/-! ## The functions -/

/-- A string of the server. -/
abbrev Sds := List Char

/-- A stored value; the encoding `OBJ_ENCODING_INT` keeps a number as one. -/
inductive Object where
  | raw (text : Sds)
  | int (value : Int)
  | list (items : List Sds)
deriving DecidableEq

structure RedisDb where
  dict : Sds → Option Object
  expires : Sds → Option Int

def dbAdd (db : RedisDb) (key : Sds) (val : Object) : Option RedisDb :=
  match db.dict key with
  | none => some { db with dict := Function.update db.dict key (some val) }
  | some _ => none

/-- The new value keeps the expire time of the old one. -/
def dbOverwrite (db : RedisDb) (key : Sds) (val : Object) :
    Option RedisDb :=
  match db.dict key with
  | none => none
  | some _ => some { db with dict := Function.update db.dict key (some val) }

/-- Whether the key was there, and the database without it. -/
def dbSyncDelete (db : RedisDb) (key : Sds) : Bool × RedisDb :=
  ((db.dict key).isSome,
    { dict := Function.update db.dict key none
      expires := Function.update db.expires key none })

def removeExpire (db : RedisDb) (key : Sds) : Option (Bool × RedisDb) :=
  match db.dict key with
  | none => none
  | some _ =>
      some ((db.expires key).isSome,
        { db with expires := Function.update db.expires key none })

/-- `when` is a time in milliseconds. -/
def setExpire (db : RedisDb) (key : Sds) (time : Int) : Option RedisDb :=
  match db.dict key with
  | none => none
  | some _ =>
      some { db with expires := Function.update db.expires key (some time) }

/-- The time at which a key expires, or −1. -/
def getExpire (db : RedisDb) (key : Sds) : Option Int :=
  match db.expires key with
  | none => some (-1)
  | some time =>
      match db.dict key with
      | none => none
      | some _ => some time

def keyIsExpired (db : RedisDb) (key : Sds) (now : Int) : Option Bool := do
  let time ← getExpire db key
  if time < 0 then some false else some (now > time)

def expireIfNeeded (db : RedisDb) (key : Sds) (now : Int) :
    Option (Bool × RedisDb) := do
  let expired ← keyIsExpired db key now
  if expired then some (dbSyncDelete db key) else some (false, db)

def lookupKeyRead (db : RedisDb) (key : Sds) (now : Int) :
    Option (Option Object × RedisDb) := do
  let checked ← expireIfNeeded db key now
  if checked.1 then some (none, checked.2)
  else some (checked.2.dict key, checked.2)

def lookupKeyWrite (db : RedisDb) (key : Sds) (now : Int) :
    Option (Option Object × RedisDb) := do
  let checked ← expireIfNeeded db key now
  some (checked.2.dict key, checked.2)

def setKey (db : RedisDb) (key : Sds) (val : Object) (now : Int) :
    Option RedisDb := do
  let found ← lookupKeyWrite db key now
  let written ←
    match found.1 with
    | none => dbAdd found.2 key val
    | some _ => dbOverwrite found.2 key val
  let persistent ← removeExpire written key
  some persistent.2

/-- `de` is the entry of the key among the expire times. -/
def activeExpireCycleTryExpire (key : Sds) (now : Int) (db : RedisDb) :
    RedisDb :=
  match db.expires key with
  | none => db
  | some time => if now > time then (dbSyncDelete db key).2 else db

/-- The characters of a string object, written out if it is a number. -/
def getDecodedObject : Object → Sds
  | .raw text => text
  | .int value => (ll2string 32 value).getD []
  | .list _ => []

/-- A string that is a number is kept as one. -/
def tryObjectEncoding (text : Sds) : Object :=
  if text.length ≤ 20 then
    match string2ll text with
    | some value => .int value
    | none => .raw text
  else .raw text

/-- A missing key counts as zero. -/
def getLongLongFromObject : Option Object → Option Int
  | none => some 0
  | some (.raw text) => string2ll text
  | some (.int value) => some value
  | some (.list _) => none

/-! ## What is stored -/

/-- A value as a client knows it. -/
inductive Content where
  | string (text : Sds)
  | list (items : List Sds)
deriving DecidableEq

def Object.value : Object → Content
  | .raw text => .string text
  | .int value => .string (getDecodedObject (.int value))
  | .list items => .list items

/-- The two dictionaries together. -/
def entries (db : RedisDb) : Entries Sds Content := fun key =>
  (db.dict key).map fun object => ⟨object.value, db.expires key⟩

/--
An expire time belongs to a key, and is a time; numbers have 64 bits.
-/
structure Consistent (db : RedisDb) : Prop where
  volatile : ∀ {key time}, db.expires key = some time →
    (db.dict key).isSome
  time : ∀ {key time}, db.expires key = some time →
    0 ≤ time ∧ time ≤ llongMax
  number : ∀ {key value}, db.dict key = some (.int value) →
    InLongLong value

/-- Both dictionaries written at one key. -/
def RedisDb.write (db : RedisDb) (key : Sds) (object : Option Object)
    (time : Option Int) : RedisDb where
  dict := Function.update db.dict key object
  expires := Function.update db.expires key time

@[simp]
theorem entries_write (db : RedisDb) (key : Sds) (object : Option Object)
    (time : Option Int) :
    entries (db.write key object time) =
      Function.update (entries db) key
        (object.map fun object => ⟨object.value, time⟩) := by
  funext other
  by_cases same : other = key
  · subst same
    simp [entries, RedisDb.write]
  · simp [entries, RedisDb.write, Function.update_of_ne same]

/-- An object that may be stored: its number has 64 bits. -/
def Object.Sound : Object → Prop
  | .int value => InLongLong value
  | _ => True

theorem Consistent.sound {db : RedisDb} (consistent : Consistent db)
    {key : Sds} {object : Object} (stored : db.dict key = some object) :
    object.Sound := by
  cases object with
  | int value => exact consistent.number stored
  | raw text => exact trivial
  | list items => exact trivial

theorem Consistent.write {db : RedisDb} (consistent : Consistent db)
    {key : Sds} {object : Option Object} {time : Option Int}
    (sound : ∀ stored ∈ object, stored.Sound)
    (belongs : time.isSome → object.isSome)
    (isTime : ∀ moment ∈ time, 0 ≤ moment ∧ moment ≤ llongMax) :
    Consistent (db.write key object time) where
  volatile := by
    intro other moment found
    by_cases same : other = key
    · subst same
      simp only [RedisDb.write, Function.update_self] at found ⊢
      exact belongs (Option.isSome_iff_exists.mpr ⟨moment, found⟩)
    · simp only [RedisDb.write, Function.update_of_ne same] at found ⊢
      exact consistent.volatile found
  time := by
    intro other moment found
    by_cases same : other = key
    · subst same
      simp only [RedisDb.write, Function.update_self] at found
      exact isTime moment found
    · simp only [RedisDb.write, Function.update_of_ne same] at found
      exact consistent.time found
  number := by
    intro other value found
    by_cases same : other = key
    · subst same
      simp only [RedisDb.write, Function.update_self] at found
      exact sound (.int value) found
    · simp only [RedisDb.write, Function.update_of_ne same] at found
      exact consistent.number found

theorem Consistent.expires_of_missing {db : RedisDb}
    (consistent : Consistent db) {key : Sds}
    (missing : db.dict key = none) : db.expires key = none := by
  cases found : db.expires key with
  | none => rfl
  | some time =>
      have present := consistent.volatile found
      rw [missing] at present
      cases present

/-! ## The functions as writes -/

theorem dbSyncDelete_eq (db : RedisDb) (key : Sds) :
    dbSyncDelete db key =
      ((db.dict key).isSome, db.write key none none) := rfl

theorem dbAdd_eq {db : RedisDb} (consistent : Consistent db) {key : Sds}
    (missing : db.dict key = none) (val : Object) :
    dbAdd db key val = some (db.write key (some val) none) := by
  have noTime := consistent.expires_of_missing missing
  have unchanged : Function.update db.expires key none = db.expires := by
    rw [← noTime, Function.update_eq_self]
  simp [dbAdd, missing, RedisDb.write, unchanged]

theorem dbOverwrite_eq {db : RedisDb} {key : Sds} {old : Object}
    (present : db.dict key = some old) (val : Object) :
    dbOverwrite db key val =
      some (db.write key (some val) (db.expires key)) := by
  simp [dbOverwrite, present, RedisDb.write]

theorem removeExpire_eq {db : RedisDb} {key : Sds} {object : Object}
    (present : db.dict key = some object) :
    removeExpire db key =
      some ((db.expires key).isSome, db.write key (some object) none) := by
  have unchanged : Function.update db.dict key (some object) = db.dict := by
    rw [← present, Function.update_eq_self]
  simp [removeExpire, present, RedisDb.write, unchanged]

theorem setExpire_eq {db : RedisDb} {key : Sds} {object : Object}
    (present : db.dict key = some object) (time : Int) :
    setExpire db key time =
      some (db.write key (some object) (some time)) := by
  have unchanged : Function.update db.dict key (some object) = db.dict := by
    rw [← present, Function.update_eq_self]
  simp [setExpire, present, RedisDb.write, unchanged]

theorem getExpire_eq {db : RedisDb} (consistent : Consistent db)
    (key : Sds) :
    getExpire db key = some ((db.expires key).getD (-1)) := by
  unfold getExpire
  cases found : db.expires key with
  | none => rfl
  | some time =>
      obtain ⟨object, present⟩ :=
        Option.isSome_iff_exists.mp (consistent.volatile found)
      simp [present]

/-! ## Lookups -/

/-- The time of a key is past. -/
def RedisDb.isPast (db : RedisDb) (key : Sds) (now : Int) : Bool :=
  match db.expires key with
  | none => false
  | some time => time < now

/-- The database without the key, if its time is past. -/
def RedisDb.evict (db : RedisDb) (key : Sds) (now : Int) : RedisDb :=
  if db.isPast key now then db.write key none none else db

theorem alive_entries (db : RedisDb) (key : Sds) (now : Int) :
    alive now (entries db key) =
      if db.isPast key now then none else entries db key := by
  unfold RedisDb.isPast entries
  cases stored : db.dict key with
  | none => simp
  | some object =>
      cases found : db.expires key with
      | none => rfl
      | some time => simp [alive_deadline]

theorem entries_evict (db : RedisDb) (key : Sds) (now : Int) :
    entries (db.evict key now) =
      Function.update (entries db) key (alive now (entries db key)) := by
  rw [alive_entries]
  unfold RedisDb.evict
  split
  · exact entries_write db key none none
  · rw [Function.update_eq_self]

theorem Consistent.evict {db : RedisDb} (consistent : Consistent db)
    (key : Sds) (now : Int) : Consistent (db.evict key now) := by
  unfold RedisDb.evict
  split
  · exact consistent.write (by simp) (by simp) (by simp)
  · exact consistent

theorem keyIsExpired_eq {db : RedisDb} (consistent : Consistent db)
    (key : Sds) (now : Int) :
    keyIsExpired db key now = some (db.isPast key now) := by
  unfold keyIsExpired RedisDb.isPast
  rw [getExpire_eq consistent]
  cases found : db.expires key with
  | none => rfl
  | some time =>
      have isTime := consistent.time found
      have notNegative : ¬ time < 0 := by omega
      simp [notNegative]

/-- A lookup never fails an assertion, and evicts the key first. -/
theorem expireIfNeeded_eq {db : RedisDb} (consistent : Consistent db)
    (key : Sds) (now : Int) :
    expireIfNeeded db key now =
      some (db.isPast key now, db.evict key now) := by
  unfold expireIfNeeded RedisDb.evict
  rw [keyIsExpired_eq consistent]
  by_cases past : db.isPast key now = true
  · have present : (db.dict key).isSome := by
      unfold RedisDb.isPast at past
      split at past
      · cases past
      · rename_i time found
        exact consistent.volatile found
    simp [past, dbSyncDelete_eq, present]
  · simp [past]

theorem lookupKeyWrite_eq {db : RedisDb} (consistent : Consistent db)
    (key : Sds) (now : Int) :
    lookupKeyWrite db key now =
      some ((db.evict key now).dict key, db.evict key now) := by
  simp [lookupKeyWrite, expireIfNeeded_eq consistent]

/-- On a master the two lookups agree. -/
theorem lookupKeyRead_eq {db : RedisDb} (consistent : Consistent db)
    (key : Sds) (now : Int) :
    lookupKeyRead db key now =
      some ((db.evict key now).dict key, db.evict key now) := by
  by_cases past : db.isPast key now = true
  · simp [lookupKeyRead, expireIfNeeded_eq consistent, past,
      RedisDb.evict, RedisDb.write]
  · simp [lookupKeyRead, expireIfNeeded_eq consistent, past]

theorem setKey_eq {db : RedisDb} (consistent : Consistent db)
    (key : Sds) (val : Object) (now : Int) :
    setKey db key val now =
      some ((db.evict key now).write key (some val) none) := by
  have evicted := consistent.evict key now
  simp only [setKey, lookupKeyWrite_eq consistent, Option.bind_eq_bind,
    Option.bind_some]
  cases found : (db.evict key now).dict key with
  | none =>
      simp only [dbAdd_eq evicted found, Option.bind_some]
      rw [removeExpire_eq (show _ = some val by simp [RedisDb.write])]
      simp [RedisDb.write]
  | some old =>
      simp only [dbOverwrite_eq found, Option.bind_some]
      rw [removeExpire_eq (show _ = some val by simp [RedisDb.write])]
      simp [RedisDb.write]

/-- The active cycle removes what a lookup would. -/
theorem activeExpireCycleTryExpire_eq (key : Sds) (now : Int)
    (db : RedisDb) :
    activeExpireCycleTryExpire key now db = db.evict key now := by
  unfold activeExpireCycleTryExpire RedisDb.evict RedisDb.isPast
  cases db.expires key with
  | none => rfl
  | some time => simp [dbSyncDelete_eq]

/-! ## Encodings -/

/-- A number is decoded as its numeral. -/
theorem getDecodedObject_int {value : Int} (range : InLongLong value) :
    getDecodedObject (.int value) = numeral value := by
  have short := numeral_length_le range
  rw [getDecodedObject, ll2string_eq, if_pos (by omega)]
  rfl

/-- The encoding cannot be seen by a client. -/
theorem tryObjectEncoding_value (text : Sds) :
    (tryObjectEncoding text).value = .string text ∧
      (tryObjectEncoding text).Sound := by
  unfold tryObjectEncoding
  split
  · cases read : string2ll text with
    | none => exact ⟨rfl, trivial⟩
    | some value =>
        obtain ⟨range, isNumeral⟩ := (string2ll_iff text value).mp read
        refine ⟨?_, range⟩
        change Content.string (getDecodedObject (.int value)) = .string text
        rw [getDecodedObject_int range, isNumeral]
  · exact ⟨rfl, trivial⟩

/-- A stored string is read as the number it shows. -/
theorem getLongLongFromObject_eq {object : Object} (sound : object.Sound)
    {text : Sds} (shown : object.value = .string text) :
    getLongLongFromObject (some object) = string2ll text := by
  cases object with
  | raw stored =>
      cases shown
      rfl
  | int value =>
      have range : InLongLong value := sound
      change Content.string (getDecodedObject (.int value)) = _ at shown
      rw [getDecodedObject_int range] at shown
      cases shown
      exact ((string2ll_iff _ _).mpr ⟨range, rfl⟩).symm
  | list items => cases shown

end NomadiCore.Redis
