import Mathlib.Data.Finset.Card
import Mathlib.Data.Finset.Dedup
import NomadiCore.RedisKeyspace

/-!
# Commands of the Redis server

The commands on strings, lists, keys and expire times, as `t_string.c`,
`t_list.c`, `db.c` and `expire.c` perform them on the two dictionaries; and what
they do to a plain map whose entries disappear when their time is past.  The
main result is that a client cannot tell the two apart, whichever keys the
active cycle removes in between.
-/

namespace NomadiCore.Redis

open NomadiCore.Library.TimedMap

/-! ## The commands -/

inductive Reply where
  | ok
  | nullbulk
  | integer (value : Int)
  | bulk (text : Sds)
  | wrongtypeerr
  | syntaxerr
  | error (message : String)
deriving DecidableEq

/-- The reply and the database, unless an assertion fails. -/
abbrev Outcome := Option (Reply × RedisDb)

inductive TimeUnit where
  | seconds
  | milliseconds
deriving DecidableEq

inductive ListEnd where
  | head
  | tail
deriving DecidableEq

/-- The arithmetic of a `long long` wraps around. -/
def wrap (value : Int) : Int := value.bmod 18446744073709551616

def notAnInteger : Reply :=
  .error "value is not an integer or out of range"

def getGenericCommand (key : Sds) (now : Int) (db : RedisDb) : Outcome := do
  let found ← lookupKeyRead db key now
  match found.1 with
  | none => some (.nullbulk, found.2)
  | some (.list _) => some (.wrongtypeerr, found.2)
  | some object => some (.bulk (getDecodedObject object), found.2)

def getsetCommand (key value : Sds) (now : Int) (db : RedisDb) :
    Outcome := do
  let read ← getGenericCommand key now db
  if read.1 = .wrongtypeerr then some read
  else
    let written ← setKey read.2 key (tryObjectEncoding value) now
    some (read.1, written)

/-- `if (unit == UNIT_SECONDS) milliseconds *= 1000` -/
def inMilliseconds (unit : TimeUnit) (number : Int) : Int :=
  match unit with
  | .seconds => wrap (number * 1000)
  | .milliseconds => number

/-- The expire time of `setGenericCommand` in milliseconds, if one is given. -/
def expireArgument (name : String) (expire : Option Sds) (unit : TimeUnit) :
    Except Reply (Option Int) :=
  match expire with
  | none => .ok none
  | some text =>
      match string2ll text with
      | none => .error notAnInteger
      | some milliseconds =>
          if milliseconds ≤ 0 then
            .error (.error ("invalid expire time in " ++ name))
          else .ok (some (inMilliseconds unit milliseconds))

/-- The flags and the expire time of a `SET`. -/
structure SetOptions where
  nx : Bool := false
  xx : Bool := false
  ex : Bool := false
  px : Bool := false
  expire : Option Sds := none
  unit : TimeUnit := .seconds

/-- Each of the flags `NX` and `XX` makes its own lookup. -/
def flagLookup (flag : Bool) (test : Option Object → Bool) (key : Sds)
    (now : Int) (db : RedisDb) : Option (Bool × RedisDb) :=
  if flag then
    (lookupKeyWrite db key now).map fun found => (test found.1, found.2)
  else some (false, db)

def setGenericCommand (name : String) (options : SetOptions)
    (key : Sds) (val : Object) (okReply abortReply : Reply)
    (now : Int) (db : RedisDb) : Outcome :=
  match expireArgument name options.expire options.unit with
  | .error reply => some (reply, db)
  | .ok milliseconds => do
      let first ← flagLookup options.nx Option.isSome key now db
      if first.1 then some (abortReply, first.2)
      else
        let second ← flagLookup options.xx Option.isNone key now first.2
        if second.1 then some (abortReply, second.2)
        else
          let written ← setKey second.2 key val now
          match milliseconds with
          | none => some (okReply, written)
          | some milliseconds =>
              let timed ← setExpire written key (wrap (now + milliseconds))
              some (okReply, timed)

/-- A character of a string, which ends with a zero. -/
def charAt (text : Sds) (index : Nat) : Char := text.getD index '\x00'

def isOption (lower upper : Char) (text : Sds) : Bool :=
  (charAt text 0 == lower || charAt text 0 == upper) &&
    (charAt text 1 == 'x' || charAt text 1 == 'X') &&
    charAt text 2 == '\x00'

/-- The loop of `setCommand` over its last arguments. -/
def setOptions : List Sds → SetOptions → Option SetOptions
  | [], options => some options
  | argument :: rest, options =>
      if isOption 'n' 'N' argument && !options.xx then
        setOptions rest { options with nx := true }
      else if isOption 'x' 'X' argument && !options.nx then
        setOptions rest { options with xx := true }
      else
        match rest with
        | [] => none
        | next :: rest =>
            if isOption 'e' 'E' argument && !options.px then
              setOptions rest
                { options with ex := true, unit := .seconds, expire := next }
            else if isOption 'p' 'P' argument && !options.ex then
              setOptions rest
                { options with
                  px := true, unit := .milliseconds, expire := next }
            else none

def setCommand (key value : Sds) (arguments : List Sds) (now : Int)
    (db : RedisDb) : Outcome :=
  match setOptions arguments {} with
  | none => some (.syntaxerr, db)
  | some options =>
      setGenericCommand "set" options key (tryObjectEncoding value)
        .ok .nullbulk now db

def setnxCommand (key value : Sds) (now : Int) (db : RedisDb) : Outcome :=
  setGenericCommand "setnx" { nx := true } key (tryObjectEncoding value)
    (.integer 1) (.integer 0) now db

def setexCommand (key expire value : Sds) (now : Int) (db : RedisDb) :
    Outcome :=
  setGenericCommand "setex" { expire := some expire, unit := .seconds } key
    (tryObjectEncoding value) .ok .nullbulk now db

def psetexCommand (key expire value : Sds) (now : Int) (db : RedisDb) :
    Outcome :=
  setGenericCommand "psetex" { expire := some expire, unit := .milliseconds }
    key (tryObjectEncoding value) .ok .nullbulk now db

/-- Both operands have one sign and the sum does not fit. -/
def wouldOverflow (incr oldvalue : Int) : Bool :=
  (incr < 0 && oldvalue < 0 && incr < -9223372036854775808 - oldvalue) ||
    (incr > 0 && oldvalue > 0 && incr > 9223372036854775807 - oldvalue)

def incrDecrCommand (key : Sds) (incr : Int) (now : Int) (db : RedisDb) :
    Outcome := do
  let found ← lookupKeyWrite db key now
  match found.1 with
  | some (.list _) => some (.wrongtypeerr, found.2)
  | object =>
      match getLongLongFromObject object with
      | none => some (notAnInteger, found.2)
      | some oldvalue =>
          if wouldOverflow incr oldvalue then
            some (.error "increment or decrement would overflow", found.2)
          else
            let value := wrap (oldvalue + incr)
            let written ←
              match object with
              | none => dbAdd found.2 key (.int value)
              | some _ => dbOverwrite found.2 key (.int value)
            some (.integer value, written)

def incrbyCommand (key argument : Sds) (now : Int) (db : RedisDb) :
    Outcome :=
  match string2ll argument with
  | none => some (notAnInteger, db)
  | some incr => incrDecrCommand key incr now db

def decrbyCommand (key argument : Sds) (now : Int) (db : RedisDb) :
    Outcome :=
  match string2ll argument with
  | none => some (notAnInteger, db)
  | some incr => incrDecrCommand key (wrap (-incr)) now db

def listTypePush (place : ListEnd) (items : List Sds) (value : Sds) :
    List Sds :=
  match place with
  | .head => value :: items
  | .tail => items ++ [value]

def pushGenericCommand (place : ListEnd) (key : Sds) (values : List Sds)
    (now : Int) (db : RedisDb) : Outcome := do
  let found ← lookupKeyWrite db key now
  match found.1 with
  | none =>
      let items := values.foldl (listTypePush place) []
      let written ← dbAdd found.2 key (.list items)
      some (.integer items.length, written)
  | some (.list old) =>
      let items := values.foldl (listTypePush place) old
      let written ← dbOverwrite found.2 key (.list items)
      some (.integer items.length, written)
  | some _ => some (.wrongtypeerr, found.2)

/-- The loop of `delGenericCommand`, after `numdel` keys. -/
def deleteKeys (now : Int) : List Sds → Int → RedisDb → Outcome
  | [], numdel, db => some (.integer numdel, db)
  | key :: rest, numdel, db => do
      let checked ← expireIfNeeded db key now
      let deleted := dbSyncDelete checked.2 key
      deleteKeys now rest (if deleted.1 then numdel + 1 else numdel)
        deleted.2

/-- The loop of `existsCommand`. -/
def countKeys (now : Int) : List Sds → Int → RedisDb → Outcome
  | [], count, db => some (.integer count, db)
  | key :: rest, count, db => do
      let found ← lookupKeyRead db key now
      countKeys now rest (if found.1.isSome then count + 1 else count)
        found.2

def expireGenericCommand (basetime : Int) (unit : TimeUnit)
    (key param : Sds) (now : Int) (db : RedisDb) : Outcome :=
  match string2ll param with
  | none => some (notAnInteger, db)
  | some number => do
      let time := wrap (inMilliseconds unit number + basetime)
      let found ← lookupKeyWrite db key now
      if found.1.isNone then some (.integer 0, found.2)
      else if time ≤ now then
        some (.integer 1, (dbSyncDelete found.2 key).2)
      else
        let timed ← setExpire found.2 key time
        some (.integer 1, timed)

def ttlGenericCommand (output : TimeUnit) (key : Sds) (now : Int)
    (db : RedisDb) : Outcome := do
  let found ← lookupKeyRead db key now
  if found.1.isNone then some (.integer (-2), found.2)
  else
    let expire ← getExpire found.2 key
    let ttl :=
      if expire ≠ -1 then
        if expire - now < 0 then 0 else expire - now
      else -1
    if ttl = -1 then some (.integer (-1), found.2)
    else
      match output with
      | .milliseconds => some (.integer ttl, found.2)
      | .seconds => some (.integer ((wrap (ttl + 500)).tdiv 1000), found.2)

def persistCommand (key : Sds) (now : Int) (db : RedisDb) : Outcome := do
  let found ← lookupKeyWrite db key now
  if found.1.isNone then some (.integer 0, found.2)
  else
    let removed ← removeExpire found.2 key
    some (.integer (if removed.1 then 1 else 0), removed.2)

/-- A client's command; a push has at least one value. -/
inductive Command where
  | get (key : Sds)
  | getset (key value : Sds)
  | set (key value : Sds) (arguments : List Sds)
  | setnx (key value : Sds)
  | setex (key expire value : Sds)
  | psetex (key expire value : Sds)
  | incr (key : Sds)
  | decr (key : Sds)
  | incrby (key argument : Sds)
  | decrby (key argument : Sds)
  | push (place : ListEnd) (key value : Sds) (values : List Sds)
  | del (keys : List Sds)
  | existsKeys (keys : List Sds)
  | expire (unit : TimeUnit) (key param : Sds)
  | expireat (unit : TimeUnit) (key param : Sds)
  | ttl (output : TimeUnit) (key : Sds)
  | persist (key : Sds)

/-- A command is performed at one reading of the clock. -/
def act : Command → Int → RedisDb → Outcome
  | .get key => getGenericCommand key
  | .getset key value => getsetCommand key value
  | .set key value arguments => setCommand key value arguments
  | .setnx key value => setnxCommand key value
  | .setex key expire value => setexCommand key expire value
  | .psetex key expire value => psetexCommand key expire value
  | .incr key => incrDecrCommand key 1
  | .decr key => incrDecrCommand key (-1)
  | .incrby key argument => incrbyCommand key argument
  | .decrby key argument => decrbyCommand key argument
  | .push place key value values =>
      pushGenericCommand place key (value :: values)
  | .del keys => fun now => deleteKeys now keys 0
  | .existsKeys keys => fun now => countKeys now keys 0
  | .expire unit key param => fun now =>
      expireGenericCommand now unit key param now
  | .expireat unit key param => expireGenericCommand 0 unit key param
  | .ttl output key => ttlGenericCommand output key
  | .persist key => persistCommand key

/-! ## The plain map -/

abbrev Entry := Option (Timed Content)

/-- A command that reads and writes the entry of one key. -/
def onKey (key : Sds) (effect : Entry → Reply × Entry)
    (map : Entries Sds Content) : Reply × Entries Sds Content :=
  ((effect (map key)).1, Function.update map key (effect (map key)).2)

def TimeUnit.length : TimeUnit → Int
  | .seconds => 1000
  | .milliseconds => 1

def readEntry : Entry → Reply
  | none => .nullbulk
  | some ⟨.string text, _⟩ => .bulk text
  | some ⟨.list _, _⟩ => .wrongtypeerr

def getsetEntry (value : Sds) : Entry → Reply × Entry
  | some ⟨.list items, deadline⟩ =>
      (.wrongtypeerr, some ⟨.list items, deadline⟩)
  | entry => (readEntry entry, some ⟨.string value, none⟩)

def deadlineOf (name : String) (options : SetOptions) (now : Int) :
    Except Reply (Option Int) :=
  match options.expire with
  | none => .ok none
  | some text =>
      match string2ll text with
      | none => .error notAnInteger
      | some number =>
          if number ≤ 0 then
            .error (.error ("invalid expire time in " ++ name))
          else .ok (some (now + options.unit.length * number))

def setEntry (name : String) (options : SetOptions) (value : Sds)
    (okReply abortReply : Reply) (now : Int) (entry : Entry) :
    Reply × Entry :=
  match deadlineOf name options now with
  | .error reply => (reply, entry)
  | .ok deadline =>
      if options.nx && entry.isSome || options.xx && entry.isNone then
        (abortReply, entry)
      else (okReply, some ⟨.string value, deadline⟩)

/-- The number an entry stands for. -/
def numberOf : Entry → Option Int
  | none => some 0
  | some ⟨.string text, _⟩ => string2ll text
  | some ⟨.list _, _⟩ => none

/-- A number is added, unless the sum has more than 64 bits. -/
def addEntry (amount : Int) : Entry → Reply × Entry
  | some ⟨.list items, deadline⟩ =>
      (.wrongtypeerr, some ⟨.list items, deadline⟩)
  | entry =>
      match numberOf entry with
      | none => (notAnInteger, entry)
      | some number =>
          if InLongLong (number + amount) then
            (.integer (number + amount),
              some ⟨.string (numeral (number + amount)),
                entry.bind (·.deadline)⟩)
          else (.error "increment or decrement would overflow", entry)

/-- `INCRBY` and `DECRBY`: the amount is an argument. -/
def addArgument (sign : Int) (argument : Sds) (entry : Entry) :
    Reply × Entry :=
  match string2ll argument with
  | none => (notAnInteger, entry)
  | some amount => addEntry (sign * amount) entry

def pushed (place : ListEnd) (items values : List Sds) : List Sds :=
  match place with
  | .head => values.reverse ++ items
  | .tail => items ++ values

def pushEntry (place : ListEnd) (values : List Sds) : Entry → Reply × Entry
  | none =>
      (.integer (pushed place [] values).length,
        some ⟨.list (pushed place [] values), none⟩)
  | some ⟨.list items, deadline⟩ =>
      (.integer (pushed place items values).length,
        some ⟨.list (pushed place items values), deadline⟩)
  | some ⟨.string text, deadline⟩ =>
      (.wrongtypeerr, some ⟨.string text, deadline⟩)

def expireEntry (basetime : Int) (unit : TimeUnit) (param : Sds) (now : Int)
    (entry : Entry) : Reply × Entry :=
  match string2ll param with
  | none => (notAnInteger, entry)
  | some number =>
      match entry with
      | none => (.integer 0, none)
      | some ⟨value, _⟩ =>
          (.integer 1,
            if basetime + unit.length * number ≤ now then none
            else some ⟨value, some (basetime + unit.length * number)⟩)

/-- The time left, rounded to seconds if asked for. -/
def ttlEntry (output : TimeUnit) (now : Int) : Entry → Reply
  | none => .integer (-2)
  | some ⟨_, none⟩ => .integer (-1)
  | some ⟨_, some deadline⟩ =>
      match output with
      | .milliseconds => .integer (deadline - now)
      | .seconds => .integer ((deadline - now + 500) / 1000)

def persistEntry : Entry → Reply × Entry
  | none => (.integer 0, none)
  | some ⟨value, deadline⟩ =>
      (.integer (if deadline.isSome then 1 else 0), some ⟨value, none⟩)

/-- A command on the plain map. -/
def perform : Command → Int → Entries Sds Content →
    Reply × Entries Sds Content
  | .get key, _ => onKey key fun entry => (readEntry entry, entry)
  | .getset key value, _ => onKey key (getsetEntry value)
  | .set key value arguments, now =>
      onKey key fun entry =>
        match setOptions arguments {} with
        | none => (.syntaxerr, entry)
        | some options => setEntry "set" options value .ok .nullbulk now entry
  | .setnx key value, now =>
      onKey key (setEntry "setnx" { nx := true } value
        (.integer 1) (.integer 0) now)
  | .setex key expire value, now =>
      onKey key (setEntry "setex" { expire := some expire } value
        .ok .nullbulk now)
  | .psetex key expire value, now =>
      onKey key
        (setEntry "psetex" { expire := some expire, unit := .milliseconds }
          value .ok .nullbulk now)
  | .incr key, _ => onKey key (addEntry 1)
  | .decr key, _ => onKey key (addEntry (-1))
  | .incrby key argument, _ => onKey key (addArgument 1 argument)
  | .decrby key argument, _ => onKey key (addArgument (-1) argument)
  | .push place key value values, _ =>
      onKey key (pushEntry place (value :: values))
  | .del keys, _ => fun map =>
      (.integer (keys.toFinset.filter fun key => (map key).isSome).card,
        fun key => if key ∈ keys then none else map key)
  | .existsKeys keys, _ => fun map =>
      (.integer (keys.countP fun key => (map key).isSome), map)
  | .expire unit key param, now =>
      onKey key (expireEntry now unit param now)
  | .expireat unit key param, now =>
      onKey key (expireEntry 0 unit param now)
  | .ttl output key, now =>
      onKey key fun entry => (ttlEntry output now entry, entry)
  | .persist key, _ => onKey key persistEntry

/-! ## No overflow -/

/-- The expire time of a `SET` is a 64-bit number. -/
def SetFits (now : Int) (options : SetOptions) : Prop :=
  ∀ text number, options.expire = some text →
    string2ll text = some number → 0 < number →
    now + options.unit.length * number ≤ llongMax

/-- The time of an `EXPIRE` is a 64-bit number. -/
def ExpireFits (basetime : Int) (unit : TimeUnit) (param : Sds) : Prop :=
  ∀ number, string2ll param = some number →
    InLongLong (unit.length * number) ∧
      InLongLong (basetime + unit.length * number)

/--
The clock has started, and no computation of a time or of a decrement leaves
the 64 bits, which the commands do not check.
-/
def Allowed (now : Int) (command : Command) : Prop :=
  500 ≤ now ∧
    match command with
    | .set _ _ arguments =>
        ∀ options, setOptions arguments {} = some options →
          SetFits now options
    | .setex _ expire _ => SetFits now { expire := some expire }
    | .psetex _ expire _ =>
        SetFits now { expire := some expire, unit := .milliseconds }
    | .decrby _ argument =>
        string2ll argument ≠ some (-9223372036854775808)
    | .expire unit _ param => ExpireFits now unit param
    | .expireat unit _ param => ExpireFits 0 unit param
    | _ => True

theorem wrap_eq {value : Int} (range : InLongLong value) :
    wrap value = value := by
  obtain ⟨low, high⟩ := range
  apply Int.bmod_eq_of_le
  · omega
  · omega

theorem inMilliseconds_eq {unit : TimeUnit} {number : Int}
    (range : InLongLong (unit.length * number)) :
    inMilliseconds unit number = unit.length * number := by
  cases unit with
  | seconds =>
      simp only [inMilliseconds, TimeUnit.length] at range ⊢
      rw [Int.mul_comm number, wrap_eq range]
  | milliseconds => simp [inMilliseconds, TimeUnit.length]

/-- The check on the signs finds exactly the sums that do not fit. -/
theorem wouldOverflow_iff {incr oldvalue : Int} (range : InLongLong incr)
    (oldRange : InLongLong oldvalue) :
    wouldOverflow incr oldvalue = true ↔ ¬ InLongLong (oldvalue + incr) := by
  obtain ⟨low, high⟩ := range
  obtain ⟨oldLow, oldHigh⟩ := oldRange
  simp only [wouldOverflow, InLongLong, Bool.or_eq_true, Bool.and_eq_true,
    decide_eq_true_eq]
  omega

/-! ## One key -/

/-- The outcome replies as it should, and leaves one entry of the key. -/
def Writes (now : Int) (db : RedisDb) (key : Sds) (result : Reply × Entry)
    (outcome : Outcome) : Prop :=
  ∃ after, outcome = some (result.1, after) ∧ Consistent after ∧
    living now (entries after) =
      living now (Function.update (entries db) key result.2)

section Writes

variable {db : RedisDb} {key : Sds} {now : Int}

theorem Writes.keep (consistent : Consistent db) {reply : Reply}
    {result : Reply × Entry} (isResult : result = (reply, entries db key)) :
    Writes now db key result (some (reply, db)) := by
  subst isResult
  exact ⟨db, rfl, consistent, by rw [Function.update_eq_self]⟩

/-- A command that fails before its lookup. -/
theorem Writes.fail (consistent : Consistent db) (reply : Reply) :
    Writes now db key (reply, alive now (entries db key))
      (some (reply, db)) :=
  ⟨db, rfl, consistent, (living_update_alive now (entries db) key).symm⟩

theorem Writes.write (consistent : Consistent db) {reply : Reply}
    {object : Object} {time : Option Int} {result : Reply × Entry}
    (sound : object.Sound)
    (isTime : ∀ moment ∈ time, 0 ≤ moment ∧ moment ≤ llongMax)
    (isResult : result = (reply, some ⟨object.value, time⟩)) :
    Writes now db key result
      (some (reply, db.write key (some object) time)) := by
  subst isResult
  refine ⟨_, rfl, consistent.write ?_ (by simp) isTime,
    congrArg (living now) (entries_write db key (some object) time)⟩
  intro stored isStored
  cases isStored
  exact sound

theorem Writes.delete (consistent : Consistent db) {reply : Reply}
    {result : Reply × Entry} (isResult : result = (reply, none)) :
    Writes now db key result (some (reply, db.write key none none)) := by
  subst isResult
  exact ⟨_, rfl, consistent.write (by simp) (by simp) (by simp),
    congrArg (living now) (entries_write db key none none)⟩

theorem Writes.of_evict {result : Reply × Entry} {outcome : Outcome}
    (writes : Writes now (db.evict key now) key result outcome) :
    Writes now db key result outcome := by
  obtain ⟨after, isOutcome, consistent, isEntries⟩ := writes
  refine ⟨after, isOutcome, consistent, ?_⟩
  rw [isEntries, entries_evict, Function.update_idem]

theorem entries_evict_self :
    entries (db.evict key now) key = alive now (entries db key) := by
  rw [entries_evict, Function.update_self]

theorem living_entries_evict :
    living now (entries (db.evict key now)) = living now (entries db) := by
  rw [entries_evict, living_update_alive]

/-- A command looks its key up and goes on with what it finds. -/
theorem Writes.lookup (consistent : Consistent db)
    {effect : Entry → Reply × Entry}
    {proceed : Option Object × RedisDb → Outcome}
    (step : ∀ evicted, Consistent evicted →
      (∀ deadline ∈ evicted.expires key, now ≤ deadline) →
      Writes now evicted key (effect (entries evicted key))
        (proceed (evicted.dict key, evicted))) :
    Writes now db key (effect (alive now (entries db key)))
        (lookupKeyWrite db key now >>= proceed) ∧
      Writes now db key (effect (alive now (entries db key)))
        (lookupKeyRead db key now >>= proceed) := by
  have notPast : ∀ deadline ∈ (db.evict key now).expires key,
      now ≤ deadline := by
    intro deadline found
    unfold RedisDb.evict RedisDb.isPast at found
    cases stored : db.expires key with
    | none => simp [stored] at found
    | some time =>
        by_cases past : time < now
        · simp [stored, past, RedisDb.write] at found
        · simp [stored, past] at found
          omega
  have writes := step _ (consistent.evict key now) notPast
  rw [entries_evict_self] at writes
  rw [lookupKeyWrite_eq consistent, lookupKeyRead_eq consistent]
  exact ⟨writes.of_evict, writes.of_evict⟩

/-- The same on the plain map. -/
theorem Writes.performs {effect : Entry → Reply × Entry} {outcome : Outcome}
    (writes : Writes now db key (effect (alive now (entries db key))) outcome) :
    ∃ after,
      outcome =
        some ((onKey key effect (living now (entries db))).1, after) ∧
      Consistent after ∧
      living now (entries after) =
        living now (onKey key effect (living now (entries db))).2 := by
  obtain ⟨after, isOutcome, consistent, isEntries⟩ := writes
  refine ⟨after, isOutcome, consistent, ?_⟩
  rw [isEntries]
  exact (living_update now (entries db) key _).symm

theorem entries_of_missing (missing : db.dict key = none) :
    entries db key = none := by
  simp [entries, missing]

theorem entries_of_stored {object : Object}
    (stored : db.dict key = some object) :
    entries db key = some ⟨object.value, db.expires key⟩ := by
  simp [entries, stored]

end Writes

/-! ## Each command -/

section Commands

variable {db : RedisDb} (consistent : Consistent db) (key : Sds) (now : Int)

include consistent

theorem getGenericCommand_eq :
    getGenericCommand key now db =
      some (readEntry (alive now (entries db key)), db.evict key now) := by
  rw [← entries_evict_self]
  unfold getGenericCommand
  rw [lookupKeyRead_eq consistent, Option.bind_eq_bind, Option.bind_some]
  cases stored : (db.evict key now).dict key with
  | none =>
      rw [entries_of_missing stored]
      rfl
  | some object =>
      rw [entries_of_stored stored]
      cases object with
      | raw text => rfl
      | int value => rfl
      | list items => rfl

theorem getGenericCommand_writes :
    Writes now db key
      (readEntry (alive now (entries db key)), alive now (entries db key))
      (getGenericCommand key now db) := by
  rw [getGenericCommand_eq consistent, ← @entries_evict_self db key now]
  exact (Writes.keep (consistent.evict key now) rfl).of_evict

theorem setKey_writes {object : Object} (sound : object.Sound)
    (reply : Reply) :
    Writes now db key (reply, some ⟨object.value, none⟩)
      ((setKey db key object now).bind fun written =>
        some (reply, written)) := by
  rw [setKey_eq consistent, Option.bind_some]
  exact (Writes.write (consistent.evict key now) sound (by simp) rfl).of_evict

theorem getsetCommand_writes (value : Sds) :
    Writes now db key (getsetEntry value (alive now (entries db key)))
      (getsetCommand key value now db) := by
  have evicted := consistent.evict key now
  have encoded := tryObjectEncoding_value value
  have written (reply : Reply) := setKey_writes evicted key now
    encoded.2 reply
  rw [encoded.1] at written
  unfold getsetCommand
  rw [getGenericCommand_eq consistent, Option.bind_eq_bind,
    Option.bind_some, ← @entries_evict_self db key now]
  apply Writes.of_evict
  generalize isEntry : entries (db.evict key now) key = entry
  match entry with
  | none => exact written .nullbulk
  | some ⟨.string text, deadline⟩ => exact written (.bulk text)
  | some ⟨.list items, deadline⟩ =>
      exact Writes.keep evicted (by rw [isEntry]; rfl)

omit consistent in
/-- The two computations of the expire time agree. -/
theorem expireArgument_eq (name : String) {options : SetOptions}
    (started : 0 ≤ now) (fits : SetFits now options) :
    (∃ reply,
      expireArgument name options.expire options.unit = .error reply ∧
        deadlineOf name options now = .error reply) ∨
      ∃ milliseconds,
        expireArgument name options.expire options.unit =
            .ok milliseconds ∧
          deadlineOf name options now =
            .ok (milliseconds.map (now + ·)) ∧
          ∀ duration ∈ milliseconds,
            0 ≤ now + duration ∧ now + duration ≤ llongMax := by
  obtain ⟨nx, xx, ex, px, expire, unit⟩ := options
  simp only [expireArgument, deadlineOf]
  cases expire with
  | none => exact Or.inr ⟨none, rfl, rfl, by simp⟩
  | some text =>
      cases read : string2ll text with
      | none =>
          simp only [read]
          exact Or.inl ⟨_, rfl, rfl⟩
      | some number =>
          simp only [read]
          by_cases positive : number ≤ 0
          · rw [if_pos positive, if_pos positive]
            exact Or.inl ⟨_, rfl, rfl⟩
          · have bound := fits text number rfl read (by omega)
            have maximum : llongMax = 9223372036854775807 := rfl
            rw [if_neg positive, if_neg positive]
            have notNegative : 0 ≤ unit.length * number := by
              cases unit with
              | seconds =>
                  simp only [TimeUnit.length]
                  omega
              | milliseconds =>
                  simp only [TimeUnit.length]
                  omega
            change now + unit.length * number ≤ llongMax at bound
            refine Or.inr ⟨some (unit.length * number), ?_, rfl, ?_⟩
            · rw [inMilliseconds_eq ⟨by omega, by omega⟩]
            · intro duration isDuration
              cases isDuration
              exact ⟨by omega, bound⟩

/-- The end of `setGenericCommand`. -/
theorem setKey_setExpire_writes {object : Object} (sound : object.Sound)
    (reply : Reply) {milliseconds : Option Int}
    (isTime : ∀ duration ∈ milliseconds,
      0 ≤ now + duration ∧ now + duration ≤ llongMax) :
    Writes now db key
      (reply, some ⟨object.value, milliseconds.map (now + ·)⟩)
      (do
        let written ← setKey db key object now
        match milliseconds with
        | none => some (reply, written)
        | some milliseconds =>
            let timed ← setExpire written key (wrap (now + milliseconds))
            some (reply, timed)) := by
  cases milliseconds with
  | none => exact setKey_writes consistent key now sound reply
  | some milliseconds =>
      have bounds := isTime milliseconds rfl
      have maximum : llongMax = 9223372036854775807 := rfl
      have evicted := consistent.evict key now
      have stored :
          ((db.evict key now).write key (some object) none).dict key =
            some object := by
        simp [RedisDb.write]
      have twice :
          ((db.evict key now).write key (some object) none).write key
              (some object) (some (now + milliseconds)) =
            (db.evict key now).write key (some object)
              (some (now + milliseconds)) := by
        simp [RedisDb.write]
      simp only [setKey_eq consistent, Option.bind_eq_bind,
        Option.bind_some, setExpire_eq stored,
        wrap_eq (show InLongLong (now + milliseconds) from
          ⟨by omega, by omega⟩), twice]
      refine (Writes.write evicted sound ?_ rfl).of_evict
      intro moment isMoment
      cases isMoment
      exact bounds

omit consistent in
theorem isSome_dict_evict :
    ((db.evict key now).dict key).isSome =
      (alive now (entries db key)).isSome := by
  rw [← entries_evict_self]
  simp [entries]

omit consistent in
theorem alive_entries_evict :
    alive now (entries (db.evict key now) key) =
      alive now (entries db key) := by
  rw [entries_evict_self, alive_alive (Int.le_refl now)]

theorem flagLookup_eq (flag : Bool) (test : Option Object → Bool) :
    flagLookup flag test key now db =
      some (flag && test ((db.evict key now).dict key),
        if flag then db.evict key now else db) := by
  cases flag with
  | true => simp [flagLookup, lookupKeyWrite_eq consistent]
  | false => rfl

theorem Consistent.evictIf (flag : Bool) :
    Consistent (if flag then db.evict key now else db) := by
  split
  · exact consistent.evict key now
  · exact consistent

omit consistent in
theorem Writes.of_evictIf {flag : Bool} {result : Reply × Entry}
    {outcome : Outcome}
    (writes : Writes now (if flag then db.evict key now else db) key
      result outcome) :
    Writes now db key result outcome := by
  split at writes
  · exact writes.of_evict
  · exact writes

omit consistent in
theorem alive_entries_evictIf (flag : Bool) :
    alive now (entries (if flag then db.evict key now else db) key) =
      alive now (entries db key) := by
  split
  · exact alive_entries_evict key now
  · rfl

theorem setGenericCommand_writes (name : String) {options : SetOptions}
    {object : Object} {value : Sds} (sound : object.Sound)
    (shown : object.value = .string value) (okReply abortReply : Reply)
    (started : 0 ≤ now) (fits : SetFits now options) :
    Writes now db key
      (setEntry name options value okReply abortReply now
        (alive now (entries db key)))
      (setGenericCommand name options key object okReply abortReply now
        db) := by
  unfold setGenericCommand setEntry
  obtain ⟨reply, isArgument, isDeadline⟩ |
    ⟨milliseconds, isArgument, isDeadline, isTime⟩ :=
      expireArgument_eq now name started fits
  · rw [isArgument, isDeadline]
    exact Writes.fail consistent reply
  · have once := Consistent.evictIf consistent key now options.nx
    have twice := Consistent.evictIf once key now options.xx
    have sameOnce := @alive_entries_evictIf db key now options.nx
    have sameTwice := (alive_entries_evictIf key now options.xx).trans sameOnce
    simp only [isArgument, isDeadline, Option.bind_eq_bind,
      flagLookup_eq consistent key now options.nx Option.isSome,
      Option.bind_some, isSome_dict_evict]
    by_cases taken :
        (options.nx && (alive now (entries db key)).isSome) = true
    · rw [if_pos taken, if_pos (by simp [taken]), ← sameOnce]
      exact (Writes.fail once abortReply).of_evictIf
    · have absent (database : RedisDb) :
          ((database.evict key now).dict key).isNone =
            (alive now (entries database key)).isNone := by
        rw [← Option.not_isSome, ← Option.not_isSome, isSome_dict_evict]
      rw [if_neg taken, flagLookup_eq once key now options.xx Option.isNone,
        Option.bind_some, absent, sameOnce]
      by_cases missing :
          (options.xx && (alive now (entries db key)).isNone) = true
      · rw [if_pos missing, if_pos (by simp [missing]), ← sameTwice]
        exact (Writes.fail twice abortReply).of_evictIf.of_evictIf
      · rw [if_neg missing, if_neg (by simp [taken, missing]), ← shown]
        exact (setKey_setExpire_writes twice key now sound okReply
          isTime).of_evictIf.of_evictIf

/-- The end of `incrDecrCommand`, for either encoding of a string. -/
theorem addString_writes {object : Object} {text : Sds} {incr : Int}
    (range : InLongLong incr) (stored : db.dict key = some object)
    (shown : object.value = .string text) :
    Writes now db key
      (addEntry incr (some ⟨.string text, db.expires key⟩))
      (match getLongLongFromObject (some object) with
        | none => some (notAnInteger, db)
        | some oldvalue =>
            if wouldOverflow incr oldvalue then
              some (.error "increment or decrement would overflow", db)
            else
              (dbOverwrite db key (.int (wrap (oldvalue + incr)))).bind
                fun written =>
                  some (.integer (wrap (oldvalue + incr)), written)) := by
  have isEntry := entries_of_stored stored
  rw [shown] at isEntry
  rw [getLongLongFromObject_eq (consistent.sound stored) shown]
  simp only [addEntry, numberOf]
  cases read : string2ll text with
  | none => exact Writes.keep consistent (by rw [isEntry])
  | some number =>
      have numberRange := ((string2ll_iff text number).mp read).1
      have overflow := wouldOverflow_iff range numberRange
      by_cases fits : InLongLong (number + incr)
      · have small : ¬ wouldOverflow incr number = true := by
          rw [overflow]
          exact not_not_intro fits
        simp only [if_pos fits, if_neg small, wrap_eq fits,
          dbOverwrite_eq stored, Option.bind_some]
        refine Writes.write consistent fits
          (fun moment found => consistent.time found) ?_
        rw [Object.value, getDecodedObject_int fits]
      · simp only [if_neg fits, if_pos (overflow.mpr fits)]
        exact Writes.keep consistent (by rw [isEntry])

theorem incrDecrCommand_writes {incr : Int} (range : InLongLong incr) :
    Writes now db key (addEntry incr (alive now (entries db key)))
      (incrDecrCommand key incr now db) := by
  refine (Writes.lookup consistent ?_).1
  intro evicted evictedConsistent _
  cases stored : evicted.dict key with
  | none =>
      have fits : InLongLong (0 + incr) := by rwa [Int.zero_add]
      have small : wouldOverflow incr 0 = false := by
        simp [wouldOverflow]
      rw [entries_of_missing stored]
      simp only [getLongLongFromObject, small, wrap_eq fits,
        dbAdd_eq evictedConsistent stored, Option.bind_eq_bind,
        Option.bind_some]
      refine Writes.write evictedConsistent fits (by simp) ?_
      simp only [addEntry, numberOf, if_pos fits, Object.value,
        getDecodedObject_int fits, Option.bind_none]
  | some object =>
      rw [entries_of_stored stored]
      cases object with
      | raw text =>
          exact addString_writes evictedConsistent key now range stored rfl
      | int value =>
          exact addString_writes evictedConsistent key now range stored rfl
      | list items =>
          exact Writes.keep evictedConsistent
            (by rw [entries_of_stored stored]; rfl)

theorem persistCommand_writes :
    Writes now db key (persistEntry (alive now (entries db key)))
      (persistCommand key now db) := by
  refine (Writes.lookup consistent ?_).1
  intro evicted evictedConsistent _
  cases stored : evicted.dict key with
  | none =>
      exact Writes.keep evictedConsistent
        (by rw [entries_of_missing stored]; rfl)
  | some object =>
      rw [entries_of_stored stored]
      simp only [removeExpire_eq stored, Option.bind_eq_bind,
        Option.bind_some, Option.isNone_some, Bool.false_eq_true, if_false]
      exact Writes.write evictedConsistent (evictedConsistent.sound stored)
        (by simp) rfl

theorem expireGenericCommand_writes {basetime : Int} {unit : TimeUnit}
    {param : Sds} (started : 0 ≤ now)
    (fits : ExpireFits basetime unit param) :
    Writes now db key
      (expireEntry basetime unit param now (alive now (entries db key)))
      (expireGenericCommand basetime unit key param now db) := by
  unfold expireGenericCommand expireEntry
  cases read : string2ll param with
  | none => exact Writes.fail consistent notAnInteger
  | some number =>
      obtain ⟨scaledFits, timeFits⟩ := fits number read
      have isTime : wrap (inMilliseconds unit number + basetime) =
          basetime + unit.length * number := by
        rw [inMilliseconds_eq scaledFits, Int.add_comm, wrap_eq timeFits]
      simp only [isTime]
      refine (@Writes.lookup db key now consistent (fun entry =>
        match entry with
        | none => (.integer 0, none)
        | some ⟨value, _⟩ =>
            (.integer 1,
              if basetime + unit.length * number ≤ now then none
              else some
                ⟨value, some (basetime + unit.length * number)⟩)) _ ?_).1
      intro evicted evictedConsistent _
      cases stored : evicted.dict key with
      | none =>
          exact Writes.keep evictedConsistent
            (by rw [entries_of_missing stored])
      | some object =>
          rw [entries_of_stored stored]
          simp only [setExpire_eq stored, Option.bind_eq_bind,
            Option.bind_some, Option.isNone_some, Bool.false_eq_true,
            if_false]
          by_cases past : basetime + unit.length * number ≤ now
          · rw [if_pos past, if_pos past]
            exact Writes.delete evictedConsistent rfl
          · have maximum : llongMax = 9223372036854775807 := rfl
            rw [if_neg past, if_neg past]
            refine Writes.write evictedConsistent
              (evictedConsistent.sound stored) ?_ rfl
            intro moment isMoment
            cases isMoment
            obtain ⟨_, high⟩ := timeFits
            constructor
            · omega
            · omega

omit consistent in
theorem foldl_listTypePush (place : ListEnd) (values items : List Sds) :
    values.foldl (listTypePush place) items = pushed place items values := by
  induction values generalizing items with
  | nil => cases place <;> simp [pushed]
  | cons value rest inductionHypothesis =>
      rw [List.foldl_cons, inductionHypothesis]
      cases place <;> simp [pushed, listTypePush]

theorem pushGenericCommand_writes (place : ListEnd) (values : List Sds) :
    Writes now db key
      (pushEntry place values (alive now (entries db key)))
      (pushGenericCommand place key values now db) := by
  refine (Writes.lookup consistent ?_).1
  intro evicted evictedConsistent _
  cases stored : evicted.dict key with
  | none =>
      rw [entries_of_missing stored]
      simp only [dbAdd_eq evictedConsistent stored, foldl_listTypePush,
        Option.bind_eq_bind, Option.bind_some]
      exact Writes.write evictedConsistent trivial (by simp) rfl
  | some object =>
      rw [entries_of_stored stored]
      cases object with
      | raw text =>
          exact Writes.keep evictedConsistent
            (by rw [entries_of_stored stored]; rfl)
      | int value =>
          exact Writes.keep evictedConsistent
            (by rw [entries_of_stored stored]; rfl)
      | list items =>
          simp only [dbOverwrite_eq stored, foldl_listTypePush,
            Option.bind_eq_bind, Option.bind_some]
          exact Writes.write evictedConsistent trivial
            (fun moment found => evictedConsistent.time found) rfl

theorem ttlGenericCommand_writes (output : TimeUnit) (started : 500 ≤ now) :
    Writes now db key
      (ttlEntry output now (alive now (entries db key)),
        alive now (entries db key))
      (ttlGenericCommand output key now db) := by
  refine (@Writes.lookup db key now consistent
    (fun entry => (ttlEntry output now entry, entry)) _ ?_).2
  intro evicted evictedConsistent notPast
  cases stored : evicted.dict key with
  | none =>
      exact Writes.keep evictedConsistent
        (by rw [entries_of_missing stored]; rfl)
  | some object =>
      have isEntry := entries_of_stored stored
      simp only [getExpire_eq evictedConsistent, Option.bind_eq_bind,
        Option.bind_some, Option.isNone_some, Bool.false_eq_true, if_false]
      cases found : evicted.expires key with
      | none =>
          rw [found] at isEntry
          exact Writes.keep evictedConsistent (by rw [isEntry]; rfl)
      | some time =>
          have later := notPast time found
          have isTime := evictedConsistent.time found
          have maximum : llongMax = 9223372036854775807 := rfl
          rw [found] at isEntry
          have left : (if time ≠ -1 then
              if time - now < 0 then 0 else time - now
              else -1) = time - now := by
            rw [if_pos (by omega), if_neg (by omega)]
          simp only [Option.getD_some, left]
          rw [if_neg (by omega)]
          cases output with
          | milliseconds =>
              exact Writes.keep evictedConsistent (by rw [isEntry]; rfl)
          | seconds =>
              refine Writes.keep evictedConsistent ?_
              rw [isEntry, wrap_eq ⟨by omega, by omega⟩,
                Int.tdiv_eq_ediv_of_nonneg (by omega)]
              rfl

theorem setCommand_writes (value : Sds) (arguments : List Sds)
    (started : 0 ≤ now)
    (fits : ∀ options, setOptions arguments {} = some options →
      SetFits now options) :
    Writes now db key
      (match setOptions arguments {} with
        | none => (.syntaxerr, alive now (entries db key))
        | some options =>
            setEntry "set" options value .ok .nullbulk now
              (alive now (entries db key)))
      (setCommand key value arguments now db) := by
  obtain ⟨shown, sound⟩ := tryObjectEncoding_value value
  unfold setCommand
  cases read : setOptions arguments {} with
  | none => exact Writes.fail consistent .syntaxerr
  | some options =>
      exact setGenericCommand_writes consistent key now "set" sound shown
        .ok .nullbulk started (fits options read)

theorem incrbyCommand_writes (argument : Sds) :
    Writes now db key
      (addArgument 1 argument (alive now (entries db key)))
      (incrbyCommand key argument now db) := by
  unfold incrbyCommand addArgument
  cases read : string2ll argument with
  | none => exact Writes.fail consistent notAnInteger
  | some amount =>
      have range := ((string2ll_iff argument amount).mp read).1
      simp only [Int.one_mul]
      exact incrDecrCommand_writes consistent key now range

theorem decrbyCommand_writes {argument : Sds}
    (fits : string2ll argument ≠ some (-9223372036854775808)) :
    Writes now db key
      (addArgument (-1) argument (alive now (entries db key)))
      (decrbyCommand key argument now db) := by
  unfold decrbyCommand addArgument
  cases read : string2ll argument with
  | none => exact Writes.fail consistent notAnInteger
  | some amount =>
      obtain ⟨low, high⟩ := ((string2ll_iff argument amount).mp read).1
      have notSmallest : amount ≠ -9223372036854775808 := by
        rintro rfl
        exact fits read
      have range : InLongLong (-amount) := ⟨by omega, by omega⟩
      simp only [Int.neg_mul, Int.one_mul, wrap_eq range]
      exact incrDecrCommand_writes consistent key now range

end Commands

/-! ## Several keys -/

/-- The keys of a list that a map has, one of them apart. -/
theorem card_present_cons (map : Entries Sds Content) (key : Sds)
    (rest : List Sds) :
    ((key :: rest).toFinset.filter fun key => (map key).isSome).card =
      (if (map key).isSome then 1 else 0) +
        (rest.toFinset.filter fun other =>
          (Function.update map key none other).isSome).card := by
  have others (other : Sds) :
      (Function.update map key none other).isSome = true ↔
        other ≠ key ∧ (map other).isSome = true := by
    by_cases same : other = key
    · subst same
      simp
    · simp [same]
  have notThere : key ∉ rest.toFinset.filter fun other =>
      (Function.update map key none other).isSome := by
    simp
  by_cases present : (map key).isSome = true
  · have inserted :
        ((key :: rest).toFinset.filter fun key => (map key).isSome) =
          insert key (rest.toFinset.filter fun other =>
            (Function.update map key none other).isSome) := by
      ext other
      simp only [List.toFinset_cons, Finset.mem_filter, Finset.mem_insert,
        others]
      by_cases same : other = key
      · subst same
        simp [present]
      · simp [same]
    rw [inserted, Finset.card_insert_of_notMem notThere, if_pos present,
      Nat.add_comm]
  · have equal :
        ((key :: rest).toFinset.filter fun key => (map key).isSome) =
          rest.toFinset.filter fun other =>
            (Function.update map key none other).isSome := by
      ext other
      simp only [List.toFinset_cons, Finset.mem_filter, Finset.mem_insert,
        others]
      by_cases same : other = key
      · subst same
        simp [present]
      · simp [same]
    rw [equal, if_neg present, Nat.zero_add]

/-- A key named twice is deleted once. -/
theorem deleteKeys_performs {db : RedisDb} (consistent : Consistent db)
    (now : Int) (keys : List Sds) (numdel : Int) :
    ∃ after,
      deleteKeys now keys numdel db =
        some (.integer (numdel +
          (keys.toFinset.filter fun key =>
            (living now (entries db) key).isSome).card), after) ∧
      Consistent after ∧
      living now (entries after) =
        fun key =>
          if key ∈ keys then none else living now (entries db) key := by
  induction keys generalizing db numdel with
  | nil =>
      refine ⟨db, ?_, consistent, by funext; simp⟩
      exact congrArg (fun number => some (Reply.integer number, db))
        (Int.add_zero numdel).symm
  | cons key rest inductionHypothesis =>
      have evicted := consistent.evict key now
      have deleted : Consistent ((db.evict key now).write key none none) :=
        evicted.write (by simp) (by simp) (by simp)
      have left :
          living now (entries ((db.evict key now).write key none none)) =
            Function.update (living now (entries db)) key none := by
        rw [entries_write, entries_evict, Function.update_idem]
        funext other
        by_cases same : other = key
        · subst same
          simp
        · simp [same]
      obtain ⟨after, isOutcome, afterConsistent, isEntries⟩ :=
        inductionHypothesis deleted
          (if ((db.evict key now).dict key).isSome then numdel + 1
            else numdel)
      refine ⟨after, ?_, afterConsistent, ?_⟩
      · rw [deleteKeys, expireIfNeeded_eq consistent]
        refine isOutcome.trans ?_
        rw [left, card_present_cons, isSome_dict_evict]
        by_cases present : (alive now (entries db key)).isSome = true
        · rw [if_pos present, living_apply, if_pos present,
            Int.natCast_add, Int.add_assoc]
          rfl
        · rw [if_neg present, living_apply, if_neg present, Nat.zero_add]
      · rw [isEntries, left]
        funext other
        by_cases same : other = key
        · subst same
          simp
        · simp [same]

/-- A key named twice is counted twice. -/
theorem countKeys_performs {db : RedisDb} (consistent : Consistent db)
    (now : Int) (keys : List Sds) (count : Int) :
    ∃ after,
      countKeys now keys count db =
        some (.integer (count +
          keys.countP fun key => (living now (entries db) key).isSome),
            after) ∧
      Consistent after ∧
      living now (entries after) = living now (entries db) := by
  induction keys generalizing db count with
  | nil => exact ⟨db, by simp [countKeys], consistent, rfl⟩
  | cons key rest inductionHypothesis =>
      have evicted := consistent.evict key now
      have left := @living_entries_evict db key now
      obtain ⟨after, isOutcome, afterConsistent, isEntries⟩ :=
        inductionHypothesis evicted
          (if ((db.evict key now).dict key).isSome then count + 1
            else count)
      refine ⟨after, ?_, afterConsistent, isEntries.trans left⟩
      rw [countKeys, lookupKeyRead_eq consistent]
      refine isOutcome.trans ?_
      rw [left, isSome_dict_evict, List.countP_cons]
      by_cases present : (alive now (entries db key)).isSome = true
      · rw [if_pos present, living_apply, if_pos present,
          Int.natCast_add, Int.add_assoc, Int.add_comm 1]
        rfl
      · rw [if_neg present, living_apply, if_neg present, Nat.add_zero]

/-! ## Every schedule -/

theorem act_performs {db : RedisDb} {now : Int} {command : Command}
    (consistent : Consistent db) (allowed : Allowed now command) :
    ∃ after,
      act command now db =
        some ((perform command now (living now (entries db))).1, after) ∧
      Consistent after ∧
      living now (entries after) =
        living now (perform command now (living now (entries db))).2 := by
  obtain ⟨clock, fits⟩ := allowed
  have started : 0 ≤ now := by omega
  cases command with
  | get key => exact (getGenericCommand_writes consistent key now).performs
  | getset key value =>
      exact (getsetCommand_writes consistent key now value).performs
  | set key value arguments =>
      exact (setCommand_writes consistent key now value arguments started
        fits).performs
  | setnx key value =>
      obtain ⟨shown, sound⟩ := tryObjectEncoding_value value
      have noTime : SetFits now { nx := true } := by
        intro text number isText
        cases isText
      exact (setGenericCommand_writes consistent key now "setnx" sound shown
        (.integer 1) (.integer 0) started noTime).performs
  | setex key expire value =>
      obtain ⟨shown, sound⟩ := tryObjectEncoding_value value
      exact (setGenericCommand_writes consistent key now "setex" sound shown
        .ok .nullbulk started fits).performs
  | psetex key expire value =>
      obtain ⟨shown, sound⟩ := tryObjectEncoding_value value
      exact (setGenericCommand_writes consistent key now "psetex" sound
        shown .ok .nullbulk started fits).performs
  | incr key =>
      exact (incrDecrCommand_writes consistent key now (by decide)).performs
  | decr key =>
      exact (incrDecrCommand_writes consistent key now (by decide)).performs
  | incrby key argument =>
      exact (incrbyCommand_writes consistent key now argument).performs
  | decrby key argument =>
      exact (decrbyCommand_writes consistent key now fits).performs
  | push place key value values =>
      exact (pushGenericCommand_writes consistent key now place
        (value :: values)).performs
  | del keys =>
      obtain ⟨after, isOutcome, afterConsistent, isEntries⟩ :=
        deleteKeys_performs consistent now keys 0
      refine ⟨after, ?_, afterConsistent, ?_⟩
      · rw [Int.zero_add] at isOutcome
        exact isOutcome
      · rw [isEntries]
        funext other
        simp only [perform, living_apply]
        split
        · rfl
        · exact (alive_alive (Int.le_refl now) (entries db other)).symm
  | existsKeys keys =>
      obtain ⟨after, isOutcome, afterConsistent, isEntries⟩ :=
        countKeys_performs consistent now keys 0
      refine ⟨after, ?_, afterConsistent, ?_⟩
      · rw [Int.zero_add] at isOutcome
        exact isOutcome
      · rw [isEntries]
        exact (living_living (Int.le_refl now) (entries db)).symm
  | expire unit key param =>
      exact (expireGenericCommand_writes consistent key now started
        fits).performs
  | expireat unit key param =>
      exact (expireGenericCommand_writes consistent key now started
        fits).performs
  | ttl output key =>
      exact (ttlGenericCommand_writes consistent key now output
        clock).performs
  | persist key => exact (persistCommand_writes consistent key now).performs

theorem act_implements :
    Implements act activeExpireCycleTryExpire perform entries Consistent
      Allowed where
  performs := act_performs
  collects := by
    intro db now key consistent
    rw [activeExpireCycleTryExpire_eq]
    exact ⟨consistent.evict key now, living_entries_evict⟩

/--
Whatever commands clients send, and whatever the active cycle removes between
them, no assertion fails and the replies are those of the plain map.
-/
theorem replies_of_schedule {db : RedisDb} (consistent : Consistent db)
    {time : Int} {events : List (Event Sds Command)}
    (ordered : Ordered time events)
    (allowed : AllAllowed Allowed events) :
    storeReplies act activeExpireCycleTryExpire db events =
      some (mapReplies perform (entries db) events) :=
  act_implements.replies_eq consistent rfl ordered allowed

/-- A counter with one second to live, removed before it is read again. -/
theorem replies_of_schedule_counter :
    storeReplies act activeExpireCycleTryExpire
        ⟨fun _ => none, fun _ => none⟩
        [.command 1000 (.setex ['a'] ['1'] ['9']),
          .command 1500 (.incr ['a']),
          .collect 2500 ['a'],
          .command 2600 (.get ['a'])] =
      some (mapReplies perform (entries ⟨fun _ => none, fun _ => none⟩)
        [.command 1000 (.setex ['a'] ['1'] ['9']),
          .command 1500 (.incr ['a']),
          .collect 2500 ['a'],
          .command 2600 (.get ['a'])]) := by
  refine @replies_of_schedule ⟨fun _ => none, fun _ => none⟩
    ⟨by simp, by simp, by simp⟩ 0 _ (by simp [Ordered, Event.now]) ?_
  intro now command member
  simp only [List.mem_cons, Event.command.injEq, reduceCtorEq,
    List.not_mem_nil, or_false, false_or] at member
  rcases member with ⟨rfl, rfl⟩ | ⟨rfl, rfl⟩ | ⟨rfl, rfl⟩
  · refine ⟨by decide, ?_⟩
    intro text number isText read positive
    cases isText
    have isOne : string2ll ['1'] = some 1 := by decide
    rw [isOne] at read
    cases read
    decide
  · exact ⟨by decide, trivial⟩
  · exact ⟨by decide, trivial⟩

end NomadiCore.Redis
