import NomadiCore.Library.LabelledRun
import NomadiCore.RedisCommands

/-!
# The cached user guide

The route `/userguide` keeps its page in the Redis server for an hour.  A
request asks whether the page is there, and either reads it or renders its own,
stores it and reads it back; each of these is a command of its own, and other
requests, other clients and the active cycle of the server come in between.
-/

namespace NomadiCore.UserGuideCache

open NomadiCore.Library.LabelledRun
open NomadiCore.Library.TimedMap
open NomadiCore.Redis

/-! ## The route -/

/-- How the cache writes a value into a string and reads it again. -/
structure Serializer where
  serialize : String → Sds
  unserialize : Sds → String
  unserialize_serialize : ∀ page, unserialize (serialize page) = page

/-- The prefix of `config/cache.php` and the key of the route. -/
def cacheKey : Sds := "laravel:userguide".toList

/-- Sixty minutes, in seconds. -/
def lifetime : Sds := "3600".toList

/-- Where a request is; `page` is the page it would render. -/
inductive Phase where
  | has (page : String)
  | hit
  | put (page : String)
  | created
  | answered

/-- What a request returned, and what had been stored by then. -/
structure Answer where
  time : Int
  page : Option String
  stored : List (Int × String)

structure Site where
  clock : Int
  db : RedisDb
  requests : List Phase
  stored : List (Int × String)
  answers : List Answer

inductive Action where
  | arrive (page : String)
  | proceed (index : Nat)
  | client (command : Command)
  | expire (key : Sds)

section Route

variable (serializer : Serializer)

/-- `Cache::store('redis')->get('userguide')` -/
def get (now : Int) (db : RedisDb) : Option (Option String × RedisDb) :=
  (act (.get cacheKey) now db).map fun result =>
    match result.1 with
    | .bulk text => (some (serializer.unserialize text), result.2)
    | _ => (none, result.2)

/-- `Cache::store('redis')->put('userguide', $res, 60)` -/
def put (page : String) (now : Int) (db : RedisDb) : Option RedisDb :=
  (act (.setex cacheKey lifetime (serializer.serialize page)) now db).map
    Prod.snd

/-- The last call of the route, after which the answer is sent. -/
def answer (site : Site) (now : Int) (index : Nat) : Option Site := do
  let found ← get serializer now site.db
  some { site with
    clock := now
    db := found.2
    requests := site.requests.set index .answered
    answers := ⟨now, found.1, site.stored⟩ :: site.answers }

/-- A request makes its next call. -/
def proceed (site : Site) (now : Int) (index : Nat) : Option Site :=
  match site.requests[index]? with
  | some (.has page) => do
      let found ← get serializer now site.db
      some { site with
        clock := now
        db := found.2
        requests := site.requests.set index
          (if found.1.isSome then .hit else .put page) }
  | some .hit => answer serializer site now index
  | some (.put page) => do
      let db ← put serializer page now site.db
      some { site with
        clock := now
        db := db
        requests := site.requests.set index .created
        stored := (now, page) :: site.stored }
  | some .created => answer serializer site now index
  | _ => none

def step (site : Site) : Int × Action → Option Site
  | (now, .arrive page) =>
      some { site with
        clock := now, requests := site.requests ++ [.has page] }
  | (now, .proceed index) => proceed serializer site now index
  | (now, .client command) => do
      let result ← act command now site.db
      some { site with clock := now, db := result.2 }
  | (now, .expire key) =>
      some { site with
        clock := now, db := activeExpireCycleTryExpire key now site.db }

end Route

/-- The keys a command is about. -/
def keysOf : Command → List Sds
  | .get key | .getset key _ | .set key _ _ | .setnx key _
  | .setex key _ _ | .psetex key _ _ | .incr key | .decr key
  | .incrby key _ | .decrby key _ | .push _ key _ _ | .expire _ key _
  | .expireat _ key _ | .ttl _ key | .persist key => [key]
  | .del keys | .existsKeys keys => keys

/--
The clock does not go back, is a time after 1970 that leaves an hour of
64-bit time, and other clients leave the key of the route alone.
-/
def Meets (site : Site) (label : Int × Action) : Prop :=
  site.clock ≤ label.1 ∧ 500 ≤ label.1 ∧ label.1 + 3600000 ≤ llongMax ∧
    ∀ command, label.2 = .client command →
      Allowed label.1 command ∧ cacheKey ∉ keysOf command

def start : Site := ⟨0, ⟨fun _ => none, fun _ => none⟩, [], [], []⟩

/-- The page stored last, unless that is more than an hour ago. -/
def freshest (now : Int) : List (Int × String) → Option String
  | [] => none
  | (time, page) :: _ => if now ≤ time + 3600000 then some page else none

/-! ## The key of the route -/

/-- A command leaves the entries of all other keys. -/
theorem perform_frame {command : Command} {key : Sds}
    (other : key ∉ keysOf command) (now : Int) (map : Entries Sds Content) :
    (perform command now map).2 key = map key := by
  cases command with
  | del keys => exact if_neg other
  | existsKeys keys => rfl
  | _ =>
      rw [keysOf, List.mem_singleton] at other
      exact Function.update_of_ne other _ map

/-- The entry of the key after the pages stored so far. -/
def storedEntry (serializer : Serializer) : List (Int × String) → Entry
  | [] => none
  | (time, page) :: _ =>
      some ⟨.string (serializer.serialize page), some (time + 3600000)⟩

/-- The server holds the page stored last, as long as it is fresh. -/
def Holds (serializer : Serializer) (now : Int) (db : RedisDb)
    (stored : List (Int × String)) : Prop :=
  Consistent db ∧
    alive now (entries db cacheKey) =
      alive now (storedEntry serializer stored)

section Calls

variable {serializer : Serializer} {db : RedisDb} {now : Int}
    {stored : List (Int × String)}

theorem Holds.later {earlier : Int}
    (holds : Holds serializer earlier db stored) (order : earlier ≤ now) :
    Holds serializer now db stored := by
  refine ⟨holds.1, ?_⟩
  rw [← alive_alive order, holds.2, alive_alive order]

theorem Holds.client (holds : Holds serializer now db stored)
    {command : Command} (allowed : Allowed now command)
    (other : cacheKey ∉ keysOf command) :
    ∃ result, act command now db = some result ∧
      Holds serializer now result.2 stored := by
  obtain ⟨after, performed, consistent, left⟩ :=
    act_performs holds.1 allowed
  refine ⟨_, performed, consistent, ?_⟩
  have key := congrFun left cacheKey
  rw [living_apply, living_apply, perform_frame other, living_apply,
    alive_alive (Int.le_refl now)] at key
  rw [key, holds.2]

theorem Holds.expire (holds : Holds serializer now db stored) (key : Sds) :
    Holds serializer now (activeExpireCycleTryExpire key now db) stored := by
  rw [activeExpireCycleTryExpire_eq]
  refine ⟨holds.1.evict key now, ?_⟩
  have same := congrFun (@living_entries_evict db key now) cacheKey
  rw [living_apply, living_apply] at same
  rw [same, holds.2]

/-- The entry that is alive is the freshest page. -/
theorem readEntry_storedEntry (stored : List (Int × String)) :
    readEntry (alive now (storedEntry serializer stored)) =
      (freshest now stored).elim .nullbulk fun page =>
        .bulk (serializer.serialize page) := by
  cases stored with
  | nil => rfl
  | cons latest earlier =>
      obtain ⟨time, page⟩ := latest
      simp only [storedEntry, alive_deadline, freshest]
      by_cases fresh : now ≤ time + 3600000
      · rw [if_neg (by omega), if_pos fresh]
        rfl
      · rw [if_pos (by omega), if_neg fresh]
        rfl

/-- The cache returns the freshest page. -/
theorem Holds.get (holds : Holds serializer now db stored) :
    ∃ after, get serializer now db = some (freshest now stored, after) ∧
      Holds serializer now after stored := by
  have read := getGenericCommand_eq holds.1 cacheKey now
  refine ⟨db.evict cacheKey now, ?_, holds.1.evict cacheKey now, ?_⟩
  · have isReply : act (.get cacheKey) now db = _ := read
    rw [UserGuideCache.get, isReply, holds.2, readEntry_storedEntry]
    cases freshest now stored with
    | none => rfl
    | some page => simp [serializer.unserialize_serialize]
  · rw [entries_evict_self, alive_alive (Int.le_refl now), holds.2]

theorem Holds.put (holds : Holds serializer now db stored)
    (started : 500 ≤ now) (hour : now + 3600000 ≤ llongMax)
    (page : String) :
    ∃ after, put serializer page now db = some after ∧
      Holds serializer now after ((now, page) :: stored) := by
  have isNumber : string2ll lifetime = some 3600 := by decide
  have allowed : Allowed now
      (.setex cacheKey lifetime (serializer.serialize page)) := by
    refine ⟨started, ?_⟩
    intro text number isText read _
    cases isText
    rw [isNumber] at read
    cases read
    simpa [TimeUnit.length] using hour
  obtain ⟨after, performed, consistent, left⟩ :=
    act_performs holds.1 allowed
  refine ⟨after, ?_, consistent, ?_⟩
  · rw [UserGuideCache.put, performed]
    rfl
  · have key := congrFun left cacheKey
    rw [living_apply, living_apply] at key
    rw [key]
    simp [perform, onKey, setEntry, deadlineOf, isNumber, storedEntry,
      TimeUnit.length]

end Calls

/-! ## Every run -/

/-- The server holds the page, and every answer was the freshest page. -/
def Cached (serializer : Serializer) (site : Site) : Prop :=
  Holds serializer site.clock site.db site.stored ∧
    ∀ answer ∈ site.answers,
      answer.page = freshest answer.time answer.stored

section Step

variable {serializer : Serializer} {site : Site} {now : Int}

theorem cached_answer (cached : Cached serializer site)
    (holds : Holds serializer now site.db site.stored) (index : Nat) :
    ∃ target, answer serializer site now index = some target ∧
      Cached serializer target := by
  obtain ⟨after, found, holdsAfter⟩ := holds.get
  refine ⟨_, by rw [answer, found]; rfl, holdsAfter, ?_⟩
  intro given member
  rcases List.mem_cons.mp member with rfl | earlier
  · rfl
  · exact cached.2 given earlier

/-- A request that is not answered yet can make its next call. -/
theorem cached_proceed (cached : Cached serializer site) {index : Nat}
    (meets : Meets site (now, .proceed index)) {phase : Phase}
    (current : site.requests[index]? = some phase)
    (notAnswered : phase ≠ .answered) :
    ∃ target, proceed serializer site now index = some target ∧
      Cached serializer target := by
  obtain ⟨order, started, hour, -⟩ := meets
  have holds := cached.1.later order
  unfold proceed
  rw [current]
  cases phase with
  | has page =>
      obtain ⟨after, found, holdsAfter⟩ := holds.get
      refine ⟨_, by simp only [found]; rfl, ?_⟩
      exact ⟨holdsAfter, cached.2⟩
  | hit => exact cached_answer cached holds index
  | put page =>
      obtain ⟨after, written, holdsAfter⟩ := holds.put started hour page
      refine ⟨_, by simp only [written]; rfl, ?_⟩
      exact ⟨holdsAfter, cached.2⟩
  | created => exact cached_answer cached holds index
  | answered => exact absurd rfl notAnswered

theorem cached_step {target : Site} {label : Int × Action}
    (cached : Cached serializer site) (meets : Meets site label)
    (moved : step serializer site label = some target) :
    Cached serializer target := by
  obtain ⟨now, action⟩ := label
  have holds : Holds serializer now site.db site.stored :=
    cached.1.later meets.1
  cases action with
  | arrive page =>
      cases moved
      exact ⟨holds, cached.2⟩
  | proceed index =>
      cases current : site.requests[index]? with
      | none => simp [step, proceed, current] at moved
      | some phase =>
          by_cases isAnswered : phase = .answered
          · subst isAnswered
            simp [step, proceed, current] at moved
          · obtain ⟨reached, proceeded, cachedAfter⟩ :=
              cached_proceed cached meets current isAnswered
            rw [step, proceeded] at moved
            cases moved
            exact cachedAfter
  | client command =>
      obtain ⟨allowed, other⟩ := meets.2.2.2 command rfl
      obtain ⟨result, performed, holdsAfter⟩ := holds.client allowed other
      rw [step, performed] at moved
      cases moved
      exact ⟨holdsAfter, cached.2⟩
  | expire key =>
      cases moved
      exact ⟨holds.expire key, cached.2⟩

end Step

theorem cached_of_run {serializer : Serializer}
    {history : List (Int × Action)} {site : Site}
    (run : Reaches (step serializer) Meets start history site) :
    Cached serializer site := by
  refine run.invariant ?_ cached_step
  exact ⟨⟨⟨by simp [start], by simp [start], by simp [start]⟩, rfl⟩,
    by simp [start]⟩

/--
Along every run, a request answers with the page stored last if that is at
most an hour ago, and with nothing otherwise, whichever page it asked for; and
no request gets stuck.
-/
theorem answers_freshest_page {serializer : Serializer}
    {history : List (Int × Action)} {site : Site}
    (run : Reaches (step serializer) Meets start history site) :
    (∀ answer ∈ site.answers,
      answer.page = freshest answer.time answer.stored) ∧
      ∀ index phase now, site.requests[index]? = some phase →
        phase ≠ .answered → Meets site (now, .proceed index) →
        ∃ target, step serializer site (now, .proceed index) =
          some target := by
  have cached := cached_of_run run
  refine ⟨cached.2, ?_⟩
  intro index phase now current notAnswered meets
  obtain ⟨target, proceeded, -⟩ :=
    cached_proceed cached meets current notAnswered
  exact ⟨target, proceeded⟩

/-! ## A run -/

/-- PHP's `serialize` of a string: `s`, its length and the string in quotes. -/
def phpSerialize (page : String) : Sds :=
  's' :: ':' :: (Nat.toDigits 10 page.utf8ByteSize ++
    ':' :: '"' :: (page.toList ++ ['"', ';']))

def phpUnserialize (text : Sds) : String :=
  String.ofList ((text.dropWhile (· ≠ '"')).drop 1).dropLast.dropLast

theorem phpUnserialize_phpSerialize (page : String) :
    phpUnserialize (phpSerialize page) = page := by
  have noQuote : ∀ character ∈ Nat.toDigits 10 page.utf8ByteSize,
      decide (character ≠ '"') = true := by
    intro character member
    rw [decide_eq_true_eq]
    rintro rfl
    have digit : '"'.isDigit = true :=
      Nat.isDigit_of_mem_toDigits (by decide) (by decide) member
    exact absurd digit (by decide)
  have body : (phpSerialize page).dropWhile (· ≠ '"') =
      '"' :: (page.toList ++ ['"', ';']) := by
    rw [phpSerialize, List.dropWhile_cons_of_pos (by decide),
      List.dropWhile_cons_of_pos (by decide),
      List.dropWhile_append_of_pos noQuote,
      List.dropWhile_cons_of_pos (by decide),
      List.dropWhile_cons_of_neg (by decide)]
  rw [phpUnserialize, body]
  simp [List.dropLast_append_of_ne_nil]

def phpSerializer : Serializer :=
  ⟨phpSerialize, phpUnserialize, phpUnserialize_phpSerialize⟩

theorem meets_own {site : Site} {now : Int} {action : Action}
    (own : ∀ command, action ≠ .client command)
    (order : site.clock ≤ now)
    (bounds : 500 ≤ now ∧ now + 3600000 ≤ llongMax) :
    Meets site (now, action) :=
  ⟨order, bounds.1, bounds.2,
    fun command equal => absurd equal (own command)⟩

/-- The first request finds nothing and stores its page. -/
theorem answers_freshest_page_created :
    ∃ history site,
      Reaches (step phpSerializer) Meets start history site ∧
      site.answers.map Answer.page = [some "<p></p>"] ∧
      ∀ answer ∈ site.answers,
        answer.page = freshest answer.time answer.stored := by
  have arrived : Reaches (step phpSerializer) Meets start
      [(1000, .arrive "<p></p>")] _ :=
    .next .start (meets_own (by simp) (by decide) (by decide)) rfl
  have checked : Reaches (step phpSerializer) Meets start
      ((1001, .proceed 0) :: _) _ :=
    .next arrived (meets_own (by simp) (by decide) (by decide)) rfl
  have written : Reaches (step phpSerializer) Meets start
      ((1002, .proceed 0) :: _) _ :=
    .next checked (meets_own (by simp) (by decide) (by decide)) rfl
  have answered : Reaches (step phpSerializer) Meets start
      ((1003, .proceed 0) :: _) _ :=
    .next written (meets_own (by simp) (by decide) (by decide)) rfl
  exact ⟨_, _, answered, rfl, (answers_freshest_page answered).1⟩

end NomadiCore.UserGuideCache
