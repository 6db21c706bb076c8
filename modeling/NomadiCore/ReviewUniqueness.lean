import NomadiCore.Library.InterleavedPool
import NomadiCore.Library.LabelledRun
import NomadiCore.ReviewScores

/-!
# One review for each user and shop

`submitReview` looks for a review of the user and stores one in a later
statement, without a transaction or a unique key.  Requests that interleave
between the two break the rule; it holds as long as no lookup happens while
another request of the same user for the same shop is about to store.
-/

namespace NomadiCore

open NomadiCore.Library.InterleavedPool
open NomadiCore.Library.LabelledRun
open NomadiCore.Library.RowTable
open NomadiCore.Library.StatementProcess

/-- The user and the shop of every stored review. -/
def reviewKeys (database : Database) : List (Nat × String) :=
  database.reviews.entries.map fun entry =>
    (entry.row.userId, entry.row.entityId)

/-- No two reviews have the same user and shop. -/
def OneReviewEach (database : Database) : Prop :=
  ∀ left ∈ database.reviews.entries, ∀ right ∈ database.reviews.entries,
    left.row.userId = right.row.userId →
      left.row.entityId = right.row.entityId → left = right

theorem nodup_reviewKeys {database : Database} :
    (reviewKeys database).Nodup ↔ OneReviewEach database := by
  constructor
  · intro distinct left leftMember right rightMember sameUser sameShop
    exact List.inj_on_of_nodup_map distinct leftMember rightMember
      (Prod.ext sameUser sameShop)
  · intro unique
    refine List.Nodup.map_on ?_ database.reviews.nodup
    intro left leftMember right rightMember equal
    rw [Prod.mk.injEq] at equal
    exact unique left leftMember right rightMember equal.1 equal.2

/-! ## The stages of a submission -/

/-- Where a submission stands between two statements. -/
inductive SubmitStage where
  | start
  | looking (entity : Entity)
  | storing (user : Nat)
  | ended (outcome : Except Raised Response)

namespace SubmitStage

/-- The rest of the submission. -/
def rest (request : Request) : SubmitStage → Handler Response
  | .start => submitReview request
  | .looking entity => lookupReview request entity
  | .storing user => insertReview request user
  | .ended outcome => .ofExcept outcome

/-- The next statement of a submission. -/
def act (request : Request) :
    SubmitStage → Database → Option (Database × SubmitStage)
  | .start, database =>
      match request.get "entity_id" with
      | .missing => some (database, .ended (.error .errorException))
      | .text id =>
          match database.entities.find id with
          | none => some (database, .ended (.error .errorException))
          | some entity => some (database, .looking entity)
      | .list _ => none
  | .looking entity, database =>
      match request.user with
      | none => none
      | some user =>
          match database.reviews.first fun entry =>
            entry.row.entityId = entity.id && entry.row.userId = user with
          | some _ =>
              some (database, .ended (.ok (.notice
                ("您已經替" ++ entity.name ++ "評分過了。")
                "您只能對一間咖啡廳評分一次。")))
          | none => some (database, .storing user)
  | .storing user, database =>
      if checkHasError request then none
      else
        match request.get "entity_id" with
        | .text entity =>
            some
              ({ database with
                reviews := database.reviews.insert
                  ⟨entity, 0, user, some (postedRatings request)⟩ },
                .ended (.ok reviewStored))
        | _ => none
  | .ended _, _ => none

/-- The stages are those of the handler. -/
theorem advance_rest
    (request : Request) (stage : SubmitStage) (database : Database) :
    Process.advance (stage.rest request) database =
      (stage.act request database).map fun after =>
        (after.1, after.2.rest request) := by
  cases stage with
  | start =>
      show Process.advance (submitReview request) database = _
      unfold submitReview
      cases posted : request.get "entity_id" with
      | missing =>
          simp only [act, posted]
          rfl
      | list items =>
          simp only [act, posted]
          rfl
      | text id =>
          simp only [act, posted, findEntity]
          rw [Process.advance_query_bind]
          cases database.entities.find id with
          | none => rfl
          | some entity => rfl
  | looking entity =>
      show Process.advance (lookupReview request entity) database = _
      unfold lookupReview Request.userId
      cases login : request.user with
      | none =>
          simp only [act, login]
          rfl
      | some user =>
          simp only [act, login]
          show Process.advance (Process.query _ >>= _) database = _
          rw [Process.advance_query_bind]
          cases database.reviews.first fun entry =>
              entry.row.entityId = entity.id &&
                entry.row.userId = user with
          | none => rfl
          | some review => rfl
  | storing user =>
      show Process.advance (insertReview request user) database = _
      unfold insertReview
      cases rated : checkHasError request with
      | true =>
          simp only [act, rated, if_pos]
          rfl
      | false =>
          cases posted : request.get "entity_id" with
          | missing =>
              simp only [act, rated, posted]
              rfl
          | list items =>
              simp only [act, rated, posted]
              rfl
          | text id =>
              simp only [act, rated, posted]
              rfl
  | ended outcome =>
      cases outcome with
      | ok answer => rfl
      | error failure => rfl

/-- The user and the shop of a review that is about to be stored. -/
def holds (request : Request) : SubmitStage → Option (Nat × String)
  | .storing user =>
      if checkHasError request then none
      else
        match request.get "entity_id" with
        | .text entity => some (user, entity)
        | _ => none
  | _ => none

theorem holds_eq_some
    {request : Request} {stage : SubmitStage} {user : Nat}
    {entity : String}
    (isHeld : stage.holds request = some (user, entity)) :
    stage = .storing user ∧ checkHasError request = false ∧
      request.get "entity_id" = .text entity := by
  cases stage with
  | storing author =>
      simp only [holds] at isHeld
      split at isHeld
      · cases isHeld
      · rename_i accepted
        split at isHeld
        · rename_i posted
          cases isHeld
          exact ⟨rfl, by simpa using accepted, posted⟩
        · cases isHeld
  | start => cases isHeld
  | looking found => cases isHeld
  | ended outcome => cases isHeld

end SubmitStage

/-! ## The pool of submissions -/

abbrev SubmitPool := Pool Database Request (Handler Response)

abbrev StagedSubmissions := Pool Database Request SubmitStage

/--
A lookup happens only when no other running request of the same user has
found the same shop unrated and not stored its review yet.
-/
def LooksAlone (pool : SubmitPool) : Move Request → Prop
  | .arrive _ => True
  | .advance index =>
      ∀ request entity user,
        pool.running[index]? = some (request, lookupReview request entity) →
          request.user = some user →
          ∀ other rival, other ≠ index →
            pool.running[other]? = some (rival, insertReview rival user) →
            checkHasError rival = false →
            rival.get "entity_id" ≠ .text entity.id

/-- The keys held by the running submissions. -/
def heldKeys (pool : StagedSubmissions) : List (Option (Nat × String)) :=
  pool.running.map fun task => task.2.holds task.1

/-- The invariant of the staged submissions. -/
structure SubmitInvariant (pool : StagedSubmissions) : Prop where
  exclusive : Exclusive (reviewKeys pool.state) (heldKeys pool)
  loaded : ∀ task ∈ pool.running, ∀ entity,
    task.2 = .looking entity → task.1.get "entity_id" = .text entity.id

theorem heldKeys_set
    (pool : StagedSubmissions) (state : Database) (index : Nat)
    (request : Request) (stage : SubmitStage) :
    heldKeys ⟨state, pool.running.set index (request, stage)⟩ =
      (heldKeys pool).set index (stage.holds request) := by
  simp [heldKeys, List.map_set]

/-- A changed task keeps what is known of the loaded entities. -/
theorem loaded_set
    {pool : StagedSubmissions} {index : Nat} {request : Request}
    {stage : SubmitStage}
    (loaded : ∀ task ∈ pool.running, ∀ entity,
      task.2 = .looking entity → task.1.get "entity_id" = .text entity.id)
    (new : ∀ entity, stage = .looking entity →
      request.get "entity_id" = .text entity.id) :
    ∀ task ∈ pool.running.set index (request, stage), ∀ entity,
      task.2 = .looking entity →
        task.1.get "entity_id" = .text entity.id := by
  intro task member
  rcases List.mem_or_eq_of_mem_set member with old | equal
  · exact loaded task old
  · rw [equal]
    exact new

/-- The stages that hold nothing keep the invariant. -/
theorem SubmitInvariant.release
    {pool : StagedSubmissions} (invariant : SubmitInvariant pool)
    {index : Nat} {request : Request} {stage : SubmitStage}
    (nothing : stage.holds request = none)
    (new : ∀ entity, stage = .looking entity →
      request.get "entity_id" = .text entity.id) :
    SubmitInvariant
      ⟨pool.state, pool.running.set index (request, stage)⟩ where
  exclusive := by
    rw [heldKeys_set, nothing]
    exact invariant.exclusive.release index
  loaded := loaded_set invariant.loaded new

/-- A lookup that finds nothing, alone, takes the key of its review. -/
theorem SubmitInvariant.look
    {pool : StagedSubmissions} (invariant : SubmitInvariant pool)
    {index : Nat} {request : Request} {entity : Entity} {user : Nat}
    (running : pool.running[index]? = some (request, .looking entity))
    (login : request.user = some user)
    (alone :
      LooksAlone (pool.map SubmitStage.rest)
        (.advance index))
    (unrated :
      pool.state.reviews.first (fun entry =>
        entry.row.entityId = entity.id && entry.row.userId = user) =
          none) :
    SubmitInvariant
      ⟨pool.state, pool.running.set index (request, .storing user)⟩ := by
  have posted : request.get "entity_id" = .text entity.id :=
    invariant.loaded _ (List.mem_of_getElem? running) entity rfl
  cases refused : checkHasError request with
  | true =>
      apply invariant.release
      · simp [SubmitStage.holds, refused]
      · intro found impossible
        cases impossible
  | false =>
      have key :
          (SubmitStage.storing user).holds request =
            some (user, entity.id) := by
        simp [SubmitStage.holds, refused, posted]
      refine ⟨?_, loaded_set invariant.loaded ?_⟩
      · rw [heldKeys_set, key]
        apply invariant.exclusive.acquire
        · intro stored
          obtain ⟨entry, member, equal⟩ := List.mem_map.mp stored
          rw [Prod.mk.injEq] at equal
          have absent := Table.first_eq_none.mp unrated entry member
          simp [equal.1, equal.2] at absent
        · intro other different isHeld
          simp only [heldKeys, List.getElem?_map,
            Option.map_eq_some_iff] at isHeld
          obtain ⟨⟨rival, stage⟩, rivalRuns, rivalHolds⟩ := isHeld
          obtain ⟨isStoring, accepted, rivalPosted⟩ :=
            SubmitStage.holds_eq_some rivalHolds
          have isStoring : stage = .storing user := isStoring
          subst isStoring
          refine alone request entity user ?_ login other rival different
            ?_ accepted rivalPosted
          · simp [Pool.map, running, SubmitStage.rest]
          · simp [Pool.map, rivalRuns, SubmitStage.rest]
      · intro found impossible
        cases impossible

/-- A submission stores the review whose key it holds. -/
theorem SubmitInvariant.store
    {pool : StagedSubmissions} (invariant : SubmitInvariant pool)
    {index : Nat} {request : Request} {user : Nat} {entity : String}
    (running : pool.running[index]? = some (request, .storing user))
    (accepted : checkHasError request = false)
    (posted : request.get "entity_id" = .text entity)
    (outcome : Except Raised Response) :
    SubmitInvariant
      ⟨{ pool.state with
          reviews := pool.state.reviews.insert
            ⟨entity, 0, user, some (postedRatings request)⟩ },
        pool.running.set index (request, .ended outcome)⟩ where
  exclusive := by
    have isHeld : (heldKeys pool)[index]? = some (some (user, entity)) := by
      simp [heldKeys, running, SubmitStage.holds, accepted, posted]
    have keys :
        reviewKeys
            { pool.state with
              reviews := pool.state.reviews.insert
                ⟨entity, 0, user, some (postedRatings request)⟩ } =
          reviewKeys pool.state ++ [(user, entity)] := by
      simp [reviewKeys]
    rw [heldKeys_set, keys]
    exact invariant.exclusive.store isHeld
  loaded := loaded_set invariant.loaded fun found impossible => by
    cases impossible

/-- A new submission has found nothing yet. -/
theorem SubmitInvariant.arrive
    {pool : StagedSubmissions} (invariant : SubmitInvariant pool)
    (request : Request) :
    SubmitInvariant ⟨pool.state, pool.running ++ [(request, .start)]⟩ := by
  refine ⟨?_, ?_⟩
  · have held :
        heldKeys ⟨pool.state, pool.running ++ [(request, .start)]⟩ =
          heldKeys pool ++ [none] := by
      simp [heldKeys, SubmitStage.holds]
    rw [held]
    exact invariant.exclusive.arrive
  · intro task member entity isLooking
    rcases List.mem_append.mp member with old | new
    · exact invariant.loaded task old entity isLooking
    · rw [List.mem_singleton] at new
      subst new
      cases isLooking

/-- Every move of the staged submissions keeps the invariant. -/
theorem SubmitInvariant.moves
    {pool target : StagedSubmissions} {move : Move Request}
    (invariant : SubmitInvariant pool)
    (alone :
      LooksAlone (pool.map SubmitStage.rest) move)
    (moved :
      pool.step (fun _ => .start) SubmitStage.act move = some target) :
    SubmitInvariant target := by
  rcases Pool.step_cases moved with
    ⟨request, -, rfl⟩ |
      ⟨index, request, stage, state, next, rfl, running, acted, rfl⟩
  · exact invariant.arrive request
  · cases stage with
    | start =>
        simp only [SubmitStage.act] at acted
        split at acted
        · cases acted
          exact invariant.release rfl fun entity impossible => by
            cases impossible
        · rename_i id posted
          split at acted
          · cases acted
            exact invariant.release rfl fun entity impossible => by
              cases impossible
          · rename_i entity found
            cases acted
            refine invariant.release rfl fun other equal => ?_
            cases equal
            rw [posted, (Keyed.find_eq_some found).2]
        · cases acted
    | looking entity =>
        simp only [SubmitStage.act] at acted
        split at acted
        · cases acted
        · rename_i user login
          split at acted
          · cases acted
            exact invariant.release rfl fun other impossible => by
              cases impossible
          · rename_i unrated
            cases acted
            exact invariant.look running login alone unrated
    | storing user =>
        simp only [SubmitStage.act] at acted
        split at acted
        · cases acted
        · rename_i accepted
          split at acted
          · rename_i entity posted
            cases acted
            exact invariant.store running (by simpa using accepted) posted _
          · cases acted
    | ended outcome => cases acted

/-- The pool of handlers moves as the pool of stages does. -/
theorem processStep_rest
    (pool : StagedSubmissions) (move : Move Request) :
    processStep submitReview (pool.map SubmitStage.rest) move =
      (pool.step (fun _ => .start) SubmitStage.act move).map
        (Pool.map SubmitStage.rest) := by
  unfold processStep
  apply Pool.step_map
  · intro request
    rfl
  · exact SubmitStage.advance_rest

/-- The running handlers are at stages that keep the invariant. -/
def SubmitsInStages (pool : SubmitPool) : Prop :=
  ∃ staged : StagedSubmissions,
    pool = staged.map SubmitStage.rest ∧
      SubmitInvariant staged

theorem SubmitsInStages.moves
    {pool target : SubmitPool} {move : Move Request}
    (stages : SubmitsInStages pool) (alone : LooksAlone pool move)
    (moved : processStep submitReview pool move = some target) :
    SubmitsInStages target := by
  obtain ⟨staged, rfl, invariant⟩ := stages
  rw [processStep_rest] at moved
  obtain ⟨next, stagedMoved, rfl⟩ := Option.map_eq_some_iff.mp moved
  exact ⟨next, rfl, invariant.moves alone stagedMoved⟩

/--
In every interleaving of submissions in which requests look up alone, no two
reviews have the same user and shop.
-/
theorem one_review_each_along_runs
    {initial : Database} {history : List (Move Request)}
    {pool : SubmitPool}
    (unique : OneReviewEach initial)
    (run :
      Reaches (processStep submitReview) LooksAlone ⟨initial, []⟩ history
        pool) :
    OneReviewEach pool.state := by
  have initially : SubmitsInStages ⟨initial, []⟩ :=
    ⟨⟨initial, []⟩, rfl,
      ⟨.idle (nodup_reviewKeys.mpr unique), by simp⟩⟩
  obtain ⟨staged, rfl, invariant⟩ : SubmitsInStages pool :=
    run.invariant initially SubmitsInStages.moves
  exact nodup_reviewKeys.mp invariant.exclusive.once

/-! ## A single and a double submit -/

/-- The review that a request of five stars stores. -/
def fiveStars : Review :=
  ⟨"e", 0, 1,
    some [("review1", 5), ("review2", 5), ("review3", 5), ("review4", 5)]⟩

/-- A review of two stars by another user. -/
def twoStarRequest : Request :=
  { evenReview "2" with user := some 2 }

def twoStars : Review :=
  ⟨"e", 0, 2,
    some [("review1", 2), ("review2", 2), ("review3", 2), ("review4", 2)]⟩

/-- A submission that is about to store has not ended. -/
theorem insertReview_ne_done
    {request : Request} (accepted : checkHasError request = false)
    (user : Nat) (answer : Response) :
    insertReview request user ≠ .done answer := by
  cases posted : (request.get "entity_id").insertText with
  | error failure =>
      rw [insertReview, accepted, posted]
      intro equal
      cases equal
  | ok entity =>
      rw [insertReview, accepted, posted]
      intro equal
      cases equal

/-- Every running request but one was answered. -/
def othersAnswered (pool : StagedSubmissions) (index : Nat) : Bool :=
  pool.running.zipIdx.all fun task =>
    task.2 = index ||
      match task.1.2 with
      | .ended (.ok _) => true
      | _ => false

/-- A request goes on when all others were answered. -/
def oneByOne (pool : StagedSubmissions) : Move Request → Bool
  | .arrive _ => true
  | .advance index => othersAnswered pool index

/-- Requests that run one after the other. -/
def soloStep : StagedSubmissions → Move Request → Option StagedSubmissions :=
  guarded (fun pool => pool.step (fun _ => .start) SubmitStage.act) oneByOne

/-- They look up alone. -/
theorem looksAlone_of_othersAnswered
    {pool : StagedSubmissions} {index : Nat}
    (answered : othersAnswered pool index = true) :
    LooksAlone (pool.map SubmitStage.rest) (.advance index) := by
  intro request entity user _ _ other rival different runs accepted
  simp only [Pool.map, List.getElem?_map, Option.map_eq_some_iff] at runs
  obtain ⟨task, isTask, isRival⟩ := runs
  have inList : (task, other) ∈ pool.running.zipIdx :=
    List.mk_mem_zipIdx_iff_getElem?.mpr isTask
  have ended := List.all_eq_true.mp answered _ inList
  simp only [Bool.or_eq_true, decide_eq_true_eq, different,
    false_or] at ended
  split at ended
  · rename_i answer isEnded
    rw [isEnded] at isRival
    exact absurd (Prod.mk.inj isRival).2.symm
      (insertReview_ne_done accepted user answer)
  · cases ended

theorem soloStep_moves
    {pool target : StagedSubmissions} {move : Move Request}
    (moved : soloStep pool move = some target) :
    LooksAlone (pool.map SubmitStage.rest) move ∧
      processStep submitReview (pool.map SubmitStage.rest) move =
        some (target.map SubmitStage.rest) := by
  obtain ⟨checked, stepped⟩ := guarded_eq_some.mp moved
  have moves :
      processStep submitReview (pool.map SubmitStage.rest) move =
        some (target.map SubmitStage.rest) := by
    rw [processStep_rest, stepped]
    rfl
  cases move with
  | arrive request => exact ⟨trivial, moves⟩
  | advance index => exact ⟨looksAlone_of_othersAnswered checked, moves⟩

/-- Two users submit a review, and the first of them another one. -/
def threeSubmits : List (Move Request) :=
  [.arrive (evenReview "5"), .advance 0, .advance 0, .advance 0,
    .arrive twoStarRequest, .advance 1, .advance 1, .advance 1,
    .arrive (evenReview "4"), .advance 2, .advance 2]

theorem three_submits_keep_one_review_each :
    ∃ pool,
      Reaches (processStep submitReview) LooksAlone ⟨unratedShop, []⟩
          threeSubmits.reverse pool ∧
        pool.state.reviews.entries = [⟨1, fiveStars⟩, ⟨2, twoStars⟩] ∧
        OneReviewEach pool.state := by
  have replayed :
      (replay soloStep ⟨unratedShop, []⟩ threeSubmits).map
          (fun pool => pool.state.reviews.entries) =
        some [⟨1, fiveStars⟩, ⟨2, twoStars⟩] := by
    decide +kernel
  obtain ⟨pool, moved, entries⟩ := Option.map_eq_some_iff.mp replayed
  have run := (Reaches.of_replay moved).image (Pool.map SubmitStage.rest)
    fun _ stepped => soloStep_moves stepped
  refine ⟨_, run, entries, one_review_each_along_runs ?_ run⟩
  intro left member
  cases member

/-- Two copies of a request, whose statements alternate. -/
def doubleSubmit : List (Move Request) :=
  [.arrive (evenReview "5"), .arrive (evenReview "5"), .advance 0,
    .advance 1, .advance 0, .advance 1, .advance 0, .advance 1]

/-- Both copies store their review. -/
theorem double_submit_stores_twice :
    ∃ pool,
      Reaches (processStep submitReview) Anything ⟨unratedShop, []⟩
          doubleSubmit.reverse pool ∧
        OneReviewEach unratedShop ∧ ¬ OneReviewEach pool.state := by
  have replayed :
      (replay (processStep submitReview) ⟨unratedShop, []⟩
          doubleSubmit).map (fun pool => pool.state.reviews.entries) =
        some [⟨1, fiveStars⟩, ⟨2, fiveStars⟩] := by
    decide +kernel
  obtain ⟨pool, moved, entries⟩ := Option.map_eq_some_iff.mp replayed
  refine ⟨pool, .of_replay moved, ?_, ?_⟩
  · intro left leftMember
    cases leftMember
  · intro unique
    have same :=
      unique ⟨1, fiveStars⟩ (by simp [entries]) ⟨2, fiveStars⟩
        (by simp [entries]) rfl rfl
    cases same

end NomadiCore
