import NomadiCore.Library.LabelledRun
import NomadiCore.LoginHandlers

/-!
# The paths to a check-in

A user checks in by `/ajax/visit`, by a login that carries the action
`recommend`, and checks out by `/ajax/cancel-visit`.  The login looks for a
column that was renamed, so it never checks in; the main theorem says on which
sequences of operations the paths still agree.

Shops whose ids the server takes for the same text are one shop.  An id that
its column does not keep is not found again, so visits have to post others.
-/

namespace NomadiCore

open NomadiCore.Library.LabelledRun
open NomadiCore.Library.RowTable
open NomadiCore.Library.StatementProcess
open NomadiCore.Library.TextColumn

/-! ## Operations -/

/-- An operation on a shop; a visit may name it by a list of one id. -/
inductive CheckInKind where
  | visit
  | listedVisit
  | cancel
  | callback
deriving DecidableEq

/-- An operation of a user on a shop. -/
structure CheckIn where
  user : Nat
  shop : String
  kind : CheckInKind
deriving DecidableEq

/-- The database and the operations so far, newest first. -/
structure CheckInWorld where
  database : Database
  operations : List CheckIn

inductive CheckInStep where
  | visit (request : Request)
  | cancel (request : Request)
  | callback (callback : Callback) (shop : String)
deriving DecidableEq

def visitKind : Input → CheckInKind
  | .list _ => .listedVisit
  | _ => .visit

/-- The operation of a user on the shop that a request names, if any. -/
def operationOn (user : Nat) (input : Input) (kind : CheckInKind) :
    List CheckIn :=
  match input.whereValue with
  | .ok (some shop) => [⟨user, shop, kind⟩]
  | _ => []

section Collations

variable [Collation]

/--
Requests of logged-in users, and callbacks that complete a login with the
action `recommend` for a shop.
-/
def checkInStep (world : CheckInWorld) : CheckInStep → Option CheckInWorld
  | .visit request =>
      request.user.map fun user =>
        ⟨(ajaxVisit request).final world.database,
          operationOn user (request.get "entity_id")
            (visitKind (request.get "entity_id")) ++ world.operations⟩
  | .cancel request =>
      request.user.map fun user =>
        ⟨(ajaxCancelVisit request).final world.database,
          operationOn user (request.get "entity_id") .cancel ++
            world.operations⟩
  | .callback callback shop =>
      match ((loginFacebook callback.user callback.facebook).run
          world.database).1 with
      | .ok (some user) =>
          if callback.denied = false ∧
              callback.action = .text "recommend" ∧
              callback.cafeId = .text shop then
            some
              ⟨(callbackRoute callback).final world.database,
                ⟨user, shop, .callback⟩ :: world.operations⟩
          else none
      | _ => none

/-- The operations of a user on a shop, newest first. -/
def operationsOf (operations : List CheckIn) (user : Nat) (shop : String) :
    List CheckInKind :=
  (operations.filter fun operation =>
    operation.user = user && sameText operation.shop shop).map CheckIn.kind

/-- A visit that names its shop by a text names it as the column keeps it. -/
def VisitKept : CheckInStep → Prop
  | .visit request =>
      ∀ shop, request.get "entity_id" = .text shop →
        sameText (varchar shop) shop = true
  | _ => True

/-! ## Agreement -/

/-- The recommendations of a shop by a user. -/
def recommendationRows
    (database : Database) (user : Nat) (shop : String) :
    List (Entry Recommendation) :=
  database.recommendations.select fun entry =>
    sameText shop entry.row.entityId && entry.row.userId = user

/-- The last operation is a check-in. -/
def LastIsCheckIn (kinds : List CheckInKind) : Prop :=
  ∃ kind, kinds.head? = some kind ∧ kind ≠ .cancel

/--
The shop counts as recommended exactly when the last operation is a check-in,
by at most one row.
-/
def Agrees (world : CheckInWorld) (user : Nat) (shop : String) : Prop :=
  (isCafeRecommendedByUser world.database shop user = true ↔
      LastIsCheckIn (operationsOf world.operations user shop)) ∧
    (recommendationRows world.database user shop).length ≤ 1

/-- A callback, or a visit that names its shop by a list. -/
def bypasses : CheckInKind → Bool
  | .callback => true
  | .listedVisit => true
  | .visit => false
  | .cancel => false

/-- The last operation that is not a bypass is a visit. -/
def visitedLast (kinds : List CheckInKind) : Bool :=
  (kinds.dropWhile bypasses).head? = some .visit

/-- Bypasses at the end only follow a visit. -/
def BypassesFollowVisit (kinds : List CheckInKind) : Prop :=
  ∀ kind, kinds.head? = some kind → bypasses kind = true →
    visitedLast kinds = true

theorem recommended_iff
    (database : Database) (user : Nat) (shop : String) :
    isCafeRecommendedByUser database shop user = true ↔
      recommendationRows database user shop ≠ [] := by
  simp [isCafeRecommendedByUser, recommendationRows]

omit [Collation] in
/-- A kind of operation at the end of the others. -/
theorem visitedLast_cons (kind : CheckInKind) (kinds : List CheckInKind) :
    visitedLast (kind :: kinds) =
      match kind with
      | .visit => true
      | .cancel => false
      | .callback => visitedLast kinds
      | .listedVisit => visitedLast kinds := by
  cases kind with
  | visit => rfl
  | cancel => rfl
  | callback => rfl
  | listedVisit => rfl

omit [Collation] in
/-- Paths agree with the operations when bypasses follow a visit. -/
theorem lastIsCheckIn_iff (kinds : List CheckInKind) :
    (visitedLast kinds = true ↔ LastIsCheckIn kinds) ↔
      BypassesFollowVisit kinds := by
  cases kinds with
  | nil => simp [visitedLast, LastIsCheckIn, BypassesFollowVisit]
  | cons kind rest =>
      rw [visitedLast_cons]
      cases kind with
      | visit =>
          simp [LastIsCheckIn, BypassesFollowVisit, bypasses]
      | cancel =>
          simp [LastIsCheckIn, BypassesFollowVisit, bypasses]
      | callback =>
          simp [LastIsCheckIn, BypassesFollowVisit, bypasses,
            visitedLast_cons]
      | listedVisit =>
          simp [LastIsCheckIn, BypassesFollowVisit, bypasses,
            visitedLast_cons]

/-! ## What the handlers leave -/

theorem ownRecommendation_run
    {request : Request} {user : Nat} {shop : String}
    (login : request.user = some user)
    (wanted : (request.get "entity_id").whereValue = .ok (some shop))
    (database : Database) :
    (ownRecommendation request).run database =
      (.ok (recommendationRows database user shop).head?, database) := by
  simp [ownRecommendation, login, wanted, recommendationRows,
    collatesText, Table.first_eq_head?]

/-- No recommendation has the shop `NULL`. -/
theorem first_unnamed (database : Database) (user : Nat) :
    database.recommendations.first (fun entry =>
      collatesText none entry.row.entityId && entry.row.userId = user) =
        none := by
  apply Table.first_eq_none.mpr
  intro entry _
  simp [collatesText]

/-- A visit by a text stores a recommendation, unless there is one. -/
theorem ajaxVisit_text
    {request : Request} {user : Nat} {shop : String}
    (login : request.user = some user)
    (posted : request.get "entity_id" = .text shop)
    (database : Database) :
    (ajaxVisit request).final database =
      if recommendationRows database user shop = [] then
        { database with
          recommendations := database.recommendations.insert
            ⟨user, varchar shop⟩ }
      else database := by
  have looked :=
    ownRecommendation_run login (by rw [posted]; rfl) database
  cases rows : recommendationRows database user shop with
  | nil =>
      simp [ajaxVisit, Process.final, looked, rows, login, posted,
        saveRecommendation]
  | cons row rest => simp [ajaxVisit, Process.final, looked, rows]

/-- A visit that does not name its shop by a text changes nothing. -/
theorem ajaxVisit_other
    {request : Request} {user : Nat} (login : request.user = some user)
    (posted : ∀ shop, request.get "entity_id" ≠ .text shop)
    (database : Database) :
    (ajaxVisit request).final database = database := by
  cases input : request.get "entity_id" with
  | text shop => exact absurd input (posted shop)
  | missing =>
      simp [ajaxVisit, ownRecommendation, Process.final, login, input,
        Input.whereValue, first_unnamed, Input.insertText, Input.bound,
        Except.bind]
  | list items =>
      cases wanted : (Input.list items).whereValue with
      | error failure =>
          simp [ajaxVisit, ownRecommendation, Process.final, login, input,
            wanted]
      | ok value =>
          cases found : database.recommendations.first (fun entry =>
              collatesText value entry.row.entityId &&
                entry.row.userId = user) with
          | none =>
              simp [ajaxVisit, ownRecommendation, Process.final, login,
                input, wanted, found, Input.insertText, Input.bound,
                Except.bind]
          | some row =>
              simp [ajaxVisit, ownRecommendation, Process.final, login,
                input, wanted, found]

/-- A cancellation deletes the first recommendation, if there is one. -/
theorem ajaxCancelVisit_named
    {request : Request} {user : Nat} {shop : String}
    (login : request.user = some user)
    (wanted : (request.get "entity_id").whereValue = .ok (some shop))
    (database : Database) :
    (ajaxCancelVisit request).final database =
      match (recommendationRows database user shop).head? with
      | some row =>
          { database with
            recommendations := database.recommendations.delete
              fun entry => entry.id = row.id }
      | none => database := by
  have looked := ownRecommendation_run login wanted database
  cases rows : (recommendationRows database user shop).head? with
  | none => simp [ajaxCancelVisit, Process.final, looked, rows]
  | some row =>
      simp [ajaxCancelVisit, Process.final, looked, rows,
        deleteRecommendation]

/-- A cancellation that names no shop changes nothing. -/
theorem ajaxCancelVisit_unnamed
    {request : Request} {user : Nat} (login : request.user = some user)
    (unnamed : ∀ shop,
      (request.get "entity_id").whereValue ≠ .ok (some shop))
    (database : Database) :
    (ajaxCancelVisit request).final database = database := by
  cases wanted : (request.get "entity_id").whereValue with
  | error failure =>
      simp [ajaxCancelVisit, ownRecommendation, Process.final, login,
        wanted]
  | ok value =>
      cases value with
      | some shop => exact absurd wanted (unnamed shop)
      | none =>
          simp [ajaxCancelVisit, ownRecommendation, Process.final, login,
            wanted, first_unnamed]

/-- The recommendations are the same in both states. -/
def SameRecommendations (before after : Database) : Prop :=
  after.recommendations = before.recommendations

/-- No statement of the callback writes a recommendation. -/
theorem callbackRoute_within (callback : Callback) :
    (callbackRoute callback).Within SameRecommendations := by
  have reads : ∀ database, SameRecommendations database database :=
    fun _ => rfl
  have silent : ∀ {before after}, Quiet before after →
      SameRecommendations before after := by
    intro before after quiet
    rw [quiet]
    exact reads before
  have inserts : ∀ facebook,
      (insertUser facebook).Within SameRecommendations := by
    intro facebook
    refine .bind (.require _ _) fun name => .bind (.perform ?_) fun user =>
      .bind (.perform ?_) fun _ => .bind (.execute fun _ => rfl) fun _ =>
        .pure _
    · intro database
      unfold SameRecommendations
      split <;> rfl
    · intro database
      unfold SameRecommendations
      split <;> rfl
  unfold callbackRoute
  split
  · exact .bind (.ofExcept _) fun path => .pure _
  · refine .bind (.bind (.query reads _) fun found => ?_) fun user => ?_
    · cases found with
      | none => exact .bind (inserts _) fun user => .pure _
      | some credential =>
          exact (loginUsingId_quiet _ _).imp silent
    · exact (finishCallback_quiet callback user).imp silent

theorem callbackRoute_keeps (callback : Callback) (database : Database) :
    SameRecommendations database
      ((callbackRoute callback).final database) := by
  apply (callbackRoute_within callback).run
  · intro state
    rfl
  · intro first second third earlier later
    exact Eq.trans later earlier

/-! ## Rows and operations -/

/-- A user has one row for a shop when visited last, and none otherwise. -/
def RowsMatch (world : CheckInWorld) : Prop :=
  ∀ user shop,
    (recommendationRows world.database user shop).length =
      if visitedLast (operationsOf world.operations user shop) then 1
      else 0

/-- The operations of a user on a shop after one more. -/
theorem operationsOf_cons
    (operation : CheckIn) (operations : List CheckIn) (user : Nat)
    (shop : String) :
    operationsOf (operation :: operations) user shop =
      if operation.user = user ∧ sameText operation.shop shop = true then
        operation.kind :: operationsOf operations user shop
      else operationsOf operations user shop := by
  by_cases concerned :
      operation.user = user ∧ sameText operation.shop shop = true
  · simp [operationsOf, concerned]
  · rw [if_neg concerned]
    have skipped :
        (decide (operation.user = user) &&
          sameText operation.shop shop) = false := by
      simpa using concerned
    simp [operationsOf, skipped]

theorem recommendationRows_insert
    (database : Database) (author user : Nat) (visited shop : String) :
    (recommendationRows
        { database with
          recommendations := database.recommendations.insert
            ⟨author, visited⟩ } user shop).length =
      (recommendationRows database user shop).length +
        if author = user ∧ sameText visited shop = true then 1 else 0 := by
  unfold recommendationRows
  rw [Table.select_insert, List.length_append]
  by_cases concerned : author = user ∧ sameText visited shop = true
  · simp [concerned, sameText_symm concerned.2]
  · have skipped : ¬ (sameText shop visited = true ∧ author = user) :=
      fun both => concerned ⟨both.2, sameText_symm both.1⟩
    simp [concerned, skipped]

theorem mem_recommendationRows
    {database : Database} {user : Nat} {shop : String}
    {row : Entry Recommendation} :
    row ∈ recommendationRows database user shop ↔
      row ∈ database.recommendations.entries ∧
        sameText shop row.row.entityId = true ∧ row.row.userId = user := by
  rw [recommendationRows, Table.mem_select]
  simp only [Bool.and_eq_true, decide_eq_true_eq]

/-- One shop has one list of recommendations, however its id is written. -/
theorem recommendationRows_congr
    {database : Database} {user : Nat} {first second : String}
    (same : sameText first second = true) :
    recommendationRows database user first =
      recommendationRows database user second := by
  unfold recommendationRows
  congr 1
  funext entry
  rw [sameText_congr_left same]

/-- Deleting a row takes it from its own user and shop only. -/
theorem recommendationRows_delete
    {database : Database} {author : Nat} {visited : String}
    {row : Entry Recommendation}
    (first :
      (recommendationRows database author visited).head? = some row)
    (single : (recommendationRows database author visited).length ≤ 1)
    (user : Nat) (shop : String) :
    (recommendationRows
        { database with
          recommendations := database.recommendations.delete
            fun entry => entry.id = row.id } user shop).length =
      if author = user ∧ sameText visited shop = true then 0
      else (recommendationRows database user shop).length := by
  obtain ⟨rest, rows⟩ := List.head?_eq_some_iff.mp first
  have alone : rest = [] := by
    rw [rows, List.length_cons] at single
    exact List.length_eq_zero_iff.mp (by omega)
  have left :
      recommendationRows
          { database with
            recommendations := database.recommendations.delete
              fun entry => entry.id = row.id } user shop =
        (recommendationRows database user shop).filter
          fun entry => !decide (entry.id = row.id) := by
    unfold recommendationRows
    rw [Table.select_delete]
  rw [left]
  by_cases concerned : author = user ∧ sameText visited shop = true
  · obtain ⟨rfl, same⟩ := concerned
    rw [if_pos ⟨rfl, same⟩, ← recommendationRows_congr same]
    simp [rows, alone]
  · rw [if_neg concerned, List.filter_eq_self.mpr]
    intro entry member
    have deleted : row ∈ recommendationRows database author visited := by
      rw [rows]
      exact List.mem_cons_self
    obtain ⟨entryStored, sameShop, sameUser⟩ :=
      mem_recommendationRows.mp member
    obtain ⟨rowStored, rowShop, rowUser⟩ :=
      mem_recommendationRows.mp deleted
    have different : entry.id ≠ row.id := by
      intro equal
      have same := Table.eq_of_id_eq entryStored rowStored equal
      subst same
      exact concerned ⟨rowUser.symm.trans sameUser,
        sameText_trans rowShop (sameText_symm sameShop)⟩
    simpa using different

/-! ## Runs -/

theorem RowsMatch.visit
    {world : CheckInWorld} (matched : RowsMatch world)
    {request : Request} {user : Nat} (login : request.user = some user)
    (kept : VisitKept (.visit request)) :
    RowsMatch
      ⟨(ajaxVisit request).final world.database,
        operationOn user (request.get "entity_id")
          (visitKind (request.get "entity_id")) ++
            world.operations⟩ := by
  cases posted : request.get "entity_id" with
  | missing =>
      rw [ajaxVisit_other login (by simp [posted])]
      exact matched
  | list items =>
      rw [ajaxVisit_other login (by simp [posted])]
      unfold operationOn
      split
      · rename_i shop wanted
        intro wantedUser wantedShop
        simp only [List.singleton_append, operationsOf_cons]
        split
        · rw [visitKind, visitedLast_cons]
          exact matched wantedUser wantedShop
        · exact matched wantedUser wantedShop
      · exact matched
  | text shop =>
      intro wantedUser wantedShop
      have before := matched wantedUser wantedShop
      simp only [operationOn, Input.whereValue, visitKind,
        List.singleton_append, operationsOf_cons,
        ajaxVisit_text login posted]
      have stored :
          sameText (varchar shop) wantedShop =
            sameText shop wantedShop :=
        sameText_congr_left (kept shop posted)
      by_cases concerned :
          user = wantedUser ∧ sameText shop wantedShop = true
      · simp only [if_pos concerned, visitedLast_cons]
        obtain ⟨rfl, same⟩ := concerned
        rw [recommendationRows_congr same]
        by_cases unvisited :
            recommendationRows world.database user wantedShop = []
        · simp [unvisited, recommendationRows_insert, stored, same]
        · have present := List.length_pos_iff.mpr unvisited
          split at before
          · simpa [unvisited] using before
          · omega
      · simp only [if_neg concerned]
        by_cases unvisited :
            recommendationRows world.database user shop = []
        · rw [if_pos unvisited, recommendationRows_insert, stored,
            if_neg concerned]
          exact before
        · rw [if_neg unvisited]
          exact before

theorem RowsMatch.cancel
    {world : CheckInWorld} (matched : RowsMatch world)
    {request : Request} {user : Nat} (login : request.user = some user) :
    RowsMatch
      ⟨(ajaxCancelVisit request).final world.database,
        operationOn user (request.get "entity_id") .cancel ++
          world.operations⟩ := by
  by_cases named : ∃ shop,
      (request.get "entity_id").whereValue = .ok (some shop)
  · obtain ⟨shop, wanted⟩ := named
    intro wantedUser wantedShop
    have before := matched wantedUser wantedShop
    simp only [operationOn, wanted, List.singleton_append,
      operationsOf_cons, ajaxCancelVisit_named login wanted]
    cases first :
        (recommendationRows world.database user shop).head? with
    | none =>
        have unvisited := List.head?_eq_none_iff.mp first
        by_cases concerned :
            user = wantedUser ∧ sameText shop wantedShop = true
        · simp only [if_pos concerned, visitedLast_cons]
          obtain ⟨rfl, same⟩ := concerned
          rw [recommendationRows_congr same] at unvisited
          simp [unvisited]
        · simp only [if_neg concerned]
          exact before
    | some row =>
        have single :
            (recommendationRows world.database user shop).length ≤ 1 := by
          rw [matched user shop]
          split <;> omega
        simp only [recommendationRows_delete first single]
        by_cases concerned :
            user = wantedUser ∧ sameText shop wantedShop = true
        · simp [concerned, visitedLast_cons]
        · simp only [if_neg concerned]
          exact before
  · have unnamed : ∀ shop,
        (request.get "entity_id").whereValue ≠ .ok (some shop) :=
      fun shop wanted => named ⟨shop, wanted⟩
    rw [ajaxCancelVisit_unnamed login unnamed]
    unfold operationOn
    split
    · rename_i shop wanted
      exact absurd wanted (unnamed shop)
    · exact matched

theorem checkInStep_matches
    {world target : CheckInWorld} {label : CheckInStep}
    (matched : RowsMatch world) (kept : VisitKept label)
    (moved : checkInStep world label = some target) :
    RowsMatch target := by
  cases label with
  | visit request =>
      obtain ⟨user, login, rfl⟩ := Option.map_eq_some_iff.mp moved
      exact matched.visit login kept
  | cancel request =>
      obtain ⟨user, login, rfl⟩ := Option.map_eq_some_iff.mp moved
      exact matched.cancel login
  | callback callback shop =>
      simp only [checkInStep] at moved
      split at moved
      · split at moved
        · cases moved
          intro user wanted
          have same := callbackRoute_keeps callback world.database
          have before := matched user wanted
          simp only [recommendationRows, operationsOf_cons] at before ⊢
          rw [same]
          split
          · rw [visitedLast_cons]
            exact before
          · exact before
        · cases moved
      · cases moved

/--
In every run from a site without recommendations whose visits post ids that
the column keeps, a user has at most one row for a shop, and the paths to a
check-in agree on it exactly when the operations at the end that bypass
`/ajax/visit` follow a visit.
-/
theorem checkIns_agree_iff
    {initial : Database} {history : List CheckInStep}
    {world : CheckInWorld}
    (unvisited : initial.recommendations.entries = [])
    (run : Reaches checkInStep (fun _ label => VisitKept label)
      ⟨initial, []⟩ history world)
    (user : Nat) (shop : String) :
    (recommendationRows world.database user shop).length ≤ 1 ∧
      (Agrees world user shop ↔
        BypassesFollowVisit
          (operationsOf world.operations user shop)) := by
  have initially : RowsMatch ⟨initial, []⟩ := by
    intro user shop
    simp [recommendationRows, Table.select, unvisited, operationsOf,
      visitedLast]
  have matched : RowsMatch world :=
    run.invariant initially
      fun earlier kept moved => checkInStep_matches earlier kept moved
  have rows := matched user shop
  have single :
      (recommendationRows world.database user shop).length ≤ 1 := by
    rw [rows]
    split <;> omega
  have recommended :
      isCafeRecommendedByUser world.database shop user = true ↔
        visitedLast (operationsOf world.operations user shop) = true := by
    rw [recommended_iff, ← List.length_pos_iff, rows]
    split
    · rename_i visited
      simp [visited]
    · rename_i visited
      simp [visited]
  refine ⟨single, ?_⟩
  rw [← lastIsCheckIn_iff, Agrees, recommended]
  exact and_iff_left single

end Collations

/-! ## A visit and a callback -/

/-- A user with a Facebook account. -/
def facebookSite : Database :=
  { Database.empty with
    users := Table.empty.insert ⟨"alice@example.com", "alice"⟩
    profiles := ⟨[⟨1, "alice.png", 0⟩], by decide⟩
    socialCredentials := Table.empty.insert ⟨1, "fb1"⟩ }

def visitOfAlice : Request where
  user := some 1
  parameters := [("entity_id", .text "e")]

/-- The user cancels, and writes the id in capitals. -/
def loudCancel : Request where
  user := some 1
  parameters := [("entity_id", .text "E")]

/-- The user logs in to recommend the shop. -/
def recommendCallback : Callback where
  action := .text "recommend"
  cafeId := .text "e"
  path := .text "/shop/e"
  facebook := ⟨"fb1", some "alice@example.com", some "alice", "a.png"⟩

/-- The site after a visit, a cancellation, a visit and a callback. -/
def afterReturn : CheckInWorld where
  database :=
    { facebookSite with
      recommendations :=
        { entries := [⟨2, ⟨1, "e"⟩⟩]
          next := 3
          ordered := by decide
          fresh := by decide } }
  operations :=
    [⟨1, "e", .callback⟩, ⟨1, "e", .visit⟩, ⟨1, "E", .cancel⟩,
      ⟨1, "e", .visit⟩]

theorem callback_after_visit_agrees :
    @Agrees caseBlind afterReturn 1 "e" := by
  have visits : @VisitKept caseBlind (.visit visitOfAlice) := by
    intro shop posted
    have isShop : "e" = shop := by
      simpa [visitOfAlice, Request.get] using posted
    subst isShop
    decide
  refine (@checkIns_agree_iff caseBlind facebookSite
    [.callback recommendCallback "e", .visit visitOfAlice,
      .cancel loudCancel, .visit visitOfAlice] afterReturn rfl
    (.next (.next (.next (.next .start visits rfl) trivial rfl) visits rfl)
      trivial rfl) 1 "e").2.mpr ?_
  intro kind isLast bypass
  decide

/-- The site after the callback alone. -/
def afterCallback : CheckInWorld :=
  ⟨(@callbackRoute caseBlind recommendCallback).final facebookSite,
    [⟨1, "e", .callback⟩]⟩

/-- The callback logs in and does not check in. -/
theorem callback_does_not_check_in :
    Reaches (@checkInStep caseBlind) Anything ⟨facebookSite, []⟩
        [.callback recommendCallback "e"] afterCallback ∧
      LastIsCheckIn
        (@operationsOf caseBlind afterCallback.operations 1 "e") ∧
      @isCafeRecommendedByUser caseBlind afterCallback.database "e" 1 =
        false ∧
      ¬ @Agrees caseBlind afterCallback 1 "e" := by
  have isLast : LastIsCheckIn
      (@operationsOf caseBlind afterCallback.operations 1 "e") :=
    ⟨.callback, by decide, by decide⟩
  have absent : @isCafeRecommendedByUser caseBlind
      afterCallback.database "e" 1 = false := by
    decide
  refine ⟨.next .start trivial rfl, isLast, absent, ?_⟩
  intro agrees
  have recommended := agrees.1.mpr isLast
  rw [absent] at recommended
  cases recommended

end NomadiCore
