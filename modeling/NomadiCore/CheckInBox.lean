import NomadiCore.CheckInPaths
import NomadiCore.ForumThreads

/-!
# The check-in box

The script of `cafe-modal/_like-box.blade.php`.  A click changes the box at
once and sends a request that nobody waits for, so the server may process the
requests in another order than they were sent.  What it is left with depends
on the one it processes last.
-/

namespace NomadiCore

open NomadiCore.Library.RowTable
open NomadiCore.Library.StatementProcess
open NomadiCore.Library.TextColumn

/-! ## The box -/

/-- The id of a stored shop, which its column has kept. -/
structure ShopId where
  text : String
  fits : Fits 255 text

theorem ShopId.kept (shop : ShopId) : varchar shop.text = shop.text :=
  keep_of_fits shop.fits

/-- The store of the script, for a user who is logged in. -/
structure LikeBox where
  count : Int
  visits : List String
  visited : Bool
  userAvatar : String
deriving DecidableEq

section Recommendations

variable [Collation]

/-- The recommendations of a shop. -/
def shopRows (database : Database) (shop : String) :
    List (Entry Recommendation) :=
  database.recommendations.select fun entry =>
    sameText shop entry.row.entityId

/-- `$user->profile->avatar` as the template prints it. -/
def avatarOf (printed : String → String) (database : Database)
    (user : Nat) : Except Raised String :=
  match database.users.find user with
  | none => .error .errorException
  | some entry =>
      match database.profiles.find entry.id with
      | none => .error .errorException
      | some profile => .ok (printed profile.avatar)

/-- The box that the template prints for a user. -/
def likeBox (printed : String → String) (database : Database)
    (shop : String) (user : Nat) : Except Raised LikeBox := do
  let visits ← (shopRows database shop).mapM fun entry =>
    avatarOf printed database entry.row.userId
  let avatar ← avatarOf printed database user
  return ⟨(shopRows database shop).length, visits,
    isCafeRecommendedByUser database shop user, avatar⟩

end Recommendations

/-- `visits.indexOf(avatar)`. -/
def indexOf (visits : List String) (avatar : String) : Int :=
  match visits.findIdx? (· = avatar) with
  | some index => index
  | none => -1

/-- `visits.splice(index, 1)`; a negative index counts from the end. -/
def splice (visits : List String) (index : Int) : List String :=
  if 0 ≤ index then visits.eraseIdx index.toNat
  else visits.eraseIdx (visits.length + index).toNat

/-- The requests that the box sends. -/
inductive BoxRequest where
  | visit
  | cancelVisit
deriving DecidableEq

/-- A click on the button. -/
def LikeBox.click (box : LikeBox) : LikeBox × BoxRequest :=
  if box.visited then
    ({ box with
        visited := false
        count := box.count - 1
        visits := splice box.visits (indexOf box.visits box.userAvatar) },
      .cancelVisit)
  else
    ({ box with
        visited := true
        count := box.count + 1
        visits := box.visits ++ [box.userAvatar] },
      .visit)

/-- A number of clicks, with the requests they send. -/
def LikeBox.clicks : Nat → LikeBox → LikeBox × List BoxRequest
  | 0, box => (box, [])
  | count + 1, box =>
      ((box.click.1.clicks count).1,
        box.click.2 :: (box.click.1.clicks count).2)

/-! ## The server -/

section Server

variable [Collation]

def BoxRequest.handle (token : String) (user : Nat) (shop : ShopId)
    (request : BoxRequest) : Handler Response :=
  let posted : Request :=
    { user := some user
      parameters :=
        [("entity_id", .text shop.text), ("_token", .text token)] }
  match request with
  | .visit => ajaxVisit posted
  | .cancelVisit => ajaxCancelVisit posted

/-- The server processes requests one after the other. -/
def processAll (token : String) (user : Nat) (shop : ShopId) :
    List BoxRequest → Database → Database
  | [], database => database
  | request :: rest, database =>
      processAll token user shop rest
        ((request.handle token user shop).final database)

/-- The box agrees with the server, and with what a reload would show. -/
structure Converged (printed : String → String) (user : Nat)
    (shop : ShopId) (database : Database) (box : LikeBox) : Prop where
  visited : isCafeRecommendedByUser database shop.text user = box.visited
  length : box.count = box.visits.length
  reload : ∃ reloaded,
    likeBox printed database shop.text user = .ok reloaded ∧
      box.count = reloaded.count

end Server

/-! ## What the clicks leave -/

/-- The count is the number of avatars, and a visitor's is among them. -/
structure BoxInvariant (box : LikeBox) : Prop where
  length : box.count = box.visits.length
  present : box.visited = true → box.userAvatar ∈ box.visits

/-- Splicing an avatar that is there takes one avatar away. -/
theorem splice_length {visits : List String} {avatar : String}
    (present : avatar ∈ visits) :
    ((splice visits (indexOf visits avatar)).length : Int) =
      visits.length - 1 := by
  obtain ⟨index, found⟩ :
      ∃ index, visits.findIdx? (· = avatar) = some index := by
    rw [← Option.isSome_iff_exists, List.findIdx?_isSome, List.any_eq_true]
    exact ⟨avatar, present, by simp⟩
  have bound : index < visits.length :=
    (List.findIdx?_eq_some_iff_findIdx_eq.mp found).1
  simp only [indexOf, found, splice, Int.natCast_nonneg, if_true,
    Int.toNat_natCast, List.length_eraseIdx_of_lt bound]
  omega

theorem BoxInvariant.click {box : LikeBox} (invariant : BoxInvariant box) :
    BoxInvariant box.click.1 := by
  unfold LikeBox.click
  cases visited : box.visited with
  | true =>
      refine ⟨?_, by simp⟩
      have shorter := splice_length (invariant.present visited)
      have length := invariant.length
      simp only [if_true]
      omega
  | false =>
      refine ⟨?_, by simp⟩
      simp [invariant.length]

theorem BoxInvariant.clicks {box : LikeBox} (count : Nat)
    (invariant : BoxInvariant box) :
    BoxInvariant (box.clicks count).1 := by
  induction count generalizing box with
  | zero => exact invariant
  | succ count induction => exact induction invariant.click

/-- Whether the user is checked in after the requests. -/
def lastVisited : Bool → List BoxRequest → Bool
  | before, [] => before
  | _, request :: rest => lastVisited (request = .visit) rest

theorem lastVisited_eq (before : Bool) (requests : List BoxRequest) :
    lastVisited before requests =
      (requests.getLast?.map fun request =>
        decide (request = .visit)).getD before := by
  induction requests generalizing before with
  | nil => rfl
  | cons request rest induction =>
      rw [lastVisited, induction, List.getLast?_cons]
      cases rest.getLast? with
      | none => rfl
      | some last => rfl

/-- Two orders that leave the same end with the same request. -/
theorem getLast?_eq_of_lastVisited
    {before : Bool} {left right : List BoxRequest}
    (reordered : left.Perm right)
    (agree : lastVisited before left = lastVisited before right) :
    left.getLast? = right.getLast? := by
  rw [lastVisited_eq, lastVisited_eq] at agree
  have length := reordered.length_eq
  cases leftLast : left.getLast? with
  | none =>
      rw [List.getLast?_eq_none_iff] at leftLast
      simp only [leftLast, List.length_nil] at length
      have empty := List.length_eq_zero_iff.mp length.symm
      simp [empty]
  | some request =>
      cases rightLast : right.getLast? with
      | none =>
          rw [List.getLast?_eq_none_iff] at rightLast
          simp only [rightLast, List.length_nil] at length
          have empty := List.length_eq_zero_iff.mp length
          simp [empty] at leftLast
      | some other =>
          simp only [leftLast, rightLast, Option.map_some,
            Option.getD_some] at agree
          cases request <;> cases other <;> simp at agree ⊢

/-- The box follows the last click. -/
theorem clicks_visited (count : Nat) (box : LikeBox) :
    (box.clicks count).1.visited =
      lastVisited box.visited (box.clicks count).2 := by
  induction count generalizing box with
  | zero => rfl
  | succ count induction =>
      have next : box.click.1.visited = decide (box.click.2 = .visit) := by
        unfold LikeBox.click
        cases box.visited with
        | true => rfl
        | false => rfl
      simp only [LikeBox.clicks, lastVisited, induction, next]

/-- The clicks only count the user in or out. -/
theorem clicks_count (count : Nat) (box : LikeBox) :
    (box.clicks count).1.count - (box.clicks count).1.visited.toInt =
      box.count - box.visited.toInt := by
  induction count generalizing box with
  | zero => rfl
  | succ count induction =>
      have next : box.click.1.count - box.click.1.visited.toInt =
          box.count - box.visited.toInt := by
        unfold LikeBox.click
        cases visited : box.visited with
        | true => simp [Bool.toInt]
        | false => simp [Bool.toInt]
      simp only [LikeBox.clicks]
      rw [induction, next]

/-! ## What the server is left with -/

section Server

variable [Collation]

/-- The recommendations of a shop: those of others, and the user's if any. -/
structure CheckedIn (initial : Database) (user : Nat) (shop : String)
    (others : Int) (visited : Bool) (database : Database) : Prop where
  own : ((recommendationRows database user shop).length : Int) =
    visited.toInt
  total : ((shopRows database shop).length : Int) =
    others + visited.toInt
  known : ∀ entry ∈ shopRows database shop, entry.row.userId ≠ user →
    entry ∈ shopRows initial shop
  users : database.users = initial.users
  profiles : database.profiles = initial.profiles

theorem shopRows_insert (database : Database) (user : Nat)
    (shop : String) :
    shopRows
        { database with
          recommendations :=
            database.recommendations.insert ⟨user, shop⟩ } shop =
      shopRows database shop ++
        [⟨database.recommendations.next, ⟨user, shop⟩⟩] := by
  simp [shopRows, Table.select_insert]

/-- A deleted recommendation is one less. -/
theorem shopRows_delete {database : Database} {shop : String}
    {row : Entry Recommendation}
    (listed : row ∈ shopRows database shop) :
    (shopRows
        { database with
          recommendations := database.recommendations.delete
            fun entry => entry.id = row.id } shop) =
      (shopRows database shop).erase row := by
  have once : (shopRows database shop).Nodup :=
    database.recommendations.nodup.filter _
  rw [once.erase_eq_filter, shopRows, Table.select_delete]
  apply List.filter_congr
  intro entry member
  have same : entry.id = row.id ↔ entry = row := by
    constructor
    · exact Table.eq_of_id_eq (Table.mem_select.mp member).1
        (Table.mem_select.mp listed).1
    · intro equal
      rw [equal]
  by_cases equal : entry = row
  · simp [equal]
  · have different : ¬ entry.id = row.id := fun sameId =>
      equal (same.mp sameId)
    simp [equal, different]

section CheckedIn

variable {initial database : Database} {user : Nat} {shop : String}
  {others : Int} {visited : Bool}

theorem CheckedIn.visit
    (state : CheckedIn initial user shop others visited database)
    {request : Request} (login : request.user = some user)
    (posted : request.get "entity_id" = .text shop)
    (kept : varchar shop = shop) :
    CheckedIn initial user shop others true
      ((ajaxVisit request).final database) := by
  rw [ajaxVisit_text login posted, kept]
  cases visited with
  | true =>
      have present : recommendationRows database user shop ≠ [] := by
        intro none
        have own := state.own
        simp [none, Bool.toInt] at own
      rw [if_neg present]
      exact state
  | false =>
      have absent : recommendationRows database user shop = [] := by
        have own := state.own
        simpa [Bool.toInt] using own
      rw [if_pos absent]
      refine ⟨?_, ?_, ?_, state.users, state.profiles⟩
      · rw [recommendationRows_insert, absent]
        simp [Bool.toInt]
      · have total := state.total
        rw [shopRows_insert, List.length_append]
        simp [Bool.toInt] at total ⊢
        omega
      · intro entry member other
        rw [shopRows_insert] at member
        rcases List.mem_append.mp member with old | new
        · exact state.known entry old other
        · rw [List.mem_singleton] at new
          rw [new] at other
          exact absurd rfl other

theorem CheckedIn.cancelVisit
    (state : CheckedIn initial user shop others visited database)
    {request : Request} (login : request.user = some user)
    (posted : request.get "entity_id" = .text shop) :
    CheckedIn initial user shop others false
      ((ajaxCancelVisit request).final database) := by
  have wanted : (request.get "entity_id").whereValue = .ok (some shop) := by
    rw [posted]
    rfl
  rw [ajaxCancelVisit_named login wanted]
  cases visited with
  | false =>
      have absent : recommendationRows database user shop = [] := by
        have own := state.own
        simpa [Bool.toInt] using own
      rw [absent]
      exact state
  | true =>
      have single : (recommendationRows database user shop).length = 1 := by
        have own := state.own
        simp [Bool.toInt] at own
        omega
      obtain ⟨row, alone⟩ := List.length_eq_one_iff.mp single
      have mine : row ∈ recommendationRows database user shop := by
        simp [alone]
      obtain ⟨stored, sameShop, -⟩ := mem_recommendationRows.mp mine
      have listed : row ∈ shopRows database shop :=
        Table.mem_select.mpr ⟨stored, sameShop⟩
      simp only [alone, List.head?_cons]
      refine ⟨?_, ?_, ?_, state.users, state.profiles⟩
      · rw [recommendationRows_delete (by rw [alone]; rfl) (by omega)]
        simp [Bool.toInt]
      · have total := state.total
        have some : 0 < (shopRows database shop).length :=
          List.length_pos_of_mem listed
        rw [shopRows_delete listed, List.length_erase_of_mem listed]
        simp [Bool.toInt] at total ⊢
        omega
      · intro entry member other
        rw [shopRows_delete listed] at member
        exact state.known entry (List.mem_of_mem_erase member) other

theorem CheckedIn.recommended
    (state : CheckedIn initial user shop others visited database) :
    isCafeRecommendedByUser database shop user = visited := by
  have own := state.own
  cases visited with
  | true =>
      rw [recommended_iff]
      intro none
      simp [none, Bool.toInt] at own
  | false =>
      rw [Bool.eq_false_iff, ne_eq, recommended_iff, not_not]
      simpa [Bool.toInt] using own

/-- The request that is processed last decides. -/
theorem CheckedIn.processAll (token : String) (requests : List BoxRequest)
    {shop : ShopId}
    (state : CheckedIn initial user shop.text others visited database) :
    CheckedIn initial user shop.text others (lastVisited visited requests)
      (processAll token user shop requests database) := by
  induction requests generalizing visited database with
  | nil => exact state
  | cons request rest induction =>
      rw [NomadiCore.processAll, lastVisited]
      apply induction
      cases request with
      | visit => exact state.visit rfl rfl shop.kept
      | cancelVisit => exact state.cancelVisit rfl rfl

end CheckedIn

/-! ## The printed box -/

omit [Collation] in
/-- The values of computations that all succeeded. -/
theorem mapM_ok
    {Source Target : Type} {list : List Source}
    {compute : Source → Except Raised Target} {values : List Target}
    (ran : list.mapM compute = .ok values) :
    values.length = list.length ∧
      ∀ item ∈ list, ∃ value ∈ values, compute item = .ok value := by
  induction list generalizing values with
  | nil =>
      cases ran
      simp
  | cons head tail induction =>
      rw [List.mapM_cons] at ran
      cases first : compute head with
      | error failure =>
          rw [first] at ran
          cases ran
      | ok value =>
          cases later : tail.mapM compute with
          | error failure =>
              rw [first, later] at ran
              cases ran
          | ok rest =>
              rw [first, later] at ran
              cases ran
              obtain ⟨length, computed⟩ := induction later
              refine ⟨by simp [length], ?_⟩
              intro item member
              rcases List.mem_cons.mp member with rfl | member
              · exact ⟨value, by simp, first⟩
              · obtain ⟨other, listed, equal⟩ := computed item member
                exact ⟨other, by simp [listed], equal⟩

section Printed

variable {printed : String → String} {database : Database}
  {shop : String} {user : Nat}

/-- What a printed box shows. -/
theorem likeBox_ok {box : LikeBox}
    (rendered : likeBox printed database shop user = .ok box) :
    box.count = (shopRows database shop).length ∧
      box.visits.length = (shopRows database shop).length ∧
      box.visited = isCafeRecommendedByUser database shop user ∧
      avatarOf printed database user = .ok box.userAvatar ∧
      ∀ entry ∈ shopRows database shop, ∃ avatar ∈ box.visits,
        avatarOf printed database entry.row.userId = .ok avatar := by
  unfold likeBox at rendered
  cases printedAll : (shopRows database shop).mapM fun entry =>
      avatarOf printed database entry.row.userId with
  | error failure =>
      rw [printedAll] at rendered
      cases rendered
  | ok visits =>
      cases own : avatarOf printed database user with
      | error failure =>
          rw [printedAll, own] at rendered
          cases rendered
      | ok avatar =>
          rw [printedAll, own] at rendered
          cases rendered
          obtain ⟨length, all⟩ := mapM_ok printedAll
          exact ⟨rfl, length, rfl, rfl, all⟩

/-- The box is printed when everyone in it has an avatar. -/
theorem exists_likeBox
    (own : ∃ avatar, avatarOf printed database user = .ok avatar)
    (all : ∀ entry ∈ shopRows database shop,
      ∃ avatar, avatarOf printed database entry.row.userId = .ok avatar) :
    ∃ box, likeBox printed database shop user = .ok box ∧
      box.count = (shopRows database shop).length := by
  obtain ⟨avatar, own⟩ := own
  have printedAll := @mapM_eq_ok _ _ (shopRows database shop)
    (fun entry => avatarOf printed database entry.row.userId)
    (fun entry => ((avatarOf printed database
      entry.row.userId).toOption).getD "") (by
      intro entry member
      obtain ⟨value, equal⟩ := all entry member
      simp [equal, Except.toOption])
  refine ⟨⟨(shopRows database shop).length,
    (shopRows database shop).map fun entry =>
      ((avatarOf printed database entry.row.userId).toOption).getD "",
    isCafeRecommendedByUser database shop user, avatar⟩, ?_, rfl⟩
  unfold likeBox
  rw [printedAll, own]
  rfl

/-- A user who recommends a shop once is one of its recommendations. -/
theorem recommendationRows_length
    (single : ((shopRows database shop).map
      fun entry => entry.row.userId).Nodup) :
    ((recommendationRows database user shop).length : Int) =
      (isCafeRecommendedByUser database shop user).toInt := by
  have atMostOne : (recommendationRows database user shop).length ≤ 1 := by
    match rows : recommendationRows database user shop with
    | [] => simp
    | [row] => simp
    | first :: second :: rest =>
        have distinct : (first :: second :: rest).Nodup := by
          rw [← rows]
          exact database.recommendations.nodup.filter _
        have listed : ∀ entry ∈ first :: second :: rest,
            entry ∈ shopRows database shop ∧ entry.row.userId = user := by
          intro entry member
          rw [← rows] at member
          obtain ⟨stored, sameShop, sameUser⟩ :=
            mem_recommendationRows.mp member
          exact ⟨Table.mem_select.mpr ⟨stored, sameShop⟩, sameUser⟩
        have one := listed first (by simp)
        have other := listed second (by simp)
        have equal := List.inj_on_of_nodup_map single one.1 other.1
          (one.2.trans other.2.symm)
        simp [equal] at distinct
  cases recommended : isCafeRecommendedByUser database shop user with
  | true =>
      have nonempty := (recommended_iff database user shop).mp recommended
      have positive := List.length_pos_of_ne_nil nonempty
      simp [Bool.toInt]
      omega
  | false =>
      have empty : recommendationRows database user shop = [] := by
        by_contra nonempty
        have listed := (recommended_iff database user shop).mpr nonempty
        rw [recommended] at listed
        cases listed
      simp [empty, Bool.toInt]

end Printed

/-! ## Convergence -/

section Rendered

variable {printed : String → String} {database : Database}
  {user : Nat} {shop : String} {box : LikeBox}
  (rendered : likeBox printed database shop user = .ok box)

include rendered

/-- The box of a user who has checked in has the avatar of the user. -/
theorem boxInvariant_of_rendered : BoxInvariant box := by
  obtain ⟨count, length, visited, avatar, avatars⟩ := likeBox_ok rendered
  refine ⟨by rw [count, length], ?_⟩
  intro checkedIn
  rw [visited, recommended_iff] at checkedIn
  obtain ⟨row, listed⟩ := List.exists_mem_of_ne_nil _ checkedIn
  obtain ⟨stored, sameShop, sameUser⟩ := mem_recommendationRows.mp listed
  obtain ⟨shown, present, equal⟩ := avatars row
    (Table.mem_select.mpr ⟨stored, sameShop⟩)
  rw [sameUser, avatar] at equal
  cases equal
  exact present

theorem checkedIn_of_rendered
    (single : ((shopRows database shop).map
      fun entry => entry.row.userId).Nodup) :
    CheckedIn database user shop (box.count - box.visited.toInt)
      box.visited database := by
  obtain ⟨count, -, visited, -, -⟩ := likeBox_ok rendered
  refine ⟨?_, ?_, fun _ member _ => member, rfl, rfl⟩
  · rw [visited]
    exact recommendationRows_length single
  · omega

/-- Whoever is checked in after some requests can be shown again. -/
theorem reloads {others : Int} {visited : Bool} {after : Database}
    (left : CheckedIn database user shop others visited after) :
    ∃ reloaded, likeBox printed after shop user = .ok reloaded ∧
      reloaded.count = (shopRows after shop).length := by
  obtain ⟨-, -, -, avatar, avatars⟩ := likeBox_ok rendered
  apply exists_likeBox
  · unfold avatarOf
    rw [left.users, left.profiles]
    exact ⟨box.userAvatar, avatar⟩
  · intro entry member
    unfold avatarOf
    rw [left.users, left.profiles]
    by_cases own : entry.row.userId = user
    · rw [own]
      exact ⟨box.userAvatar, avatar⟩
    · obtain ⟨shown, -, equal⟩ :=
        avatars entry (left.known entry member own)
      exact ⟨shown, equal⟩

end Rendered

/--
However the server orders the requests of the clicks, the box and the server
converge exactly if the last request to be processed is like the last one sent.
-/
theorem box_converges_iff
    {printed : String → String} {token : String} {database : Database}
    {user : Nat} {shop : ShopId} {box last : LikeBox}
    {clicks : Nat} {sent order : List BoxRequest}
    (single : ((shopRows database shop.text).map
      fun entry => entry.row.userId).Nodup)
    (rendered : likeBox printed database shop.text user = .ok box)
    (clicked : box.clicks clicks = (last, sent))
    (reordered : order.Perm sent) :
    Converged printed user shop
        (processAll token user shop order database) last ↔
      order.getLast? = sent.getLast? := by
  have initially := boxInvariant_of_rendered rendered
  have start := checkedIn_of_rendered rendered single
  have boxVisited : last.visited = lastVisited box.visited sent := by
    have same := clicks_visited clicks box
    rwa [clicked] at same
  have boxCount : last.count - last.visited.toInt =
      box.count - box.visited.toInt := by
    have same := clicks_count clicks box
    rwa [clicked] at same
  have invariant : BoxInvariant last := by
    have kept := initially.clicks clicks
    rwa [clicked] at kept
  have left := start.processAll token order
  constructor
  · intro converged
    have agree := converged.visited
    rw [left.recommended, boxVisited] at agree
    exact getLast?_eq_of_lastVisited reordered agree
  · intro sameLast
    have agree : lastVisited box.visited order = last.visited := by
      rw [boxVisited, lastVisited_eq, lastVisited_eq, sameLast]
    refine ⟨left.recommended.trans agree, invariant.length, ?_⟩
    obtain ⟨reloaded, printedAgain, shown⟩ := reloads rendered left
    refine ⟨reloaded, printedAgain, ?_⟩
    have total := left.total
    rw [agree] at total
    omega

end Server

/-! ## Two clicks -/

/-- The box of a shop that nobody checked in to. -/
def emptyBox : LikeBox where
  count := 0
  visits := []
  visited := false
  userAvatar := "a.png"

def clickedShop : ShopId where
  text := "e"
  fits := by decide

theorem emptyBox_printed :
    @likeBox caseBlind id aliceSite "e" 1 = .ok emptyBox := by
  decide +kernel

/-- In the order of the clicks, the box and the server converge. -/
theorem ordered_clicks_converge :
    @Converged caseBlind id 1 clickedShop
      (@processAll caseBlind "" 1 clickedShop [.visit, .cancelVisit]
        aliceSite) emptyBox :=
  (@box_converges_iff caseBlind id "" aliceSite 1 clickedShop emptyBox
    emptyBox 2 [.visit, .cancelVisit] [.visit, .cancelVisit] (by decide)
    emptyBox_printed (by decide) (List.Perm.refl _)).mpr rfl

/-- The second request overtakes the first. -/
theorem reordered_clicks_diverge :
    ((@shopRows caseBlind aliceSite "e").map
        fun entry => entry.row.userId).Nodup ∧
      @likeBox caseBlind id aliceSite "e" 1 = .ok emptyBox ∧
      emptyBox.clicks 2 = (emptyBox, [.visit, .cancelVisit]) ∧
      [BoxRequest.cancelVisit, .visit].Perm [.visit, .cancelVisit] ∧
      ¬ @Converged caseBlind id 1 clickedShop
        (@processAll caseBlind "" 1 clickedShop [.cancelVisit, .visit]
          aliceSite) emptyBox := by
  refine ⟨by decide, emptyBox_printed, by decide,
    List.Perm.swap _ _ _, ?_⟩
  intro converged
  have stays : @isCafeRecommendedByUser caseBlind
      (@processAll caseBlind "" 1 clickedShop [.cancelVisit, .visit]
        aliceSite) clickedShop.text 1 = true := by
    decide +kernel
  have agree := @Converged.visited caseBlind id 1 clickedShop
    (@processAll caseBlind "" 1 clickedShop [.cancelVisit, .visit]
      aliceSite) emptyBox converged
  rw [stays] at agree
  cases agree

end NomadiCore
