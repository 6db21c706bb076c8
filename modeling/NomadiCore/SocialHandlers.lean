import NomadiCore.RequestInput

/-!
# Check-ins, wishes, comments, reviews, tags and photos

The handlers of `SocialController` and `ShopController` that write, and the
photo routes.  The snapshot has renamed `cafe_id` to `entity_id` in every
table: a statement that still names `cafe_id` raises.
-/

namespace NomadiCore

open NomadiCore.Library.DecimalNumeral
open NomadiCore.Library.RowTable
open NomadiCore.Library.StatementProcess
open NomadiCore.Library.TextColumn

/-- A statement on a column that the table does not have. -/
def unknownColumn {Answer : Type} : Handler Answer :=
  .perform fun database => (.error .queryException, database)

/-! ## Wishes -/

/-- `Wish::where('cafe_id', ..)->where('user_id', ..)->first()`. -/
def ownWish (request : Request) : Handler (Option (Entry Wish)) := do
  let _ ← request.userId
  let _ ← .ofExcept (request.get "cafe_id").whereValue
  unknownColumn

def deleteWish (id : Nat) : Handler Unit :=
  .execute fun database =>
    { database with
      wishes := database.wishes.delete fun entry => entry.id = id }

def ajaxWish (request : Request) : Handler Response := do
  match ← ownWish request with
  | none =>
      let _ ← request.userId
      unknownColumn
  | some _ => return .json 1

def ajaxCancelWish (request : Request) : Handler Response := do
  match ← ownWish request with
  | some wish =>
      deleteWish wish.id
      return .json 1
  | none => return .json 1

/-! ## Check-ins -/

section CheckIns

variable [Collation]

/-- A text column compared with a bound value by the collation. -/
def collatesText (wanted : Option String) (column : String) : Bool :=
  match wanted with
  | some text => sameText text column
  | none => false

/-- Two texts that a bound value equals are the same. -/
theorem collatesText_unique
    {wanted : Option String} {first second : String}
    (isFirst : collatesText wanted first = true)
    (isSecond : collatesText wanted second = true) :
    Collation.sortKey first = Collation.sortKey second := by
  cases wanted with
  | none => cases isFirst
  | some text =>
      exact (of_decide_eq_true isFirst).symm.trans
        (of_decide_eq_true isSecond)

/-- The user's recommendation of the posted shop. -/
def ownRecommendation (request : Request) :
    Handler (Option (Entry Recommendation)) := do
  let user ← request.userId
  let wanted ← .ofExcept (request.get "entity_id").whereValue
  .query fun database =>
    database.recommendations.first fun entry =>
      collatesText wanted entry.row.entityId && entry.row.userId = user

def saveRecommendation (recommendation : Recommendation) : Handler Unit :=
  .execute fun database =>
    { database with
      recommendations := database.recommendations.insert
        { recommendation with
          entityId := varchar recommendation.entityId } }

def deleteRecommendation (id : Nat) : Handler Unit :=
  .execute fun database =>
    { database with
      recommendations := database.recommendations.delete fun entry =>
        entry.id = id }

def ajaxVisit (request : Request) : Handler Response := do
  match ← ownRecommendation request with
  | none =>
      let user ← request.userId
      let entity ← .ofExcept (request.get "entity_id").insertText
      saveRecommendation ⟨user, entity⟩
      return .json 1
  | some _ => return .json 1

def ajaxCancelVisit (request : Request) : Handler Response := do
  match ← ownRecommendation request with
  | some recommendation =>
      deleteRecommendation recommendation.id
      return .json 1
  | none => return .json 1

/-- `is_cafe_recommended_by_user($cafe_id, $user_id)`. -/
def isCafeRecommendedByUser
    (database : Database) (entity : String) (user : Nat) : Bool :=
  (database.recommendations.select fun entry =>
    sameText entity entry.row.entityId && entry.row.userId = user).length ≠ 0

end CheckIns

/-! ## Comments -/

def saveComment (comment : Comment) : Handler Unit :=
  .execute fun database =>
    { database with comments := database.comments.insert comment }

def deleteComment (id : Nat) : Handler Unit :=
  .execute fun database =>
    { database with
      comments := database.comments.delete fun entry => entry.id = id }

def addComment (request : Request) : Handler Response := do
  let user ← request.userId
  let entity ← .ofExcept (request.get "entity_id").insertText
  let body ← .ofExcept (request.get "body").insertText
  saveComment ⟨entity, body, user⟩
  return .back

def removeComment (request : Request) : Handler Response := do
  let user ← request.userId
  let wanted ← .ofExcept (request.get "comment_id").whereValue
  let found ← .query fun database =>
    database.comments.first fun entry =>
      equalsInt wanted entry.id && entry.row.userId = user
  let comment ← .require .error found
  deleteComment comment.id
  return .back

/-! ## Reviews -/

/-- `(int) Request::get($field . '-rating')`; a non-empty array casts to one. -/
def postedRating (request : Request) (field : String) : Int :=
  match request.get (field ++ "-rating") with
  | .missing => 0
  | .text value => toInteger value
  | .list [] => 0
  | .list (_ :: _) => 1

/-- The array that `checkHasError` stores in the review. -/
def postedRatings (request : Request) : List (String × Int) :=
  getReviewKeys.map fun field => (field, postedRating request field)

/-- The error flag of `checkHasError`: some rating is zero. -/
def checkHasError (request : Request) : Bool :=
  (postedRatings request).any fun field => field.2 = 0

/-- `Entity::find`; of a list of ids it makes a collection, which has no id. -/
def findEntity (input : Input) : Handler (Option Entity) :=
  match input with
  | .missing => .query fun _ => none
  | .text id => .query fun database => database.entities.find id
  | .list _ => .raised .error

def saveReview (review : Review) : Handler Unit :=
  .execute fun database =>
    { database with reviews := database.reviews.insert review }

def setReviewFields (id : Nat) (fields : List (String × Int)) :
    Handler Unit :=
  .execute fun database =>
    { database with
      reviews := database.reviews.update id fun review =>
        { review with reviewFields := some fields } }

def deleteReviewRow (id : Nat) : Handler Unit :=
  .execute fun database =>
    { database with
      reviews := database.reviews.delete fun entry => entry.id = id }

/-- The notice for a rating of zero. -/
def zeroRatingNotice : Response :=
  .notice "您有一項評分打了0分。" "滿分5分，請輸入1到5。"

/-- The rest of `submitReview` once no review was found. -/
def insertReview (request : Request) (user : Nat) : Handler Response :=
  if checkHasError request then return zeroRatingNotice
  else do
    let entity ← .ofExcept (request.get "entity_id").insertText
    saveReview ⟨entity, 0, user, some (postedRatings request)⟩
    return .view "nomadicore::message"

/-- The rest of `submitReview` once the entity is loaded. -/
def lookupReview (request : Request) (entity : Entity) :
    Handler Response := do
  let user ← request.userId
  let review ← .query fun database =>
    database.reviews.first fun entry =>
      entry.row.entityId = entity.id && entry.row.userId = user
  match review with
  | some _ =>
      return .notice ("您已經替" ++ entity.name ++ "評分過了。")
        "您只能對一間咖啡廳評分一次。"
  | none => insertReview request user

def submitReview (request : Request) : Handler Response := do
  let found ← findEntity (request.get "entity_id")
  let entity ← .require .errorException found
  lookupReview request entity

/-- A review of the user with the posted id. -/
def ownReview (request : Request) : Handler (Option (Entry Review)) := do
  let user ← request.userId
  let wanted ← .ofExcept (request.get "review_id").whereValue
  .query fun database =>
    database.reviews.first fun entry =>
      equalsInt wanted entry.id && entry.row.userId = user

def updateReview (request : Request) : Handler Response := do
  let found ← ownReview request
  let review ← .require .errorException found
  if checkHasError request then return zeroRatingNotice
  else
    setReviewFields review.id (postedRatings request)
    return .view "nomadicore::message"

def deleteReview (request : Request) : Handler Response := do
  let found ← ownReview request
  let review ← .require .error found
  deleteReviewRow review.id
  return .notice "刪除完成。" ""

/-! ### What the review handlers leave -/

/-- The answer to a stored review. -/
def reviewStored : Response := .view "nomadicore::message"

/-- A submission stores one new review of its user, or changes nothing. -/
theorem submitReview_cases (request : Request) (database : Database) :
    (submitReview request).final database = database ∧
        ((submitReview request).run database).1 ≠ .ok reviewStored ∨
      ∃ entity user,
        checkHasError request = false ∧
          request.user = some user ∧
          request.get "entity_id" = .text entity ∧
          (submitReview request).final database =
            { database with
              reviews := database.reviews.insert
                ⟨entity, 0, user, some (postedRatings request)⟩ } := by
  cases posted : request.get "entity_id" with
  | missing =>
      exact Or.inl (by
        simp [submitReview, findEntity, Process.final, posted])
  | list items =>
      exact Or.inl (by
        simp [submitReview, findEntity, Process.final, posted])
  | text id =>
  cases found : database.entities.find id with
  | none =>
      exact Or.inl (by
        simp [submitReview, findEntity, Process.final, posted, found])
  | some entity =>
  cases login : request.user with
  | none =>
      exact Or.inl (by
        simp [submitReview, findEntity, Process.final, posted, found,
          lookupReview, login])
  | some user =>
  cases earlier : database.reviews.first (fun entry =>
      entry.row.entityId = entity.id && entry.row.userId = user) with
  | some review =>
      exact Or.inl (by
        simp [submitReview, findEntity, Process.final, posted, found,
          lookupReview, login, earlier, reviewStored])
  | none =>
      cases rated : checkHasError request with
      | true =>
          exact Or.inl (by
            simp [submitReview, findEntity, Process.final, posted, found,
              lookupReview, login, earlier, insertReview, rated,
              zeroRatingNotice, reviewStored])
      | false =>
          exact Or.inr ⟨id, user, rfl, rfl, rfl, by
            simp [submitReview, findEntity, Process.final, posted, found,
              lookupReview, login, earlier, insertReview, rated, saveReview]⟩

/-- The user's own review is looked up without a write. -/
theorem ownReview_reads (request : Request) (database : Database) :
    ∃ outcome, (ownReview request).run database =
      (outcome, database) := by
  refine ⟨_, Prod.ext rfl ?_⟩
  cases login : request.user with
  | none => simp [ownReview, login]
  | some user =>
      cases wanted : (request.get "review_id").whereValue with
      | error failure => simp [ownReview, login, wanted]
      | ok value => simp [ownReview, login, wanted]

/-- An update rewrites the ratings of one review, or changes nothing. -/
theorem updateReview_cases (request : Request) (database : Database) :
    (updateReview request).final database = database ∧
        ((updateReview request).run database).1 ≠ .ok reviewStored ∨
      ∃ id,
        checkHasError request = false ∧
          (updateReview request).final database =
            { database with
              reviews := database.reviews.update id fun review =>
                { review with
                  reviewFields := some (postedRatings request) } } := by
  obtain ⟨outcome, looked⟩ := ownReview_reads request database
  rcases outcome with failure | none | review
  · exact Or.inl (by simp [updateReview, Process.final, looked])
  · exact Or.inl (by simp [updateReview, Process.final, looked])
  · cases rated : checkHasError request with
    | true =>
        exact Or.inl (by
          simp [updateReview, Process.final, looked, rated,
            zeroRatingNotice, reviewStored])
    | false =>
        exact Or.inr ⟨review.id, rfl, by
          simp [updateReview, Process.final, looked, rated,
            setReviewFields]⟩

/-- A deletion removes one review, or changes nothing. -/
theorem deleteReview_cases (request : Request) (database : Database) :
    (deleteReview request).final database = database ∨
      ∃ id,
        (deleteReview request).final database =
          { database with
            reviews := database.reviews.delete fun entry =>
              entry.id = id } := by
  obtain ⟨outcome, looked⟩ := ownReview_reads request database
  rcases outcome with failure | none | review
  · exact Or.inl (by simp [deleteReview, Process.final, looked])
  · exact Or.inl (by simp [deleteReview, Process.final, looked])
  · exact Or.inr ⟨review.id, by
      simp [deleteReview, Process.final, looked, deleteReviewRow]⟩

/-! ## Tags -/

/-- The characters that `trim` strips. -/
def isTrimmed (character : Char) : Bool :=
  character ∈ [' ', '\t', '\n', '\r', '\x00', '\x0b']

def trim (text : String) : String :=
  String.ofList
    ((text.toList.dropWhile isTrimmed).reverse.dropWhile isTrimmed).reverse

/-- `trim(Request::get($name))`. -/
def trimmedInput : Input → Except Raised String
  | .missing => .ok ""
  | .text value => .ok (trim value)
  | .list _ => .error .errorException

def saveTag (tag : Tag) : Handler Nat :=
  .perform fun database =>
    (.ok database.tags.next,
      { database with tags := database.tags.insert ⟨varchar tag.name⟩ })

def saveEntityTag (row : EntityTag) : Handler Unit :=
  .perform fun database =>
    match database.entityTag.insert row with
    | some table => (.ok (), { database with entityTag := table })
    | none => (.error .queryException, database)

section NewTags

variable [Collation]

/-- `Tag::manualAdd`: the id of the tag with this name, old or new. -/
def manualAdd (name : String) : Handler Nat := do
  let found ← .query fun database =>
    database.tags.first fun entry => sameText name entry.row.name
  match found with
  | some tag => return tag.id
  | none => saveTag ⟨name⟩

def newTag (request : Request) : Handler Response := do
  let trimmed ← .ofExcept (trimmedInput (request.get "tag_name"))
  if trimmed = "" then return .text "Please fill in the tag name."
  else
    let name ← .ofExcept (request.get "tag_name").insertText
    let tag ← manualAdd name
    let user ← request.userId
    let entity ← .ofExcept (request.get "entity_id").insertText
    saveEntityTag ⟨entity, fitColumn tag, user, false⟩
    return .back

end NewTags

def applyTag (request : Request) : Handler Response := do
  let user ← request.userId
  let entity ← .ofExcept (request.get "entity_id").insertText
  let tag ← .ofExcept (request.get "tag_id").insertInt
  saveEntityTag ⟨entity, tag, user, false⟩
  return .back

def unapplyTag (request : Request) : Handler Response := do
  let user ← request.userId
  let entity ← .ofExcept (request.get "entity_id").whereValue
  let tag ← .ofExcept (request.get "tag_id").whereValue
  .execute fun database =>
    { database with
      entityTag := database.entityTag.delete fun row =>
        equalsText entity row.entityId && equalsInt tag row.tagId &&
          row.userId = user }
  return .back

/-! ## Photos -/

def hiddenPhotoStatus : Int := -10

def savePhoto (photo : Photo) : Handler Nat :=
  .perform fun database =>
    (.ok database.photos.next,
      { database with photos := database.photos.insert photo })

def setPhotoStatus (id : Nat) (status : Int) : Handler Unit :=
  .execute fun database =>
    { database with
      photos := database.photos.update id fun photo =>
        { photo with status := status } }

/-- `UploadPhoto::handle`: the row has the implicit defaults for the rest. -/
def handleUpload (request : Request) : Handler Nat := do
  let image ← .require .error request.image
  savePhoto ⟨request.uuid ++ ".jpg", image.height, image.width, "", 0, 0⟩

def uploadPhoto (request : Request) : Handler Response := do
  let _ ← handleUpload request
  let _ ← request.userId
  let _ ← .ofExcept (request.get "cafe_id").bound
  unknownColumn

def removePhoto (request : Request) : Handler Response := do
  let user ← request.userId
  let wanted ← .ofExcept (request.get "photo_id").whereValue
  let found ← .query fun database =>
    database.photos.first fun entry =>
      equalsInt wanted entry.id && entry.row.userId = user
  let photo ← .require .errorException found
  setPhotoStatus photo.id hiddenPhotoStatus
  return .back

end NomadiCore
