import NomadiCore.ForumHandlers
import NomadiCore.SocialHandlers

/-!
# What a guest can change

No route carries an authentication middleware: a handler stops a guest only
where it first reads `Auth::user()->id`.  Three handlers save a row before
that point.  The main theorem says exactly when a request of a guest leaves
the tables of the contributions as they were.
-/

namespace NomadiCore

open NomadiCore.Library.RowTable
open NomadiCore.Library.StatementProcess
open NomadiCore.Library.TextColumn

/-- The routes that record an author or act on the caller's own rows. -/
inductive AuthorRoute where
  | createPost
  | replyPost
  | updatePost
  | commentToPost
  | newTag
  | applyTag
  | unapplyTag
  | uploadPhoto
  | submitReview
  | updateReview
  | deleteReview
  | addComment
  | removeComment
  | ajaxVisit
  | ajaxCancelVisit
  | ajaxWish
  | ajaxCancelWish
  | removePhoto
  | removePost
deriving DecidableEq

section Collations

variable [Collation]

def AuthorRoute.handle : AuthorRoute → Request → Handler Response
  | .createPost => NomadiCore.createPost
  | .replyPost => NomadiCore.replyPost
  | .updatePost => NomadiCore.updatePost
  | .commentToPost => NomadiCore.commentToPost
  | .newTag => NomadiCore.newTag
  | .applyTag => NomadiCore.applyTag
  | .unapplyTag => NomadiCore.unapplyTag
  | .uploadPhoto => NomadiCore.uploadPhoto
  | .submitReview => NomadiCore.submitReview
  | .updateReview => NomadiCore.updateReview
  | .deleteReview => NomadiCore.deleteReview
  | .addComment => NomadiCore.addComment
  | .removeComment => NomadiCore.removeComment
  | .ajaxVisit => NomadiCore.ajaxVisit
  | .ajaxCancelVisit => NomadiCore.ajaxCancelVisit
  | .ajaxWish => NomadiCore.ajaxWish
  | .ajaxCancelWish => NomadiCore.ajaxCancelWish
  | .removePhoto => NomadiCore.removePhoto
  | .removePost => NomadiCore.removePost

/-- The tables of the contributions are the same in both states. -/
structure SameContributions (before after : Database) : Prop where
  discussions : after.discussions = before.discussions
  posts : after.posts = before.posts
  postComments : after.postComments = before.postComments
  tags : after.tags = before.tags
  entityTag : after.entityTag = before.entityTag
  photos : after.photos = before.photos
  reviews : after.reviews = before.reviews
  comments : after.comments = before.comments
  recommendations : after.recommendations = before.recommendations
  wishes : after.wishes = before.wishes

omit [Collation] in
theorem SameContributions.refl (database : Database) :
    SameContributions database database :=
  ⟨rfl, rfl, rfl, rfl, rfl, rfl, rfl, rfl, rfl, rfl⟩

/--
The requests with which a handler saves a row before it asks for the user: a
thread with a title, a tag that is not blank and not known yet under a name
that the server takes for the same, and a photo that can be read.
-/
def WritesBeforeLogin
    (database : Database) (route : AuthorRoute) (request : Request) : Prop :=
  match route with
  | .createPost => (request.get "title").IsText
  | .newTag =>
      ∃ name, request.get "tag_name" = .text name ∧ trim name ≠ "" ∧
        ∀ tag ∈ database.tags.entries,
          sameText name tag.row.name = false
  | .uploadPhoto => request.image.isSome
  | _ => False

/-! ## The three handlers that write first -/

omit [Collation] in
theorem createPost_guest
    {request : Request} (guest : request.user = none)
    (database : Database) :
    SameContributions database ((createPost request).final database) ↔
      ¬ (request.get "title").IsText := by
  cases title : request.get "title" with
  | missing =>
      have left : (createPost request).final database = database := by
        simp [createPost, Process.final, title, Input.insertText,
          Input.bound, Except.bind]
      simp [left, SameContributions.refl, Input.IsText]
  | list items =>
      have left : (createPost request).final database = database := by
        simp [createPost, Process.final, title, Input.insertText,
          Input.bound, Except.bind]
      simp [left, SameContributions.refl, Input.IsText]
  | text value =>
      have left :
          (createPost request).final database =
            { database with
              discussions := database.discussions.insert ⟨value⟩ } := by
        simp [createPost, Process.final, title, Input.insertText,
          Input.bound, Except.bind, saveDiscussion, guest]
      rw [left]
      constructor
      · intro same
        exact absurd same.discussions (Table.insert_ne _ _)
      · intro noText
        exact absurd trivial noText

theorem newTag_guest
    {request : Request} (guest : request.user = none)
    (database : Database) :
    SameContributions database ((newTag request).final database) ↔
      ¬ ∃ name, request.get "tag_name" = .text name ∧ trim name ≠ "" ∧
        ∀ tag ∈ database.tags.entries,
          sameText name tag.row.name = false := by
  cases posted : request.get "tag_name" with
  | missing =>
      have left : (newTag request).final database = database := by
        simp [newTag, Process.final, posted, trimmedInput]
      simp [left, SameContributions.refl]
  | list items =>
      have left : (newTag request).final database = database := by
        simp [newTag, Process.final, posted, trimmedInput]
      simp [left, SameContributions.refl]
  | text name =>
      by_cases blank : trim name = ""
      · have left : (newTag request).final database = database := by
          simp [newTag, Process.final, posted, trimmedInput, blank]
        simp [left, SameContributions.refl, blank]
      · cases known :
            database.tags.first
              (fun entry => sameText name entry.row.name) with
        | some tag =>
            have left : (newTag request).final database = database := by
              simp [newTag, Process.final, posted, trimmedInput, blank,
                Input.insertText, Input.bound, Except.bind, manualAdd,
                known, guest]
            obtain ⟨member, named⟩ := Table.first_eq_some known
            rw [left]
            refine ⟨?_, fun _ => SameContributions.refl database⟩
            rintro - ⟨other, equal, -, unknown⟩
            cases equal
            rw [unknown tag member] at named
            cases named
        | none =>
            have left :
                (newTag request).final database =
                  { database with
                    tags := database.tags.insert ⟨varchar name⟩ } := by
              simp [newTag, Process.final, posted, trimmedInput, blank,
                Input.insertText, Input.bound, Except.bind, manualAdd,
                known, saveTag, guest]
            rw [left]
            constructor
            · intro same
              exact absurd same.tags (Table.insert_ne _ _)
            · intro refused
              refine absurd ⟨name, rfl, blank, ?_⟩ refused
              intro tag member
              simpa using Table.first_eq_none.mp known tag member

omit [Collation] in
theorem uploadPhoto_guest
    {request : Request} (guest : request.user = none)
    (database : Database) :
    SameContributions database ((uploadPhoto request).final database) ↔
      ¬ request.image.isSome := by
  cases image : request.image with
  | none =>
      have left : (uploadPhoto request).final database = database := by
        simp [uploadPhoto, handleUpload, Process.final, image]
      simp [left, SameContributions.refl]
  | some size =>
      have left :
          (uploadPhoto request).final database =
            { database with
              photos := database.photos.insert
                ⟨request.uuid ++ ".jpg", size.height, size.width,
                  "", 0, 0⟩ } := by
        simp [uploadPhoto, handleUpload, Process.final, image, savePhoto,
          guest]
      rw [left]
      constructor
      · intro same
        exact absurd same.photos (Table.insert_ne _ _)
      · intro noImage
        exact absurd rfl noImage

/-! ## The handlers that ask first -/

omit [Collation] in
theorem submitReview_guest
    {request : Request} (guest : request.user = none)
    (database : Database) :
    (submitReview request).final database = database := by
  cases posted : request.get "entity_id" with
  | missing => simp [submitReview, findEntity, Process.final, posted]
  | list items => simp [submitReview, findEntity, Process.final, posted]
  | text id =>
      cases found : database.entities.find id with
      | none =>
          simp [submitReview, findEntity, Process.final, posted, found]
      | some entity =>
          simp [submitReview, findEntity, Process.final, posted, found,
            lookupReview, guest]

/-- Every other handler stops a guest before its first statement that writes. -/
theorem asksFirst_guest
    {route : AuthorRoute} {request : Request}
    (guest : request.user = none)
    (notCreate : route ≠ .createPost)
    (notTag : route ≠ .newTag)
    (notUpload : route ≠ .uploadPhoto)
    (database : Database) :
    (route.handle request).final database = database := by
  cases route with
  | createPost => exact absurd rfl notCreate
  | newTag => exact absurd rfl notTag
  | uploadPhoto => exact absurd rfl notUpload
  | submitReview => exact submitReview_guest guest database
  | replyPost =>
      simp [AuthorRoute.handle, replyPost, Process.final, guest]
  | updatePost =>
      simp [AuthorRoute.handle, updatePost, ownPost, Process.final, guest]
  | commentToPost =>
      simp [AuthorRoute.handle, commentToPost, Process.final, guest]
  | applyTag =>
      simp [AuthorRoute.handle, applyTag, Process.final, guest]
  | unapplyTag =>
      simp [AuthorRoute.handle, unapplyTag, Process.final, guest]
  | updateReview =>
      simp [AuthorRoute.handle, updateReview, ownReview, Process.final,
        guest]
  | deleteReview =>
      simp [AuthorRoute.handle, deleteReview, ownReview, Process.final,
        guest]
  | addComment =>
      simp [AuthorRoute.handle, addComment, Process.final, guest]
  | removeComment =>
      simp [AuthorRoute.handle, removeComment, Process.final, guest]
  | ajaxVisit =>
      simp [AuthorRoute.handle, ajaxVisit, ownRecommendation,
        Process.final, guest]
  | ajaxCancelVisit =>
      simp [AuthorRoute.handle, ajaxCancelVisit, ownRecommendation,
        Process.final, guest]
  | ajaxWish =>
      simp [AuthorRoute.handle, ajaxWish, ownWish, Process.final, guest]
  | ajaxCancelWish =>
      simp [AuthorRoute.handle, ajaxCancelWish, ownWish, Process.final,
        guest]
  | removePhoto =>
      simp [AuthorRoute.handle, removePhoto, Process.final, guest]
  | removePost =>
      simp [AuthorRoute.handle, removePost, ownPost, Process.final, guest]

/-! ## The exact guarantee -/

/--
A request of a guest leaves the contributions as they were exactly when it is
not one of the three that write before they ask for the user.
-/
theorem guest_changes_nothing_iff
    (database : Database) (route : AuthorRoute) (request : Request)
    (guest : request.user = none) :
    SameContributions database
        ((route.handle request).final database) ↔
      ¬ WritesBeforeLogin database route request := by
  by_cases isCreate : route = .createPost
  · subst route
    exact createPost_guest guest database
  by_cases isTag : route = .newTag
  · subst route
    exact newTag_guest guest database
  by_cases isUpload : route = .uploadPhoto
  · subst route
    exact uploadPhoto_guest guest database
  rw [asksFirst_guest guest isCreate isTag isUpload]
  refine ⟨fun _ writes => ?_, fun _ => SameContributions.refl database⟩
  cases route <;> first | exact writes | contradiction

end Collations

/-- A guest names a tag that is stored in small letters. -/
def guestLoudTag : Request where
  user := none
  parameters := [("tag_name", .text "CRISPY"), ("entity_id", .text "e")]

def crispySite : Database :=
  { Database.empty with tags := Table.empty.insert ⟨"crispy"⟩ }

theorem guest_known_tag_changes_nothing :
    SameContributions crispySite
      ((@AuthorRoute.handle caseBlind .newTag guestLoudTag).final
        crispySite) := by
  refine (@guest_changes_nothing_iff caseBlind crispySite .newTag
    guestLoudTag rfl).mpr ?_
  rintro ⟨name, posted, -, unknown⟩
  have isName : "CRISPY" = name := by
    simpa [guestLoudTag, Request.get] using posted
  subst isName
  have different := unknown ⟨1, ⟨"crispy"⟩⟩ (List.mem_singleton_self _)
  revert different
  decide

/-- A guest names a new tag. -/
def guestTag : Request where
  user := none
  parameters := [("tag_name", .text "crispy"), ("entity_id", .text "e")]

/-- The tag stays although the request fails. -/
theorem guest_tag_stays :
    guestTag.user = none ∧
      ((@AuthorRoute.handle caseBlind .newTag guestTag).final
        .empty).tags ≠ Database.empty.tags ∧
      ¬ SameContributions Database.empty
        ((@AuthorRoute.handle caseBlind .newTag guestTag).final
          .empty) := by
  have changed :
      ((@AuthorRoute.handle caseBlind .newTag guestTag).final
        .empty).tags ≠ Database.empty.tags := by
    decide
  exact ⟨rfl, changed, fun same => changed same.tags⟩

end NomadiCore
