import NomadiCore.ForumThreads
import NomadiCore.SocialHandlers

/-!
# Users alter their own rows

Nine routes change or remove a row that the caller names.  Each of them looks
the row up together with the caller's id, so the rows of the other users stay
as they are, except for the replies in a thread that its author removes.
-/

namespace NomadiCore

open NomadiCore.Library.DecimalNumeral
open NomadiCore.Library.RowTable
open NomadiCore.Library.StatementProcess
open NomadiCore.Library.TextColumn

/-- The routes that act on a row of the caller. -/
inductive OwnRoute where
  | removePhoto
  | removePost
  | updatePost
  | removeComment
  | updateReview
  | deleteReview
  | unapplyTag
  | ajaxCancelVisit
  | ajaxCancelWish
deriving DecidableEq

def OwnRoute.handle [Collation] : OwnRoute → Request → Handler Response
  | .removePhoto => NomadiCore.removePhoto
  | .removePost => NomadiCore.removePost
  | .updatePost => NomadiCore.updatePost
  | .removeComment => NomadiCore.removeComment
  | .updateReview => NomadiCore.updateReview
  | .deleteReview => NomadiCore.deleteReview
  | .unapplyTag => NomadiCore.unapplyTag
  | .ajaxCancelVisit => NomadiCore.ajaxCancelVisit
  | .ajaxCancelWish => NomadiCore.ajaxCancelWish

/-! ## The rows a request names -/

/-- The posted parameter is this number, as the server compares them. -/
def NamesInt (request : Request) (parameter : String) (value : Int) :
    Bool :=
  match (request.get parameter).whereValue with
  | .ok wanted => equalsInt wanted value
  | .error _ => false

/-- The posted parameter is this text. -/
def NamesText (request : Request) (parameter value : String) : Bool :=
  match (request.get parameter).whereValue with
  | .ok wanted => equalsText wanted value
  | .error _ => false

/-- The server takes the posted parameter for this text. -/
def NamesSame [Collation] (request : Request)
    (parameter value : String) : Bool :=
  match (request.get parameter).whereValue with
  | .ok wanted => collatesText wanted value
  | .error _ => false

/-- The owners of the rows that a request names, whoever sends it. -/
def namedOwners [Collation] (database : Database) (request : Request) :
    OwnRoute → List Nat
  | .removePhoto =>
      (database.photos.select fun entry =>
        NamesInt request "photo_id" entry.id).map fun entry =>
          entry.row.userId
  | .removePost | .updatePost =>
      (database.posts.select fun entry =>
        NamesInt request "post_id" entry.id).map fun entry =>
          entry.row.userId
  | .removeComment =>
      (database.comments.select fun entry =>
        NamesInt request "comment_id" entry.id).map fun entry =>
          entry.row.userId
  | .updateReview | .deleteReview =>
      (database.reviews.select fun entry =>
        NamesInt request "review_id" entry.id).map fun entry =>
          entry.row.userId
  | .unapplyTag =>
      (database.entityTag.select fun row =>
        NamesText request "entity_id" row.entityId &&
          NamesInt request "tag_id" row.tagId).map EntityTag.userId
  | .ajaxCancelVisit =>
      (database.recommendations.select fun entry =>
        NamesSame request "entity_id" entry.row.entityId).map fun entry =>
          entry.row.userId
  | .ajaxCancelWish =>
      (database.wishes.select fun entry =>
        NamesText request "cafe_id" entry.row.entityId).map fun entry =>
          entry.row.userId

/-- The routes whose requests name a single row by its id. -/
def OwnRoute.byId : OwnRoute → Bool
  | .unapplyTag | .ajaxCancelVisit | .ajaxCancelWish => false
  | _ => true

/-! ## The rows of the others -/

/-- The rows of a table that do not belong to a user. -/
def foreignRows {Row : Type} (owner : Row → Nat) (user : Nat)
    (table : Table Row) : List (Entry Row) :=
  table.select fun entry => owner entry.row ≠ user

/-- The rows of the others are the same, in every table but `posts`. -/
structure KeepsForeign (user : Nat) (before after : Database) : Prop where
  photos :
    foreignRows Photo.userId user after.photos =
      foreignRows Photo.userId user before.photos
  comments :
    foreignRows Comment.userId user after.comments =
      foreignRows Comment.userId user before.comments
  reviews :
    foreignRows Review.userId user after.reviews =
      foreignRows Review.userId user before.reviews
  entityTag :
    (after.entityTag.select fun row => row.userId ≠ user) =
      before.entityTag.select fun row => row.userId ≠ user
  recommendations :
    foreignRows Recommendation.userId user after.recommendations =
      foreignRows Recommendation.userId user before.recommendations
  wishes :
    foreignRows Wish.userId user after.wishes =
      foreignRows Wish.userId user before.wishes

/-- The posts of the others are the same. -/
def KeepsPosts (user : Nat) (before after : Database) : Prop :=
  foreignRows Post.userId user after.posts =
    foreignRows Post.userId user before.posts

/--
The caller removes a thread: the request names a post of the caller that is
the first of its discussion, and the posts of that discussion are deleted.
-/
def RemovesThread (user : Nat) (request : Request)
    (before after : Database) : Prop :=
  ∃ post ∈ before.posts.entries,
    NamesInt request "post_id" post.id ∧ post.row.userId = user ∧
      (∀ other ∈ before.posts.entries,
        other.row.discussionId = post.row.discussionId →
          post.id ≤ other.id) ∧
      after.posts.entries =
        before.posts.entries.filter fun other =>
          other.row.discussionId ≠ post.row.discussionId

theorem KeepsForeign.refl (user : Nat) (database : Database) :
    KeepsForeign user database database :=
  ⟨rfl, rfl, rfl, rfl, rfl, rfl⟩

theorem foreignRows_update
    {Row : Type} {owner : Row → Nat} {user : Nat} {table : Table Row}
    {entry : Entry Row} {change : Row → Row}
    (stored : entry ∈ table.entries) (own : owner entry.row = user)
    (kept : ∀ row, owner (change row) = owner row) :
    foreignRows owner user (table.update entry.id change) =
      foreignRows owner user table := by
  apply Table.select_update_of_disjoint
  · intro other member same
    have equal := Table.eq_of_id_eq member stored same
    simp [equal, own]
  · intro other member same
    have equal := Table.eq_of_id_eq member stored same
    simp [equal, own, kept]

theorem foreignRows_delete
    {Row : Type} {owner : Row → Nat} {user : Nat} {table : Table Row}
    {entry : Entry Row}
    (stored : entry ∈ table.entries) (own : owner entry.row = user) :
    foreignRows owner user
        (table.delete fun other => other.id = entry.id) =
      foreignRows owner user table := by
  apply Table.select_delete_of_disjoint
  intro other member same
  have equal := Table.eq_of_id_eq member stored (by simpa using same)
  simp [equal, own]

/-! ## The own row of a request -/

/-- A row found by the caller's id and a posted id. -/
structure IsOwn {Row : Type} (owner : Row → Nat) (user : Nat)
    (request : Request) (parameter : String) (table : Table Row)
    (entry : Entry Row) : Prop where
  stored : entry ∈ table.entries
  named : NamesInt request parameter entry.id = true
  own : owner entry.row = user

theorem IsOwn.mem_owners
    {Row : Type} {owner : Row → Nat} {user : Nat} {request : Request}
    {parameter : String} {table : Table Row} {entry : Entry Row}
    (isOwn : IsOwn owner user request parameter table entry) :
    user ∈ (table.select fun entry =>
      NamesInt request parameter entry.id).map fun entry =>
        owner entry.row := by
  rw [List.mem_map]
  exact ⟨entry, Table.mem_select.mpr ⟨isOwn.stored, isOwn.named⟩,
    isOwn.own⟩

/-- The lookup of an own row, as all the handlers write it. -/
theorem isOwn_of_first
    {Row : Type} {owner : Row → Nat} {user : Nat} {request : Request}
    {parameter : String} {table : Table Row} {entry : Entry Row}
    {wanted : Option String}
    (value : (request.get parameter).whereValue = .ok wanted)
    (found :
      (table.first fun entry =>
        equalsInt wanted entry.id && owner entry.row = user) =
          some entry) :
    IsOwn owner user request parameter table entry := by
  obtain ⟨stored, both⟩ := Table.first_eq_some found
  simp only [Bool.and_eq_true, decide_eq_true_eq] at both
  exact ⟨stored, by simp [NamesInt, value, both.1], both.2⟩

/-! ## What the routes leave -/

/-- Deleting the rows of a thread one by one deletes the thread. -/
theorem delete_postsOf (database : Database) (discussion : Nat) :
    (database.posts.delete fun entry =>
        entry.id ∈ (postsOf database discussion).map Entry.id) =
      database.posts.delete fun entry =>
        entry.row.discussionId = discussion := by
  have same : ∀ entry ∈ database.posts.entries,
      decide (entry.id ∈ (postsOf database discussion).map Entry.id) =
        decide (entry.row.discussionId = discussion) := by
    intro entry member
    rw [decide_eq_decide, List.mem_map]
    constructor
    · rintro ⟨other, listed, sameId⟩
      obtain ⟨stored, inThread⟩ := Table.mem_select.mp listed
      have equal := Table.eq_of_id_eq stored member sameId
      simpa [equal] using inThread
    · intro inThread
      exact ⟨entry, Table.mem_select.mpr ⟨member, by simpa using inThread⟩,
        rfl⟩
  simp only [Table.delete, Table.mk.injEq, and_true]
  apply List.filter_congr
  intro entry member
  rw [same entry member]

/-- The first of the selected rows has the lowest id. -/
theorem opening_le
    {database : Database} {discussion : Nat} {opening other : Entry Post}
    (first : (postsOf database discussion).head? = some opening)
    (member : other ∈ database.posts.entries)
    (inThread : other.row.discussionId = discussion) :
    opening.id ≤ other.id := by
  have listed : other ∈ postsOf database discussion :=
    Table.mem_select.mpr ⟨member, by simpa using inThread⟩
  have ordered :
      (postsOf database discussion).Pairwise
        fun left right => left.id < right.id :=
    database.posts.ordered.filter _
  cases thread : postsOf database discussion with
  | nil => simp [thread] at first
  | cons head rest =>
      rw [thread] at first listed ordered
      cases first
      rcases List.mem_cons.mp listed with equal | later
      · rw [equal]
      · exact Nat.le_of_lt (List.rel_of_pairwise_cons ordered later)

section Routes

variable {request : Request} {user : Nat}
  (login : request.user = some user) (database : Database)

include login

theorem removePhoto_cases :
    (removePhoto request).final database = database ∨
      ∃ photo, IsOwn Photo.userId user request "photo_id" database.photos
          photo ∧
        (removePhoto request).final database =
          { database with
            photos := database.photos.update photo.id fun row =>
              { row with status := hiddenPhotoStatus } } := by
  cases value : (request.get "photo_id").whereValue with
  | error failure =>
      exact Or.inl (by simp [removePhoto, Process.final, login, value])
  | ok wanted =>
      cases found : database.photos.first (fun entry =>
          equalsInt wanted entry.id && entry.row.userId = user) with
      | none =>
          exact Or.inl (by
            simp [removePhoto, Process.final, login, value, found])
      | some photo =>
          exact Or.inr ⟨photo, isOwn_of_first value found, by
            simp [removePhoto, Process.final, login, value, found,
              setPhotoStatus]⟩

theorem removeComment_cases :
    (removeComment request).final database = database ∨
      ∃ comment, IsOwn Comment.userId user request "comment_id"
          database.comments comment ∧
        (removeComment request).final database =
          { database with
            comments := database.comments.delete fun entry =>
              entry.id = comment.id } := by
  cases value : (request.get "comment_id").whereValue with
  | error failure =>
      exact Or.inl (by simp [removeComment, Process.final, login, value])
  | ok wanted =>
      cases found : database.comments.first (fun entry =>
          equalsInt wanted entry.id && entry.row.userId = user) with
      | none =>
          exact Or.inl (by
            simp [removeComment, Process.final, login, value, found])
      | some comment =>
          exact Or.inr ⟨comment, isOwn_of_first value found, by
            simp [removeComment, Process.final, login, value, found,
              deleteComment]⟩

/-- The own review of a request is looked up without a write. -/
theorem ownReview_cases :
    ∃ outcome, (ownReview request).run database = (outcome, database) ∧
      ∀ review, outcome = .ok (some review) →
        IsOwn Review.userId user request "review_id" database.reviews
          review := by
  cases value : (request.get "review_id").whereValue with
  | error failure =>
      exact ⟨.error failure, by simp [ownReview, login, value], by simp⟩
  | ok wanted =>
      refine ⟨_, by simp [ownReview, login, value]; rfl, ?_⟩
      intro review found
      exact isOwn_of_first value (Except.ok.inj found)

theorem ownPost_cases :
    ∃ outcome, (ownPost request).run database = (outcome, database) ∧
      ∀ post, outcome = .ok (some post) →
        IsOwn Post.userId user request "post_id" database.posts post := by
  cases value : (request.get "post_id").whereValue with
  | error failure =>
      exact ⟨.error failure, by simp [ownPost, login, value], by simp⟩
  | ok wanted =>
      refine ⟨_, by simp [ownPost, login, value]; rfl, ?_⟩
      intro post found
      exact isOwn_of_first value (Except.ok.inj found)

theorem updateReview_own :
    (updateReview request).final database = database ∨
      ∃ review, IsOwn Review.userId user request "review_id"
          database.reviews review ∧
        (updateReview request).final database =
          { database with
            reviews := database.reviews.update review.id fun row =>
              { row with
                reviewFields := some (postedRatings request) } } := by
  obtain ⟨outcome, looked, isOwn⟩ := ownReview_cases login database
  rcases outcome with failure | none | review
  · exact Or.inl (by simp [updateReview, Process.final, looked])
  · exact Or.inl (by simp [updateReview, Process.final, looked])
  · cases rated : checkHasError request with
    | true =>
        exact Or.inl (by simp [updateReview, Process.final, looked, rated])
    | false =>
        exact Or.inr ⟨review, isOwn review rfl, by
          simp [updateReview, Process.final, looked, rated,
            setReviewFields]⟩

theorem deleteReview_own :
    (deleteReview request).final database = database ∨
      ∃ review, IsOwn Review.userId user request "review_id"
          database.reviews review ∧
        (deleteReview request).final database =
          { database with
            reviews := database.reviews.delete fun entry =>
              entry.id = review.id } := by
  obtain ⟨outcome, looked, isOwn⟩ := ownReview_cases login database
  rcases outcome with failure | none | review
  · exact Or.inl (by simp [deleteReview, Process.final, looked])
  · exact Or.inl (by simp [deleteReview, Process.final, looked])
  · exact Or.inr ⟨review, isOwn review rfl, by
      simp [deleteReview, Process.final, looked, deleteReviewRow]⟩

theorem updatePost_own :
    (updatePost request).final database = database ∨
      ∃ post content, IsOwn Post.userId user request "post_id"
          database.posts post ∧
        (updatePost request).final database =
          { database with
            posts := database.posts.update post.id fun row =>
              { row with content := content } } := by
  obtain ⟨outcome, looked, isOwn⟩ := ownPost_cases login database
  rcases outcome with failure | none | post
  · exact Or.inl (by simp [updatePost, Process.final, looked])
  · exact Or.inl (by simp [updatePost, Process.final, looked])
  · cases content : (request.get "content").updateText with
    | error failure =>
        exact Or.inl (by simp [updatePost, Process.final, looked, content])
    | ok text =>
        exact Or.inr ⟨post, text, isOwn post rfl, by
          simp [updatePost, Process.final, looked, content,
            setPostContent]⟩

/--
`/remove-post` deletes an own post that is not the first of its discussion, or
the discussion with all its posts.
-/
theorem removePost_own :
    (removePost request).final database = database ∨
      ∃ post, IsOwn Post.userId user request "post_id" database.posts
          post ∧
        ((removePost request).final database =
            { database with
              posts := database.posts.delete fun entry =>
                entry.id = post.id } ∨
          ∃ discussion : Nat,
            post.row.discussionId = discussion ∧
              (∀ other ∈ database.posts.entries,
                other.row.discussionId = discussion →
                  post.id ≤ other.id) ∧
              (removePost request).final database =
                { database with
                  posts := database.posts.delete fun entry =>
                    entry.row.discussionId = discussion
                  discussions := database.discussions.delete fun entry =>
                    entry.id = discussion }) := by
  obtain ⟨outcome, looked, isOwn⟩ := ownPost_cases login database
  rcases outcome with failure | none | post
  · exact Or.inl (by simp [removePost, Process.final, looked])
  · exact Or.inl (by simp [removePost, Process.final, looked])
  · cases parent : database.discussions.first
        (fun entry => (entry.id : Int) = post.row.discussionId) with
    | none =>
        exact Or.inl (by simp [removePost, Process.final, looked, parent])
    | some discussion =>
        have parentId : (discussion.id : Int) = post.row.discussionId := by
          simpa using (Table.first_eq_some parent).2
        cases opening : (postsOf database discussion.id).head? with
        | none =>
            exact Or.inl (by
              simp [removePost, Process.final, looked, parent, opening])
        | some first =>
            refine Or.inr ⟨post, isOwn post rfl, ?_⟩
            by_cases same : first.id = post.id
            · refine Or.inr ⟨discussion.id, parentId.symm, ?_, ?_⟩
              · intro other member inThread
                rw [← same]
                exact opening_le opening member inThread
              · rw [← delete_postsOf]
                simp [removePost, Process.final, looked, parent, opening,
                  same, deletePosts_run, deleteDiscussion]
            · refine Or.inl ?_
              simp [removePost, Process.final, looked, parent, opening,
                same, deletePost]

omit login in
/-- A tag that the user has not applied is not removed. -/
theorem delete_unapplied [Collation]
    (unapplied : user ∉ namedOwners database request .unapplyTag) :
    (database.entityTag.delete fun row =>
        NamesText request "entity_id" row.entityId &&
          NamesInt request "tag_id" row.tagId && row.userId = user) =
      database.entityTag := by
  apply Keyed.delete_of_none
  intro row member
  by_contra matched
  simp only [Bool.not_eq_false, Bool.and_eq_true,
    decide_eq_true_eq] at matched
  apply unapplied
  rw [namedOwners, List.mem_map]
  refine ⟨row, List.mem_filter.mpr ⟨member, ?_⟩, matched.2⟩
  simp [matched.1.1, matched.1.2]

theorem unapplyTag_own [Collation] :
    (unapplyTag request).final database = database ∨
      (user ∈ namedOwners database request .unapplyTag ∧
        (unapplyTag request).final database =
          { database with
            entityTag := database.entityTag.delete fun row =>
              NamesText request "entity_id" row.entityId &&
                NamesInt request "tag_id" row.tagId &&
                  row.userId = user }) := by
  cases entity : (request.get "entity_id").whereValue with
  | error failure =>
      exact Or.inl (by simp [unapplyTag, Process.final, login, entity])
  | ok wantedEntity =>
      cases tag : (request.get "tag_id").whereValue with
      | error failure =>
          exact Or.inl (by
            simp [unapplyTag, Process.final, login, entity, tag])
      | ok wantedTag =>
          have left : (unapplyTag request).final database =
              { database with
                entityTag := database.entityTag.delete fun row =>
                  NamesText request "entity_id" row.entityId &&
                    NamesInt request "tag_id" row.tagId &&
                      row.userId = user } := by
            simp [unapplyTag, Process.final, login, entity, tag, NamesText,
              NamesInt]
          by_cases applied : user ∈ namedOwners database request .unapplyTag
          · exact Or.inr ⟨applied, left⟩
          · rw [left, delete_unapplied database applied]
            exact Or.inl rfl

theorem ajaxCancelVisit_own [Collation] :
    (ajaxCancelVisit request).final database = database ∨
      ∃ entry ∈ database.recommendations.entries,
        NamesSame request "entity_id" entry.row.entityId = true ∧
          entry.row.userId = user ∧
          (ajaxCancelVisit request).final database =
            { database with
              recommendations := database.recommendations.delete
                fun other => other.id = entry.id } := by
  cases value : (request.get "entity_id").whereValue with
  | error failure =>
      exact Or.inl (by
        simp [ajaxCancelVisit, ownRecommendation, Process.final, login,
          value])
  | ok wanted =>
      cases found : database.recommendations.first (fun entry =>
          collatesText wanted entry.row.entityId &&
            entry.row.userId = user) with
      | none =>
          exact Or.inl (by
            simp [ajaxCancelVisit, ownRecommendation, Process.final, login,
              value, found])
      | some entry =>
          obtain ⟨stored, both⟩ := Table.first_eq_some found
          simp only [Bool.and_eq_true, decide_eq_true_eq] at both
          exact Or.inr ⟨entry, stored, by simp [NamesSame, value, both.1],
            both.2, by
              simp [ajaxCancelVisit, ownRecommendation, Process.final,
                login, value, found, deleteRecommendation]⟩

theorem ajaxCancelWish_own :
    (ajaxCancelWish request).final database = database := by
  cases value : (request.get "cafe_id").whereValue with
  | error failure =>
      simp [ajaxCancelWish, ownWish, Process.final, login, value]
  | ok wanted =>
      simp [ajaxCancelWish, ownWish, unknownColumn, Process.final, login,
        value]

end Routes

/-! ## Own rows only -/

/-- A request changes nothing, or the rows of its sender. -/
theorem ownRoute_cases [Collation]
    (database : Database) (route : OwnRoute) {request : Request}
    {user : Nat} (login : request.user = some user) :
    (route.handle request).final database = database ∨
      (user ∈ namedOwners database request route ∧
        KeepsForeign user database
          ((route.handle request).final database) ∧
        (KeepsPosts user database
            ((route.handle request).final database) ∨
          (route = .removePost ∧
            RemovesThread user request database
              ((route.handle request).final database)))) := by
  cases route with
  | removePhoto =>
      rcases removePhoto_cases login database with same | ⟨photo, own, left⟩
      · exact Or.inl same
      · refine Or.inr ⟨own.mem_owners, ?_, ?_⟩
        · simp only [OwnRoute.handle, left]
          exact { KeepsForeign.refl user database with
            photos := foreignRows_update own.stored own.own fun _ => rfl }
        · simp only [OwnRoute.handle, left]
          exact Or.inl rfl
  | removePost =>
      rcases removePost_own login database with same | ⟨post, own, left⟩
      · exact Or.inl same
      · refine Or.inr ⟨own.mem_owners, ?_⟩
        rcases left with left | ⟨discussion, inThread, first, left⟩
        · simp only [OwnRoute.handle, left]
          exact ⟨{ KeepsForeign.refl user database with },
            Or.inl (foreignRows_delete own.stored own.own)⟩
        · simp only [OwnRoute.handle, left]
          refine ⟨{ KeepsForeign.refl user database with },
            Or.inr ⟨trivial, post, own.stored, own.named, own.own, ?_, ?_⟩⟩
          · intro other member same
            exact first other member (same.trans inThread)
          · simp [Table.delete, inThread]
  | updatePost =>
      rcases updatePost_own login database with
        same | ⟨post, content, own, left⟩
      · exact Or.inl same
      · refine Or.inr ⟨own.mem_owners, ?_⟩
        simp only [OwnRoute.handle, left]
        exact ⟨{ KeepsForeign.refl user database with },
          Or.inl (foreignRows_update own.stored own.own fun _ => rfl)⟩
  | removeComment =>
      rcases removeComment_cases login database with
        same | ⟨comment, own, left⟩
      · exact Or.inl same
      · refine Or.inr ⟨own.mem_owners, ?_⟩
        simp only [OwnRoute.handle, left]
        exact ⟨{ KeepsForeign.refl user database with
          comments := foreignRows_delete own.stored own.own }, Or.inl rfl⟩
  | updateReview =>
      rcases updateReview_own login database with
        same | ⟨review, own, left⟩
      · exact Or.inl same
      · refine Or.inr ⟨own.mem_owners, ?_⟩
        simp only [OwnRoute.handle, left]
        exact ⟨{ KeepsForeign.refl user database with
          reviews := foreignRows_update own.stored own.own fun _ => rfl },
          Or.inl rfl⟩
  | deleteReview =>
      rcases deleteReview_own login database with
        same | ⟨review, own, left⟩
      · exact Or.inl same
      · refine Or.inr ⟨own.mem_owners, ?_⟩
        simp only [OwnRoute.handle, left]
        exact ⟨{ KeepsForeign.refl user database with
          reviews := foreignRows_delete own.stored own.own }, Or.inl rfl⟩
  | unapplyTag =>
      rcases unapplyTag_own login database with same | ⟨applied, left⟩
      · exact Or.inl same
      · refine Or.inr ⟨applied, ?_⟩
        simp only [OwnRoute.handle, left]
        refine ⟨{ KeepsForeign.refl user database with
          entityTag := ?_ }, Or.inl rfl⟩
        apply Keyed.select_delete_of_disjoint
        intro row _ deleted
        simp only [Bool.and_eq_true, decide_eq_true_eq] at deleted
        simp [deleted.2]
  | ajaxCancelVisit =>
      rcases ajaxCancelVisit_own login database with
        same | ⟨entry, stored, named, own, left⟩
      · exact Or.inl same
      · refine Or.inr ⟨?_, ?_⟩
        · rw [namedOwners, List.mem_map]
          exact ⟨entry, Table.mem_select.mpr ⟨stored, named⟩, own⟩
        · simp only [OwnRoute.handle, left]
          exact ⟨{ KeepsForeign.refl user database with
            recommendations := foreignRows_delete stored own }, Or.inl rfl⟩
  | ajaxCancelWish => exact Or.inl (ajaxCancelWish_own login database)

/-- At most one row has the posted id. -/
theorem named_unique
    {Row : Type} {table : Table Row} {request : Request}
    {parameter : String} {left right : Entry Row}
    (leftMember : left ∈ table.select fun entry =>
      NamesInt request parameter entry.id)
    (rightMember : right ∈ table.select fun entry =>
      NamesInt request parameter entry.id) :
    left = right := by
  obtain ⟨leftStored, leftNamed⟩ := Table.mem_select.mp leftMember
  obtain ⟨rightStored, rightNamed⟩ := Table.mem_select.mp rightMember
  apply Table.eq_of_id_eq leftStored rightStored
  unfold NamesInt at leftNamed rightNamed
  cases value : (request.get parameter).whereValue with
  | error failure => simp [value] at leftNamed
  | ok wanted =>
      cases wanted with
      | none => simp [value, equalsInt] at leftNamed
      | some text =>
          have leftEqual :
              compared text = ((left.id : Int) : ℚ) := by
            simpa [value, equalsInt] using leftNamed
          have rightEqual :
              compared text = ((right.id : Int) : ℚ) := by
            simpa [value, equalsInt] using rightNamed
          exact_mod_cast leftEqual.symm.trans rightEqual

/-- A row named by its id has one owner. -/
theorem namedOwners_unique [Collation]
    {database : Database} {request : Request} {route : OwnRoute}
    (byId : route.byId = true) {left right : Nat}
    (leftMember : left ∈ namedOwners database request route)
    (rightMember : right ∈ namedOwners database request route) :
    left = right := by
  have general :
      ∀ {Row : Type} {owner : Row → Nat} {table : Table Row}
        {parameter : String} {left right : Nat},
        left ∈ (table.select fun entry =>
            NamesInt request parameter entry.id).map
              (fun entry => owner entry.row) →
        right ∈ (table.select fun entry =>
            NamesInt request parameter entry.id).map
              (fun entry => owner entry.row) →
        left = right := by
    intro Row owner table parameter left right leftListed rightListed
    obtain ⟨leftEntry, leftNamed, rfl⟩ := List.mem_map.mp leftListed
    obtain ⟨rightEntry, rightNamed, rfl⟩ := List.mem_map.mp rightListed
    rw [named_unique leftNamed rightNamed]
  cases route with
  | removePhoto => exact general leftMember rightMember
  | removePost => exact general leftMember rightMember
  | updatePost => exact general leftMember rightMember
  | removeComment => exact general leftMember rightMember
  | updateReview => exact general leftMember rightMember
  | deleteReview => exact general leftMember rightMember
  | unapplyTag => cases byId
  | ajaxCancelVisit => cases byId
  | ajaxCancelWish => cases byId

/--
A request of a user leaves the rows of the others as they were, except for
the posts of a thread that its author removes.  If no row that it names is the
user's, or if the row with the posted id is someone else's, it changes nothing.
-/
theorem own_rows_only [Collation]
    (database : Database) (route : OwnRoute) (request : Request)
    (user : Nat) (login : request.user = some user) :
    KeepsForeign user database ((route.handle request).final database) ∧
      (KeepsPosts user database ((route.handle request).final database) ∨
        (route = .removePost ∧
          RemovesThread user request database
            ((route.handle request).final database))) ∧
      (user ∉ namedOwners database request route →
        (route.handle request).final database = database) ∧
      (route.byId = true →
        (∃ owner ∈ namedOwners database request route, owner ≠ user) →
          (route.handle request).final database = database) := by
  have cases := ownRoute_cases database route login
  have unnamed :
      user ∉ namedOwners database request route →
        (route.handle request).final database = database := by
    intro foreign
    rcases cases with same | ⟨named, -⟩
    · exact same
    · exact absurd named foreign
  refine ⟨?_, ?_, unnamed, ?_⟩
  · rcases cases with same | ⟨-, kept, -⟩
    · rw [same]
      exact KeepsForeign.refl user database
    · exact kept
  · rcases cases with same | ⟨-, -, posts⟩
    · rw [same]
      exact Or.inl rfl
    · exact posts
  · rintro byId ⟨owner, named, different⟩
    apply unnamed
    intro own
    exact different (namedOwners_unique byId named own)

/-! ## A removal that is refused -/

/-- Bob asks to remove the photo of another user. -/
def foreignPhoto : Request where
  user := some 2
  parameters := [("photo_id", .text "1")]

def photoOfAlice : Database :=
  { Database.empty with
    photos := Table.empty.insert ⟨"a.jpg", 3, 4, "e", 1, 0⟩ }

theorem photo_of_alice_stays :
    (@OwnRoute.handle caseBlind .removePhoto foreignPhoto).final
      photoOfAlice = photoOfAlice :=
  (@own_rows_only caseBlind photoOfAlice .removePhoto foreignPhoto 2
    rfl).2.2.2 rfl ⟨1, by decide +kernel, by decide⟩

end NomadiCore
