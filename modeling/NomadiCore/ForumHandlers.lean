import Mathlib.Data.List.Sort
import NomadiCore.RequestInput

/-!
# The forum

`PostController` and the `/remove-post` route, with the two readers of the
forum page: `CafeNomad::getDiscussions` and the item view.  Rows of a relation
come in primary-key order.
-/

namespace NomadiCore

open NomadiCore.Library.RowTable
open NomadiCore.Library.StatementProcess

/-! ## Statements -/

def saveDiscussion (discussion : Discussion) : Handler Nat :=
  .perform fun database =>
    (.ok database.discussions.next,
      { database with
        discussions := database.discussions.insert discussion })

def savePost (post : Post) : Handler Nat :=
  .perform fun database =>
    (.ok database.posts.next,
      { database with posts := database.posts.insert post })

def savePostComment (comment : PostComment) : Handler Nat :=
  .perform fun database =>
    (.ok database.postComments.next,
      { database with
        postComments := database.postComments.insert comment })

def setPostContent (id : Nat) (content : String) : Handler Unit :=
  .execute fun database =>
    { database with
      posts := database.posts.update id fun post =>
        { post with content := content } }

def deletePost (id : Nat) : Handler Unit :=
  .execute fun database =>
    { database with
      posts := database.posts.delete fun entry => entry.id = id }

def deleteDiscussion (id : Nat) : Handler Unit :=
  .execute fun database =>
    { database with
      discussions := database.discussions.delete fun entry => entry.id = id }

/-- The rows of a discussion's `posts` relation. -/
def postsOf (database : Database) (discussion : Nat) : List (Entry Post) :=
  database.posts.select fun entry => entry.row.discussionId = discussion

/-! ## Handlers -/

def createPost (request : Request) : Handler Response := do
  let title ← .ofExcept (request.get "title").insertText
  let discussion ← saveDiscussion ⟨title⟩
  let user ← request.userId
  let content ← .ofExcept (request.get "content").insertText
  let _ ← savePost ⟨content, user, discussion, request.now⟩
  return .redirect s!"/post/{discussion}"

def replyPost (request : Request) : Handler Response := do
  let user ← request.userId
  let target ← .ofExcept (request.get "discussion_id").insertText
  let discussion ← .ofExcept (request.get "discussion_id").insertInt
  let content ← .ofExcept (request.get "content").insertText
  let post ← savePost ⟨content, user, discussion, request.now⟩
  return .redirect s!"/post/{target}#post-{post}"

/-- A post of the user with the posted id. -/
def ownPost (request : Request) : Handler (Option (Entry Post)) := do
  let user ← request.userId
  let wanted ← .ofExcept (request.get "post_id").whereValue
  .query fun database =>
    database.posts.first fun entry =>
      equalsInt wanted entry.id && entry.row.userId = user

def updatePost (request : Request) : Handler Response := do
  let found ← ownPost request
  let post ← .require .errorException found
  let content ← .ofExcept (request.get "content").updateText
  setPostContent post.id content
  return .redirect s!"/post/{post.row.discussionId}#post-{post.id}"

def commentToPost (request : Request) : Handler Response := do
  let user ← request.userId
  let target ← .ofExcept (request.get "post_id").insertInt
  let content ← .ofExcept (request.get "content").insertText
  let comment ← savePostComment ⟨content, user, target⟩
  let wanted ← .ofExcept (request.get "post_id").whereValue
  let found ← .query fun database =>
    database.posts.first fun entry => equalsInt wanted entry.id
  let post ← .require .errorException found
  return .redirect s!"/post/{post.row.discussionId}#comment-{comment}"

/-- The loop of `/remove-post` over the posts of a thread. -/
def deletePosts : List (Entry Post) → Handler Unit
  | [] => pure ()
  | post :: rest => do
      deletePost post.id
      deletePosts rest

def removePost (request : Request) : Handler Response := do
  let found ← ownPost request
  let post ← .require .errorException found
  let parent ← .query fun database =>
    database.discussions.first fun entry =>
      (entry.id : Int) = post.row.discussionId
  let discussion ← .require .errorException parent
  let posts ← .query fun database => postsOf database discussion.id
  let opening ← .require .errorException posts.head?
  if opening.id = post.id then
    deletePosts posts
    deleteDiscussion discussion.id
    return .redirect "/forum"
  else
    deletePost post.id
    return .back

/-! ## The forum page -/

/-- `CafeNomad::getDiscussions`: newest last post first. -/
def getDiscussions (database : Database) :
    Except Raised (List (Entry Discussion)) := do
  let keyed ← database.discussions.entries.reverse.mapM
    fun discussion =>
      match (postsOf database discussion.id).getLast? with
      | some post => Except.ok (post.row.createdAt, discussion)
      | none => Except.error Raised.errorException
  return (keyed.insertionSort fun left right => right.1 ≤ left.1).map
    Prod.snd

/-- What the item view shows of a discussion. -/
structure ForumItem where
  avatar : String
  discussion : Nat
  title : String
  isReply : Bool
  userName : String
  isSingle : Bool
  timestamp : Nat
  replies : Int
deriving DecidableEq

/-- `partial/_post-item.blade.php`. -/
def postItem (database : Database) (discussion : Entry Discussion) :
    Except Raised ForumItem :=
  let posts := postsOf database discussion.id
  match posts.getLast? with
  | none => .error .errorException
  | some post =>
      match database.users.find post.row.userId with
      | none => .error .errorException
      | some user =>
          match database.profiles.find user.id with
          | none => .error .errorException
          | some profile =>
              .ok
                { avatar := profile.avatar
                  discussion := discussion.id
                  title := discussion.row.title
                  isReply := posts.length > 1
                  userName := user.row.name
                  isSingle := posts.length = 1
                  timestamp := post.row.createdAt
                  replies := posts.length - 1 }

/-- `GET /forum`. -/
def forumIndex (database : Database) : Except Raised (List ForumItem) := do
  let discussions ← getDiscussions database
  discussions.mapM (postItem database)

end NomadiCore
