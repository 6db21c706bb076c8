import NomadiCore.OwnRows

/-!
# References between the forum tables

The schema has no foreign keys: that a post belongs to a stored discussion and
a comment to a stored post is up to the five forum routes.  Three of them take
or leave it: a reply and a comment store any id, and `/remove-post` deletes no
comments.
-/

namespace NomadiCore

open NomadiCore.Library.DecimalNumeral
open NomadiCore.Library.LabelledRun
open NomadiCore.Library.RowTable
open NomadiCore.Library.StatementProcess

/-- Posts refer to stored discussions, comments to stored posts. -/
structure NoDangling (database : Database) : Prop where
  posts : ∀ post ∈ database.posts.entries,
    ∃ discussion ∈ database.discussions.entries,
      (discussion.id : Int) = post.row.discussionId
  comments : ∀ comment ∈ database.postComments.entries,
    ∃ post ∈ database.posts.entries,
      (post.id : Int) = comment.row.postId

/-! ## The condition -/

/-- A request that is about to store a reply names a stored discussion. -/
def RepliesToStored (database : Database) (request : Request) : Prop :=
  ∀ user discussion content,
    request.user = some user →
      (request.get "discussion_id").insertInt = .ok discussion →
      (request.get "content").insertText = .ok content →
        ∃ stored ∈ database.discussions.entries,
          (stored.id : Int) = discussion

/-- A request that is about to store a comment names a stored post. -/
def CommentsOnStored (database : Database) (request : Request) : Prop :=
  ∀ user post content,
    request.user = some user →
      (request.get "post_id").insertInt = .ok post →
      (request.get "content").insertText = .ok content →
        ∃ stored ∈ database.posts.entries, (stored.id : Int) = post

/--
The post that a request removes has no comments, and if it is the first of its
discussion, neither has any other post of the discussion.
-/
def RemovesUncommented (database : Database) (request : Request) : Prop :=
  ∀ user post,
    request.user = some user →
      IsOwn Post.userId user request "post_id" database.posts post →
        ∀ comment ∈ database.postComments.entries,
          comment.row.postId ≠ post.id ∧
            ((∀ other ∈ database.posts.entries,
                other.row.discussionId = post.row.discussionId →
                  post.id ≤ other.id) →
              ∀ other ∈ database.posts.entries,
                other.row.discussionId = post.row.discussionId →
                  comment.row.postId ≠ other.id)

/-- The condition on one forum request. -/
def KeepsReferences (database : Database) (call : ForumCall) : Prop :=
  match call.route with
  | .replyPost => RepliesToStored database call.request
  | .commentToPost => CommentsOnStored database call.request
  | .removePost => RemovesUncommented database call.request
  | .createPost => True
  | .updatePost => True

/-! ## What keeps the references -/

namespace NoDangling

variable {database : Database}

theorem insertDiscussion (whole : NoDangling database)
    (discussion : Discussion) :
    NoDangling
      { database with
        discussions := database.discussions.insert discussion } where
  posts := by
    intro post member
    obtain ⟨stored, storedMember, equal⟩ := whole.posts post member
    exact ⟨stored, Table.mem_insert.mpr (Or.inl storedMember), equal⟩
  comments := whole.comments

theorem insertPost (whole : NoDangling database) {post : Post}
    (refers : ∃ discussion ∈ database.discussions.entries,
      (discussion.id : Int) = post.discussionId) :
    NoDangling
      { database with posts := database.posts.insert post } where
  posts := by
    intro entry member
    rcases Table.mem_insert.mp member with old | new
    · exact whole.posts entry old
    · rw [new]
      exact refers
  comments := by
    intro comment member
    obtain ⟨stored, storedMember, equal⟩ := whole.comments comment member
    exact ⟨stored, Table.mem_insert.mpr (Or.inl storedMember), equal⟩

theorem insertComment (whole : NoDangling database)
    {comment : PostComment}
    (refers : ∃ post ∈ database.posts.entries,
      (post.id : Int) = comment.postId) :
    NoDangling
      { database with
        postComments := database.postComments.insert comment } where
  posts := whole.posts
  comments := by
    intro entry member
    rcases Table.mem_insert.mp member with old | new
    · exact whole.comments entry old
    · rw [new]
      exact refers

/-- An update that keeps the discussion of a post keeps all references. -/
theorem updatePost (whole : NoDangling database) (id : Nat)
    (content : String) :
    NoDangling
      { database with
        posts := database.posts.update id fun row =>
          { row with content := content } } where
  posts := by
    intro post member
    obtain ⟨old, oldMember, rfl⟩ := Table.mem_update.mp member
    obtain ⟨stored, storedMember, equal⟩ := whole.posts old oldMember
    refine ⟨stored, storedMember, equal.trans ?_⟩
    split <;> rfl
  comments := by
    intro comment member
    obtain ⟨stored, storedMember, equal⟩ := whole.comments comment member
    refine ⟨_, Table.mem_update.mpr ⟨stored, storedMember, rfl⟩, ?_⟩
    split <;> exact equal

/-- Posts without comments may be deleted. -/
theorem deletePosts (whole : NoDangling database)
    {deleted : Entry Post → Bool}
    (uncommented : ∀ post ∈ database.posts.entries,
      deleted post = true →
        ∀ comment ∈ database.postComments.entries,
          comment.row.postId ≠ post.id) :
    NoDangling
      { database with posts := database.posts.delete deleted } where
  posts := by
    intro post member
    exact whole.posts post (Table.mem_delete.mp member).1
  comments := by
    intro comment member
    obtain ⟨stored, storedMember, equal⟩ := whole.comments comment member
    refine ⟨stored, Table.mem_delete.mpr ⟨storedMember, ?_⟩, equal⟩
    by_contra isDeleted
    exact uncommented stored storedMember (by simpa using isDeleted)
      comment member equal.symm

/-- A discussion may be deleted once it has no posts. -/
theorem deleteDiscussion (whole : NoDangling database) {id : Nat}
    (empty : ∀ post ∈ database.posts.entries,
      post.row.discussionId ≠ id) :
    NoDangling
      { database with
        discussions := database.discussions.delete fun entry =>
          entry.id = id } where
  posts := by
    intro post member
    obtain ⟨stored, storedMember, equal⟩ := whole.posts post member
    refine ⟨stored, Table.mem_delete.mpr ⟨storedMember, ?_⟩, equal⟩
    have other := empty post member
    rw [← equal] at other
    have different : stored.id ≠ id := by exact_mod_cast other
    simpa using different
  comments := whole.comments

end NoDangling

theorem removePost_references
    {database : Database} {request : Request}
    (whole : NoDangling database)
    (uncommented : RemovesUncommented database request) :
    NoDangling ((removePost request).final database) := by
  cases login : request.user with
  | none =>
      simpa [removePost, ownPost, Process.final, login] using whole
  | some user =>
      rcases removePost_own login database with same | ⟨post, own, left⟩
      · rw [same]
        exact whole
      · rcases left with left | ⟨discussion, inThread, first, left⟩
        · rw [left]
          apply whole.deletePosts
          intro other member isPost comment commentMember
          have equal := Table.eq_of_id_eq member own.stored
            (by simpa using isPost)
          rw [equal]
          exact (uncommented user post login own comment commentMember).1
        · rw [left]
          have emptied : NoDangling
              { database with
                posts := database.posts.delete fun entry =>
                  entry.row.discussionId = discussion } := by
            apply whole.deletePosts
            intro other member inside comment commentMember
            have sameThread :
                other.row.discussionId = post.row.discussionId := by
              rw [inThread]
              simpa using inside
            refine (uncommented user post login own comment
              commentMember).2 ?_ other member sameThread
            intro later laterMember laterThread
            exact first later laterMember (laterThread.trans inThread)
          apply emptied.deleteDiscussion
          intro other member
          simpa using (Table.mem_delete.mp member).2

/-- One request that meets the condition keeps the references. -/
theorem forumStep_references
    {database after : Database} {call : ForumCall}
    (whole : NoDangling database)
    (condition : KeepsReferences database call)
    (moved : forumStep database call = some after) :
    NoDangling after := by
  obtain ⟨route, request⟩ := call
  cases moved
  cases route with
  | createPost =>
      simp only [ForumRoute.handle]
      rcases createPost_cases request database with
        same | ⟨title, ⟨-, alone⟩ | ⟨content, user, -, both⟩⟩
      · rw [same]
        exact whole
      · rw [alone]
        exact whole.insertDiscussion title
      · rw [both]
        refine (whole.insertDiscussion title).insertPost ?_
        exact ⟨_, Table.mem_insert.mpr (Or.inr rfl), rfl⟩
  | replyPost =>
      simp only [ForumRoute.handle]
      rcases replyPost_cases request database with
        same | ⟨user, discussion, content, login, target, body, left⟩
      · rw [same]
        exact whole
      · rw [left]
        exact whole.insertPost
          (condition user discussion content login target body)
  | commentToPost =>
      simp only [ForumRoute.handle]
      rcases commentToPost_cases request database with
        same | ⟨user, post, content, login, target, body, left⟩
      · rw [same]
        exact whole
      · rw [left]
        exact whole.insertComment
          (condition user post content login target body)
  | updatePost =>
      simp only [ForumRoute.handle]
      cases login : request.user with
      | none =>
          simpa [updatePost, ownPost, Process.final, login] using whole
      | some user =>
          rcases updatePost_own login database with
            same | ⟨post, content, own, left⟩
          · rw [same]
            exact whole
          · rw [left]
            exact whole.updatePost post.id content
  | removePost => exact removePost_references whole condition

/--
In every run whose replies and comments name stored rows, and whose removals
meet no comments, no post and no comment is left dangling.
-/
theorem no_dangling_along_runs
    {initial database : Database} {history : List ForumCall}
    (initially : NoDangling initial)
    (run : Reaches forumStep KeepsReferences initial history database) :
    NoDangling database :=
  run.invariant initially forumStep_references

/-! ## A comment on a removed post -/

theorem aliceSite_whole : NoDangling aliceSite where
  posts := by
    intro post member
    cases member
  comments := by
    intro comment member
    cases member

theorem alice_thread_refers : NoDangling aliceForum :=
  @no_dangling_along_runs aliceSite aliceForum [aliceThread]
    aliceSite_whole (.next .start trivial rfl)

/-- The user comments on the own post. -/
def aliceComment : ForumCall where
  route := .commentToPost
  request :=
    { user := some 1
      parameters := [("post_id", .text "1"), ("content", .text "c")] }

/-- The user removes the post again. -/
def aliceRemoval : ForumCall where
  route := .removePost
  request :=
    { user := some 1
      parameters := [("post_id", .text "1")] }

def afterRemoval : Database :=
  (removePost aliceRemoval.request).final
    ((commentToPost aliceComment.request).final aliceForum)

/-- The comment stays behind. -/
theorem removed_post_leaves_comment :
    NoDangling aliceSite ∧
      (∀ call ∈ [aliceThread, aliceComment, aliceRemoval],
        call.request.user = some 1) ∧
      Reaches forumStep Anything aliceSite
        [aliceRemoval, aliceComment, aliceThread] afterRemoval ∧
      ¬ NoDangling afterRemoval := by
  refine ⟨aliceSite_whole, by decide, ?_, ?_⟩
  · exact .next (.next (.next .start trivial rfl) trivial rfl) trivial rfl
  · intro whole
    have stays :
        afterRemoval.postComments.entries = [⟨1, ⟨"c", 1, 1⟩⟩] := by
      decide +kernel
    have gone : afterRemoval.posts.entries = [] := by decide +kernel
    obtain ⟨post, member, -⟩ :=
      whole.comments ⟨1, ⟨"c", 1, 1⟩⟩ (by simp [stays])
    rw [gone] at member
    cases member

end NomadiCore
