import NomadiCore.ForumHandlers
import NomadiCore.Library.LabelledRun

/-!
# Every thread of the forum has a post

The forum page reads the last post of every discussion.  This module follows
the five forum routes over whole runs: a thread without a post can only come
from a `createPost` that stops between its two saves, and as long as none
does, every discussion keeps a post and the page renders.
-/

namespace NomadiCore

open NomadiCore.Library.DecimalNumeral
open NomadiCore.Library.LabelledRun
open NomadiCore.Library.RowTable
open NomadiCore.Library.StatementProcess

/-! ## Runs of forum requests -/

inductive ForumRoute where
  | createPost
  | replyPost
  | updatePost
  | commentToPost
  | removePost
deriving DecidableEq

def ForumRoute.handle : ForumRoute → Request → Handler Response
  | .createPost => NomadiCore.createPost
  | .replyPost => NomadiCore.replyPost
  | .updatePost => NomadiCore.updatePost
  | .commentToPost => NomadiCore.commentToPost
  | .removePost => NomadiCore.removePost

structure ForumCall where
  route : ForumRoute
  request : Request
deriving DecidableEq

def forumStep (database : Database) (call : ForumCall) : Option Database :=
  some ((call.route.handle call.request).final database)

/-- The user has a row and a profile, as every completed login leaves them. -/
def Registered (database : Database) (user : Nat) : Prop :=
  (database.users.find user).isSome ∧ (database.profiles.find user).isSome

/-- A request is sent by a guest or by a registered user. -/
def SenderRegistered (database : Database) (call : ForumCall) : Prop :=
  ∀ user, call.request.user = some user → Registered database user

/--
A `createPost` that saves its discussion also gets to save its post: it comes
from a logged-in user and has a content.
-/
def FinishesThread (call : ForumCall) : Prop :=
  call.route = .createPost →
    (call.request.get "title").IsText →
      call.request.user.isSome ∧ (call.request.get "content").IsText

/-- Every row of `discussions` has a row in `posts`. -/
def EveryThreadHasPost (database : Database) : Prop :=
  ∀ discussion ∈ database.discussions.entries,
    ∃ post ∈ database.posts.entries,
      post.row.discussionId = discussion.id

instance (database : Database) : Decidable (EveryThreadHasPost database) := by
  unfold EveryThreadHasPost
  infer_instance

/-- The invariant of the forum: threads have posts, by registered users. -/
structure ForumInvariant (database : Database) : Prop where
  hasPost : EveryThreadHasPost database
  registered :
    ∀ post ∈ database.posts.entries, Registered database post.row.userId

/-! ## What a request writes -/

/-- `ownPost` writes nothing and finds stored posts only. -/
theorem ownPost_run (request : Request) (database : Database) :
    ∃ outcome,
      (ownPost request).run database = (outcome, database) ∧
        ∀ post, outcome = .ok (some post) →
          post ∈ database.posts.entries := by
  cases login : request.user with
  | none =>
      exact ⟨.error .errorException, by simp [ownPost, login], by simp⟩
  | some user =>
      cases wanted : (request.get "post_id").whereValue with
      | error failure =>
          exact ⟨.error failure, by simp [ownPost, login, wanted], by simp⟩
      | ok value =>
          refine
            ⟨.ok (database.posts.first fun entry =>
              equalsInt value entry.id && entry.row.userId = user),
              by simp [ownPost, login, wanted], ?_⟩
          intro post found
          exact (Table.first_eq_some (Except.ok.inj found)).1

theorem deletePosts_run
    (posts : List (Entry Post)) (database : Database) :
    (deletePosts posts).run database =
      (.ok (),
        { database with
          posts := database.posts.delete fun entry =>
            entry.id ∈ posts.map Entry.id }) := by
  induction posts generalizing database with
  | nil =>
      simp [deletePosts, Table.delete_nothing]
  | cons post rest induction =>
      simp only [deletePosts, deletePost, Process.run_bind,
        Process.run_execute, induction, Table.delete_delete,
        List.map_cons, List.mem_cons, Bool.decide_or]

/--
A new thread is stored with its post, or not at all, or, when the request
stops after its first save, alone.
-/
theorem createPost_cases (request : Request) (database : Database) :
    (createPost request).final database = database ∨
      ∃ title,
        ((request.get "title").IsText ∧
            ¬ (request.user.isSome ∧ (request.get "content").IsText)) ∧
          (createPost request).final database =
            { database with
              discussions := database.discussions.insert title } ∨
        ∃ content user,
          request.user = some user ∧
            (createPost request).final database =
              { database with
                discussions := database.discussions.insert title
                posts := database.posts.insert
                  ⟨content, user, database.discussions.next,
                    request.now⟩ } := by
  cases title : (request.get "title").insertText with
  | error failure =>
      exact Or.inl (by simp [createPost, Process.final, title])
  | ok text =>
      have titled : (request.get "title").IsText := by
        rw [Input.eq_text_of_insertText title]
        trivial
      refine Or.inr ⟨⟨text⟩, ?_⟩
      cases login : request.user with
      | none =>
          exact Or.inl ⟨⟨titled, by simp⟩, by
            simp [createPost, Process.final, title, saveDiscussion, login]⟩
      | some user =>
          cases content : (request.get "content").insertText with
          | error failure =>
              refine Or.inl ⟨⟨titled, fun finished => ?_⟩, by
                simp [createPost, Process.final, title, saveDiscussion,
                  login, content]⟩
              obtain ⟨body, isBody⟩ :=
                Input.exists_text_of_isText finished.2
              rw [isBody] at content
              cases content
          | ok body =>
              exact Or.inr ⟨body, user, rfl, by
                simp [createPost, Process.final, title, saveDiscussion,
                  login, content, savePost]⟩

theorem replyPost_cases (request : Request) (database : Database) :
    (replyPost request).final database = database ∨
      ∃ user discussion content,
        request.user = some user ∧
          (request.get "discussion_id").insertInt = .ok discussion ∧
          (request.get "content").insertText = .ok content ∧
          (replyPost request).final database =
            { database with
              posts := database.posts.insert
                ⟨content, user, discussion, request.now⟩ } := by
  cases login : request.user with
  | none => exact Or.inl (by simp [replyPost, Process.final, login])
  | some user =>
      cases target : (request.get "discussion_id").insertText with
      | error failure =>
          exact Or.inl (by simp [replyPost, Process.final, login, target])
      | ok text =>
          cases content : (request.get "content").insertText with
          | error failure =>
              exact Or.inl (by
                simp [replyPost, Process.final, login, target, content,
                  Input.insertInt, Except.map])
          | ok body =>
              refine Or.inr ⟨user, toColumn text, body, rfl, ?_, rfl, ?_⟩
              · simp only [Input.insertInt, target, Except.map]
              · simp [replyPost, Process.final, login, target, content,
                  Input.insertInt, Except.map, savePost]

theorem commentToPost_cases (request : Request) (database : Database) :
    (commentToPost request).final database = database ∨
      ∃ user post content,
        request.user = some user ∧
          (request.get "post_id").insertInt = .ok post ∧
          (request.get "content").insertText = .ok content ∧
          (commentToPost request).final database =
            { database with
              postComments := database.postComments.insert
                ⟨content, user, post⟩ } := by
  cases login : request.user with
  | none => exact Or.inl (by simp [commentToPost, Process.final, login])
  | some user =>
  cases target : (request.get "post_id").insertInt with
  | error failure =>
      exact Or.inl (by simp [commentToPost, Process.final, login, target])
  | ok post =>
  cases content : (request.get "content").insertText with
  | error failure =>
      exact Or.inl (by
        simp [commentToPost, Process.final, login, target, content])
  | ok body =>
      refine Or.inr ⟨user, post, body, rfl, rfl, rfl, ?_⟩
      cases wanted : (request.get "post_id").whereValue with
      | error failure =>
          simp [commentToPost, Process.final, login, target, content,
            savePostComment, wanted]
      | ok value =>
          cases found : database.posts.first
              (fun entry => equalsInt value entry.id) with
          | none =>
              simp [commentToPost, Process.final, login, target, content,
                savePostComment, wanted, found]
          | some entry =>
              simp [commentToPost, Process.final, login, target, content,
                savePostComment, wanted, found]

theorem updatePost_cases (request : Request) (database : Database) :
    (updatePost request).final database = database ∨
      ∃ id content,
        (updatePost request).final database =
          { database with
            posts := database.posts.update id fun post =>
              { post with content := content } } := by
  obtain ⟨outcome, ran, _⟩ := ownPost_run request database
  rcases outcome with failure | none | post
  · exact Or.inl (by simp [updatePost, Process.final, ran])
  · exact Or.inl (by simp [updatePost, Process.final, ran])
  · cases content : (request.get "content").updateText with
    | error failure =>
        exact Or.inl (by simp [updatePost, Process.final, ran, content])
    | ok text =>
        exact Or.inr ⟨post.id, text, by
          simp [updatePost, Process.final, ran, content, setPostContent]⟩

/--
`/remove-post` deletes nothing, one post of a thread that has another one, or
a whole thread with its discussion.
-/
theorem removePost_final (request : Request) (database : Database) :
    (removePost request).final database = database ∨
      (∃ opening ∈ database.posts.entries,
        ∃ post ∈ database.posts.entries,
          opening.row.discussionId = post.row.discussionId ∧
          opening.id ≠ post.id ∧
          (removePost request).final database =
            { database with
              posts := database.posts.delete fun entry =>
                entry.id = post.id }) ∨
      ∃ discussion : Nat,
        (removePost request).final database =
          { database with
            posts := database.posts.delete fun entry =>
              entry.id ∈ (postsOf database discussion).map Entry.id
            discussions := database.discussions.delete fun entry =>
              entry.id = discussion } := by
  obtain ⟨outcome, ran, stored⟩ := ownPost_run request database
  rcases outcome with failure | found
  · left
    simp [removePost, Process.final, ran]
  · cases found with
    | none =>
        left
        simp [removePost, Process.final, ran]
    | some post =>
        have postMember := stored post rfl
        cases parent :
            database.discussions.first
              (fun entry => (entry.id : Int) = post.row.discussionId) with
        | none =>
            left
            simp [removePost, Process.final, ran, parent]
        | some discussion =>
            cases opening : (postsOf database discussion.id).head? with
            | none =>
                left
                simp [removePost, Process.final, ran, parent, opening]
            | some first =>
                by_cases same : first.id = post.id
                · right; right
                  refine ⟨discussion.id, ?_⟩
                  simp [removePost, Process.final, ran, parent, opening,
                    same, deletePosts_run, deleteDiscussion]
                · right; left
                  have firstMember :
                      first ∈ postsOf database discussion.id :=
                    List.mem_of_head? opening
                  rw [postsOf, Table.mem_select] at firstMember
                  have parentId := (Table.first_eq_some parent).2
                  refine ⟨first, firstMember.1, post, postMember, ?_, same, ?_⟩
                  · have inThread :
                        first.row.discussionId = (discussion.id : Int) := by
                      simpa using firstMember.2
                    rw [inThread]
                    simpa using parentId
                  · simp [removePost, Process.final, ran, parent, opening,
                      same, NomadiCore.deletePost]

/-- What a forum request can do to the discussions and posts. -/
inductive ForumWrite (call : ForumCall) (before : Database) :
    Database → Prop where
  | outside (comments : Table PostComment) :
      ForumWrite call before { before with postComments := comments }
  | unfinished (title : Discussion) (stops : ¬ FinishesThread call) :
      ForumWrite call before
        { before with discussions := before.discussions.insert title }
  | thread (title : Discussion) (content : String) (user : Nat)
      (login : call.request.user = some user) :
      ForumWrite call before
        { before with
          discussions := before.discussions.insert title
          posts := before.posts.insert
            ⟨content, user, before.discussions.next, call.request.now⟩ }
  | reply (content : String) (user : Nat) (discussion : Int)
      (login : call.request.user = some user) :
      ForumWrite call before
        { before with
          posts := before.posts.insert
            ⟨content, user, discussion, call.request.now⟩ }
  | edit (id : Nat) (content : String) :
      ForumWrite call before
        { before with
          posts := before.posts.update id fun post =>
            { post with content := content } }
  | removeReply (opening post : Entry Post)
      (openingMember : opening ∈ before.posts.entries)
      (postMember : post ∈ before.posts.entries)
      (sameThread : opening.row.discussionId = post.row.discussionId)
      (different : opening.id ≠ post.id) :
      ForumWrite call before
        { before with
          posts := before.posts.delete fun entry => entry.id = post.id }
  | removeThread (discussion : Nat) :
      ForumWrite call before
        { before with
          posts := before.posts.delete fun entry =>
            entry.id ∈ (postsOf before discussion).map Entry.id
          discussions := before.discussions.delete fun entry =>
            entry.id = discussion }

theorem forumWrite (call : ForumCall) (database : Database) :
    ForumWrite call database
      ((call.route.handle call.request).final database) := by
  obtain ⟨route, request⟩ := call
  have same : ForumWrite ⟨route, request⟩ database database :=
    .outside database.postComments
  cases route with
  | createPost =>
      simp only [ForumRoute.handle]
      rcases createPost_cases request database with
        left | ⟨title, ⟨stops, left⟩ | ⟨content, user, login, left⟩⟩
      · rwa [left]
      · rw [left]
        exact .unfinished title fun finishes =>
          stops.2 (finishes rfl stops.1)
      · rw [left]
        exact .thread title content user login
  | replyPost =>
      simp only [ForumRoute.handle]
      rcases replyPost_cases request database with
        left | ⟨user, discussion, content, login, -, -, left⟩
      · rwa [left]
      · rw [left]
        exact .reply content user discussion login
  | updatePost =>
      simp only [ForumRoute.handle]
      rcases updatePost_cases request database with
        left | ⟨id, content, left⟩
      · rwa [left]
      · rw [left]
        exact .edit id content
  | commentToPost =>
      simp only [ForumRoute.handle]
      rcases commentToPost_cases request database with
        left | ⟨user, post, content, -, -, -, left⟩
      · rwa [left]
      · rw [left]
        exact .outside _
  | removePost =>
      simp only [ForumRoute.handle]
      rcases removePost_final request database with
        left |
          ⟨opening, openingMember, post, postMember, sameThread, different,
            left⟩ |
          ⟨discussion, left⟩
      · rwa [left]
      · rw [left]
        exact .removeReply opening post openingMember postMember sameThread
          different
      · rw [left]
        exact .removeThread discussion

/-! ## What a write keeps -/

namespace EveryThreadHasPost

variable {database : Database}

theorem savePost (hasPost : EveryThreadHasPost database) (post : Post) :
    EveryThreadHasPost
      { database with posts := database.posts.insert post } := by
  intro discussion member
  obtain ⟨old, oldMember, equal⟩ := hasPost discussion member
  exact ⟨old, Table.mem_insert.mpr (.inl oldMember), equal⟩

/-- A new discussion comes with its first post. -/
theorem saveThread
    (hasPost : EveryThreadHasPost database)
    (discussion : Discussion) (post : Post)
    (opens : post.discussionId = database.discussions.next) :
    EveryThreadHasPost
      { database with
        discussions := database.discussions.insert discussion
        posts := database.posts.insert post } := by
  intro entry member
  rcases Table.mem_insert.mp member with old | new
  · exact hasPost.savePost post entry old
  · subst entry
    exact ⟨_, Table.mem_insert.mpr (.inr rfl), opens⟩

theorem setPostContent
    (hasPost : EveryThreadHasPost database) (id : Nat) (content : String) :
    EveryThreadHasPost
      { database with
        posts := database.posts.update id fun post =>
          { post with content := content } } := by
  intro discussion member
  obtain ⟨post, postMember, equal⟩ := hasPost discussion member
  refine ⟨_, Table.mem_update.mpr ⟨post, postMember, rfl⟩, ?_⟩
  split <;> exact equal

/-- A post may go when another post of its thread stays. -/
theorem deletePost
    {opening post : Entry Post}
    (hasPost : EveryThreadHasPost database)
    (openingMember : opening ∈ database.posts.entries)
    (postMember : post ∈ database.posts.entries)
    (sameThread : opening.row.discussionId = post.row.discussionId)
    (different : opening.id ≠ post.id) :
    EveryThreadHasPost
      { database with
        posts := database.posts.delete fun entry =>
          entry.id = post.id } := by
  intro discussion member
  obtain ⟨old, oldMember, equal⟩ := hasPost discussion member
  by_cases deleted : old.id = post.id
  · have same : old = post :=
      Table.eq_of_id_eq oldMember postMember deleted
    subst old
    refine ⟨opening, ?_, sameThread.trans equal⟩
    exact Table.mem_delete.mpr ⟨openingMember, by simpa using different⟩
  · refine ⟨old, ?_, equal⟩
    exact Table.mem_delete.mpr ⟨oldMember, by simpa using deleted⟩

/-- A whole thread may go with its discussion. -/
theorem deleteThread
    (hasPost : EveryThreadHasPost database) (discussion : Nat) :
    EveryThreadHasPost
      { database with
        posts := database.posts.delete fun entry =>
          entry.id ∈ (postsOf database discussion).map Entry.id
        discussions := database.discussions.delete fun entry =>
          entry.id = discussion } := by
  intro other member
  obtain ⟨otherMember, kept⟩ := Table.mem_delete.mp member
  obtain ⟨post, postMember, equal⟩ := hasPost other otherMember
  refine ⟨post, Table.mem_delete.mpr ⟨postMember, ?_⟩, equal⟩
  have elsewhere : other.id ≠ discussion := by simpa using kept
  -- a deleted post with the same id would be this post, in that thread
  have absent : post.id ∉ (postsOf database discussion).map Entry.id := by
    intro listed
    obtain ⟨deleted, deletedMember, sameId⟩ := List.mem_map.mp listed
    rw [postsOf, Table.mem_select] at deletedMember
    have same : deleted = post :=
      Table.eq_of_id_eq deletedMember.1 postMember sameId
    have inThread : post.row.discussionId = discussion := by
      simpa [same] using deletedMember.2
    rw [equal] at inThread
    exact elsewhere (by exact_mod_cast inThread)
  simpa using absent

end EveryThreadHasPost

namespace ForumWrite

variable {call : ForumCall} {before after : Database}

theorem hasPost
    (write : ForumWrite call before after) (finishes : FinishesThread call)
    (everyPost : EveryThreadHasPost before) :
    EveryThreadHasPost after := by
  cases write with
  | outside comments => exact everyPost
  | unfinished title stops => exact absurd finishes stops
  | thread title content user login => exact everyPost.saveThread _ _ rfl
  | reply content user discussion login => exact everyPost.savePost _
  | edit id content => exact everyPost.setPostContent id content
  | removeReply opening post openingMember postMember sameThread different =>
      exact everyPost.deletePost openingMember postMember sameThread
        different
  | removeThread discussion => exact everyPost.deleteThread discussion

/-- Posts are written by their senders only. -/
theorem registered
    (write : ForumWrite call before after)
    (author : SenderRegistered before call)
    (authors : ∀ post ∈ before.posts.entries,
      Registered before post.row.userId) :
    ∀ post ∈ after.posts.entries, Registered after post.row.userId := by
  intro post member
  cases write with
  | outside comments => exact authors post member
  | unfinished title stops => exact authors post member
  | thread title content user login =>
      rcases Table.mem_insert.mp member with old | rfl
      · exact authors post old
      · exact author user login
  | reply content user discussion login =>
      rcases Table.mem_insert.mp member with old | rfl
      · exact authors post old
      · exact author user login
  | edit id content =>
      obtain ⟨old, oldMember, rfl⟩ := Table.mem_update.mp member
      have oldAuthor := authors old oldMember
      split <;> exact oldAuthor
  | removeReply opening deleted _ _ _ _ =>
      exact authors post (Table.mem_delete.mp member).1
  | removeThread discussion =>
      exact authors post (Table.mem_delete.mp member).1

end ForumWrite

/-- Every forum request that finishes its thread keeps the invariant. -/
theorem forumStep_keeps
    {database target : Database} {call : ForumCall}
    (invariant : ForumInvariant database)
    (condition : SenderRegistered database call ∧ FinishesThread call)
    (moved : forumStep database call = some target) :
    ForumInvariant target := by
  obtain ⟨author, finishes⟩ := condition
  cases moved
  have write := forumWrite call database
  exact ⟨write.hasPost finishes invariant.hasPost,
    write.registered author invariant.registered⟩

/-! ## The page -/

/-- A list of computations that all succeed succeeds with their values. -/
theorem mapM_eq_ok
    {Source Target : Type} {list : List Source}
    {compute : Source → Except Raised Target} (value : Source → Target)
    (succeeds : ∀ item ∈ list, compute item = .ok (value item)) :
    list.mapM compute = .ok (list.map value) := by
  induction list with
  | nil => rfl
  | cons head tail induction =>
      have headValue := succeeds head (by simp)
      have tailValue :=
        induction fun item member => succeeds item (by simp [member])
      rw [List.mapM_cons, headValue, tailValue]
      rfl

/-- The time of a discussion's last post. -/
def lastActivity (database : Database) (discussion : Nat) : Nat :=
  match (postsOf database discussion).getLast? with
  | some post => post.row.createdAt
  | none => 0

/-- The last post of a thread that has one. -/
theorem exists_last_post
    {database : Database} {discussion : Entry Discussion}
    (hasPost : EveryThreadHasPost database)
    (member : discussion ∈ database.discussions.entries) :
    ∃ post ∈ database.posts.entries,
      (postsOf database discussion.id).getLast? = some post := by
  obtain ⟨post, postMember, equal⟩ := hasPost discussion member
  have listed : post ∈ postsOf database discussion.id := by
    rw [postsOf, Table.mem_select]
    exact ⟨postMember, by simpa using equal⟩
  have nonempty := List.ne_nil_of_mem listed
  exact
    ⟨_, (Table.mem_select.mp (List.getLast_mem nonempty)).1,
      List.getLast?_eq_getLast_of_ne_nil nonempty⟩

/-- With a post in every thread, the discussions are all listed, sorted. -/
theorem getDiscussions_eq
    {database : Database} (hasPost : EveryThreadHasPost database) :
    getDiscussions database =
      .ok
        (((database.discussions.entries.reverse.map fun discussion =>
            (lastActivity database discussion.id, discussion)).insertionSort
          fun left right => right.1 ≤ left.1).map Prod.snd) := by
  unfold getDiscussions
  rw [mapM_eq_ok (fun discussion =>
    (lastActivity database discussion.id, discussion))]
  · rfl
  · intro discussion member
    obtain ⟨post, _, last⟩ :=
      exists_last_post hasPost (List.mem_reverse.mp member)
    simp [lastActivity, last]

theorem find_isSome_id
    {Row : Type} {table : Table Row} {id : Nat} {entry : Entry Row}
    (found : table.find id = some entry) :
    entry.id = id := by
  simpa using (Table.first_eq_some found).2

theorem forumIndex_renders
    {database : Database} (invariant : ForumInvariant database) :
    ∃ items, forumIndex database = .ok items := by
  have itemRenders :
      ∀ discussion ∈ database.discussions.entries,
        ∃ item, postItem database discussion = .ok item := by
    intro discussion member
    obtain ⟨post, postMember, last⟩ :=
      exists_last_post invariant.hasPost member
    obtain ⟨hasUser, hasProfile⟩ := invariant.registered post postMember
    obtain ⟨user, found⟩ := Option.isSome_iff_exists.mp hasUser
    obtain ⟨profile, foundProfile⟩ := Option.isSome_iff_exists.mp hasProfile
    rw [← find_isSome_id found] at foundProfile
    simp [postItem, last, found, foundProfile]
  unfold forumIndex
  rw [getDiscussions_eq invariant.hasPost]
  classical
  refine ⟨_, mapM_eq_ok (fun discussion =>
    if member : discussion ∈ database.discussions.entries then
      (itemRenders discussion member).choose
    else ⟨"", 0, "", false, "", false, 0, 0⟩) ?_⟩
  intro discussion listed
  have member : discussion ∈ database.discussions.entries := by
    simpa using listed
  simpa [member] using (itemRenders discussion member).choose_spec

/--
From an empty forum, along every run of forum requests in which no
`createPost` stops between its two saves, every discussion has a post, the
discussions can be listed and the forum page renders.
-/
theorem forum_renders_along_runs
    {site database : Database} {history : List ForumCall}
    (emptyForum :
      site.discussions.entries = [] ∧ site.posts.entries = [])
    (run :
      Reaches forumStep
        (fun state call => SenderRegistered state call ∧ FinishesThread call)
        site history database) :
    EveryThreadHasPost database ∧
      (∃ discussions, getDiscussions database = .ok discussions) ∧
        ∃ items, forumIndex database = .ok items := by
  have initially : ForumInvariant site := by
    constructor
    · intro discussion member
      simp [emptyForum.1] at member
    · intro post member
      simp [emptyForum.2] at member
  have invariant : ForumInvariant database :=
    run.invariant initially forumStep_keeps
  exact
    ⟨invariant.hasPost, ⟨_, getDiscussions_eq invariant.hasPost⟩,
      forumIndex_renders invariant⟩

/-! ## A thread without a post -/

/-- A guest opens a thread: the discussion is saved, the post is not. -/
def guestThread : ForumCall where
  route := .createPost
  request :=
    { user := none
      parameters := [("title", .text "t"), ("content", .text "c")]
      now := 0 }

/-- After that one request the forum page raises. -/
theorem forum_broken_by_guest_thread :
    ∃ database,
      Reaches forumStep SenderRegistered .empty [guestThread] database ∧
        ¬ EveryThreadHasPost database ∧
          getDiscussions database = .error .errorException ∧
            forumIndex database = .error .errorException := by
  refine
    ⟨(createPost guestThread.request).final .empty,
      .next .start ?_ rfl, by decide, rfl, rfl⟩
  intro user login
  cases login

/-- A site with one registered user. -/
def aliceSite : Database :=
  { Database.empty with
    users := Table.empty.insert ⟨"alice@example.com", "alice"⟩
    profiles := ⟨[⟨1, "a.png", 0⟩], by decide⟩ }

/-- The user opens a thread. -/
def aliceThread : ForumCall where
  route := .createPost
  request :=
    { user := some 1
      parameters := [("title", .text "t"), ("content", .text "c")]
      now := 7 }

def aliceForum : Database :=
  (createPost aliceThread.request).final aliceSite

theorem forum_renders_alice_thread :
    EveryThreadHasPost aliceForum ∧
      (∃ discussions, getDiscussions aliceForum = .ok discussions) ∧
        ∃ items, forumIndex aliceForum = .ok items := by
  refine
    @forum_renders_along_runs aliceSite aliceForum [aliceThread]
      ⟨rfl, rfl⟩ (.next .start ⟨?_, ?_⟩ rfl)
  · intro user login
    cases login
    exact ⟨by decide, by decide⟩
  · intro _ _
    exact ⟨by decide, by decide⟩

end NomadiCore
