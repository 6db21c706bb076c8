import Mathlib.Data.List.MinMax
import Mathlib.Order.Nat
import NomadiCore.ForumThreads

/-!
# The forum is ordered by its latest posts

`getDiscussions` sorts by the time of the last row of a discussion's posts.
Rows come in the order of their ids; under a clock that never goes back a
later id has a later time, and neither an edit nor a removal changes that.
-/

namespace NomadiCore

open NomadiCore.Library.LabelledRun
open NomadiCore.Library.RowTable

/-! ## Runs under a clock -/

/-- The site with the time of the last request. -/
structure ClockedForum where
  database : Database
  clock : Nat

def clockedStep (forum : ClockedForum) (call : ForumCall) :
    Option ClockedForum :=
  (forumStep forum.database call).map fun database =>
    ⟨database, call.request.now⟩

/-- A logged-in user sends the request, and the clock has not gone back. -/
structure SentInOrder (forum : ClockedForum) (call : ForumCall) : Prop where
  login : call.request.user.isSome
  clock : forum.clock ≤ call.request.now

/-- The time of the newest post of a discussion. -/
def newest (database : Database) (discussion : Nat) : Nat :=
  ((postsOf database discussion).map fun post => post.row.createdAt).foldr
    max 0

/-- Every discussion is listed once, the most recently active first. -/
def ListsByActivity (database : Database)
    (discussions : List (Entry Discussion)) : Prop :=
  discussions.Perm database.discussions.entries ∧
    (∀ discussion ∈ discussions, postsOf database discussion.id ≠ []) ∧
    discussions.Pairwise fun first second =>
      newest database second.id ≤ newest database first.id

/-! ## Times and ids -/

/-- Posts are stored in the order of their times, none of them to come. -/
structure InTimeOrder (forum : ClockedForum) : Prop where
  ordered : forum.database.posts.entries.Pairwise fun first second =>
    first.row.createdAt ≤ second.row.createdAt
  past : ∀ post ∈ forum.database.posts.entries,
    post.row.createdAt ≤ forum.clock

namespace InTimeOrder

variable {forum : ClockedForum} {now : Nat}

/-- Time goes on. -/
theorem later (inOrder : InTimeOrder forum) (clock : forum.clock ≤ now)
    {database : Database} (same : database.posts = forum.database.posts) :
    InTimeOrder ⟨database, now⟩ where
  ordered := by
    simp only [same]
    exact inOrder.ordered
  past := by
    intro post member
    simp only [same] at member
    exact (inOrder.past post member).trans clock

/-- A post that is written now comes last. -/
theorem savePost (inOrder : InTimeOrder forum) (clock : forum.clock ≤ now)
    {post : Post} (written : post.createdAt = now) {database : Database}
    (saved : database.posts = forum.database.posts.insert post) :
    InTimeOrder ⟨database, now⟩ where
  ordered := by
    simp only [saved, Table.insert_entries, List.pairwise_append,
      List.pairwise_singleton, List.mem_singleton, true_and]
    refine ⟨inOrder.ordered, ?_⟩
    rintro old member new rfl
    exact (inOrder.past old member).trans (clock.trans written.ge)
  past := by
    intro entry member
    simp only [saved] at member
    rcases Table.mem_insert.mp member with old | rfl
    · exact (inOrder.past entry old).trans clock
    · exact written.le

/-- An edit keeps the times. -/
theorem setPostContent
    (inOrder : InTimeOrder forum) (clock : forum.clock ≤ now)
    {id : Nat} {content : String} {database : Database}
    (edited : database.posts =
      forum.database.posts.update id fun post =>
        { post with content := content }) :
    InTimeOrder ⟨database, now⟩ where
  ordered := by
    simp only [edited, Table.update, List.pairwise_map]
    apply inOrder.ordered.imp
    intro first second times
    split_ifs <;> exact times
  past := by
    intro entry member
    simp only [edited] at member
    obtain ⟨old, oldMember, rfl⟩ := Table.mem_update.mp member
    have before := (inOrder.past old oldMember).trans clock
    split_ifs <;> exact before

/-- What is left after a removal is still in order. -/
theorem deletePosts
    (inOrder : InTimeOrder forum) (clock : forum.clock ≤ now)
    {removed : Entry Post → Bool} {database : Database}
    (left : database.posts = forum.database.posts.delete removed) :
    InTimeOrder ⟨database, now⟩ where
  ordered := by
    simp only [left, Table.delete]
    exact inOrder.ordered.filter _
  past := by
    intro entry member
    simp only [left] at member
    exact (inOrder.past entry (Table.mem_delete.mp member).1).trans clock

end InTimeOrder

/-- A request keeps the order of the times. -/
theorem ForumWrite.inTimeOrder
    {call : ForumCall} {forum : ClockedForum} {after : Database}
    (write : ForumWrite call forum.database after)
    (clock : forum.clock ≤ call.request.now)
    (inOrder : InTimeOrder forum) :
    InTimeOrder ⟨after, call.request.now⟩ := by
  cases write with
  | outside comments => exact inOrder.later clock rfl
  | unfinished title stops => exact inOrder.later clock rfl
  | thread title content user login => exact inOrder.savePost clock rfl rfl
  | reply content user discussion login =>
      exact inOrder.savePost clock rfl rfl
  | edit id content => exact inOrder.setPostContent clock rfl
  | removeReply opening post _ _ _ _ => exact inOrder.deletePosts clock rfl
  | removeThread discussion => exact inOrder.deletePosts clock rfl

/-- Every thread has a post, and the posts are in the order of time. -/
structure ForumInOrder (forum : ClockedForum) : Prop
    extends InTimeOrder forum where
  hasPost : EveryThreadHasPost forum.database

theorem ForumInOrder.step
    {forum target : ClockedForum} {call : ForumCall}
    (invariant : ForumInOrder forum)
    (condition : SentInOrder forum call ∧ FinishesThread call)
    (moved : clockedStep forum call = some target) :
    ForumInOrder target := by
  cases moved
  have write := forumWrite call forum.database
  exact ⟨write.inTimeOrder condition.1.clock invariant.toInTimeOrder,
    write.hasPost condition.2 invariant.hasPost⟩

/-! ## The list -/

/-- The last post of a discussion is its newest. -/
theorem newest_eq_lastActivity
    {forum : ClockedForum} (inOrder : InTimeOrder forum) (discussion : Nat) :
    newest forum.database discussion =
      lastActivity forum.database discussion := by
  have ordered :
      (postsOf forum.database discussion).Pairwise fun first second =>
        first.row.createdAt ≤ second.row.createdAt :=
    inOrder.ordered.filter _
  rw [newest, lastActivity]
  cases isLast : (postsOf forum.database discussion).getLast? with
  | none =>
      rw [List.getLast?_eq_none_iff.mp isLast]
      rfl
  | some last =>
      obtain ⟨front, split⟩ := List.getLast?_eq_some_iff.mp isLast
      rw [split] at ordered ⊢
      show _ = last.row.createdAt
      apply le_antisymm
      · refine @List.max_le_of_forall_le Nat _ _ _ _ ?_
        intro time member
        obtain ⟨post, postMember, rfl⟩ := List.mem_map.mp member
        rcases List.mem_append.mp postMember with earlier | atLast
        · exact (List.pairwise_append.mp ordered).2.2 post earlier last
            (by simp)
        · rw [List.mem_singleton.mp atLast]
      · have isListed : last ∈ front ++ [last] := by simp
        exact List.le_max_of_le' 0
          (List.mem_map.mpr ⟨last, isListed, rfl⟩) le_rfl

/-- The list is sorted by the last posts, so by the newest ones. -/
theorem getDiscussions_listsByActivity
    {forum : ClockedForum} (invariant : ForumInOrder forum) :
    ∃ discussions,
      getDiscussions forum.database = .ok discussions ∧
        ListsByActivity forum.database discussions := by
  let keyed := forum.database.discussions.entries.reverse.map
    fun discussion =>
      (lastActivity forum.database discussion.id, discussion)
  have sorted :
      (keyed.insertionSort fun left right => right.1 ≤ left.1).Perm keyed :=
    List.perm_insertionSort _ keyed
  refine ⟨_, getDiscussions_eq invariant.hasPost, ?_, ?_, ?_⟩
  · have discussions :
        keyed.map Prod.snd = forum.database.discussions.entries.reverse := by
      simp [keyed, Function.comp_def]
    exact (sorted.map Prod.snd).trans
      (discussions ▸ List.reverse_perm _)
  · intro discussion listed
    have stored : discussion ∈ forum.database.discussions.entries := by
      simpa using listed
    obtain ⟨post, -, isLast⟩ := exists_last_post invariant.hasPost stored
    intro none
    rw [none] at isLast
    cases isLast
  · rw [List.pairwise_map]
    have descending :=
      List.pairwise_insertionSort
        (fun left right : Nat × Entry Discussion => right.1 ≤ left.1) keyed
    apply descending.imp_of_mem
    intro first second firstMember secondMember order
    obtain ⟨firstRow, -, rfl⟩ :=
      List.mem_map.mp (sorted.mem_iff.mp firstMember)
    obtain ⟨secondRow, -, rfl⟩ :=
      List.mem_map.mp (sorted.mem_iff.mp secondMember)
    rw [newest_eq_lastActivity invariant.toInTimeOrder,
      newest_eq_lastActivity invariant.toInTimeOrder]
    exact order

/--
From an empty forum, along every run of requests of logged-in users under a
clock that never goes back, in which no `createPost` stops between its two
saves, every discussion is listed exactly once, and a discussion that comes
before another has the newer newest post.
-/
theorem forum_ordered_along_runs
    {site : Database} {start : Nat} {history : List ForumCall}
    {forum : ClockedForum}
    (emptyForum :
      site.discussions.entries = [] ∧ site.posts.entries = [])
    (run :
      Reaches clockedStep
        (fun state call => SentInOrder state call ∧ FinishesThread call)
        ⟨site, start⟩ history forum) :
    ∃ discussions,
      getDiscussions forum.database = .ok discussions ∧
        ListsByActivity forum.database discussions := by
  have initially : ForumInOrder ⟨site, start⟩ := by
    refine ⟨⟨?_, ?_⟩, ?_⟩
    · simp [emptyForum.2]
    · simp [emptyForum.2]
    · intro discussion member
      simp [emptyForum.1] at member
  have invariant : ForumInOrder forum :=
    run.invariant initially ForumInOrder.step
  exact getDiscussions_listsByActivity invariant

/-- One thread, and a reply to it at a later time. -/
def aliceReply : ForumCall where
  route := .replyPost
  request :=
    { user := some 1
      parameters := [("discussion_id", .text "1"), ("content", .text "r")]
      now := 9 }

theorem forum_ordered_alice_reply :
    ∃ discussions,
      getDiscussions ((replyPost aliceReply.request).final aliceForum) =
          .ok discussions ∧
        ListsByActivity ((replyPost aliceReply.request).final aliceForum)
          discussions := by
  refine @forum_ordered_along_runs aliceSite 0 [aliceReply, aliceThread]
    ⟨(replyPost aliceReply.request).final aliceForum, 9⟩ ⟨rfl, rfl⟩
    (.next
      (.next .start ⟨⟨rfl, by decide⟩, fun _ _ => ⟨rfl, trivial⟩⟩ rfl)
      ⟨⟨rfl, by decide⟩, fun isThread => ?_⟩ rfl)
  cases isThread

/-- A logged-in user opens a thread and leaves the content out. -/
def emptyThread : ForumCall where
  route := .createPost
  request :=
    { user := some 1, parameters := [("title", .text "t")], now := 7 }

/-- After that one request no discussion is listed. -/
theorem forum_unordered_by_empty_thread :
    ∃ forum,
      Reaches clockedStep SentInOrder ⟨aliceSite, 0⟩ [emptyThread] forum ∧
        forum.database.discussions.entries = [⟨1, ⟨"t"⟩⟩] ∧
        getDiscussions forum.database = .error .errorException ∧
        ¬ ∃ discussions,
          getDiscussions forum.database = .ok discussions ∧
            ListsByActivity forum.database discussions := by
  refine ⟨⟨(createPost emptyThread.request).final aliceSite, 7⟩,
    .next .start ⟨rfl, by decide⟩ rfl, rfl, rfl, ?_⟩
  rintro ⟨discussions, listed, -⟩
  cases listed

end NomadiCore
