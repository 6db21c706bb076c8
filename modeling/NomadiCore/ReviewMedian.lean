import NomadiCore.ReviewScores
import NomadiCore.Library.LabelledRun

/-!
# Scores and reviews

Right after a run of the median job the scores of an entity should be those of
its current reviews, whatever happened before.  The job leaves an entity
without valid reviews alone, so a score can outlive the reviews it was
computed from.
-/

namespace NomadiCore

open NomadiCore.Library.LabelledRun
open NomadiCore.Library.Median
open NomadiCore.Library.RowTable
open NomadiCore.Library.StatementProcess

/-! ## Runs on reviews -/

inductive ScoreStep where
  | submitReview (request : Request)
  | updateReview (request : Request)
  | deleteReview (request : Request)
  | hideReview (id : Nat) (status : Int)
  | handle (entity : String)
deriving DecidableEq

/-- A moderator hides a review by a status below zero. -/
def setReviewStatus (id : Nat) (status : Int) : Handler Unit :=
  .execute fun database =>
    { database with
      reviews := database.reviews.update id fun review =>
        { review with status := status } }

def scoreStep (database : Database) : ScoreStep → Option Database
  | .submitReview request => some ((submitReview request).final database)
  | .updateReview request => some ((updateReview request).final database)
  | .deleteReview request => some ((deleteReview request).final database)
  | .hideReview id status =>
      if status < 0 then
        some ((setReviewStatus id status).final database)
      else none
  | .handle entity => some ((SetReviewMedian.handle entity).final database)

/-! ## The law -/

/-- The score of a field is the median of its positive values, or zero. -/
def ScoreFollows
    (reviews : List Review) (entity : Entity) (field : String) : Prop :=
  if positiveValues reviews field = [] then
    (entity.getReviewFieldValue field).amount = some 0
  else
    ∀ score, (entity.getReviewFieldValue field).amount = some score ↔
      IsMedian (positiveValues reviews field) score

/-- Every score of a stored entity is that of its valid reviews. -/
def ScoresFollow (database : Database) (entity : String) : Prop :=
  ∃ row, database.entities.find entity = some row ∧
    ∀ field ∈ getReviewKeys,
      ScoreFollows (validReviews (reviewsOf database entity)) row field

def HasValidReview (database : Database) (entity : String) : Prop :=
  validReviews (reviewsOf database entity) ≠ []

/-- The stored scores are all zero. -/
def ScoresZero (database : Database) (entity : String) : Prop :=
  ∀ row, database.entities.find entity = some row →
    ∀ field ∈ getReviewKeys,
      (row.getReviewFieldValue field).amount = some 0

/-- The medians that are stored are the scores of the reviews. -/
theorem medianFields_follow
    {reviews : List Review} {fields : List (String × Value)}
    (computed : medianFields reviews getReviewKeys = .ok fields)
    (entity : Entity) {field : String} (listed : field ∈ getReviewKeys) :
    ScoreFollows reviews { entity with reviewFields := some fields }
      field := by
  obtain ⟨stored, isStored, spec⟩ :=
    medianFields_spec reviews getReviewKeys
  rw [computed] at isStored
  cases isStored
  have fieldSpec := spec field
  by_cases unrated : positiveValues reviews field = []
  · have absent : getField fields field = none := by
      simpa [listed, unrated] using fieldSpec
    simp [ScoreFollows, unrated, Entity.getReviewFieldValue, fieldValue,
      absent, Value.amount]
  · rw [if_pos ⟨listed, unrated⟩] at fieldSpec
    obtain ⟨median, found, isMedian⟩ := fieldSpec
    have amount :
        (Entity.getReviewFieldValue
            { entity with reviewFields := some fields } field).amount =
          some median := by
      simp [Entity.getReviewFieldValue, fieldValue, found, Value.amount]
    rw [ScoreFollows, if_neg unrated]
    intro score
    rw [amount]
    constructor
    · intro equal
      cases equal
      exact isMedian
    · intro other
      rw [isMedian.unique other]

/-- The entity is stored. -/
def Stored (entity : String) (database : Database) : Prop :=
  ∃ row, database.entities.find entity = some row

/-- The job keeps every entity stored. -/
theorem handle_keeps_stored
    {database : Database} {entity : String}
    (stored : Stored entity database) (handled : String) :
    Stored entity ((SetReviewMedian.handle handled).final database) := by
  cases found : database.entities.find handled with
  | none =>
      simpa [SetReviewMedian.handle, Process.final, found] using stored
  | some row =>
      by_cases reviewed :
          validReviews (reviewsOf database handled) = []
      · rw [SetReviewMedian.handle_unreviewed found reviewed]
        exact stored
      · obtain ⟨fields, computed, -⟩ :=
          medianFields_spec (validReviews (reviewsOf database handled))
            getReviewKeys
        rw [SetReviewMedian.handle_reviewed found reviewed computed]
        obtain ⟨other, isStored⟩ := stored
        simp only [Stored, saveReviewFields, Process.final,
          Process.run_execute]
        rw [Keyed.find_update, isStored]
        exact ⟨_, rfl⟩

/-- Every step keeps every entity stored. -/
theorem scoreStep_keeps_stored
    {database after : Database} {label : ScoreStep} {entity : String}
    (stored : Stored entity database)
    (moved : scoreStep database label = some after) :
    Stored entity after := by
  cases label with
  | submitReview request =>
      cases moved
      rcases submitReview_cases request database with
        ⟨same, -⟩ | ⟨_, _, -, -, -, changed⟩
      · rw [same]
        exact stored
      · rw [changed]
        exact stored
  | updateReview request =>
      cases moved
      rcases updateReview_cases request database with
        ⟨same, -⟩ | ⟨_, -, changed⟩
      · rw [same]
        exact stored
      · rw [changed]
        exact stored
  | deleteReview request =>
      cases moved
      rcases deleteReview_cases request database with
        same | ⟨_, changed⟩
      · rw [same]
        exact stored
      · rw [changed]
        exact stored
  | hideReview id status =>
      simp only [scoreStep] at moved
      split at moved
      · cases moved
        exact stored
      · cases moved
  | handle handled =>
      cases moved
      exact handle_keeps_stored stored handled

/-- The job on an entity without valid reviews: the scores have to be zero. -/
theorem scoresFollow_unreviewed
    {database : Database} {entity : String} {row : Entity}
    (found : database.entities.find entity = some row)
    (unreviewed : ¬ HasValidReview database entity) :
    ScoresFollow database entity ↔ ScoresZero database entity := by
  have unrated : ∀ field,
      positiveValues (validReviews (reviewsOf database entity)) field =
        [] := by
    intro field
    rw [not_ne_iff.mp unreviewed]
    rfl
  constructor
  · rintro ⟨other, isStored, follows⟩ stored isFound field listed
    rw [isStored] at isFound
    cases isFound
    simpa [ScoreFollows, unrated] using follows field listed
  · intro zero
    refine ⟨row, found, ?_⟩
    intro field listed
    simpa [ScoreFollows, unrated] using zero row found field listed

/-- The job on an entity with a valid review: the scores follow. -/
theorem scoresFollow_reviewed
    {database : Database} {entity : String} {row : Entity}
    (found : database.entities.find entity = some row)
    (reviewed : HasValidReview database entity) :
    ScoresFollow ((SetReviewMedian.handle entity).final database)
      entity := by
  obtain ⟨fields, computed, -⟩ :=
    medianFields_spec (validReviews (reviewsOf database entity))
      getReviewKeys
  have key : row.id = entity := (Keyed.find_eq_some found).2
  rw [SetReviewMedian.handle_reviewed found reviewed computed]
  refine ⟨{ row with reviewFields := some fields }, ?_, ?_⟩
  · simp only [saveReviewFields, Process.final, Process.run_execute]
    rw [Keyed.find_update, found]
    simp [key]
  · intro field listed
    exact medianFields_follow computed row listed

/--
In every run on the reviews of a contributed entity, the scores right after
the median job follow the current reviews when the job finds a valid review.
Otherwise the job changes nothing, and the scores are right exactly when they
were zero before.
-/
theorem scores_right_after_median_job
    {initial before after : Database} {history : List ScoreStep}
    {entity : String}
    (contributed : Stored entity initial)
    (run : Reaches scoreStep Anything initial history before)
    (handled : scoreStep before (.handle entity) = some after) :
    (HasValidReview before entity → ScoresFollow after entity) ∧
      (¬ HasValidReview before entity →
        after = before ∧
          (ScoresFollow after entity ↔ ScoresZero before entity)) := by
  obtain ⟨row, found⟩ : Stored entity before :=
    run.invariant contributed
      fun earlier _ moved => scoreStep_keeps_stored earlier moved
  cases handled
  constructor
  · intro reviewed
    exact scoresFollow_reviewed found reviewed
  · intro unreviewed
    have same : (SetReviewMedian.handle entity).final before = before :=
      SetReviewMedian.handle_unreviewed found (not_ne_iff.mp unreviewed)
    rw [same]
    exact ⟨rfl, scoresFollow_unreviewed found unreviewed⟩

/-! ## Two reviews that count -/

/-- A request of a user with a rating for every field. -/
def ratings (user : Nat) (stars : List String)
    (named : String × Input) : Request where
  user := some user
  parameters :=
    named :: (getReviewKeys.zip stars).map fun rating =>
      (rating.1 ++ "-rating", .text rating.2)

/-- Three users rate the shop, one of them again, and a review is hidden. -/
def reviewSchedule : List ScoreStep :=
  [.submitReview (ratings 1 ["5", "4", "1", "2"] ("entity_id", .text "e")),
    .submitReview (ratings 2 ["2", "2", "2", "2"] ("entity_id", .text "e")),
    .submitReview (ratings 3 ["1", "1", "1", "1"] ("entity_id", .text "e")),
    .updateReview (ratings 2 ["4", "3", "2", "5"] ("review_id", .text "2")),
    .hideReview 3 (-1)]

def threeReviewsShop : Database :=
  { unratedShop with
    reviews :=
      ((Table.empty.insert
        ⟨"e", 0, 1, some [("review1", 5), ("review2", 4), ("review3", 1),
          ("review4", 2)]⟩).insert
        ⟨"e", 0, 2, some [("review1", 4), ("review2", 3), ("review3", 2),
          ("review4", 5)]⟩).insert
        ⟨"e", -1, 3, some [("review1", 1), ("review2", 1), ("review3", 1),
          ("review4", 1)]⟩ }

theorem reviews_replayed :
    replay scoreStep unratedShop reviewSchedule = some threeReviewsShop := by
  decide +kernel

/-- The shop after the median job. -/
def medianShop : Database :=
  (SetReviewMedian.handle "e").final threeReviewsShop

theorem scores_are_medians_of_visible_reviews :
    (medianShop.entities.find "e").map Entity.reviewFields =
        some (some [("review1", .number (9 / 2)),
          ("review2", .number (7 / 2)), ("review3", .number (3 / 2)),
          ("review4", .number (7 / 2))]) ∧
      ScoresFollow medianShop "e" := by
  refine ⟨by decide +kernel, ?_⟩
  exact (@scores_right_after_median_job unratedShop threeReviewsShop
    medianShop _ "e" ⟨_, rfl⟩ (.of_replay reviews_replayed) rfl).1
      (by unfold HasValidReview; decide +kernel)

/-! ## A score without reviews -/

/-- The shop with a review of five stars. -/
def reviewedShop : Database :=
  (submitReview (evenReview "5")).final unratedShop

/-- The reviewed shop after the median job. -/
def scoredShop : Database :=
  (SetReviewMedian.handle "e").final reviewedShop

/-- The user deletes the review again. -/
def deletion : Request where
  user := some 1
  parameters := [("review_id", .text "1")]

/-- The shop after the deletion and another median job. -/
def staleShop : Database :=
  (SetReviewMedian.handle "e").final
    ((deleteReview deletion).final scoredShop)

/-- The score stays although no review is left. -/
theorem score_outlives_review :
    Reaches scoreStep Anything unratedShop
        [.handle "e", .deleteReview deletion, .handle "e",
          .submitReview (evenReview "5")]
        staleShop ∧
      ScoresZero unratedShop "e" ∧
      reviewsOf staleShop "e" = [] ∧
      ¬ ScoresFollow staleShop "e" := by
  have noReviews : reviewsOf staleShop "e" = [] := by decide +kernel
  refine ⟨?_, ?_, noReviews, ?_⟩
  · exact .next
      (.next (.next (.next .start trivial rfl) trivial rfl) trivial rfl)
      trivial rfl
  · intro row found
    cases found
    decide +kernel
  · rintro ⟨row, found, follows⟩
    have score := follows "review1" (by decide)
    rw [noReviews] at score
    have stored :
        (staleShop.entities.find "e").map (fun row =>
          (row.getReviewFieldValue "review1").amount) =
            some (some 5) := by
      decide +kernel
    rw [found] at stored
    simp [ScoreFollows, validReviews, positiveValues] at score stored
    rw [stored] at score
    exact absurd score (by decide +kernel)

end NomadiCore
