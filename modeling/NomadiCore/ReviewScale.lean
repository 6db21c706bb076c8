import NomadiCore.ReviewScores
import NomadiCore.Library.LabelledRun

/-!
# Five stars

Ratings enter by a review, which refuses a rating of zero and nothing else,
and by a contribution, which refuses nothing; the median job folds them into
the scores.  As long as only ratings on the scale of five stars get past the
refusal, reviews and scores stay on that scale.
-/

namespace NomadiCore

open NomadiCore.Library.DecimalNumeral
open NomadiCore.Library.LabelledRun
open NomadiCore.Library.Median
open NomadiCore.Library.RowTable
open NomadiCore.Library.StatementProcess

/-! ## The scale -/

/-- A rating of one to five stars. -/
def IsStar (rating : Int) : Prop := 1 ≤ rating ∧ rating ≤ 5

instance (rating : Int) : Decidable (IsStar rating) :=
  inferInstanceAs (Decidable (_ ∧ _))

/-- A number from zero to five. -/
def IsScore (value : Value) : Prop :=
  ∃ amount, value.amount = some amount ∧ 0 ≤ amount ∧ amount ≤ 5

/-- The review rates exactly the review fields, each from one to five. -/
def StarReview (review : Review) : Prop :=
  ∃ fields, review.reviewFields = some fields ∧
    fields.map Prod.fst = getReviewKeys ∧
    ∀ field ∈ fields, IsStar field.2

/-- The scores of the entity are numbers from zero to five. -/
def StarEntity (entity : Entity) : Prop :=
  ∀ fields, entity.reviewFields = some fields →
    ∀ field ∈ fields, IsScore field.2

structure OnScale (database : Database) : Prop where
  reviews : ∀ entry ∈ database.reviews.entries, StarReview entry.row
  entities : ∀ row ∈ database.entities.rows, StarEntity row

/-- A posted text whose number is from one to five. -/
def StarInput : Input → Prop
  | .missing => False
  | .text value => 1 ≤ number value ∧ number value ≤ 5
  | .list _ => False

instance : DecidablePred StarInput
  | .missing => inferInstanceAs (Decidable False)
  | .text _ => inferInstanceAs (Decidable (_ ∧ _))
  | .list _ => inferInstanceAs (Decidable False)

/-- Every rating is posted as a number from one to five. -/
def RatesInStars (request : Request) : Prop :=
  ∀ field ∈ getReviewKeys, StarInput (request.get (field ++ "-rating"))

/-- The handler stores no review and does not say that it did. -/
def Refuses (handler : Handler Response) (database : Database) : Prop :=
  (handler.final database).reviews = database.reviews ∧
    (handler.run database).1 ≠ .ok reviewStored

/-! ## Runs on ratings -/

inductive RatingStep where
  | submitReview (request : Request)
  | updateReview (request : Request)
  | deleteReview (request : Request)
  | saveContribution (config : SiteConfig) (request : Request)
  | handle (entity : String)
deriving DecidableEq

/-- A rating is posted that is cast to zero, or all are on the scale. -/
def ZeroOrStars (request : Request) : Prop :=
  checkHasError request = true ∨ RatesInStars request

/-- The ratings of a contribution are missing or numbers from zero to five. -/
def ContributesScores (request : Request) : Prop :=
  ∀ field ∈ inputFields request getReviewKeys "review_" "0",
    IsScore field.2

/-- What the requests of a run have to respect. -/
def RespectsScale : RatingStep → Prop
  | .submitReview request => ZeroOrStars request
  | .updateReview request => ZeroOrStars request
  | .deleteReview _ => True
  | .saveContribution _ request => ContributesScores request
  | .handle _ => True

/-! ## What the reviews keep -/

/-- A number on the scale is cast to a rating on the scale. -/
theorem isStar_postedRating
    {request : Request} {field : String}
    (star : StarInput (request.get (field ++ "-rating"))) :
    IsStar (postedRating request field) := by
  unfold postedRating
  cases posted : request.get (field ++ "-rating") with
  | missing => simp [posted, StarInput] at star
  | list items => simp [posted, StarInput] at star
  | text value =>
      rw [posted] at star
      exact toInteger_bounds (by decide) (by decide)
        (by exact_mod_cast star.1) (by exact_mod_cast star.2)

theorem postedRatings_starReview
    {request : Request} (stars : RatesInStars request)
    (entity : String) (status : Int) (user : Nat) :
    StarReview ⟨entity, status, user, some (postedRatings request)⟩ := by
  refine ⟨postedRatings request, rfl, ?_, ?_⟩
  · simp [postedRatings, Function.comp_def]
  · intro field member
    obtain ⟨key, listed, rfl⟩ := List.mem_map.mp member
    exact isStar_postedRating (stars key listed)

theorem stars_of_accepted
    {request : Request} (condition : ZeroOrStars request)
    (accepted : checkHasError request = false) :
    RatesInStars request := by
  rcases condition with zero | stars
  · rw [accepted] at zero
    cases zero
  · exact stars

theorem submitReview_onScale
    {database : Database} {request : Request}
    (scale : OnScale database) (condition : ZeroOrStars request) :
    OnScale ((submitReview request).final database) := by
  rcases submitReview_cases request database with
    ⟨same, -⟩ | ⟨entity, user, accepted, -, -, changed⟩
  · rw [same]
    exact scale
  · rw [changed]
    refine ⟨?_, scale.entities⟩
    intro entry member
    rcases Table.mem_insert.mp member with old | new
    · exact scale.reviews entry old
    · rw [new]
      exact postedRatings_starReview
        (stars_of_accepted condition accepted) entity 0 user

theorem updateReview_onScale
    {database : Database} {request : Request}
    (scale : OnScale database) (condition : ZeroOrStars request) :
    OnScale ((updateReview request).final database) := by
  rcases updateReview_cases request database with
    ⟨same, -⟩ | ⟨id, accepted, changed⟩
  · rw [same]
    exact scale
  · rw [changed]
    refine ⟨?_, scale.entities⟩
    intro entry member
    obtain ⟨old, oldMember, equal⟩ := Table.mem_update.mp member
    rw [equal]
    split
    · exact postedRatings_starReview
        (stars_of_accepted condition accepted) _ _ _
    · exact scale.reviews old oldMember

theorem deleteReview_onScale
    {database : Database} (scale : OnScale database) (request : Request) :
    OnScale ((deleteReview request).final database) := by
  rcases deleteReview_cases request database with same | ⟨id, changed⟩
  · rw [same]
    exact scale
  · rw [changed]
    refine ⟨?_, scale.entities⟩
    intro entry member
    exact scale.reviews entry (Table.mem_delete.mp member).1

/-- A request with a rating off the scale is refused. -/
theorem submitReview_refuses
    {request : Request} (condition : ZeroOrStars request)
    (off : ¬ RatesInStars request) (database : Database) :
    Refuses (submitReview request) database := by
  rcases submitReview_cases request database with
    ⟨same, answer⟩ | ⟨_, _, accepted, -⟩
  · exact ⟨by rw [same], answer⟩
  · exact absurd (stars_of_accepted condition accepted) off

theorem updateReview_refuses
    {request : Request} (condition : ZeroOrStars request)
    (off : ¬ RatesInStars request) (database : Database) :
    Refuses (updateReview request) database := by
  rcases updateReview_cases request database with
    ⟨same, answer⟩ | ⟨_, accepted, -⟩
  · exact ⟨by rw [same], answer⟩
  · exact absurd (stars_of_accepted condition accepted) off

/-! ## What the scores keep -/

theorem mem_of_getField
    {Content : Type} {fields : List (String × Content)} {key : String}
    {value : Content} (found : getField fields key = some value) :
    (key, value) ∈ fields := by
  obtain ⟨field, isField, equal⟩ := Option.map_eq_some_iff.mp found
  have named : field.1 = key := by simpa using List.find?_some isField
  have member := List.mem_of_find?_eq_some isField
  rwa [← named, ← equal]

/-- The positive values of reviews on the scale are on the scale. -/
theorem positiveValues_bounds
    {reviews : List Review}
    (stars : ∀ review ∈ reviews, StarReview review) (field : String) :
    ∀ value ∈ positiveValues reviews field, 1 ≤ value ∧ value ≤ 5 := by
  intro value member
  obtain ⟨review, kept, rfl⟩ := List.mem_map.mp member
  obtain ⟨isReview, positive⟩ := List.mem_filter.mp kept
  obtain ⟨fields, stored, -, bounds⟩ := stars review isReview
  have positive : 0 < review.getValue field := by simpa using positive
  have star : IsStar (review.getValue field) := by
    cases found : getField fields field with
    | none => simp [Review.getValue, stored, found] at positive
    | some rating =>
        have isStar := bounds _ (mem_of_getField found)
        simpa [Review.getValue, stored, found] using isStar
  exact ⟨by exact_mod_cast star.1, by exact_mod_cast star.2⟩

theorem handle_onScale
    {database : Database} (scale : OnScale database) (entity : String) :
    OnScale ((SetReviewMedian.handle entity).final database) := by
  cases found : database.entities.find entity with
  | none =>
      simpa [SetReviewMedian.handle, Process.final, found] using scale
  | some row =>
  by_cases reviewed : validReviews (reviewsOf database entity) = []
  · rw [SetReviewMedian.handle_unreviewed found reviewed]
    exact scale
  · obtain ⟨fields, computed, -⟩ :=
      medianFields_spec (validReviews (reviewsOf database entity))
        getReviewKeys
    rw [SetReviewMedian.handle_reviewed found reviewed computed]
    refine ⟨scale.reviews, ?_⟩
    have stars : ∀ review ∈ validReviews (reviewsOf database entity),
        StarReview review := by
      intro review member
      obtain ⟨entry, selected, rfl⟩ :=
        List.mem_map.mp (List.mem_filter.mp member).1
      exact scale.reviews entry (Table.mem_select.mp selected).1
    intro new newMember
    obtain ⟨old, oldMember, equal⟩ := List.mem_map.mp newMember
    subst equal
    split
    · intro stored isStored field member
      cases isStored
      obtain ⟨median, isNumber, isMedian⟩ :=
        mem_medianFields computed member
      obtain ⟨low, high⟩ :=
        isMedian.bounds (positiveValues_bounds stars field.1)
      exact ⟨median, by rw [isNumber]; rfl, le_trans zero_le_one low, high⟩
    · exact scale.entities old oldMember

section ColumnFormats

variable [ColumnFormat]

theorem saveContribution_onScale
    {database : Database} {config : SiteConfig} {request : Request}
    (scale : OnScale database) (condition : ContributesScores request) :
    OnScale ((saveContribution config request).final database) := by
  rcases saveContribution_cases config request database with
    unchanged | ⟨new, table, -, -, rated, inserted, left⟩
  · rw [unchanged]
    exact scale
  obtain ⟨-, rows⟩ := Keyed.insert_eq_some inserted
  have stored : OnScale { database with entities := table } := by
    refine ⟨scale.reviews, ?_⟩
    intro row member
    have listed : row ∈ table.rows := member
    rw [rows, List.mem_append, List.mem_singleton] at listed
    rcases listed with old | isNew
    · exact scale.entities row old
    · rw [isNew]
      intro fields isFields field fieldMember
      have posted := eq_some_of_storeFields (rated.symm.trans isFields)
      cases posted
      exact condition field fieldMember
  rw [left]
  split
  · obtain ⟨hours, written⟩ :=
      createBusinessHours_final request.uuid
        (request.get "business-hours") { database with entities := table }
    rw [written]
    exact ⟨stored.reviews, stored.entities⟩
  · exact stored

/-! ## Runs that respect the scale -/

def ratingStep (database : Database) : RatingStep → Option Database
  | .submitReview request => some ((submitReview request).final database)
  | .updateReview request => some ((updateReview request).final database)
  | .deleteReview request => some ((deleteReview request).final database)
  | .saveContribution config request =>
      some ((saveContribution config request).final database)
  | .handle entity => some ((SetReviewMedian.handle entity).final database)

theorem ratingStep_onScale
    {database after : Database} {label : RatingStep}
    (scale : OnScale database) (condition : RespectsScale label)
    (moved : ratingStep database label = some after) :
    OnScale after := by
  cases label with
  | submitReview request =>
      cases moved
      exact submitReview_onScale scale condition
  | updateReview request =>
      cases moved
      exact updateReview_onScale scale condition
  | deleteReview request =>
      cases moved
      exact deleteReview_onScale scale request
  | saveContribution config request =>
      cases moved
      exact saveContribution_onScale scale condition
  | handle entity =>
      cases moved
      exact handle_onScale scale entity

/--
In every run whose requests respect the scale, reviews and scores are on it,
and a review with a rating off the scale that respects the condition is
refused in every state reached.
-/
theorem ratings_stay_on_scale
    {initial database : Database} {history : List RatingStep}
    (initially : OnScale initial)
    (run :
      Reaches ratingStep (fun _ label => RespectsScale label)
        initial history database) :
    OnScale database ∧
      ∀ request, ZeroOrStars request → ¬ RatesInStars request →
        Refuses (submitReview request) database ∧
          Refuses (updateReview request) database := by
  constructor
  · exact run.invariant initially
      fun scale condition moved => ratingStep_onScale scale condition moved
  · intro request condition off
    exact ⟨submitReview_refuses condition off database,
      updateReview_refuses condition off database⟩

end ColumnFormats

/-! ## Nine stars -/

theorem five_stars_stay_on_scale :
    OnScale ((submitReview (evenReview "5")).final unratedShop) := by
  have empty : OnScale Database.empty := by
    constructor
    · intro entry member
      cases member
    · intro row member
      cases member
  refine (@ratings_stay_on_scale clock Database.empty _
    [.submitReview (evenReview "5"),
      .saveContribution plainSite unratedContribution] empty
    (.next (.next .start ?_ rfl) (Or.inr ?_) rfl)).1
  · intro field member
    have zero : field.2 = .text "0" := by
      revert field
      decide
    exact ⟨0, by rw [zero]; decide +kernel, by decide +kernel⟩
  · unfold RatesInStars
    decide +kernel

/-- The shop after a review of nine stars. -/
def nineStarShop : Database :=
  (submitReview (evenReview "9")).final unratedShop

/-- Nine stars are accepted and stored. -/
theorem nine_stars_are_stored :
    Reaches (@ratingStep clock) Anything Database.empty
        [.submitReview (evenReview "9"),
          .saveContribution plainSite unratedContribution]
        nineStarShop ∧
      ¬ RatesInStars (evenReview "9") ∧
      ¬ Refuses (submitReview (evenReview "9")) unratedShop ∧
      ¬ OnScale nineStarShop := by
  refine ⟨?_, ?_, ?_, ?_⟩
  · exact .next (.next .start trivial rfl) trivial rfl
  · unfold RatesInStars
    decide +kernel
  · rintro ⟨same, -⟩
    revert same
    decide +kernel
  · intro scale
    have stored :
        nineStarShop.reviews.entries =
          [⟨1, ⟨"e", 0, 1,
            some [("review1", 9), ("review2", 9), ("review3", 9),
              ("review4", 9)]⟩⟩] := by
      decide +kernel
    obtain ⟨fields, isFields, -, bounds⟩ :=
      scale.reviews _ (by rw [stored]; exact List.mem_singleton_self _)
    cases isFields
    exact absurd (bounds ("review1", 9) (by decide)) (by decide)

end NomadiCore
