import NomadiCore.EntityHandlers
import NomadiCore.Library.Median

/-!
# The published scores

`SetReviewMedian` and the accessors it uses.  Scores are exact rationals: the
half of a sum of two ratings is not rounded.
-/

namespace NomadiCore

open NomadiCore.Library.DecimalNumeral
open NomadiCore.Library.Median
open NomadiCore.Library.RowTable
open NomadiCore.Library.StatementProcess

def Review.getValue (review : Review) (field : String) : Int :=
  match review.reviewFields with
  | none => 0
  | some fields => (getField fields field).getD 0

def Entity.getReviewFieldValue (entity : Entity) (field : String) : Value :=
  fieldValue entity.reviewFields field (.number 0)

/-- The number a value stands for, if it is numeric. -/
def Value.amount : Value → Option ℚ
  | .number value => some value
  | .text value => numeric? value
  | .list _ => none

/-- The `reviews` relation of an entity. -/
def reviewsOf (database : Database) (entity : String) : List Review :=
  (database.reviews.select fun entry => entry.row.entityId = entity).map
    Entry.row

def validReviews (reviews : List Review) : List Review :=
  reviews.filter fun review => 0 ≤ review.status

/-! ## The median job -/

def calculateMedian (values : List ℚ) : Except Raised ℚ :=
  if values.length = 0 then .error .domainException
  else
    let middleIndex := values.length / 2
    let sorted := values.insertionSort (· ≤ ·)
    let median := sorted.getD middleIndex 0
    if values.length % 2 = 0 then
      .ok ((median + sorted.getD (middleIndex - 1) 0) / 2)
    else .ok median

/-- The values of a field that are above zero. -/
def positiveValues (reviews : List Review) (field : String) : List ℚ :=
  (reviews.filter fun review => 0 < review.getValue field).map
    fun review => (review.getValue field : ℚ)

/-- The loop of `forceHandle` over the fields. -/
def medianFields (reviews : List Review) :
    List String → Except Raised (List (String × Value))
  | [] => .ok []
  | field :: rest =>
      let values := positiveValues reviews field
      if 0 < values.length then do
        let median ← calculateMedian values
        let later ← medianFields reviews rest
        return (field, .number median) :: later
      else medianFields reviews rest

def saveReviewFields (entity : String) (fields : List (String × Value)) :
    Handler Unit :=
  .execute fun database =>
    { database with
      entities := database.entities.update entity
        (fun row => { row with reviewFields := some fields })
        (by intro row; rfl) }

namespace SetReviewMedian

def forceHandle (entity : Entity) (reviews : List Review) :
    Handler Unit := do
  let fields ← .ofExcept
    (medianFields (validReviews reviews) getReviewKeys)
  saveReviewFields entity.id fields

def handle (entity : String) : Handler Unit := do
  let found ← .query fun database => database.entities.find entity
  let row ← .require .error found
  let reviews ← .query fun database => reviewsOf database entity
  if 0 < (validReviews reviews).length then forceHandle row reviews
  else return ()

end SetReviewMedian

/-! ## What the job computes -/

theorem calculateMedian_spec
    {values : List ℚ} (nonempty : values ≠ []) :
    ∃ median, calculateMedian values = .ok median ∧
      IsMedian values median := by
  have positive : 0 < values.length := List.length_pos_iff.mpr nonempty
  have found : ∀ index < values.length,
      (values.insertionSort (· ≤ ·))[index]? =
        some ((values.insertionSort (· ≤ ·)).getD index 0) := by
    intro index below
    have bound : index < (values.insertionSort (· ≤ ·)).length := by
      rwa [List.length_insertionSort]
    rw [List.getD_eq_getElem?_getD, List.getElem?_eq_getElem bound]
    rfl
  rcases Nat.mod_two_eq_zero_or_one values.length with even | odd
  · refine ⟨_, ?_, IsMedian.of_even even (found _ (by omega))
      (found _ (by omega))⟩
    simp only [calculateMedian, if_neg positive.ne', even, if_pos]
  · refine ⟨_, ?_, IsMedian.of_odd odd (found _ (by omega))⟩
    simp only [calculateMedian, if_neg positive.ne', odd,
      if_neg one_ne_zero]

/-- Each field with a positive value gets the median of these values. -/
theorem medianFields_spec (reviews : List Review) (keys : List String) :
    ∃ fields, medianFields reviews keys = .ok fields ∧
      ∀ field,
        if field ∈ keys ∧ positiveValues reviews field ≠ [] then
          ∃ median, getField fields field = some (.number median) ∧
            IsMedian (positiveValues reviews field) median
        else getField fields field = none := by
  induction keys with
  | nil => exact ⟨[], rfl, by simp⟩
  | cons key rest induction =>
      obtain ⟨later, computed, spec⟩ := induction
      by_cases rated : positiveValues reviews key = []
      · refine ⟨later, by simp [medianFields, rated, computed], ?_⟩
        intro field
        have fieldSpec := spec field
        by_cases same : field = key
        · simpa [same, rated] using fieldSpec
        · simpa [same] using fieldSpec
      · obtain ⟨median, isComputed, isMedian⟩ := calculateMedian_spec rated
        have positive : 0 < (positiveValues reviews key).length :=
          List.length_pos_iff.mpr rated
        refine ⟨(key, .number median) :: later, ?_, ?_⟩
        · simp [medianFields, positive, isComputed, computed, bind,
            Except.bind, pure, Except.pure]
        · intro field
          by_cases same : field = key
          · subst field
            rw [if_pos ⟨List.mem_cons_self, rated⟩]
            exact ⟨median, by simp, isMedian⟩
          · have other : ¬ key = field := fun equal => same equal.symm
            simpa [same, other] using spec field

/-- Every stored value is a median. -/
theorem mem_medianFields
    {reviews : List Review} {keys : List String}
    {fields : List (String × Value)}
    (computed : medianFields reviews keys = .ok fields)
    {field : String × Value} (member : field ∈ fields) :
    ∃ median, field.2 = .number median ∧
      IsMedian (positiveValues reviews field.1) median := by
  induction keys generalizing fields with
  | nil =>
      cases computed
      cases member
  | cons key rest induction =>
      obtain ⟨later, laterComputed, -⟩ := medianFields_spec reviews rest
      by_cases rated : positiveValues reviews key = []
      · refine induction ?_ member
        simpa [medianFields, rated] using computed
      · obtain ⟨median, isComputed, isMedian⟩ := calculateMedian_spec rated
        have equal : (key, Value.number median) :: later = fields := by
          simpa [medianFields, List.length_pos_iff.mpr rated, isComputed,
            laterComputed, bind, Except.bind, pure, Except.pure]
            using computed
        rw [← equal] at member
        rcases List.mem_cons.mp member with head | tail
        · rw [head]
          exact ⟨median, rfl, isMedian⟩
        · exact induction laterComputed tail

namespace SetReviewMedian

/-- Without a valid review the job leaves the entity alone. -/
theorem handle_unreviewed
    {database : Database} {entity : String} {row : Entity}
    (found : database.entities.find entity = some row)
    (unreviewed : validReviews (reviewsOf database entity) = []) :
    (handle entity).final database = database := by
  simp [handle, Process.final, found, unreviewed]

/-- With a valid review the job stores the medians. -/
theorem handle_reviewed
    {database : Database} {entity : String} {row : Entity}
    (found : database.entities.find entity = some row)
    (reviewed : validReviews (reviewsOf database entity) ≠ [])
    {fields : List (String × Value)}
    (computed :
      medianFields (validReviews (reviewsOf database entity))
        getReviewKeys = .ok fields) :
    (handle entity).final database =
      (saveReviewFields entity fields).final database := by
  have positive :
      0 < (validReviews (reviewsOf database entity)).length :=
    List.length_pos_iff.mpr reviewed
  have key : row.id = entity := (Keyed.find_eq_some found).2
  simp [handle, forceHandle, Process.final, found, positive, computed, key]

end SetReviewMedian

/-! ## A shop without ratings -/

/-- A contribution without ratings. -/
def unratedContribution : Request where
  user := some 1
  parameters := [("name", .text "Chicken"), ("city", .text "taipei")]
  uuid := "e"

/-- No map and no hours. -/
def plainSite : SiteConfig where
  mapEnabled := false
  businessHoursEnabled := false

/-- The shop right after its contribution. -/
def unratedShop : Database :=
  Process.final (@saveContribution clock plainSite unratedContribution)
    Database.empty

/-- A review with the same rating for every field. -/
def evenReview (rating : String) : Request where
  user := some 1
  parameters :=
    [("entity_id", .text "e"), ("review1-rating", .text rating),
      ("review2-rating", .text rating), ("review3-rating", .text rating),
      ("review4-rating", .text rating)]

end NomadiCore
