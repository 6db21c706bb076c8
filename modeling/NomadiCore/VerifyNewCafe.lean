import Mathlib.Algebra.Order.Ring.Rat
import Mathlib.Data.List.MinMax
import NomadiCore.Library.LabelledRun
import NomadiCore.Library.RowTable

/-!
# Verification of new shops

`VerifyNewCafe::handle` takes the oldest new shop, geocodes its address, looks
for a shop nearby and saves it as approved or as an issue.  The class `Cafe`
is not in the repository; it is taken as the model of the shops, with the
columns that the job reads.  A location is given at the precision of its
columns.
-/

namespace NomadiCore.VerifyNewCafe

open NomadiCore.Library.LabelledRun
open NomadiCore.Library.RowTable

/-! ## The job -/

def issueStatus : Int := -60

def createdStatus : Int := 0

def approvedStatus : Int := 10

structure Cafe where
  id : String
  status : Int
  address : String
  city : String
  createdAt : Nat
  latitude : ℚ
  longitude : ℚ
deriving DecidableEq

abbrev Cafes := Keyed Cafe String Cafe.id

/-- A location found by the geocoder. -/
structure Location where
  latitude : ℚ
  longitude : ℚ
  latitude_ne : latitude ≠ 0
  longitude_ne : longitude ≠ 0

/-- The distance between two pairs of latitude and longitude. -/
abbrev Flat := ℚ × ℚ → ℚ × ℚ → ℚ

/-- Code that may throw; what it changed in the shop in memory then stays. -/
abbrev Attempt := EStateM String Cafe

/-- The geocoder answers with a location, or its answer throws. -/
def setCoordinate : Except String Location → Attempt Unit
  | .error exception => throw exception
  | .ok location =>
      modify fun cafe =>
        { cafe with
          latitude := location.latitude
          longitude := location.longitude
          status := approvedStatus }

/-- The `foreach` of `checkDuplicate`. -/
def scanCafes (flat : Flat) (cafe : Cafe) : List Cafe → Attempt Unit
  | [] => pure ()
  | c :: cafes =>
      if cafe.id = c.id then scanCafes flat cafe cafes
      else if flat (cafe.latitude, cafe.longitude)
          (c.latitude, c.longitude) < 10 then
        throw "duplicate possible"
      else scanCafes flat cafe cafes

/-- The shops that the scan sees; their order does not matter to it. -/
def scanned (cafe : Cafe) : Bool :=
  0 ≤ cafe.status ∧ cafe.longitude ≠ 0 ∧ cafe.latitude ≠ 0

def checkDuplicate (flat : Flat) (cafes : Cafes) : Attempt Unit := do
  let cafe ← get
  scanCafes flat cafe (cafes.select scanned)

/-- The body of the `try` block up to the save. -/
def verify
    (flat : Flat) (cafes : Cafes) (geocode : Except String Location) :
    Attempt Unit := do
  setCoordinate geocode
  checkDuplicate flat cafes
  modify fun cafe => { cafe with status := approvedStatus }

/-- The shop as it is saved: an exception makes it an issue. -/
def verified
    (flat : Flat) (cafes : Cafes) (geocode : Except String Location)
    (cafe : Cafe) : Cafe :=
  match (verify flat cafes geocode).run cafe with
  | .ok _ changed => changed
  | .error _ changed => { changed with status := issueStatus }

/-- `save`: the changed columns are written to the row with the shop's id. -/
def save (cafes : Cafes) (cafe : Cafe) : Cafes :=
  cafes.update cafe.id
    (fun row =>
      { row with
        status := cafe.status
        latitude := cafe.latitude
        longitude := cafe.longitude })
    (fun _ => rfl)

/-- The shops that wait for verification. -/
def waiting (cafe : Cafe) : Bool :=
  cafe.status = createdStatus ∧ cafe.address ≠ "" ∧ cafe.city ≠ ""

/-- The shop is one that `orderBy('created_at', 'asc')->first()` may give. -/
def Oldest (cafes : Cafes) (cafe : Cafe) : Prop :=
  cafe ∈ cafes.select waiting ∧
    ∀ other ∈ cafes.select waiting, cafe.createdAt ≤ other.createdAt

instance (cafes : Cafes) (cafe : Cafe) : Decidable (Oldest cafes cafe) :=
  inferInstanceAs (Decidable (_ ∧ _))

/-- `handle`, given the shop that the first query returns. -/
def handle
    (flat : Flat) (cafes : Cafes) (geocode : Except String Location)
    (first : Option Cafe) : Cafes :=
  match first with
  | none => cafes
  | some cafe => save cafes (verified flat cafes geocode cafe)

/-! ## Runs -/

inductive Event where
  /-- A new shop is stored. -/
  | arrive (cafe : Cafe)
  /-- The job runs; `first` is the shop that its query returned. -/
  | handle (first : Option Cafe) (geocode : Except String Location)

/-- What the first query may return. -/
def MayReturn (cafes : Cafes) : Option Cafe → Prop
  | none => cafes.select waiting = []
  | some cafe => Oldest cafes cafe

instance (cafes : Cafes) :
    (first : Option Cafe) → Decidable (MayReturn cafes first)
  | none => inferInstanceAs (Decidable (_ = _))
  | some cafe => inferInstanceAs (Decidable (Oldest cafes cafe))

def step (flat : Flat) (cafes : Cafes) : Event → Option Cafes
  | .arrive cafe =>
      if cafe.status = createdStatus ∧
          cafe.latitude = 0 ∧ cafe.longitude = 0 then
        cafes.insert cafe
      else none
  | .handle first geocode =>
      if MayReturn cafes first then some (handle flat cafes geocode first)
      else none

/-! ## One run of the job -/

variable {flat : Flat} {cafes : Cafes} {cafe : Cafe}

/-- The shop is at distance `10` or more from every other shop of a list. -/
def FarFrom (flat : Flat) (cafe : Cafe) (cafes : List Cafe) : Prop :=
  ∀ other ∈ cafes, cafe.id ≠ other.id →
    10 ≤ flat (cafe.latitude, cafe.longitude)
      (other.latitude, other.longitude)

/-- The scan throws unless the shop is far from the others. -/
theorem scanCafes_run (flat : Flat) (cafe memory : Cafe) (cafes : List Cafe) :
    ((scanCafes flat cafe cafes).run memory = .ok () memory ∧
        FarFrom flat cafe cafes) ∨
      (scanCafes flat cafe cafes).run memory =
        .error "duplicate possible" memory := by
  induction cafes with
  | nil => exact Or.inl ⟨rfl, by simp [FarFrom]⟩
  | cons other rest inductionHypothesis =>
      rw [scanCafes]
      split_ifs with same near
      · refine inductionHypothesis.imp ?_ id
        rintro ⟨finished, far⟩
        refine ⟨finished, ?_⟩
        intro found member different
        cases member with
        | head => exact absurd same different
        | tail _ later => exact far found later different
      · exact Or.inr rfl
      · refine inductionHypothesis.imp ?_ id
        rintro ⟨finished, far⟩
        refine ⟨finished, ?_⟩
        intro found member different
        cases member with
        | head => exact not_lt.mp near
        | tail _ later => exact far found later different

/-- What the job may make of a shop. -/
structure Verdict (flat : Flat) (cafes : Cafes) (cafe changed : Cafe) :
    Prop where
  /-- Only the status and the location change. -/
  rest :
    { cafe with
      status := changed.status
      latitude := changed.latitude
      longitude := changed.longitude } = changed
  outcome :
    changed.status = issueStatus ∨
      changed.status = approvedStatus ∧
        (changed.latitude ≠ 0 ∧ changed.longitude ≠ 0) ∧
        FarFrom flat changed (cafes.select scanned)

theorem verified_verdict
    (flat : Flat) (cafes : Cafes) (geocode : Except String Location)
    (cafe : Cafe) :
    Verdict flat cafes cafe (verified flat cafes geocode cafe) := by
  cases geocode with
  | error exception => exact ⟨rfl, Or.inl rfl⟩
  | ok location =>
      -- the shop in memory when the scan starts
      let located : Cafe :=
        { cafe with
          latitude := location.latitude
          longitude := location.longitude
          status := approvedStatus }
      have scans :
          (verify flat cafes (.ok location)).run cafe =
            (scanCafes flat located (cafes.select scanned) >>= fun _ =>
              modify fun cafe =>
                { cafe with status := approvedStatus }).run located := rfl
      rw [EStateM.run_bind] at scans
      have scan :=
        scanCafes_run flat located located (cafes.select scanned)
      rcases scan with ⟨finished, far⟩ | thrown
      · have saved :
            verified flat cafes (.ok location) cafe = located := by
          rw [verified, scans, finished]
          rfl
        rw [saved]
        exact ⟨rfl, Or.inr
          ⟨rfl, ⟨location.latitude_ne, location.longitude_ne⟩, far⟩⟩
      · have saved :
            verified flat cafes (.ok location) cafe =
              { located with status := issueStatus } := by
          rw [verified, scans, thrown]
        rw [saved]
        exact ⟨rfl, Or.inl rfl⟩

/-- Saving a changed shop replaces its row and no other. -/
theorem save_rows
    {changed : Cafe} (verdict : Verdict flat cafes cafe changed)
    (stored : cafe ∈ cafes.rows) :
    (save cafes changed).rows =
      cafes.rows.map fun row => if row.id = cafe.id then changed else row := by
  have sameId : changed.id = cafe.id := by
    rw [← verdict.rest]
  rw [save, sameId]
  apply List.map_congr_left
  intro row member
  dsimp only
  split_ifs with isCafe
  · rw [Keyed.eq_of_key_eq member stored isCafe]
    exact verdict.rest
  · rfl

/-! ## Every step -/

/-- One step of the queue. -/
theorem step_cases
    {event : Event} {target : Cafes}
    (moved : step flat cafes event = some target) :
    (∃ arrived, arrived.status = createdStatus ∧
      arrived.id ∉ cafes.rows.map Cafe.id ∧
      target.rows = cafes.rows ++ [arrived]) ∨
    target = cafes ∨
    ∃ cafe changed,
      Oldest cafes cafe ∧ Verdict flat cafes cafe changed ∧
        target.rows =
          cafes.rows.map fun row =>
            if row.id = cafe.id then changed else row := by
  cases event with
  | arrive arrived =>
      simp only [step] at moved
      split_ifs at moved with isNew
      obtain ⟨fresh, rows⟩ := Keyed.insert_eq_some moved
      exact Or.inl ⟨arrived, isNew.1, fresh, rows⟩
  | handle first geocode =>
      simp only [step] at moved
      split_ifs at moved with mayReturn
      cases moved
      cases first with
      | none => exact Or.inr (Or.inl rfl)
      | some cafe =>
          have stored : cafe ∈ cafes.rows :=
            (List.mem_filter.mp mayReturn.1).1
          have verdict := verified_verdict flat cafes geocode cafe
          exact Or.inr (Or.inr
            ⟨cafe, _, mayReturn, verdict, save_rows verdict stored⟩)

/-! ## Every run -/

/-- Approved shops are located, and any two of them are apart. -/
structure Apart (flat : Flat) (cafes : Cafes) : Prop where
  located : ∀ cafe ∈ cafes.rows, cafe.status = approvedStatus →
    cafe.latitude ≠ 0 ∧ cafe.longitude ≠ 0
  apart : ∀ one ∈ cafes.rows, ∀ other ∈ cafes.rows, one.id ≠ other.id →
    one.status = approvedStatus → other.status = approvedStatus →
      10 ≤ flat (one.latitude, one.longitude)
        (other.latitude, other.longitude)

/-- An approved shop is one that the scan sees. -/
theorem Apart.mem_scanned
    (separated : Apart flat cafes) (stored : cafe ∈ cafes.rows)
    (approved : cafe.status = approvedStatus) :
    cafe ∈ cafes.select scanned := by
  have located := separated.located cafe stored approved
  refine List.mem_filter.mpr ⟨stored, ?_⟩
  simp [scanned, approved, approvedStatus, located.1, located.2]

theorem mem_replaced
    {rows : List Cafe} {id : String} {changed row : Cafe}
    (member : row ∈ rows.map fun row => if row.id = id then changed else row) :
    row = changed ∨ row ∈ rows ∧ row.id ≠ id := by
  obtain ⟨before, stored, equal⟩ := List.mem_map.mp member
  split_ifs at equal with isChanged
  · exact Or.inl equal.symm
  · exact Or.inr ⟨equal ▸ stored, equal ▸ isChanged⟩

theorem Apart.step
    (symmetric : ∀ one other, flat one other = flat other one)
    {event : Event} {target : Cafes}
    (separated : Apart flat cafes)
    (moved : step flat cafes event = some target) :
    Apart flat target := by
  rcases step_cases moved with
    ⟨arrived, isNew, -, rows⟩ | rfl | ⟨cafe, changed, oldest, verdict, rows⟩
  · have notApproved : arrived.status ≠ approvedStatus := by
      rw [isNew]
      decide
    have earlier : ∀ row ∈ target.rows, row.status = approvedStatus →
        row ∈ cafes.rows := by
      intro row member approved
      rw [rows, List.mem_append, List.mem_singleton] at member
      rcases member with stored | rfl
      · exact stored
      · exact absurd approved notApproved
    constructor
    · intro row member approved
      exact separated.located row (earlier row member approved) approved
    · intro one oneMember other otherMember different oneApproved otherApproved
      exact separated.apart one (earlier one oneMember oneApproved)
        other (earlier other otherMember otherApproved)
        different oneApproved otherApproved
  · exact separated
  · have sameId : changed.id = cafe.id := by
      rw [← verdict.rest]
    -- an approved shop in the place of the changed one is far from the rest
    have fresh : changed.status = approvedStatus →
        (changed.latitude ≠ 0 ∧ changed.longitude ≠ 0) ∧
          FarFrom flat changed (cafes.select scanned) := by
      intro approved
      rcases verdict.outcome with issue | ⟨-, located, far⟩
      · rw [issue] at approved
        cases approved
      · exact ⟨located, far⟩
    constructor
    · intro row member approved
      rw [rows] at member
      rcases mem_replaced member with rfl | ⟨stored, -⟩
      · exact (fresh approved).1
      · exact separated.located row stored approved
    · intro one oneMember other otherMember different oneApproved otherApproved
      rw [rows] at oneMember otherMember
      rcases mem_replaced oneMember with rfl | ⟨oneStored, -⟩
      · rcases mem_replaced otherMember with rfl | ⟨otherStored, -⟩
        · exact absurd rfl different
        · exact (fresh oneApproved).2 other
            (separated.mem_scanned otherStored otherApproved) different
      · rcases mem_replaced otherMember with rfl | ⟨otherStored, -⟩
        · rw [symmetric]
          exact (fresh otherApproved).2 one
            (separated.mem_scanned oneStored oneApproved) (Ne.symm different)
        · exact separated.apart one oneStored other otherStored different
            oneApproved otherApproved

theorem reaches_apart
    (symmetric : ∀ one other, flat one other = flat other one)
    {history : List Event}
    (run : Reaches (step flat) Anything Keyed.empty history cafes) :
    Apart flat cafes := by
  apply run.invariant
  · exact ⟨by simp [Keyed.empty], by simp [Keyed.empty]⟩
  · intro state target event separated _ moved
    exact separated.step symmetric moved

/-! ## The queue -/

/-- A queue that is not empty has an oldest shop. -/
theorem exists_oldest (someWait : cafes.select waiting ≠ []) :
    ∃ cafe, Oldest cafes cafe := by
  obtain ⟨oldest, found⟩ :=
    Option.ne_none_iff_exists'.mp
      (fun none => someWait (List.argmin_eq_none.mp none) :
        (cafes.select waiting).argmin Cafe.createdAt ≠ none)
  refine ⟨oldest, List.argmin_mem found, ?_⟩
  intro other member
  exact List.le_of_mem_argmin member found

/-- The changed shop leaves the queue, and all others keep their place. -/
theorem waiting_replaced
    {changed : Cafe} {rows : List Cafe} {id : String}
    (leaves : waiting changed = false) :
    (rows.map fun row => if row.id = id then changed else row).filter
        waiting =
      (rows.filter waiting).filter fun row => row.id ≠ id := by
  induction rows with
  | nil => rfl
  | cons row rows inductionHypothesis =>
      by_cases isChanged : row.id = id
      · by_cases waits : waiting row = true <;>
          simp_all
      · by_cases waits : waiting row = true <;>
          simp_all

theorem Verdict.not_waiting
    {changed : Cafe} (verdict : Verdict flat cafes cafe changed) :
    waiting changed = false := by
  have left : changed.status ≠ createdStatus := by
    rcases verdict.outcome with issue | ⟨approved, -⟩
    · rw [issue]
      decide
    · rw [approved]
      decide
  simp [waiting, left]

/-- What a run of the job does to the queue. -/
structure Drained (cafes target : Cafes) (cafe changed : Cafe) : Prop where
  oldest : Oldest cafes cafe
  moved :
    changed.status = approvedStatus ∨ changed.status = issueStatus
  rest :
    { cafe with
      status := changed.status
      latitude := changed.latitude
      longitude := changed.longitude } = changed
  rows :
    target.rows =
      cafes.rows.map fun row => if row.id = cafe.id then changed else row
  queue :
    target.select waiting =
      (cafes.select waiting).filter fun row => row.id ≠ cafe.id

/--
Verification drains the queue and keeps shops apart.  In every reachable
state, a run of the job on a queue that is not empty is possible, and it
moves exactly an oldest shop of the queue to approved or to issue and leaves
all other rows as they were; and any two approved shops are at distance `10`
or more.
-/
theorem handle_drains_apart
    (flat : Flat)
    (symmetric : ∀ one other, flat one other = flat other one)
    (history : List Event) (cafes : Cafes)
    (run : Reaches (step flat) Anything Keyed.empty history cafes) :
    (cafes.select waiting ≠ [] →
      (∃ cafe, Oldest cafes cafe) ∧
      (∀ cafe geocode, Oldest cafes cafe →
        (step flat cafes (.handle (some cafe) geocode)).isSome) ∧
      ∀ first geocode target,
        step flat cafes (.handle first geocode) = some target →
          ∃ cafe changed,
            first = some cafe ∧ Drained cafes target cafe changed) ∧
      ∀ one ∈ cafes.rows, ∀ other ∈ cafes.rows, one.id ≠ other.id →
        one.status = approvedStatus → other.status = approvedStatus →
          10 ≤ flat (one.latitude, one.longitude)
            (other.latitude, other.longitude) := by
  refine ⟨fun someWait => ⟨exists_oldest someWait, ?_, ?_⟩,
    (reaches_apart symmetric run).apart⟩
  · intro cafe geocode oldest
    have mayReturn : MayReturn cafes (some cafe) := oldest
    simp [step, mayReturn]
  · intro first geocode target moved
    simp only [step] at moved
    split_ifs at moved with mayReturn
    cases moved
    cases first with
    | none => exact absurd mayReturn someWait
    | some cafe =>
        have verdict := verified_verdict flat cafes geocode cafe
        have stored : cafe ∈ cafes.rows :=
          (List.mem_filter.mp mayReturn.1).1
        have rows := save_rows verdict stored
        refine ⟨cafe, verified flat cafes geocode cafe, rfl, mayReturn, ?_,
          verdict.rest, rows, ?_⟩
        · rcases verdict.outcome with issue | ⟨approved, -⟩
          · exact Or.inr issue
          · exact Or.inl approved
        · show ((save cafes _).rows).filter waiting = _
          rw [rows]
          exact waiting_replaced verdict.not_waiting

/-- A new shop, the geocoder's answer for it, and the shop as approved. -/
def newCafe (id : String) : Cafe :=
  ⟨id, createdStatus, "1 Main Street", "taipei", 0, 0, 0⟩

def locationAt (latitude : ℚ) (latitude_ne : latitude ≠ 0) : Location :=
  ⟨latitude, 121, latitude_ne, by decide⟩

def approvedAt (id : String) (latitude : ℚ) : Cafe :=
  { newCafe id with
    status := approvedStatus, latitude := latitude, longitude := 121 }

/-- A flat distance along the meridian. -/
def alongMeridian : Flat := fun one other => |one.1 - other.1| * 111000

def oneWaits : Cafes where
  rows := [approvedAt "first" 25, newCafe "second"]
  distinct := by decide

def nearCafe : Cafe :=
  { approvedAt "second" 25 with status := issueStatus }

def oneIssue : Cafes where
  rows := [approvedAt "first" 25, nearCafe]
  distinct := by decide

def twoApproved : Cafes where
  rows := [approvedAt "first" 25, nearCafe, approvedAt "third" 26]
  distinct := by decide

def verifying (id : String) (latitude : ℚ) (latitude_ne : latitude ≠ 0) :
    Event :=
  .handle (some (newCafe id)) (.ok (locationAt latitude latitude_ne))

/-- A shop is approved, and one at the same place arrives. -/
def secondArrives : List Event :=
  [.arrive (newCafe "first"), verifying "first" 25 (by decide),
    .arrive (newCafe "second")]

/-- It becomes an issue, and a third shop is approved. -/
def thirdApproved : List Event :=
  [verifying "second" 25 (by decide), .arrive (newCafe "third"),
    verifying "third" 26 (by decide)]

/--
The shop at the place of another leaves the queue as an issue, and the shop
that comes after it is approved.
-/
theorem near_shop_leaves_queue :
    Reaches (step alongMeridian) Anything Keyed.empty
        (thirdApproved.reverse ++ secondArrives.reverse) twoApproved ∧
      (∃ changed,
        Drained oneWaits oneIssue (newCafe "second") changed) ∧
      10 ≤ alongMeridian (25, 121) (26, 121) := by
  have symmetric : ∀ one other,
      alongMeridian one other = alongMeridian other one := by
    intro one other
    rw [alongMeridian, alongMeridian, abs_sub_comm]
  have replayed :
      replay (step alongMeridian) Keyed.empty secondArrives =
        some oneWaits := by
    decide +kernel
  have earlier : Reaches (step alongMeridian) Anything Keyed.empty
      secondArrives.reverse oneWaits := .of_replay replayed
  have later :
      replay (step alongMeridian) oneWaits thirdApproved =
        some twoApproved := by
    decide +kernel
  have whole := earlier.replay later
  have waits : oneWaits.select waiting ≠ [] := by decide
  have moved :
      step alongMeridian oneWaits (verifying "second" 25 (by decide)) =
        some oneIssue := by
    decide +kernel
  obtain ⟨cafe, changed, isFirst, drained⟩ :=
    ((handle_drains_apart alongMeridian symmetric _ oneWaits earlier).1
      waits).2.2 _ _ oneIssue moved
  cases isFirst
  exact ⟨whole, ⟨changed, drained⟩,
    (handle_drains_apart alongMeridian symmetric _ twoApproved whole).2
      (approvedAt "first" 25) (by decide) (approvedAt "third" 26)
      (by decide) (by decide) rfl rfl⟩

end NomadiCore.VerifyNewCafe
