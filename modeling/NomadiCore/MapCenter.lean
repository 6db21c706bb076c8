import NomadiCore.Shuffle
import NomadiCore.TagPage

/-!
# Medians of arrays and map centers

`calculate_median` on arrays with any keys.  `sort` gives the array new keys
from zero on, and the middle is read by key; reading a key that the array does
not have raises.  `City::getMapCenter` is one of its callers.
-/

namespace NomadiCore.MapCenter

open NomadiCore.Library.Median
open NomadiCore.Library.RowTable
open NomadiCore.Library.StatementProcess
open NomadiCore.Shuffle
open NomadiCore.TagPage

/-! ## Arrays -/

/-- An array: items in order under distinct keys. -/
structure PhpArray (Item : Type) where
  entries : List (ArrayKey × Item)
  distinct : (entries.map Prod.fst).Nodup

namespace PhpArray

variable {Item : Type}

def values (array : PhpArray Item) : List Item :=
  array.entries.map Prod.snd

def count (array : PhpArray Item) : Nat :=
  array.entries.length

/-- `$array[$key]`; an undefined offset raises. -/
def read (array : PhpArray Item) (key : ArrayKey) : Except Raised Item :=
  match array.entries.find? fun entry => entry.1 = key with
  | some entry => .ok entry.2
  | none => .error .errorException

/-- Items with their positions as keys. -/
def indexed (items : List Item) : List (ArrayKey × Item) :=
  items.zipIdx.map fun item => (.index item.2, item.1)

theorem indexed_distinct (items : List Item) :
    ((indexed items).map Prod.fst).Nodup := by
  have keys :
      (indexed items).map Prod.fst =
        (items.zipIdx.map Prod.snd).map fun position : Nat =>
          ArrayKey.index position := by
    simp only [indexed, List.map_map, Function.comp_def]
  rw [keys, List.zipIdx_map_snd]
  apply List.Nodup.map _ List.nodup_range'
  intro first second same
  simpa using same

def ofList (items : List Item) : PhpArray Item where
  entries := indexed items
  distinct := indexed_distinct items

/-- `sort($array, SORT_NUMERIC)`: the values in order, under new keys. -/
def sort (array : PhpArray ℚ) : PhpArray ℚ :=
  ofList (array.values.insertionSort (· ≤ ·))

/-- `calculate_median`. -/
def calculateMedian (array : PhpArray ℚ) : Except Raised ℚ :=
  let iCount := array.count
  if iCount = 0 then .error .domainException
  else do
    let middleIndex := iCount / 2
    let sorted := array.sort
    let median ← sorted.read (.index middleIndex)
    if iCount % 2 = 0 then
      let before ← sorted.read (.index ((middleIndex : Int) - 1))
      return (median + before) / 2
    else return median

/-! ## Reading positions -/

theorem read_of_mem {array : PhpArray Item} {key : ArrayKey} {item : Item}
    (member : (key, item) ∈ array.entries) : array.read key = .ok item := by
  have found := find?_of_distinct array.distinct member
  simp only [read, found]

theorem read_ofList {items : List Item} {position : Nat} {item : Item}
    (found : items[position]? = some item) :
    (ofList items).read (.index position) = .ok item := by
  apply read_of_mem
  apply List.mem_map.mpr
  exact ⟨(item, position), List.mem_zipIdx_iff_getElem?.mpr found, rfl⟩

/-- The callers hand over lists; for these both models agree. -/
theorem calculateMedian_eq (array : PhpArray ℚ) :
    array.calculateMedian = NomadiCore.calculateMedian array.values := by
  have count : array.count = array.values.length := by
    simp [PhpArray.count, values]
  let sorted := array.values.insertionSort (· ≤ ·)
  have reads : ∀ position < array.values.length,
      array.sort.read (.index (position : Nat)) =
        .ok (sorted.getD position 0) := by
    intro position below
    have inside : position < sorted.length := by
      rwa [List.length_insertionSort]
    apply read_ofList
    rw [List.getD_eq_getElem?_getD, List.getElem?_eq_getElem inside]
    rfl
  unfold PhpArray.calculateMedian NomadiCore.calculateMedian
  simp only [count]
  split
  · rfl
  · rename_i nonempty
    rw [reads _ (by omega)]
    split
    · rename_i even
      have before :
          ((array.values.length / 2 : Nat) : Int) - 1 =
            ((array.values.length / 2 - 1 : Nat) : Int) := by
        omega
      rw [before, reads _ (by omega)]
      rfl
    · rfl

end PhpArray

/-! ## The center of a city -/

/-- The approved shops of a city. -/
def approvedIn (database : Database) (city : String) : List Entity :=
  database.entities.select fun entity =>
    entity.status = approvedStatus ∧ entity.city = city

/--
`City::getMapCenter`, where `maps` are the centers set in the configuration of
the cities.  A city that is not configured raises.
-/
def getMapCenter (maps : List (String × Center)) (city : String) :
    Handler Center := do
  let _ ← .require .errorException (getField cityConfig city)
  match getField maps city with
  | some map => return map
  | none =>
      let entities ← .query fun database => approvedIn database city
      .ofExcept (centerOf entities)

/-! ## What a median is -/

/-- The median of some values, however it was computed. -/
structure IsMiddle (values : List ℚ) (median : ℚ) : Prop where
  odd : values.length % 2 = 1 →
    ∀ sorted : List ℚ, sorted.Perm values → sorted.Pairwise (· ≤ ·) →
      sorted[values.length / 2]? = some median
  even : values.length % 2 = 0 →
    ∀ sorted : List ℚ, sorted.Perm values → sorted.Pairwise (· ≤ ·) →
      ∃ lower upper,
        sorted[values.length / 2 - 1]? = some lower ∧
          sorted[values.length / 2]? = some upper ∧
          median = (lower + upper) / 2
  halfBelow :
    values.length ≤ 2 * values.countP fun value => value ≤ median
  halfAbove :
    values.length ≤ 2 * values.countP fun value => median ≤ value
  between : ∀ low high,
    (∀ value ∈ values, low ≤ value ∧ value ≤ high) →
      low ≤ median ∧ median ≤ high

/-- The center lies in every box around the shops. -/
def InsideBox (shops : List Entity) (center : Center) : Prop :=
  ∀ south north west east : ℚ,
    (∀ shop ∈ shops,
      (south ≤ shop.latitude ∧ shop.latitude ≤ north) ∧
        west ≤ shop.longitude ∧ shop.longitude ≤ east) →
    (south ≤ center.lat ∧ center.lat ≤ north) ∧
      west ≤ center.lng ∧ center.lng ≤ east

theorem isMiddle_of_isMedian {values : List ℚ} {median : ℚ}
    (isMedian : IsMedian values median) : IsMiddle values median where
  odd := fun odd _ arranged ordered =>
    isMedian.middle_of_odd odd arranged ordered
  even := fun even _ arranged ordered =>
    isMedian.middle_of_even even arranged ordered
  halfBelow := isMedian.half_le
  halfAbove := isMedian.half_ge
  between := fun _ _ bounded => isMedian.bounds bounded

theorem insideBox_of_isCenter {cafes : List Entity} {center : Center}
    (somewhere : located cafes ≠ []) (isCenter : IsCenter cafes center) :
    InsideBox (located cafes) center := by
  obtain ⟨lat, lng⟩ := isCenter.2 somewhere
  intro south north west east around
  constructor
  · apply lat.bounds
    intro value member
    obtain ⟨shop, listed, rfl⟩ := List.mem_map.mp member
    exact (around shop listed).1
  · apply lng.bounds
    intro value member
    obtain ⟨shop, listed, rfl⟩ := List.mem_map.mp member
    exact (around shop listed).2

/-- Arrays with the same values in another order have the same median. -/
theorem calculateMedian_perm {array other : PhpArray ℚ} {median : ℚ}
    (isMedian : IsMedian array.values median)
    (same : other.values.Perm array.values) :
    other.calculateMedian = .ok median := by
  have nonempty : other.values ≠ [] := by
    intro empty
    rw [empty] at same
    obtain ⟨sorted, lower, upper, perm, -, lowerAt, -, -⟩ := isMedian
    rw [List.perm_nil.mp (perm.trans same.symm)] at lowerAt
    cases lowerAt
  obtain ⟨computed, result, isComputed⟩ := calculateMedian_spec nonempty
  rw [PhpArray.calculateMedian_eq, result,
    isComputed.unique (isMedian.perm same.symm)]

theorem getMapCenter_insideBox
    (maps : List (String × Center)) (city : String) (database : Database)
    (isCity : city ∈ cityConfig.map Prod.fst)
    (unset : getField maps city = none)
    (somewhere : located (approvedIn database city) ≠ []) :
    ∃ center,
      (getMapCenter maps city).run database = (.ok center, database) ∧
        InsideBox (located (approvedIn database city)) center := by
  obtain ⟨center, computed, isCenter⟩ :=
    centerOf_spec (approvedIn database city)
  refine ⟨center, ?_, insideBox_of_isCenter somewhere isCenter⟩
  cases configured : getField cityConfig city with
  | none => exact absurd isCity (getField_eq_none_iff.mp configured)
  | some name => simp [getMapCenter, configured, unset, computed]

/--
`calculate_median` computes the median of every array that is not empty,
whatever its keys and their order, and raises for the empty one.  A map center
computed from it lies in the bounding box of the shops it is computed from.
-/
theorem calculateMedian_computes :
    (∀ array : PhpArray ℚ, array.values ≠ [] →
      ∃ median, array.calculateMedian = .ok median ∧
        IsMiddle array.values median ∧
        ∀ other : PhpArray ℚ, other.values.Perm array.values →
          other.calculateMedian = .ok median) ∧
    (∀ array : PhpArray ℚ, array.values = [] →
      array.calculateMedian = .error .domainException) ∧
    ∀ (maps : List (String × Center)) (city : String) (database : Database),
      city ∈ cityConfig.map Prod.fst → getField maps city = none →
      located (approvedIn database city) ≠ [] →
        ∃ center,
          (getMapCenter maps city).run database = (.ok center, database) ∧
            InsideBox (located (approvedIn database city)) center := by
  refine ⟨?_, ?_, getMapCenter_insideBox⟩
  · intro array nonempty
    obtain ⟨median, computed, isMedian⟩ := calculateMedian_spec nonempty
    refine ⟨median, ?_, isMiddle_of_isMedian isMedian,
      fun other same => calculateMedian_perm isMedian same⟩
    rw [PhpArray.calculateMedian_eq, computed]
  · intro array empty
    rw [PhpArray.calculateMedian_eq, empty]
    rfl

/-- Three values under keys of both kinds. -/
def threeValues : PhpArray ℚ where
  entries := [(.name "a", 3), (.index 7, 1), (.name "b", 2)]
  distinct := by decide

theorem calculateMedian_computes_three :
    (∃ median, threeValues.calculateMedian = .ok median ∧
        IsMiddle threeValues.values median) ∧
      ∃ center,
        (getMapCenter [] "taipei").run wifiSite = (.ok center, wifiSite) ∧
          InsideBox (located (approvedIn wifiSite "taipei")) center := by
  obtain ⟨computes, -, centers⟩ := calculateMedian_computes
  obtain ⟨median, computed, middle, -⟩ :=
    computes threeValues (List.cons_ne_nil _ _)
  exact ⟨⟨median, computed, middle⟩,
    centers [] "taipei" wifiSite (by decide +kernel) rfl
      (by decide +kernel)⟩

end NomadiCore.MapCenter
