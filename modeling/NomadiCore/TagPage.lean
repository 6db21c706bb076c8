import NomadiCore.ReviewScores

/-!
# The tag page of a city

`CityController::tag` walks the `entity_tag` rows of a tag, one per user and
shop, and collects the ids of the shops of the city.  Whether an id was already
collected is asked with a loose `in_array`, which compares two numeric texts as
numbers.  Coordinates are exact numbers here.
-/

namespace NomadiCore.TagPage

open NomadiCore.Library.DecimalNumeral
open NomadiCore.Library.Median
open NomadiCore.Library.RowTable
open NomadiCore.Library.StatementProcess

/-! ## The action -/

/-- The keys and names of `config/city.php`. -/
def cityConfig : List (String × String) :=
  [("taipei", "台北"), ("keelung", "基隆"), ("taoyuan", "桃園"),
    ("hsinchu", "新竹"), ("miaoli", "苗栗"), ("taichung", "台中"),
    ("nantou", "南投"), ("changhua", "彰化"), ("yunlin", "雲林"),
    ("chiayi", "嘉義"), ("tainan", "台南"), ("kaohsiung", "高雄"),
    ("pingtung", "屏東"), ("yilan", "宜蘭"), ("hualien", "花蓮"),
    ("taitung", "台東"), ("penghu", "澎湖"), ("kinmen", "金門"),
    ("lienchiang", "連江")]

/-- `==` of two texts: as numbers when both are numeric. -/
def looseEquals (first second : String) : Bool :=
  match numeric? first, numeric? second with
  | some left, some right => left = right
  | _, _ => first = second

/-- `in_array` without its strict flag. -/
def inArray (wanted : String) (items : List String) : Bool :=
  items.any fun item => looseEquals wanted item

/-- `explode('-', $tagStr)[0]`. -/
def explodeFirst (tagStr : String) : String :=
  String.ofList (tagStr.toList.takeWhile fun character => character ≠ '-')

/-- The loop over the rows, with the ids collected so far. -/
def collectCafeIds (city : String) :
    List String → List EntityTag → Handler (List String)
  | cafeIds, [] => return cafeIds
  | cafeIds, row :: rows => do
      let found ← .query fun database => database.entities.find row.entityId
      let cafe ← .require .errorException found
      if cafe.city ≠ city then collectCafeIds city cafeIds rows
      else if inArray cafe.id cafeIds then collectCafeIds city cafeIds rows
      else collectCafeIds city (cafeIds ++ [cafe.id]) rows

def findMany (ids : List String) : Handler (List Entity) :=
  .query fun database => database.entities.select fun entity =>
    entity.id ∈ ids

structure Center where
  lat : ℚ
  lng : ℚ
  zoom : Nat
deriving DecidableEq

/-- The center when no listed shop has a position. -/
def defaultCenter : Center := ⟨24042571 / 1000000, 1209472711 / 10000000, 8⟩

/-- The shops with a position. -/
def located (cafes : List Entity) : List Entity :=
  cafes.filter fun cafe => cafe.latitude ≠ 0

def centerOf (cafes : List Entity) : Except Raised Center :=
  let latArr := (located cafes).map Entity.latitude
  let lngArr := (located cafes).map Entity.longitude
  if 0 < latArr.length then do
    let lat ← calculateMedian latArr
    let lng ← calculateMedian lngArr
    return ⟨lat, lng, 13⟩
  else return defaultCenter

/-- `setOpenGraphTitle`, with the texts of `config/nomadic.php`. -/
def openGraphTitle (cityName tagName : String) (count : Nat) : String :=
  "ISCC 鹽酥雞協會 - " ++ cityName ++ tagName ++ "的鹽酥雞名店清單：共收錄" ++
    toString count ++ "間網友推薦的店"

/-- What is passed to the view, and the title. -/
structure TagView where
  cafes : List Entity
  city : String
  tag : Entry Tag
  center : Center
  title : String

/-- `CityController::tag`. -/
def tag (city tagStr : String) : Handler TagView := do
  let tagId := explodeFirst tagStr
  let found ← .query fun database =>
    database.tags.first fun entry => equalsInt (some tagId) entry.id
  let rows ← .query fun database =>
    database.entityTag.select fun row => equalsInt (some tagId) row.tagId
  let cafeIds ← collectCafeIds city [] rows
  let cafes ← findMany cafeIds
  let center ← .ofExcept (centerOf cafes)
  let cityName ← .require .errorException (getField cityConfig city)
  let tag ← .require .errorException found
  return ⟨cafes, city, tag, center,
    openGraphTitle cityName tag.row.name cafes.length⟩

/-! ## What the page should show -/

def isHexDigit (character : Char) : Bool :=
  character ∈ "0123456789abcdefABCDEF".toList

/-- Five groups of hexadecimal digits, with a minus between them. -/
def IsUuid (text : String) : Prop :=
  (text.toList.splitOn '-').map List.length = [8, 4, 4, 4, 12] ∧
    text.toList.all fun character =>
      character = '-' || isHexDigit character

instance (text : String) : Decidable (IsUuid text) :=
  inferInstanceAs (Decidable (_ ∧ _))

/-- Some user has put the tag on the shop. -/
def IsTagged (database : Database) (tag : Entry Tag) (cafe : Entity) : Prop :=
  ∃ row ∈ database.entityTag.rows,
    row.tagId = tag.id ∧ row.entityId = cafe.id

/-- Each tagged shop of the city once, and no other shop. -/
def ListsTagged (database : Database) (city : String) (tag : Entry Tag)
    (cafes : List Entity) : Prop :=
  cafes.Nodup ∧
    ∀ cafe, cafe ∈ cafes ↔
      cafe ∈ database.entities.rows ∧ cafe.city = city ∧
        IsTagged database tag cafe

/-- The medians over the shops with a position, or the default. -/
def IsCenter (cafes : List Entity) (center : Center) : Prop :=
  (located cafes = [] → center = defaultCenter) ∧
    (located cafes ≠ [] →
      IsMedian ((located cafes).map Entity.latitude) center.lat ∧
        IsMedian ((located cafes).map Entity.longitude) center.lng)

/-! ## Loose equality of ids -/

theorem count_minus_of_isUuid {text : String} (uuid : IsUuid text) :
    2 < text.toList.count '-' := by
  have joined := text.toList.intercalate_splitOn '-'
  obtain ⟨lengths, -⟩ := uuid
  cases groups : text.toList.splitOn '-' with
  | nil => simp [groups] at lengths
  | cons first later =>
  cases later with
  | nil => simp [groups] at lengths
  | cons second later =>
  cases later with
  | nil => simp [groups] at lengths
  | cons third later =>
  cases later with
  | nil => simp [groups] at lengths
  | cons fourth later =>
      rw [← joined, groups]
      simp [List.intercalate]
      omega

/-- An id is equal only to itself. -/
theorem looseEquals_iff {first : String} (uuid : IsUuid first)
    (second : String) :
    looseEquals first second = true ↔ first = second := by
  have notNumber : numeric? first = none :=
    numeric?_eq_none_of_count (count_minus_of_isUuid uuid)
  simp [looseEquals, notNumber]

theorem inArray_iff {wanted : String} (uuid : IsUuid wanted)
    (items : List String) :
    inArray wanted items = true ↔ wanted ∈ items := by
  simp [inArray, looseEquals_iff uuid]

/-! ## The loop over the rows -/

/-- The ids after one row. -/
def collectId (city : String) (cafeIds : List String) (cafe : Entity) :
    List String :=
  if cafe.city ≠ city then cafeIds
  else if inArray cafe.id cafeIds then cafeIds
  else cafeIds ++ [cafe.id]

theorem mem_collectId
    {cafe : Entity} (uuid : IsUuid cafe.id) (city : String)
    (cafeIds : List String) (id : String) :
    id ∈ collectId city cafeIds cafe ↔
      id ∈ cafeIds ∨ cafe.city = city ∧ id = cafe.id := by
  unfold collectId
  split
  · rename_i elsewhere
    simp [elsewhere]
  · rename_i here
    rw [not_not] at here
    split
    · rename_i known
      have member := (inArray_iff uuid cafeIds).mp known
      constructor
      · exact Or.inl
      · rintro (old | ⟨-, rfl⟩)
        · exact old
        · exact member
    · simp [here]

theorem collectCafeIds_cons
    {database : Database} {row : EntityTag} {cafe : Entity}
    (found : database.entities.find row.entityId = some cafe)
    (city : String) (cafeIds : List String) (rows : List EntityTag) :
    (collectCafeIds city cafeIds (row :: rows)).run database =
      (collectCafeIds city (collectId city cafeIds cafe) rows).run
        database := by
  simp only [collectCafeIds, Process.run_bind, Process.run_query, found,
    Process.run_require_some, collectId]
  split
  · rfl
  · split <;> rfl

section Page

variable {database : Database}
    (uuids : ∀ cafe ∈ database.entities.rows, IsUuid cafe.id)

include uuids in
/-- The loop collects the shops of the city that the rows name. -/
theorem collectCafeIds_run
    (city : String) (cafeIds : List String) (rows : List EntityTag)
    (refer : ∀ row ∈ rows, ∃ cafe ∈ database.entities.rows,
      cafe.id = row.entityId) :
    ∃ ids, (collectCafeIds city cafeIds rows).run database =
        (.ok ids, database) ∧
      ∀ cafe ∈ database.entities.rows,
        cafe.id ∈ ids ↔ cafe.id ∈ cafeIds ∨
          cafe.city = city ∧ ∃ row ∈ rows, row.entityId = cafe.id := by
  induction rows generalizing cafeIds with
  | nil => exact ⟨cafeIds, rfl, by simp⟩
  | cons row rows inductionHypothesis =>
      obtain ⟨named, stored, isNamed⟩ := refer row (by simp)
      have found : database.entities.find row.entityId = some named := by
        rw [← isNamed]
        exact Keyed.find_of_mem stored
      obtain ⟨ids, ran, collected⟩ :=
        inductionHypothesis (collectId city cafeIds named)
          fun row member => refer row (by simp [member])
      refine ⟨ids, (collectCafeIds_cons found city cafeIds rows).trans ran,
        fun cafe member => ?_⟩
      have sameCafe : named.city = city ∧ cafe.id = named.id ↔
          cafe.city = city ∧ row.entityId = cafe.id := by
        constructor
        · rintro ⟨here, sameId⟩
          rw [Keyed.eq_of_key_eq member stored sameId]
          exact ⟨here, isNamed.symm⟩
        · rintro ⟨here, sameId⟩
          have sameKey : cafe.id = named.id := (isNamed.trans sameId).symm
          rw [← Keyed.eq_of_key_eq member stored sameKey]
          exact ⟨here, rfl⟩
      rw [collected cafe member, mem_collectId (uuids named stored), sameCafe]
      simp only [List.exists_mem_cons_iff, and_or_left, or_assoc]

/-! ## The page -/

theorem centerOf_spec (cafes : List Entity) :
    ∃ center, centerOf cafes = .ok center ∧ IsCenter cafes center := by
  by_cases nowhere : located cafes = []
  · refine ⟨defaultCenter, ?_, fun _ => rfl, fun some => absurd nowhere some⟩
    simp [centerOf, nowhere]
    rfl
  · obtain ⟨lat, latRead, latMedian⟩ := @calculateMedian_spec
      ((located cafes).map Entity.latitude) (by simpa using nowhere)
    obtain ⟨lng, lngRead, lngMedian⟩ := @calculateMedian_spec
      ((located cafes).map Entity.longitude) (by simpa using nowhere)
    have some : 0 < ((located cafes).map Entity.latitude).length := by
      simpa [List.length_pos_iff] using nowhere
    refine ⟨⟨lat, lng, 13⟩, ?_, fun none => absurd none nowhere,
      fun _ => ⟨latMedian, lngMedian⟩⟩
    simp only [centerOf, if_pos some, latRead, lngRead]
    rfl

/-- The rows of a tag are those with its id. -/
theorem equalsInt_iff
    {tagId : String} {tag : Entry Tag} (read : number tagId = tag.id)
    (column : Int) :
    equalsInt (some tagId) column = true ↔ column = tag.id := by
  have isId : compared tagId = ((tag.id : Int) : ℚ) :=
    compared_of_number (by exact_mod_cast read)
  simp only [equalsInt, isId, decide_eq_true_eq]
  exact_mod_cast eq_comm

/-- The tag of the page is the stored one with the id. -/
theorem first_tag
    {tagId : String} {tag : Entry Tag}
    (stored : tag ∈ database.tags.entries) (read : number tagId = tag.id) :
    (database.tags.first fun entry => equalsInt (some tagId) entry.id) =
      some tag := by
  cases found : database.tags.first fun entry =>
      equalsInt (some tagId) entry.id with
  | none =>
      have absent := Table.first_eq_none.mp found tag stored
      rw [(equalsInt_iff read _).mpr rfl] at absent
      cases absent
  | some other =>
      obtain ⟨otherStored, same⟩ := Table.first_eq_some found
      rw [equalsInt_iff read] at same
      rw [Table.eq_of_id_eq otherStored stored (by exact_mod_cast same)]

include uuids in
/--
When the ids of the shops are UUIDs and every `entity_tag` row refers to a
stored shop, the page of a city and a stored tag lists each tagged shop of the
city once and no other, around the medians of their positions.
-/
theorem tag_page_exact
    (refer : ∀ row ∈ database.entityTag.rows,
      ∃ cafe ∈ database.entities.rows, cafe.id = row.entityId)
    {city tagStr : String} {entry : Entry Tag}
    (isCity : city ∈ cityConfig.map Prod.fst)
    (stored : entry ∈ database.tags.entries)
    (named : number (explodeFirst tagStr) = entry.id) :
    ∃ view, (tag city tagStr).run database = (.ok view, database) ∧
      view.city = city ∧ view.tag = entry ∧
      ListsTagged database city entry view.cafes ∧
      IsCenter view.cafes view.center := by
  obtain ⟨cityName, configured⟩ :
      ∃ cityName, getField cityConfig city = some cityName := by
    rw [← Option.isSome_iff_exists, Option.isSome_iff_ne_none]
    exact fun none => getField_eq_none_iff.mp none isCity
  let rows := database.entityTag.select fun row =>
    equalsInt (some (explodeFirst tagStr)) row.tagId
  have mem_rows : ∀ row, row ∈ rows ↔
      row ∈ database.entityTag.rows ∧ row.tagId = entry.id := by
    intro row
    rw [← equalsInt_iff named]
    exact List.mem_filter
  obtain ⟨ids, collected, members⟩ :=
    collectCafeIds_run uuids city [] rows
      fun row member => refer row ((mem_rows row).mp member).1
  let cafes := database.entities.select fun entity => entity.id ∈ ids
  obtain ⟨center, centered, isCenter⟩ := centerOf_spec cafes
  refine ⟨⟨cafes, city, entry, center,
    openGraphTitle cityName entry.row.name cafes.length⟩, ?_, rfl, rfl,
    ⟨?_, ?_⟩, isCenter⟩
  · simp [tag, first_tag stored named, rows, collected, findMany, cafes,
      centered, configured]
  · exact (List.Nodup.of_map _ database.entities.distinct).filter _
  · intro cafe
    have listed : cafe ∈ cafes ↔
        cafe ∈ database.entities.rows ∧ cafe.id ∈ ids := by
      simp [cafes, Keyed.select]
    rw [listed]
    refine and_congr_right fun isStored => ?_
    rw [members cafe isStored]
    simp [IsTagged, mem_rows, and_assoc]

end Page

/-- A shop that two users have tagged. -/
def wifiShop : Entity where
  id := "6ba7b810-9dad-41d1-80b4-00c04fd430c8"
  name := "Chicken"
  city := "taipei"
  status := 10
  rank := 0
  reviewFields := none
  infoFields := none
  address := ""
  latitude := 25
  longitude := 121
  userId := 1
  businessHoursJson := ""

def wifiSite : Database :=
  { Database.empty with
    tags := Table.empty.insert ⟨"wifi"⟩
    entities := ⟨[wifiShop], by decide⟩
    entityTag :=
      ⟨[⟨wifiShop.id, 1, 1, false⟩, ⟨wifiShop.id, 1, 2, false⟩], by decide⟩ }

theorem tag_page_exact_wifi :
    ∃ view, (tag "taipei" "1-wifi").run wifiSite = (.ok view, wifiSite) ∧
      view.city = "taipei" ∧ view.tag = ⟨1, ⟨"wifi"⟩⟩ ∧
      ListsTagged wifiSite "taipei" ⟨1, ⟨"wifi"⟩⟩ view.cafes ∧
      IsCenter view.cafes view.center :=
  @tag_page_exact wifiSite (by decide +kernel)
    (by decide +kernel) "taipei" "1-wifi" ⟨1, ⟨"wifi"⟩⟩
    (by decide +kernel) (by decide +kernel) (by decide +kernel)

end NomadiCore.TagPage
