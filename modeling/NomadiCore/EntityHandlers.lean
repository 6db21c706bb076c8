import NomadiCore.BusinessHours
import NomadiCore.SocialHandlers

/-!
# Contributing and editing an entity

`CommunityController::saveContribution`, `POST /submit-editing` and
`Editing::approve`.  A geocoded location is given as the coordinate columns
keep it.
-/

namespace NomadiCore

open NomadiCore.Library.JsonText
open NomadiCore.Library.RowTable
open NomadiCore.Library.StatementProcess
open NomadiCore.Library.TextColumn

/-- `APPROVED_STATUS` of `Entity` and of `Editing`. -/
def approvedStatus : Int := 10

/--
`setupEntityCoordinate`: the coordinates of the answer.  Without a result the
first offset raises, and an exception ends the request in `dd`.
-/
def setupEntityCoordinate : Geocode → Except Raised (ℚ × ℚ)
  | .location latitude longitude => .ok (latitude, longitude)
  | .noResults => .error .errorException
  | .exception => .error .exit

/-! ## JSON columns -/

/-- The keys of an array that is written as a list. -/
def positions (count : Nat) : List String :=
  (List.range count).map toString

section ColumnFormats

variable [ColumnFormat]

def encodeValue : Value → List Char
  | .number value => ColumnFormat.encodeNumber value
  | .text value => encodeText value
  | .list items => encodeList (items.map encodeText)

/-- `json_encode` of an array, in ASCII. -/
def encodeFields : Fields → List Char
  | none => "null".toList
  | some fields =>
      if fields.map Prod.fst = positions fields.length then
        encodeList (fields.map fun field => encodeValue field.2)
      else
        encodeObject (fields.map fun field =>
          (field.1, encodeValue field.2))

/-- The text of an array fits into a `text` column. -/
def FitsText (fields : Fields) : Prop :=
  (encodeFields fields).length ≤ 65535

instance (fields : Fields) : Decidable (FitsText fields) :=
  inferInstanceAs (Decidable (_ ≤ _))

/-- What is read back from the column; a text that was cut is no JSON. -/
def storeFields (fields : Fields) : Fields :=
  if FitsText fields then fields else none

theorem storeFields_of_fits {fields : Fields} (fits : FitsText fields) :
    storeFields fields = fields := if_pos fits

/-- The column has the fields of the array, if it has any. -/
theorem eq_some_of_storeFields
    {fields : Fields} {stored : List (String × Value)}
    (kept : storeFields fields = some stored) : fields = some stored := by
  unfold storeFields at kept
  split at kept
  · exact kept
  · cases kept

end ColumnFormats

/-! ## Approving an editing -/

/-- The value of a JSON column, or the default when the key is missing. -/
def fieldValue (fields : Fields) (key : String) (default : Value) : Value :=
  match fields with
  | none => default
  | some fields => (getField fields key).getD default

def Editing.getValue (editing : Editing) (field : String) : Value :=
  fieldValue editing.infoFields field (.text "")

def Entity.getInfoFieldValue (entity : Entity) (field : String) : Value :=
  fieldValue entity.infoFields field (.text "")

/-- `$arr[$field] = $value`, which makes an array of `null`. -/
def assignField (fields : Fields) (key : String) (value : Value) : Fields :=
  some (setField (fields.getD []) key value)

/-- The loop of `approve` over the info fields. -/
def mergeInfoFields (editing : Editing) :
    List String → Fields → Fields
  | [], fields => fields
  | field :: rest, fields =>
      mergeInfoFields editing rest
        (if editing.getValue field ≠ .text "" then
          assignField fields field (editing.getValue field)
        else fields)

def setEditingStatus (id : Nat) (status : Int) : Handler Unit :=
  .execute fun database =>
    { database with
      editings := database.editings.update id fun row =>
        { row with status := status } }

section ColumnFormats

variable [ColumnFormat]

/-- The columns of the entity that `approve` assigns, as they are stored. -/
def applyEditing
    (editing : Editing) (latitude longitude : ℚ) (entity : Entity) :
    Entity :=
  { entity with
    name := varchar (editing.name.getD "")
    infoFields :=
      storeFields (mergeInfoFields editing getInfoKeys entity.infoFields)
    address := varchar (editing.address.getD "")
    latitude := latitude
    longitude := longitude }

theorem applyEditing_id
    (editing : Editing) (latitude longitude : ℚ) (entity : Entity) :
    (applyEditing editing latitude longitude entity).id = entity.id := rfl

def saveApproved
    (editing : Editing) (latitude longitude : ℚ) (entity : Entity) :
    Handler Unit :=
  .execute fun database =>
    { database with
      entities := database.entities.update entity.id
        (applyEditing editing latitude longitude)
        (applyEditing_id editing latitude longitude) }

def approve (id : Nat) (editing : Editing) (geocode : Geocode) :
    Handler Unit := do
  setEditingStatus id approvedStatus
  let found ← .query fun database => database.entities.find editing.entityId
  let entity ← .require .errorException found
  let (latitude, longitude) ← .ofExcept (setupEntityCoordinate geocode)
  saveApproved editing latitude longitude entity
  match editing.businessHours with
  | some json => createBusinessHours entity.id (.text json)
  | none => return ()

/-! ## Submitting an editing -/

/-- A posted value as `json_encode` keeps it. -/
def Input.value : Input → Option Value
  | .missing => none
  | .text value => some (.text value)
  | .list items => some (.list items)

/-- `Request::only`: the keys that are present. -/
def Request.only (request : Request) (keys : List String) :
    List (String × Value) :=
  keys.filterMap fun key => (request.get key).value.map fun value =>
    (key, value)

/-- The columns of an editing as they are stored. -/
def Editing.kept (editing : Editing) : Editing :=
  { editing with
    name := editing.name.map varchar
    infoFields := storeFields editing.infoFields
    address := editing.address.map varchar
    businessHours := editing.businessHours.map (keepBytes 65535) }

@[simp]
theorem Editing.kept_status (editing : Editing) :
    editing.kept.status = editing.status := rfl

@[simp]
theorem Editing.kept_userId (editing : Editing) :
    editing.kept.userId = editing.userId := rfl

def saveEditing (editing : Editing) : Handler Nat :=
  .perform fun database =>
    (.ok database.editings.next,
      { database with editings := database.editings.insert editing.kept })

/-- The hours of the editing: what was posted, if it differs. -/
def changedHours (posted : Input) (current : String) : Input :=
  if posted ≠ .text current then posted else .missing

def submitEditing (request : Request) : Handler Response := do
  let found ← findEntity (request.get "entity_id")
  let entity ← .require .error found
  let rows ← .query fun database => hoursOf database entity.id
  let current ← .ofExcept (generateBusinessHoursJson rows)
  let name ← .ofExcept (request.get "name").bound
  let entityId ← .ofExcept (request.get "entity_id").insertText
  let address ← .ofExcept (request.get "address").bound
  let hours ← .ofExcept
    (changedHours (request.get "business_hours") current).bound
  let editing : Editing :=
    { entityId := entityId
      status := 0
      userId := request.user.getD 0
      name := name
      infoFields := some (request.only getInfoKeys)
      address := address
      businessHours := hours }
  let id ← saveEditing editing
  approve id editing request.geocode
  return .notice "修改成功！" "非常謝謝您，已經更新進資料庫！"

/-! ## Contributing an entity -/

/-- The switches of `config/nomadic.php`. -/
structure SiteConfig where
  mapEnabled : Bool
  businessHoursEnabled : Bool
deriving DecidableEq

/-- `$request->input($name, $default)` for every key of a configuration. -/
def inputFields
    (request : Request) (keys : List String) (before default : String) :
    List (String × Value) :=
  keys.map fun key =>
    (key, (request.get (before ++ key)).value.getD (.text default))

def saveEntity (entity : Entity) : Handler Unit :=
  .perform fun database =>
    match database.entities.insert entity with
    | some table => (.ok (), { database with entities := table })
    | none => (.error .queryException, database)

/-- The address and coordinates; the column defaults without the map. -/
def contributedPlace (config : SiteConfig) (request : Request) :
    Except Raised (String × ℚ × ℚ) :=
  if config.mapEnabled then do
    let (latitude, longitude) ← setupEntityCoordinate request.geocode
    let address ← (request.get "address").insertText
    return (address, latitude, longitude)
  else return ("", 0, 0)

def saveContribution (config : SiteConfig) (request : Request) :
    Handler Response := do
  let (address, latitude, longitude) ←
    .ofExcept (contributedPlace config request)
  let name ← .ofExcept (request.get "name").insertText
  let city ← .ofExcept (request.get "city").insertText
  saveEntity
    { id := request.uuid
      name := varchar name
      city := varchar city
      status := approvedStatus
      rank := 99999
      reviewFields := storeFields
        (some (inputFields request getReviewKeys "review_" "0"))
      infoFields := storeFields
        (some (inputFields request getInfoKeys "info_" ""))
      address := varchar address
      latitude := latitude
      longitude := longitude
      userId := 0
      businessHoursJson := "" }
  if config.businessHoursEnabled then
    createBusinessHours request.uuid (request.get "business-hours")
  return .notice "新增成功！" "非常謝謝您，已經新增進資料庫！"

/-! ## What the handlers leave -/

omit [ColumnFormat] in
theorem changedHours_bound
    {posted : Input} {current : String} {hours : Option String}
    (bound : (changedHours posted current).bound = .ok hours)
    {json : String} (changed : hours = some json) :
    posted = .text json ∧ json ≠ current := by
  subst changed
  unfold changedHours at bound
  split at bound
  · rename_i different
    cases posted with
    | missing => simp [Input.bound] at bound
    | list items => simp [Input.bound] at bound
    | text value =>
        have equal : value = json := by
          simpa [Input.bound] using bound
        subst equal
        exact ⟨rfl, fun same => different (by rw [same])⟩
  · simp [Input.bound] at bound

/-- The editing that a request stores. -/
def postedEditing
    (request : Request) (entity : String)
    (name address hours : Option String) : Editing where
  entityId := entity
  status := 0
  userId := request.user.getD 0
  name := name
  infoFields := some (request.only getInfoKeys)
  address := address
  businessHours := hours

/-- A submission whose fields can all be read is stored and approved. -/
theorem submitEditing_accepted
    {request : Request} {database : Database} {row : Entity}
    {entity current : String} {name address hours : Option String}
    (posted : request.get "entity_id" = .text entity)
    (found : database.entities.find entity = some row)
    (generated :
      generateBusinessHoursJson (hoursOf database entity) = .ok current)
    (nameBound : (request.get "name").bound = .ok name)
    (addressBound : (request.get "address").bound = .ok address)
    (hoursBound :
      (changedHours (request.get "business_hours") current).bound =
        .ok hours) :
    (submitEditing request).final database =
      (approve database.editings.next
        (postedEditing request entity name address hours)
        request.geocode).final
        { database with
          editings := database.editings.insert
            (postedEditing request entity name address hours).kept } := by
  have key : row.id = entity := (Keyed.find_eq_some found).2
  have ran :
      (submitEditing request).final database =
        ((approve database.editings.next
            (postedEditing request entity name address hours)
            request.geocode >>= fun _ =>
          (pure (.notice "修改成功！" "非常謝謝您，已經更新進資料庫！") :
            Handler Response))).final
          { database with
            editings := database.editings.insert
              (postedEditing request entity name address hours).kept } := by
    simp [submitEditing, findEntity, Process.final, posted, found, key,
      generated, nameBound, addressBound, hoursBound, saveEditing,
      postedEditing]
  rw [ran]
  exact Process.final_bind_pure _ _ _

/-- A submission raises at once, or stores its editing and approves it. -/
theorem submitEditing_run (request : Request) (database : Database) :
    (∃ failure,
        (submitEditing request).run database =
          (.error failure, database)) ∨
      ∃ entity current name address hours,
        request.get "entity_id" = .text entity ∧
          generateBusinessHoursJson (hoursOf database entity) =
            .ok current ∧
          (request.get "name").bound = .ok name ∧
          (request.get "address").bound = .ok address ∧
          (changedHours (request.get "business_hours") current).bound =
            .ok hours ∧
          (submitEditing request).final database =
            (approve database.editings.next
              (postedEditing request entity name address hours)
              request.geocode).final
              { database with
                editings := database.editings.insert
                  (postedEditing request entity name address hours).kept } := by
  cases posted : request.get "entity_id" with
  | missing =>
      exact Or.inl ⟨_, by simp [submitEditing, findEntity, posted]; rfl⟩
  | list items =>
      exact Or.inl ⟨_, by simp [submitEditing, findEntity, posted]; rfl⟩
  | text entity =>
  cases found : database.entities.find entity with
  | none =>
      exact Or.inl ⟨_, by
        simp [submitEditing, findEntity, posted, found]; rfl⟩
  | some row =>
  have key : row.id = entity := (Keyed.find_eq_some found).2
  cases generated :
      generateBusinessHoursJson (hoursOf database entity) with
  | error failure =>
      exact Or.inl ⟨failure, by
        simp [submitEditing, findEntity, posted, found, key, generated]⟩
  | ok current =>
  cases nameBound : (request.get "name").bound with
  | error failure =>
      exact Or.inl ⟨failure, by
        simp [submitEditing, findEntity, posted, found, key, generated,
          nameBound]⟩
  | ok name =>
  cases addressBound : (request.get "address").bound with
  | error failure =>
      exact Or.inl ⟨failure, by
        simp [submitEditing, findEntity, posted, found, key, generated,
          nameBound, addressBound]⟩
  | ok address =>
  cases hoursBound :
      (changedHours (request.get "business_hours") current).bound with
  | error failure =>
      exact Or.inl ⟨failure, by
        simp [submitEditing, findEntity, posted, found, key, generated,
          nameBound, addressBound, hoursBound]⟩
  | ok hours =>
      exact Or.inr ⟨entity, current, name, address, hours, rfl, generated,
        rfl, rfl, hoursBound,
        submitEditing_accepted posted found generated nameBound
          addressBound hoursBound⟩

/--
A contribution stores a new entity, with no hours shown yet, and then its
hours, or changes nothing.
-/
theorem saveContribution_cases
    (config : SiteConfig) (request : Request) (database : Database) :
    (saveContribution config request).final database = database ∨
      ∃ row table,
        row.id = request.uuid ∧
          row.businessHoursJson = "" ∧
          row.reviewFields =
            storeFields
              (some (inputFields request getReviewKeys "review_" "0")) ∧
          database.entities.insert row = some table ∧
          (saveContribution config request).final database =
            if config.businessHoursEnabled then
              (createBusinessHours request.uuid
                (request.get "business-hours")).final
                { database with entities := table }
            else { database with entities := table } := by
  cases place : contributedPlace config request with
  | error failure =>
      exact Or.inl (by simp [saveContribution, Process.final, place])
  | ok where_ =>
  obtain ⟨address, latitude, longitude⟩ := where_
  cases named : (request.get "name").insertText with
  | error failure =>
      exact Or.inl (by simp [saveContribution, Process.final, place, named])
  | ok name =>
  cases located : (request.get "city").insertText with
  | error failure =>
      exact Or.inl (by
        simp [saveContribution, Process.final, place, named, located])
  | ok city =>
  let row : Entity :=
    { id := request.uuid
      name := varchar name
      city := varchar city
      status := approvedStatus
      rank := 99999
      reviewFields := storeFields
        (some (inputFields request getReviewKeys "review_" "0"))
      infoFields := storeFields
        (some (inputFields request getInfoKeys "info_" ""))
      address := varchar address
      latitude := latitude
      longitude := longitude
      userId := 0
      businessHoursJson := "" }
  cases inserted : database.entities.insert row with
  | none =>
      exact Or.inl (by
        simp [saveContribution, Process.final, place, named, located,
          saveEntity, row, inserted])
  | some table =>
      refine Or.inr ⟨row, table, rfl, rfl, rfl, inserted, ?_⟩
      cases enabled : config.businessHoursEnabled with
      | false =>
          simp [saveContribution, Process.final, place, named, located,
            saveEntity, row, inserted, enabled]
      | true =>
          have ran :
              (saveContribution config request).final database =
                ((createBusinessHours request.uuid
                    (request.get "business-hours") >>= fun _ =>
                  (pure (.notice "新增成功！" "非常謝謝您，已經新增進資料庫！") :
                    Handler Response))).final
                  { database with entities := table } := by
            simp [saveContribution, Process.final, place, named, located,
              saveEntity, row, inserted, enabled]
          rw [ran, if_pos rfl]
          exact Process.final_bind_pure _ _ _

end ColumnFormats

end NomadiCore
