import NomadiCore.EntityHandlers

/-!
# What an approval leaves behind

`Editing::approve` writes the status of the editing, the entity and its hours
in separate statements, and asks the geocoding service after the first of
them.  The columns of the entity cut what does not fit.  The main theorem says
exactly when the three end up consistent.
-/

namespace NomadiCore

open NomadiCore.Library.JsonText
open NomadiCore.Library.RowTable
open NomadiCore.Library.StatementProcess
open NomadiCore.Library.TextColumn

/-! ## Merged fields -/

/-- What a JSON column has under a key. -/
def storedField (fields : Fields) (key : String) : Option Value :=
  fields.bind fun fields => getField fields key

theorem fieldValue_eq (fields : Fields) (key : String) (default : Value) :
    fieldValue fields key default =
      (storedField fields key).getD default := by
  cases fields with
  | none => rfl
  | some fields => rfl

theorem storedField_assignField
    (fields : Fields) (key wanted : String) (value : Value) :
    storedField (assignField fields key value) wanted =
      if wanted = key then some value else storedField fields wanted := by
  cases fields with
  | none =>
      simp [storedField, assignField, getField_setField]
  | some fields =>
      simp [storedField, assignField, getField_setField]

/-- A merged field has the value of the editing, unless that is empty. -/
theorem storedField_mergeInfoFields
    (editing : Editing) (keys : List String) (fields : Fields)
    (wanted : String) :
    storedField (mergeInfoFields editing keys fields) wanted =
      if wanted ∈ keys ∧ editing.getValue wanted ≠ .text "" then
        some (editing.getValue wanted)
      else storedField fields wanted := by
  induction keys generalizing fields with
  | nil => simp [mergeInfoFields]
  | cons key rest induction =>
      rw [mergeInfoFields, induction]
      by_cases same : wanted = key
      · subst wanted
        by_cases empty : editing.getValue key = .text ""
        · simp [empty]
        · simp [empty, storedField_assignField]
      · by_cases empty : editing.getValue key = .text ""
        · simp [empty, same]
        · simp [empty, same, storedField_assignField]

/-! ## Status and entity -/

/-- The status of a stored editing. -/
def editingStatus (database : Database) (id : Nat) : Option Int :=
  (database.editings.find id).map fun entry => entry.row.status

/-- The entity carries the editing, at the new coordinates. -/
structure Carries
    (editing : Editing) (latitude longitude : ℚ) (before after : Entity) :
    Prop where
  name : after.name = editing.name.getD ""
  address : after.address = editing.address.getD ""
  infoFields : ∀ field,
    storedField after.infoFields field =
      if field ∈ getInfoKeys ∧ editing.getValue field ≠ .text "" then
        some (editing.getValue field)
      else storedField before.infoFields field
  latitude : after.latitude = latitude
  longitude : after.longitude = longitude

/-- A field that the form shows is the posted one, unless that is empty. -/
theorem Carries.getInfoFieldValue
    {editing : Editing} {latitude longitude : ℚ} {before after : Entity}
    (carries : Carries editing latitude longitude before after)
    {field : String} (listed : field ∈ getInfoKeys) :
    after.getInfoFieldValue field =
      if editing.getValue field ≠ .text "" then editing.getValue field
      else before.getInfoFieldValue field := by
  rw [Entity.getInfoFieldValue, fieldValue_eq, carries.infoFields field,
    Entity.getInfoFieldValue, fieldValue_eq]
  by_cases empty : editing.getValue field = .text ""
  · simp [empty]
  · simp [empty, listed]

section ColumnFormats

variable [ColumnFormat]

/-- What an editing gives an entity fits into the columns of the entity. -/
structure FitsColumns (editing : Editing) (entity : Entity) : Prop where
  name : Fits 255 (editing.name.getD "")
  address : Fits 255 (editing.address.getD "")
  infoFields :
    FitsText (mergeInfoFields editing getInfoKeys entity.infoFields)

/-- What fits is stored as it is. -/
theorem applyEditing_of_fits
    {editing : Editing} {entity : Entity}
    (fits : FitsColumns editing entity) (latitude longitude : ℚ) :
    applyEditing editing latitude longitude entity =
      { entity with
        name := editing.name.getD ""
        infoFields := mergeInfoFields editing getInfoKeys entity.infoFields
        address := editing.address.getD ""
        latitude := latitude
        longitude := longitude } := by
  simp only [applyEditing, varchar, keep_of_fits fits.name,
    keep_of_fits fits.address, storeFields_of_fits fits.infoFields]

theorem applyEditing_carries
    {editing : Editing} {entity : Entity}
    (fits : FitsColumns editing entity) (latitude longitude : ℚ) :
    Carries editing latitude longitude entity
      (applyEditing editing latitude longitude entity) := by
  rw [applyEditing_of_fits fits]
  exact ⟨rfl, rfl, storedField_mergeInfoFields editing getInfoKeys
    entity.infoFields, rfl, rfl⟩

/-- A column that was cut has no fields, so it had more before. -/
theorem fitsText_of_storedField
    {fields : Fields}
    (same : ∀ key, storedField (storeFields fields) key =
      storedField fields key) : FitsText fields := by
  by_contra cut
  have missing : ∀ key, storedField fields key = none := by
    intro key
    rw [← same key, storeFields, if_neg cut]
    rfl
  cases fields with
  | none => exact cut (by simp [FitsText, encodeFields])
  | some fields =>
      cases fields with
      | nil => exact cut (by
          simp [FitsText, encodeFields, positions, encodeList])
      | cons field rest =>
          obtain ⟨key, value⟩ := field
          have present := missing key
          simp [storedField] at present

theorem fitsColumns_of_carries
    {editing : Editing} {entity : Entity} {latitude longitude : ℚ}
    (carries : Carries editing latitude longitude entity
      (applyEditing editing latitude longitude entity)) :
    FitsColumns editing entity where
  name := keep_eq_self_iff.mp carries.name
  address := keep_eq_self_iff.mp carries.address
  infoFields := by
    apply fitsText_of_storedField
    intro key
    rw [storedField_mergeInfoFields]
    exact carries.infoFields key

end ColumnFormats

/-- The database after the first statement. -/
def withApprovedStatus (database : Database) (id : Nat) : Database :=
  { database with
    editings := database.editings.update id fun row =>
      { row with status := approvedStatus } }

theorem editingStatus_withApprovedStatus
    {database : Database} {id : Nat} {entry : Entry Editing}
    (stored : database.editings.find id = some entry) :
    editingStatus (withApprovedStatus database id) id =
      some approvedStatus := by
  have sameId : entry.id = id := by
    simpa using (Table.first_eq_some stored).2
  simp [editingStatus, withApprovedStatus, Table.find_update, stored,
    sameId]

section ColumnFormats

variable [ColumnFormat]

/-- The database after the entity is saved. -/
def withAppliedEditing
    (database : Database) (id : Nat) (editing : Editing)
    (latitude longitude : ℚ) (entity : Entity) : Database :=
  { withApprovedStatus database id with
    entities := database.entities.update entity.id
      (applyEditing editing latitude longitude)
      (applyEditing_id editing latitude longitude) }

/-! ## The hours that a text describes -/

/--
The hours that a decoded text gives for a day: an array with an `open` entry
and, unless that is `null`, a `close` entry, both of them storable.
-/
def describedDay (data : Json) (name : String) :
    Option (Option Time × Option Time) :=
  match data with
  | .object days =>
      match lookup name days with
      | some (.object day) =>
          match lookup "open" day with
          | some .null => some (none, none)
          | some opens =>
              match lookup "close" day with
              | some closes =>
                  match bindTime opens, bindTime closes with
                  | .ok openTime, .ok closeTime =>
                      some (openTime, closeTime)
                  | _, _ => none
              | none => none
          | none => none
      | _ => none
  | _ => none

/-- The rows of a list of days, when all of them are described. -/
def describedRows (entity : String) (data : Json) :
    List (Nat × String) → Option (List BusinessHour)
  | [] => some []
  | (day, name) :: rest =>
      match describedDay data name, describedRows entity data rest with
      | some (openTime, closeTime), some rows =>
          some (⟨entity, day, openTime, closeTime⟩ :: rows)
      | _, _ => none

/-- The hours of the week that a text describes. -/
def describedWeek (entity json : String) : Option (List BusinessHour) :=
  describedRows entity (decode json) weekDays

theorem readDay_of_described
    {data : Json} {name : String} {times : Option Time × Option Time}
    (described : describedDay data name = some times) :
    readDay data name = .ok times := by
  unfold describedDay at described
  split at described
  · rename_i days
    split at described
    · rename_i day dayFound
      split at described
      · rename_i openFound
        cases described
        simp [readDay, offset, dayFound, openFound, bind, Except.bind, pure,
          Except.pure]
      · rename_i opens notNull openFound
        split at described
        · rename_i closes closeFound
          split at described
          · rename_i openTime closeTime openBound closeBound
            cases described
            have opensOther : opens ≠ .null := fun equal =>
              notNull equal
            cases opens <;>
              simp_all [readDay, offset, bind, Except.bind, pure,
                Except.pure]
          · cases described
        · cases described
      · cases described
    · cases described
  · cases described

/-- What a text describes is what is written and kept. -/
theorem weekRows_of_described
    {entity json : String} {rows : List BusinessHour}
    (described : describedWeek entity json = some rows) :
    weekRows entity (.text json) = rows := by
  have general :
      ∀ (days : List (Nat × String)) (rows : List BusinessHour),
        describedRows entity (decode json) days = some rows →
          writtenRows entity (decode json) days = rows := by
    intro days
    induction days with
    | nil =>
        intro rows described
        simpa [describedRows, writtenRows] using described
    | cons head rest induction =>
        obtain ⟨day, name⟩ := head
        intro rows described
        simp only [describedRows] at described
        split at described
        · rename_i openTime closeTime later dayDescribed restDescribed
          cases described
          rw [writtenRows, readDay_of_described dayDescribed]
          simp only [induction later restDescribed]
        · cases described
  exact general weekDays rows described

/-! ## The two outcomes -/

/-- Everything was applied. -/
structure Applied
    (id : Nat) (editing : Editing) (entity : Entity) (geocode : Geocode)
    (after : Database) : Prop where
  status : editingStatus after id = some approvedStatus
  stored : ∃ latitude longitude row,
    geocode = .location latitude longitude ∧
      after.entities.find entity.id = some row ∧
      Carries editing latitude longitude entity row
  hours : ∀ json, editing.businessHours = some json →
    describedWeek entity.id json = some (hoursOf after entity.id)

/-- Nothing was changed. -/
structure Untouched
    (id : Nat) (entity : Entity) (before after : Database) : Prop where
  status : editingStatus after id = editingStatus before id
  stored : after.entities.find entity.id = before.entities.find entity.id
  hours : hoursOf after entity.id = hoursOf before entity.id

/--
The geocoding answers with a location, the editing fits into the columns of
the entity, and the hours, if there are any, describe the whole week.
-/
structure Completes (editing : Editing) (entity : Entity)
    (geocode : Geocode) : Prop where
  located : ∃ latitude longitude, geocode = .location latitude longitude
  fits : FitsColumns editing entity
  described : ∀ json, editing.businessHours = some json →
    (describedWeek entity.id json).isSome

/--
The editing was approved before, and there is nothing to change: the geocoding
fails, or the entity and its rows are already what would be written.
-/
def AlreadyApproved
    (database : Database) (editing : Editing) (entity : Entity)
    (geocode : Geocode) : Prop :=
  editing.status = approvedStatus ∧
    ∀ latitude longitude, geocode = .location latitude longitude →
      applyEditing editing latitude longitude entity = entity ∧
        ∀ json, editing.businessHours = some json →
          hoursOf database entity.id = weekRows entity.id (.text json)

/-! ## The statements of `approve` -/

/-- A failed geocoding ends `approve` after its first statement. -/
theorem approve_unlocated
    {database : Database} {id : Nat} {editing : Editing} {entity : Entity}
    {geocode : Geocode}
    (belongs : database.entities.find editing.entityId = some entity)
    (unlocated : ∀ latitude longitude,
      geocode ≠ .location latitude longitude) :
    (approve id editing geocode).final database =
      withApprovedStatus database id := by
  cases geocode with
  | location latitude longitude =>
      exact absurd rfl (unlocated latitude longitude)
  | noResults =>
      simp [approve, Process.final, setEditingStatus, belongs,
        setupEntityCoordinate, withApprovedStatus]
  | exception =>
      simp [approve, Process.final, setEditingStatus, belongs,
        setupEntityCoordinate, withApprovedStatus]

/-- With a location the entity is saved, then its hours are replaced. -/
theorem approve_located
    {database : Database} {id : Nat} {editing : Editing} {entity : Entity}
    (belongs : database.entities.find editing.entityId = some entity)
    (latitude longitude : ℚ) :
    (approve id editing (.location latitude longitude)).final database =
      match editing.businessHours with
      | some json =>
          (createBusinessHours entity.id (.text json)).final
            (withAppliedEditing database id editing latitude longitude
              entity)
      | none =>
          withAppliedEditing database id editing latitude longitude
            entity := by
  cases hours : editing.businessHours with
  | none =>
      simp [approve, Process.final, setEditingStatus, belongs,
        setupEntityCoordinate, saveApproved, withApprovedStatus,
        withAppliedEditing, hours]
  | some json =>
      simp [approve, Process.final, setEditingStatus, belongs,
        setupEntityCoordinate, saveApproved, withApprovedStatus,
        withAppliedEditing, hours]

/-- An editing of no entity ends `approve` there, too. -/
theorem approve_orphan
    {database : Database} {id : Nat} {editing : Editing}
    {geocode : Geocode}
    (orphan : database.entities.find editing.entityId = none) :
    (approve id editing geocode).final database =
      withApprovedStatus database id := by
  simp [approve, Process.final, setEditingStatus, orphan,
    withApprovedStatus]

/-- What a located approval leaves of the entity and its hours. -/
theorem approve_located_entity
    {database : Database} {id : Nat} {editing : Editing} {entity : Entity}
    (belongs : database.entities.find editing.entityId = some entity)
    (latitude longitude : ℚ) {after : Database}
    (left : (approve id editing (.location latitude longitude)).final
      database = after) :
    after.entities.find entity.id =
        some (applyEditing editing latitude longitude entity) ∧
      hoursOf after entity.id =
        match editing.businessHours with
        | some json => weekRows entity.id (.text json)
        | none => hoursOf database entity.id := by
  have key : entity.id = editing.entityId :=
    (Keyed.find_eq_some belongs).2
  have saved :
      (withAppliedEditing database id editing latitude longitude
          entity).entities.find entity.id =
        some (applyEditing editing latitude longitude entity) := by
    have found : database.entities.find entity.id = some entity := by
      rw [key, belongs]
    simp only [withAppliedEditing]
    rw [Keyed.find_update, found]
    simp
  rw [approve_located belongs] at left
  cases hours : editing.businessHours with
  | none =>
      simp only [hours] at left
      subst left
      exact ⟨saved, rfl⟩
  | some json =>
      simp only [hours] at left
      subst left
      have hoursAfter :=
        hoursOf_createBusinessHours entity.id (.text json)
          (withAppliedEditing database id editing latitude longitude entity)
      obtain ⟨table, left⟩ :=
        createBusinessHours_final entity.id (.text json)
          (withAppliedEditing database id editing latitude longitude entity)
      rw [left] at hoursAfter ⊢
      exact ⟨saved, hoursAfter⟩

/-- A located approval leaves the editing approved. -/
theorem approve_located_status
    {database : Database} {id : Nat} {editing : Editing} {entity : Entity}
    {entry : Entry Editing}
    (stored : database.editings.find id = some entry)
    (belongs : database.entities.find editing.entityId = some entity)
    (latitude longitude : ℚ) :
    editingStatus
        ((approve id editing (.location latitude longitude)).final database)
        id =
      some approvedStatus := by
  have status := editingStatus_withApprovedStatus stored
  rw [approve_located belongs]
  cases hours : editing.businessHours with
  | none => exact status
  | some json =>
      obtain ⟨table, left⟩ :=
        createBusinessHours_final entity.id (.text json)
          (withAppliedEditing database id editing latitude longitude entity)
      simp only
      rw [left]
      exact status

/-! ## Exactly when an approval is all or nothing -/

/-- With a location: either the week is described, or nothing changed. -/
theorem approve_located_iff
    {database : Database} {id : Nat} {editing : Editing} {entity : Entity}
    (stored : database.editings.find id = some ⟨id, editing.kept⟩)
    (belongs : database.entities.find editing.entityId = some entity)
    (latitude longitude : ℚ) {after : Database}
    (left : (approve id editing (.location latitude longitude)).final
      database = after) :
    (Applied id editing entity (.location latitude longitude) after ∨
        Untouched id entity database after) ↔
      (Completes editing entity (.location latitude longitude) ∨
        AlreadyApproved database editing entity
          (.location latitude longitude)) := by
  have status := approve_located_status stored belongs latitude longitude
  rw [left] at status
  obtain ⟨saved, hours⟩ :=
    approve_located_entity belongs latitude longitude left
  have key : entity.id = editing.entityId :=
    (Keyed.find_eq_some belongs).2
  constructor
  · rintro (applied | untouched)
    · obtain ⟨_, _, row, place, found, carries⟩ := applied.stored
      cases place
      rw [saved] at found
      cases found
      refine Or.inl
        ⟨⟨_, _, rfl⟩, fitsColumns_of_carries carries, ?_⟩
      intro json posted
      rw [applied.hours json posted]
      rfl
    · refine Or.inr ⟨?_, ?_⟩
      · have same := untouched.status
        rw [status] at same
        simpa [editingStatus, stored] using same.symm
      · intro otherLatitude otherLongitude equal
        cases equal
        constructor
        · have same := untouched.stored
          rw [saved, key, belongs] at same
          simpa using same
        · intro json posted
          rw [← untouched.hours, hours, posted]
  · rintro (⟨-, fits, described⟩ | ⟨wasApproved, nothingNew⟩)
    · refine Or.inl ⟨status, ?_, ?_⟩
      · exact ⟨latitude, longitude, _, rfl, saved,
          applyEditing_carries fits latitude longitude⟩
      · intro json posted
        obtain ⟨rows, isWeek⟩ :=
          Option.isSome_iff_exists.mp (described json posted)
        rw [hours, posted, isWeek]
        simp only [weekRows_of_described isWeek]
    · obtain ⟨sameEntity, sameHours⟩ :=
        nothingNew latitude longitude rfl
      refine Or.inr ⟨?_, ?_, ?_⟩
      · rw [status]
        simp [editingStatus, stored, wasApproved]
      · rw [saved, sameEntity, key, belongs]
      · rw [hours]
        cases posted : editing.businessHours with
        | none => rfl
        | some json => exact (sameHours json posted).symm

/--
An approval applies everything or changes nothing exactly when it can be
completed, or when the editing was approved before and nothing is to change.
-/
theorem approve_all_or_nothing_iff
    (database : Database) (id : Nat) (editing : Editing) (entity : Entity)
    (geocode : Geocode)
    (stored : database.editings.find id = some ⟨id, editing.kept⟩)
    (belongs : database.entities.find editing.entityId = some entity) :
    (Applied id editing entity geocode
          ((approve id editing geocode).final database) ∨
        Untouched id entity database
          ((approve id editing geocode).final database)) ↔
      (Completes editing entity geocode ∨
        AlreadyApproved database editing entity geocode) := by
  by_cases located :
      ∃ latitude longitude, geocode = .location latitude longitude
  · obtain ⟨latitude, longitude, rfl⟩ := located
    exact approve_located_iff stored belongs latitude longitude rfl
  have unlocated : ∀ latitude longitude,
      geocode ≠ .location latitude longitude :=
    fun latitude longitude equal => located ⟨latitude, longitude, equal⟩
  rw [approve_unlocated belongs unlocated]
  constructor
  · rintro (applied | untouched)
    · obtain ⟨latitude, longitude, -, equal, -⟩ := applied.stored
      exact absurd equal (unlocated latitude longitude)
    · refine Or.inr ⟨?_, ?_⟩
      · have same := untouched.status
        rw [editingStatus_withApprovedStatus stored] at same
        simpa [editingStatus, stored] using same.symm
      · intro latitude longitude equal
        exact absurd equal (unlocated latitude longitude)
  · rintro (completes | ⟨wasApproved, -⟩)
    · obtain ⟨latitude, longitude, equal⟩ := completes.located
      exact absurd equal (unlocated latitude longitude)
    · refine Or.inr ⟨?_, rfl, rfl⟩
      rw [editingStatus_withApprovedStatus stored]
      simp [editingStatus, stored, wasApproved]

end ColumnFormats

/-! ## A shop with an editing -/

def chickenShop : Entity where
  id := "e"
  name := "Old"
  city := "taipei"
  status := approvedStatus
  rank := 99999
  reviewFields := none
  infoFields := none
  address := "1 Road"
  latitude := 25
  longitude := 121
  userId := 0
  businessHoursJson := ""

def mondayWeek : String :=
  encodeWeek
    [some ("09:00", "17:00"), none, none, none, none, none, none]

/-- The shop gets a new name and is open on Mondays. -/
def newName : Editing where
  entityId := "e"
  status := 0
  userId := 1
  name := some "New"
  infoFields := some []
  address := some "1 Road"
  businessHours := some mondayWeek

def chickenSite : Database :=
  { Database.empty with
    entities := Keyed.empty.append chickenShop (by decide) }

def shopWithRenaming : Database :=
  { chickenSite with editings := Table.empty.insert newName }

theorem newName_kept : @Editing.kept clock newName = newName := by
  have hours : keepBytes 65535 mondayWeek = mondayWeek := by
    apply keepBytes_of_short
    · rw [mondayWeek, encodeWeek, String.toList_ofList]
      exact List.all_eq_true.mp (by decide +kernel)
    · rw [mondayWeek, encodeWeek, String.toList_ofList]
      decide +kernel
  simp only [Editing.kept, newName, Option.map_some, hours]
  rfl

theorem new_name_is_applied :
    @Applied clock 1 newName chickenShop (.location 25 121)
        (Process.final (@approve clock 1 newName (.location 25 121))
          shopWithRenaming) ∨
      Untouched 1 chickenShop shopWithRenaming
        (Process.final (@approve clock 1 newName (.location 25 121))
          shopWithRenaming) := by
  refine (@approve_all_or_nothing_iff clock shopWithRenaming 1 newName
    chickenShop (.location 25 121) (by rw [newName_kept]; rfl)
    rfl).mpr (Or.inl ?_)
  refine @Completes.mk clock newName chickenShop _ ⟨25, 121, rfl⟩
    (@FitsColumns.mk clock _ _ (by decide) (by decide) (by decide)) ?_
  intro json posted
  have equal : mondayWeek = json := Option.some.inj posted
  subst equal
  unfold describedWeek mondayWeek
  rw [decode_encodeWeek]
  rfl

/-- The geocoding fails: the editing is approved and nothing is applied. -/
theorem new_name_half_applied :
    shopWithRenaming.editings.find 1 = some ⟨1, newName⟩ ∧
      shopWithRenaming.entities.find newName.entityId =
        some chickenShop ∧
      ¬ (@Applied clock 1 newName chickenShop .exception
            (Process.final (@approve clock 1 newName .exception)
              shopWithRenaming) ∨
          Untouched 1 chickenShop shopWithRenaming
            (Process.final (@approve clock 1 newName .exception)
              shopWithRenaming)) := by
  refine ⟨rfl, rfl, ?_⟩
  rintro (applied | untouched)
  · obtain ⟨latitude, longitude, -, equal, -⟩ :=
      @Applied.stored clock _ _ _ _ _ applied
    cases equal
  · have status := editingStatus_withApprovedStatus
      (show shopWithRenaming.editings.find 1 = some _ from rfl)
    have same := untouched.status
    rw [@approve_unlocated clock shopWithRenaming 1 newName chickenShop
      .exception rfl nofun, status] at same
    exact absurd same (by decide)

end NomadiCore
