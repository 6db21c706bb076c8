import NomadiCore.EditingApproval
import NomadiCore.HoursRoundTrip
import NomadiCore.Library.LabelledRun

/-!
# The shown hours and the stored hours

`getBusinessHoursJson` keeps what it first generated and never looks at the
rows again, and no operation that rewrites the rows empties it.  The hours
that are shown are the stored ones as long as rows are only rewritten before
they have been shown, or by the same hours.
-/

namespace NomadiCore

open NomadiCore.Library.LabelledRun
open NomadiCore.Library.RowTable
open NomadiCore.Library.StatementProcess

section ColumnFormats

variable [ColumnFormat]

/-! ## The operations on hours -/

/-- An operation that reads or rewrites the hours of an entity. -/
inductive HoursStep where
  | saveContribution (config : SiteConfig) (request : Request)
  | submitEditing (request : Request)
  | approve (id : Nat) (geocode : Geocode)
  | createBusinessHours (entity : String) (json : Input)
  | getBusinessHoursJson (entity : String)
deriving DecidableEq

/-- `approve` called on a stored editing. -/
def approveStored (id : Nat) (geocode : Geocode) : Handler Unit := do
  let found ← .query fun database => database.editings.find id
  let entry ← .require .error found
  approve id entry.row geocode

/-- The database an operation leaves, whether it succeeds or not. -/
def hoursStep (database : Database) : HoursStep → Option Database
  | .saveContribution config request =>
      some ((saveContribution config request).final database)
  | .submitEditing request => some ((submitEditing request).final database)
  | .approve id geocode => some ((approveStored id geocode).final database)
  | .createBusinessHours entity json =>
      some ((createBusinessHours entity json).final database)
  | .getBusinessHoursJson entity =>
      some ((getBusinessHoursJson entity).final database)

/--
The hours of the entity have not been shown yet, or the new ones are shown in
the same way.
-/
def ShownAlike (database : Database) (entity : String) (json : Input) :
    Prop :=
  ∀ row ∈ database.entities.rows, row.id = entity →
    row.businessHoursJson = "" ∨
      generateBusinessHoursJson (weekRows entity json) =
        .ok row.businessHoursJson

/-- The geocoding service gives a location. -/
def Located (geocode : Geocode) : Prop :=
  ∃ latitude longitude, geocode = .location latitude longitude

/--
The operation rewrites hours only as `ShownAlike` says.  An editing rewrites
them when it is located and can be stored with hours that differ from the
current ones.
-/
def RewritesUnshown (database : Database) : HoursStep → Prop
  | .saveContribution _ _ => True
  | .submitEditing request =>
      ∀ entity current name address json,
        request.get "entity_id" = .text entity →
          generateBusinessHoursJson (hoursOf database entity) =
            .ok current →
          (request.get "name").bound = .ok name →
          (request.get "address").bound = .ok address →
          request.get "business_hours" = .text json →
          json ≠ current →
          Located request.geocode →
          ShownAlike database entity (.text json)
  | .approve id geocode =>
      ∀ entry json,
        database.editings.find id = some entry →
          entry.row.businessHours = some json →
          Located geocode →
          ShownAlike database entry.row.entityId (.text json)
  | .createBusinessHours entity json => ShownAlike database entity json
  | .getBusinessHoursJson _ => True

/-- What is kept for an entity, if anything, is generated from its rows. -/
def MemoFresh (database : Database) : Prop :=
  ∀ row ∈ database.entities.rows,
    row.businessHoursJson = "" ∨
      generateBusinessHoursJson (hoursOf database row.id) =
        .ok row.businessHoursJson

/-! ## What the operations keep -/

theorem createBusinessHours_entities
    (entity : String) (json : Input) (database : Database) :
    ((createBusinessHours entity json).final database).entities =
      database.entities := by
  obtain ⟨table, left⟩ := createBusinessHours_final entity json database
  rw [left]

theorem createBusinessHours_keeps
    {database : Database} {entity : String} {json : Input}
    (fresh : MemoFresh database)
    (alike : ShownAlike database entity json) :
    MemoFresh ((createBusinessHours entity json).final database) := by
  intro row member
  rw [createBusinessHours_entities] at member
  by_cases rewritten : row.id = entity
  · rw [rewritten, hoursOf_createBusinessHours]
    exact alike row member rewritten
  · rw [hoursOf_createBusinessHours_of_ne rewritten]
    exact fresh row member

/-- Saving an approved entity keeps its id and what is kept for it. -/
theorem mem_withAppliedEditing
    {database : Database} {id : Nat} {editing : Editing}
    {latitude longitude : ℚ} {entity row : Entity}
    (member : row ∈ (withAppliedEditing database id editing latitude
      longitude entity).entities.rows) :
    ∃ old ∈ database.entities.rows,
      row.id = old.id ∧
        row.businessHoursJson = old.businessHoursJson := by
  obtain ⟨old, oldMember, equal⟩ := List.mem_map.mp member
  refine ⟨old, oldMember, ?_⟩
  subst equal
  split
  · exact ⟨rfl, rfl⟩
  · exact ⟨rfl, rfl⟩

theorem approve_keeps
    {database : Database} {id : Nat} {editing : Editing}
    {geocode : Geocode}
    (fresh : MemoFresh database)
    (alike : ∀ json, editing.businessHours = some json →
      Located geocode →
      ShownAlike database editing.entityId (.text json)) :
    MemoFresh ((approve id editing geocode).final database) := by
  cases belongs : database.entities.find editing.entityId with
  | none =>
      rw [approve_orphan belongs]
      exact fresh
  | some entity =>
  have key : entity.id = editing.entityId :=
    (Keyed.find_eq_some belongs).2
  by_cases located : Located geocode
  · obtain ⟨latitude, longitude, rfl⟩ := located
    have saved : MemoFresh (withAppliedEditing database id editing latitude
        longitude entity) := by
      intro row member
      obtain ⟨old, oldMember, sameId, sameJson⟩ :=
        mem_withAppliedEditing member
      rw [sameId, sameJson]
      exact fresh old oldMember
    rw [approve_located belongs]
    cases hours : editing.businessHours with
    | none => exact saved
    | some json =>
        apply createBusinessHours_keeps saved
        intro row member isEntity
        obtain ⟨old, oldMember, sameId, sameJson⟩ :=
          mem_withAppliedEditing member
        rw [sameJson, key]
        exact alike json hours ⟨latitude, longitude, rfl⟩ old oldMember
          (by rw [← sameId, isEntity, key])
  · rw [approve_unlocated belongs
      fun latitude longitude equal =>
        located ⟨latitude, longitude, equal⟩]
    exact fresh

theorem submitEditing_keeps
    {database : Database} {request : Request}
    (fresh : MemoFresh database)
    (condition : RewritesUnshown database (.submitEditing request)) :
    MemoFresh ((submitEditing request).final database) := by
  rcases submitEditing_run request database with
    ⟨failure, raised⟩ |
      ⟨entity, current, name, address, hours, posted, generated, named,
        addressed, hoursBound, left⟩
  · rw [Process.final, raised]
    exact fresh
  · rw [left]
    have stored :
        MemoFresh
          { database with
            editings := database.editings.insert
              (postedEditing request entity name address hours).kept } :=
      fresh
    apply approve_keeps stored
    intro json changed located
    obtain ⟨postedHours, different⟩ :=
      changedHours_bound hoursBound changed
    exact condition entity current name address json posted generated named
      addressed postedHours different located

theorem saveContribution_keeps
    {database : Database} {config : SiteConfig} {request : Request}
    (fresh : MemoFresh database) :
    MemoFresh ((saveContribution config request).final database) := by
  rcases saveContribution_cases config request database with
    unchanged | ⟨new, table, newId, unshown, -, inserted, left⟩
  · rw [unchanged]
    exact fresh
  obtain ⟨free, rows⟩ := Keyed.insert_eq_some inserted
  have stored : MemoFresh { database with entities := table } := by
    intro row member
    have listed : row ∈ table.rows := member
    rw [rows, List.mem_append, List.mem_singleton] at listed
    rcases listed with old | isNew
    · exact fresh row old
    · rw [isNew]
      exact Or.inl unshown
  rw [left]
  split
  · apply createBusinessHours_keeps stored
    intro row member isNew
    have listed : row ∈ table.rows := member
    rw [rows, List.mem_append, List.mem_singleton] at listed
    rcases listed with old | equal
    · refine absurd (List.mem_map.mpr ⟨row, old, ?_⟩) free
      rw [isNew, newId]
    · rw [equal]
      exact Or.inl unshown
  · exact stored

/-! ## What is shown -/

/-- Hours that were shown are shown again. -/
theorem getBusinessHoursJson_shown
    {database : Database} {entity : String} {row : Entity}
    (found : database.entities.find entity = some row)
    (shown : row.businessHoursJson ≠ "") :
    (getBusinessHoursJson entity).run database =
      (.ok row.businessHoursJson, database) := by
  simp [getBusinessHoursJson, found, shown]

/-- Hours that were not shown yet are generated and kept. -/
theorem getBusinessHoursJson_unshown
    {database : Database} {entity json : String} {row : Entity}
    (found : database.entities.find entity = some row)
    (unshown : row.businessHoursJson = "")
    (generated :
      generateBusinessHoursJson (hoursOf database entity) = .ok json) :
    (getBusinessHoursJson entity).run database =
      (.ok json, (setBusinessHoursJson entity json).final database) := by
  simp [getBusinessHoursJson, Process.final, found, unshown, generated,
    setBusinessHoursJson]

omit [ColumnFormat] in
theorem find_setBusinessHoursJson
    {database : Database} {entity : String} {row : Entity}
    (found : database.entities.find entity = some row) (json : String) :
    ((setBusinessHoursJson entity json).final database).entities.find
        entity =
      some { row with businessHoursJson := json } := by
  have key : row.id = entity := (Keyed.find_eq_some found).2
  have saved := Keyed.find_update database.entities entity entity
    (fun row => { row with businessHoursJson := json }) fun _ => rfl
  rw [found, Option.map_some, if_pos key] at saved
  exact saved

/-- Showing the hours of an entity answers and keeps what is fresh. -/
theorem getBusinessHoursJson_spec
    {database : Database} (fresh : MemoFresh database) (entity : String) :
    (∀ json after,
      (getBusinessHoursJson entity).run database = (.ok json, after) →
        generateBusinessHoursJson (hoursOf database entity) = .ok json) ∧
      MemoFresh ((getBusinessHoursJson entity).final database) := by
  cases found : database.entities.find entity with
  | none =>
      simpa [getBusinessHoursJson, Process.final, found] using fresh
  | some row =>
  obtain ⟨member, key⟩ := Keyed.find_eq_some found
  by_cases shown : row.businessHoursJson = ""
  · cases generated :
        generateBusinessHoursJson (hoursOf database entity) with
    | error failure =>
        simpa [getBusinessHoursJson, Process.final, found, shown,
          generated] using fresh
    | ok json =>
        rw [Process.final,
          getBusinessHoursJson_unshown found shown generated]
        refine ⟨?_, ?_⟩
        · intro other after ran
          cases ran
          rfl
        · intro new newMember
          obtain ⟨old, oldMember, equal⟩ := List.mem_map.mp newMember
          subst equal
          split
          · rename_i isEntity
            refine Or.inr ?_
            simp only [isEntity]
            exact generated
          · exact fresh old oldMember
  · rw [Process.final, getBusinessHoursJson_shown found shown]
    refine ⟨?_, fresh⟩
    intro json after ran
    cases ran
    rcases fresh row member with unshown | generated
    · exact absurd unshown shown
    · rw [← generated, key]

/-- Every operation under the condition keeps what is fresh. -/
theorem hoursStep_keeps
    {database after : Database} {operation : HoursStep}
    (fresh : MemoFresh database)
    (condition : RewritesUnshown database operation)
    (moved : hoursStep database operation = some after) :
    MemoFresh after := by
  cases operation with
  | saveContribution config request =>
      cases moved
      exact saveContribution_keeps fresh
  | submitEditing request =>
      cases moved
      exact submitEditing_keeps fresh condition
  | createBusinessHours entity json =>
      cases moved
      exact createBusinessHours_keeps fresh condition
  | getBusinessHoursJson entity =>
      cases moved
      exact (getBusinessHoursJson_spec fresh entity).2
  | approve id geocode =>
      cases moved
      cases found : database.editings.find id with
      | none =>
          simpa [approveStored, Process.final, found] using fresh
      | some entry =>
          have left :
              (approveStored id geocode).final database =
                (approve id entry.row geocode).final database := by
            simp [approveStored, Process.final, found]
          rw [left]
          exact approve_keeps fresh fun json changed located =>
            condition entry json found changed located

/--
In every run that rewrites hours only before they were shown, or by hours
that are shown alike, the hours that are shown are generated from the rows
stored at that moment.
-/
theorem shown_hours_are_stored_hours
    {initial database after : Database} {history : List HoursStep}
    (unshown : ∀ row ∈ initial.entities.rows, row.businessHoursJson = "")
    (run : Reaches hoursStep RewritesUnshown initial history database)
    (entity json : String)
    (shows :
      (getBusinessHoursJson entity).run database = (.ok json, after)) :
    generateBusinessHoursJson (hoursOf database entity) = .ok json := by
  have fresh : MemoFresh database :=
    run.invariant (fun row member => Or.inl (unshown row member))
      hoursStep_keeps
  exact (getBusinessHoursJson_spec fresh entity).1 json after shows

end ColumnFormats

/-! ## A shop that opens on Mondays -/

def contributedShop : Request where
  user := some 1
  parameters := [("name", .text "Chicken"), ("city", .text "taipei")]
  uuid := "e"

def hoursOnly : SiteConfig where
  mapEnabled := false
  businessHoursEnabled := true

/-- The shop right after its contribution: closed every day. -/
def afterContribution : Database :=
  Process.final (@saveContribution clock hoursOnly contributedShop)
    Database.empty

def closedWeek : String :=
  encodeWeek (List.replicate 7 none)

/-- An editing with new hours. -/
def mondayEditing : Request where
  user := some 1
  parameters :=
    [("entity_id", .text "e"), ("name", .text "Chicken"),
      ("address", .text "1 Road"), ("business_hours", .text mondayWeek)]
  geocode := .location 25 121

def mondayShop : Editing :=
  postedEditing mondayEditing "e" (some "Chicken") (some "1 Road")
    (some mondayWeek)

theorem closedWeek_ne_mondayWeek : closedWeek ≠ mondayWeek := by
  intro equal
  have sameDays := encodeWeek_injective rfl rfl equal
  cases sameDays

theorem generate_mondayWeek :
    @generateBusinessHoursJson clock
        (@weekRows clock "e" (.text mondayWeek)) = .ok mondayWeek := by
  unfold weekRows decodeInput
  simp only
  rw [show mondayWeek = encodeWeek
    [some ("09:00", "17:00"), none, none, none, none, none, none]
    from rfl]
  rw [decode_encodeWeek]
  rfl

/-- The editing replaces the hours of a shop that is closed every day. -/
theorem mondayEditing_state
    {before : Database} {row : Entity}
    (found : before.entities.find "e" = some row)
    (closed :
      @generateBusinessHoursJson clock (hoursOf before "e") =
        .ok closedWeek) :
    (∃ edited,
        (Process.final (@submitEditing clock mondayEditing)
          before).entities.find "e" = some edited ∧
        edited.businessHoursJson = row.businessHoursJson) ∧
      hoursOf (Process.final (@submitEditing clock mondayEditing) before)
          "e" =
        @weekRows clock "e" (.text mondayWeek) := by
  have key : row.id = "e" := (Keyed.find_eq_some found).2
  have different : Input.text mondayWeek ≠ Input.text closedWeek := by
    simpa using closedWeek_ne_mondayWeek.symm
  have accepted :=
    @submitEditing_accepted clock mondayEditing before row "e"
      closedWeek (some "Chicken") (some "1 Road") (some mondayWeek)
      rfl found closed rfl rfl (by
        have posted :
            mondayEditing.get "business_hours" = .text mondayWeek := rfl
        rw [posted, changedHours, if_pos different]
        rfl)
  obtain ⟨saved, hours⟩ :=
    @approve_located_entity clock
      { before with
        editings := before.editings.insert (@Editing.kept clock mondayShop) }
      before.editings.next mondayShop row found 25 121 _ accepted.symm
  rw [key] at saved hours
  exact ⟨⟨_, saved, rfl⟩, hours⟩

/-- The shop gets its hours before they are shown for the first time. -/
def afterEarlyEditing : Database :=
  Process.final (@submitEditing clock mondayEditing) afterContribution

def afterFirstShowing : Database :=
  Process.final (@getBusinessHoursJson clock "e") afterEarlyEditing

/-- The same hours are written once more. -/
def afterRewriting : Database :=
  Process.final (@createBusinessHours clock "e" (.text mondayWeek))
    afterFirstShowing

/-- The only shop with an id is the one that is found. -/
theorem shownAlike_of_find
    {database : Database} {row : Entity} {json : Input}
    (found : database.entities.find "e" = some row)
    (alike : row.businessHoursJson = "" ∨
      @generateBusinessHoursJson clock (@weekRows clock "e" json) =
        .ok row.businessHoursJson) :
    @ShownAlike clock database "e" json := by
  intro other member isShop
  have same := Keyed.find_of_mem member
  rw [isShop, found] at same
  cases same
  exact alike

theorem contributed_hours_are_shown :
    @generateBusinessHoursJson clock (hoursOf afterRewriting "e") =
      .ok mondayWeek := by
  obtain ⟨contributed, isStored, unshown⟩ :
      ∃ row, afterContribution.entities.find "e" = some row ∧
        row.businessHoursJson = "" := ⟨_, rfl, rfl⟩
  have left := mondayEditing_state isStored rfl
  rw [← afterEarlyEditing] at left
  obtain ⟨⟨edited, isEdited, same⟩, hours⟩ := left
  have generated :
      @generateBusinessHoursJson clock (hoursOf afterEarlyEditing "e") =
        .ok mondayWeek := by
    rw [hours]
    exact generate_mondayWeek
  have shownFirst : afterFirstShowing =
      Process.final (setBusinessHoursJson "e" mondayWeek)
        afterEarlyEditing := by
    rw [afterFirstShowing, Process.final,
      @getBusinessHoursJson_unshown clock afterEarlyEditing "e" mondayWeek
        edited isEdited (same.trans unshown) generated]
  obtain ⟨shown, isShown, memo⟩ :
      ∃ row, afterFirstShowing.entities.find "e" = some row ∧
        row.businessHoursJson = mondayWeek := by
    rw [shownFirst]
    exact ⟨_, find_setBusinessHoursJson isEdited mondayWeek, rfl⟩
  have rewritten : afterRewriting.entities.find "e" = some shown := by
    rw [afterRewriting, @createBusinessHours_entities clock]
    exact isShown
  have nonempty : shown.businessHoursJson ≠ "" := by
    rw [memo]
    decide +kernel
  have shows := @getBusinessHoursJson_shown clock _ _ _ rewritten nonempty
  rw [memo] at shows
  refine @shown_hours_are_stored_hours clock Database.empty afterRewriting
    _ [.createBusinessHours "e" (.text mondayWeek),
      .getBusinessHoursJson "e", .submitEditing mondayEditing,
      .saveContribution hoursOnly contributedShop]
    (by intro row member; cases member)
    (.next (.next (.next (.next .start trivial rfl) ?_ rfl) trivial rfl)
      ?_ rfl) "e" mondayWeek shows
  · intro entity current name address json posted _ _ _ _ _ _
    cases posted
    exact shownAlike_of_find isStored (Or.inl unshown)
  · exact shownAlike_of_find isShown
      (Or.inr (by rw [memo]; exact generate_mondayWeek))

/-- The shop after its hours were shown on the map. -/
def afterShowing : Database :=
  Process.final (@getBusinessHoursJson clock "e") afterContribution

/-- The shop after the editing. -/
def afterMondayEditing : Database :=
  Process.final (@submitEditing clock mondayEditing) afterShowing

/-- The shown hours stay behind the stored ones after an editing. -/
theorem shown_hours_go_stale :
    Reaches (@hoursStep clock) Anything Database.empty
        [.submitEditing mondayEditing, .getBusinessHoursJson "e",
          .saveContribution hoursOnly contributedShop]
        afterMondayEditing ∧
      Process.run (@getBusinessHoursJson clock "e") afterMondayEditing =
        (.ok closedWeek, afterMondayEditing) ∧
      @generateBusinessHoursJson clock (hoursOf afterMondayEditing "e") ≠
        .ok closedWeek := by
  obtain ⟨before, isStored, isShown⟩ :
      ∃ entity, afterShowing.entities.find "e" = some entity ∧
        entity.businessHoursJson = closedWeek :=
    ⟨_, rfl, rfl⟩
  obtain ⟨⟨row, found, same⟩, hours⟩ := mondayEditing_state isStored rfl
  have shown : row.businessHoursJson = closedWeek := same.trans isShown
  refine ⟨?_, ?_, ?_⟩
  · exact .next (.next (.next .start trivial rfl) trivial rfl) trivial rfl
  · have nonempty : row.businessHoursJson ≠ "" := by
      rw [shown]
      decide +kernel
    rw [afterMondayEditing,
      @getBusinessHoursJson_shown clock _ _ _ found nonempty, shown]
  · rw [afterMondayEditing, hours, generate_mondayWeek]
    intro equal
    exact closedWeek_ne_mondayWeek (Except.ok.inj equal).symm

end NomadiCore
