import NomadiCore.EditingApproval
import NomadiCore.HoursRoundTrip

/-!
# Two users edit the same entity

The form of `GET /editing/{id}` posts every input, with the value it was
rendered with where the user did not change it.  `POST /submit-editing`
applies the posted values to the entity as it is by then, so that of two forms
opened on one state the one submitted last decides, as long as what they
contain fits into the columns of the entity.
-/

namespace NomadiCore

open NomadiCore.Library.RowTable
open NomadiCore.Library.StatementProcess

/-! ## The form -/

/-- The inputs of the form; `hours` is `none` when they are not shown. -/
structure EditingForm where
  name : String
  address : String
  info : String → String
  hours : Option (List ShownDay)

/-- The text of a text input, from which a browser drops line breaks. -/
def inputText (text : String) : String :=
  String.ofList
    (text.toList.filter fun character =>
      character ≠ '\n' ∧ character ≠ '\r')

/-- A value written into the page; a list raises. -/
def printValue (printed : ℚ → String) : Value → Except Raised String
  | .text value => .ok value
  | .number value => .ok (printed value)
  | .list _ => .error .errorException

section ColumnFormats

variable [ColumnFormat]

/-- `openTime` and `closeTime` of the presenter, for each of the days. -/
def shownDays (rows : List BusinessHour) :
    List (Nat × String) → Except Raised (List ShownDay)
  | [] => .ok []
  | (number, _) :: rest =>
      match rows.find? fun row => row.day = number with
      | none => .error .errorException
      | some row => do
          let shown ← showRow row
          let later ← shownDays rows rest
          return shown :: later

/-- The hours of the form, where the site has them. -/
def renderHours (config : SiteConfig) (rows : List BusinessHour) :
    Except Raised (Option (List ShownDay)) :=
  if config.businessHoursEnabled then
    (shownDays rows weekDays).map some
  else .ok none

/-- The view `editing`.  How PHP prints a number is a parameter. -/
def renderForm
    (printed : ℚ → String) (config : SiteConfig) (database : Database)
    (entity : String) : Except Raised EditingForm :=
  match database.entities.find entity with
  | none => .error .errorException
  | some row => do
      let _ ← getInfoKeys.mapM fun key =>
        printValue printed (row.getInfoFieldValue key)
      let hours ← renderHours config (hoursOf database entity)
      return {
        name := inputText row.name
        address := inputText row.address
        info := fun key =>
          match printValue printed (row.getInfoFieldValue key) with
          | .ok text => inputText text
          | .error _ => ""
        hours := hours }

/-- What `GET /editing/{id}` answers. -/
inductive EditingPage where
  | redirect (path : String)
  | form (form : EditingForm)

def openEditing
    (printed : ℚ → String) (config : SiteConfig) (database : Database)
    (user : Option Nat) (entity : String) : Except Raised EditingPage :=
  match user with
  | none => .ok (.redirect ("login?&path=/editing/" ++ entity))
  | some _ => (renderForm printed config database entity).map .form

end ColumnFormats

/-- The hidden input of the hours, which the page fills with JSON. -/
def EditingForm.hoursInput (form : EditingForm) : List (String × Input) :=
  match form.hours with
  | some week => [("business_hours", .text (encodeWeek week))]
  | none => []

/-- The request that submits a form, with the place that is geocoded. -/
def EditingForm.post
    (form : EditingForm) (entity : String) (user : Nat)
    (place : ℚ × ℚ) : Request where
  user := some user
  parameters :=
    ("name", .text form.name) :: ("address", .text form.address) ::
      (getInfoKeys.map fun key => (key, .text (form.info key))) ++
      form.hoursInput ++ [("entity_id", .text entity)]
  geocode := .location place.1 place.2

/-! ## What the users change -/

/-- The inputs that a user may change. -/
inductive FormInput where
  | name
  | address
  | info (key : String)
  | hours

section ColumnFormats

variable [ColumnFormat]

/-- What the hours of a form are shown as once they are stored. -/
def EditingForm.storedHours (form : EditingForm) :
    Option (List ShownDay) :=
  form.hours.bind storedWeek

/-- The form gives an input another value than it was opened with. -/
def Changed (base form : EditingForm) : FormInput → Prop
  | .name => form.name ≠ base.name
  | .address => form.address ≠ base.address
  | .info key => key ∈ getInfoKeys ∧ form.info key ≠ base.info key
  | .hours => form.storedHours ≠ base.hours

/--
A form as a user may fill it in: changed info fields are not empty, and the
hours, where they are shown, can be stored and shown again.
-/
structure Fills (base form : EditingForm) : Prop where
  info : ∀ key, Changed base form (.info key) → form.info key ≠ ""
  shown : form.hours.isSome = base.hours.isSome
  hours : ∀ week, form.hours = some week → StorableWeek week

/-- The editing of a form, without the hours. -/
def EditingForm.editing (form : EditingForm) (entity : String) :
    Editing where
  entityId := entity
  status := 0
  userId := 0
  name := some form.name
  infoFields :=
    some (getInfoKeys.map fun key => (key, .text (form.info key)))
  address := some form.address
  businessHours := none

/-- What the form gives the entity fits into the columns of the entity. -/
def FormFits (database : Database) (entity : String)
    (form : EditingForm) : Prop :=
  ∀ row, database.entities.find entity = some row →
    FitsColumns (form.editing entity) row

/-- The entity has the value that the form gives an input. -/
def Carried (database : Database) (entity : String) (form : EditingForm) :
    FormInput → Prop
  | .name => ∃ row, database.entities.find entity = some row ∧
      row.name = form.name
  | .address => ∃ row, database.entities.find entity = some row ∧
      row.address = form.address
  | .info key => ∃ row, database.entities.find entity = some row ∧
      row.getInfoFieldValue key = .text (form.info key)
  | .hours => ∃ week, form.storedHours = some week ∧
      generateBusinessHoursJson (hoursOf database entity) =
        .ok (encodeWeek week)

end ColumnFormats

/-! ## What one submission leaves -/

section Posted

variable (form : EditingForm) (entity : String) (user : Nat)
  (place : ℚ × ℚ)

theorem post_name :
    (form.post entity user place).get "name" = .text form.name := by
  simp [Request.get, EditingForm.post]

theorem post_address :
    (form.post entity user place).get "address" = .text form.address := by
  simp [Request.get, EditingForm.post]

theorem post_entity :
    (form.post entity user place).get "entity_id" = .text entity := by
  cases shown : form.hours with
  | none =>
      simp [Request.get, EditingForm.post, EditingForm.hoursInput, shown,
        getInfoKeys, infoFieldsConfig]
  | some week =>
      simp [Request.get, EditingForm.post, EditingForm.hoursInput, shown,
        getInfoKeys, infoFieldsConfig]

theorem post_hours :
    (form.post entity user place).get "business_hours" =
      match form.hours with
      | some week => .text (encodeWeek week)
      | none => .missing := by
  cases shown : form.hours with
  | none =>
      simp [Request.get, EditingForm.post, EditingForm.hoursInput, shown,
        getInfoKeys, infoFieldsConfig]
  | some week =>
      simp [Request.get, EditingForm.post, EditingForm.hoursInput, shown,
        getInfoKeys, infoFieldsConfig]

theorem post_info :
    (form.post entity user place).only getInfoKeys =
      getInfoKeys.map fun key => (key, .text (form.info key)) := by
  simp [Request.only, Request.get, EditingForm.post, getInfoKeys,
    infoFieldsConfig, Input.value]

end Posted

theorem mergeInfoFields_congr
    {left right : Editing} (same : left.infoFields = right.infoFields)
    (keys : List String) (fields : Fields) :
    mergeInfoFields left keys fields = mergeInfoFields right keys fields := by
  have values : left.getValue = right.getValue := by
    funext key
    rw [Editing.getValue, Editing.getValue, same]
  induction keys generalizing fields with
  | nil => rfl
  | cons key rest induction =>
      rw [mergeInfoFields, mergeInfoFields, values, induction]

theorem getValue_posted
    (form : EditingForm) {key : String} (listed : key ∈ getInfoKeys)
    (editing : Editing)
    (posted : editing.infoFields =
      some (getInfoKeys.map fun key => (key, .text (form.info key)))) :
    editing.getValue key = .text (form.info key) := by
  have distinct :
      ((getInfoKeys.map fun key => (key, Value.text (form.info key))).map
        Prod.fst).Nodup := by
    simp only [List.map_map, Function.comp_def, List.map_id_fun']
    decide
  have written :
      getField
          (getInfoKeys.map fun key => (key, Value.text (form.info key)))
          key =
        some (.text (form.info key)) :=
    (mem_iff_getField distinct key _).mp
      (List.mem_map.mpr ⟨key, listed, rfl⟩)
  simp [Editing.getValue, fieldValue, posted, written]

section ClockColumns

variable [ClockColumn]

/-- The hours of a rendered form can be stored and shown again. -/
theorem shownDays_kept
    {rows : List BusinessHour} {days : List (Nat × String)}
    {week : List ShownDay}
    (rendered : shownDays rows days = .ok week) :
    week.length = days.length ∧ ∀ shown ∈ week, KeptDay shown := by
  induction days generalizing week with
  | nil =>
      cases rendered
      simp
  | cons head rest induction =>
      obtain ⟨number, name⟩ := head
      rw [shownDays] at rendered
      split at rendered
      · cases rendered
      · rename_i row _
        cases shown : showRow row with
        | error failure => simp [shown, bind, Except.bind] at rendered
        | ok day =>
            cases later : shownDays rows rest with
            | error failure =>
                simp [shown, later, bind, Except.bind] at rendered
            | ok after =>
                have equal : day :: after = week := by
                  simpa [shown, later, bind, Except.bind, pure,
                    Except.pure] using rendered
                subst equal
                obtain ⟨sameLength, kept⟩ := induction later
                refine ⟨by simp [sameLength], ?_⟩
                intro other member
                rcases List.mem_cons.mp member with first | rest
                · exact first ▸ keptDay_of_showRow shown
                · exact kept other rest

theorem renderHours_kept
    {config : SiteConfig} {rows : List BusinessHour}
    {week : List ShownDay}
    (rendered : renderHours config rows = .ok (some week)) :
    KeptWeek week := by
  unfold renderHours at rendered
  split at rendered
  · cases shown : shownDays rows weekDays with
    | error failure => simp [shown, Except.map] at rendered
    | ok days =>
        have equal : days = week := by
          simpa [shown, Except.map] using rendered
        subst equal
        obtain ⟨sameLength, kept⟩ := shownDays_kept shown
        exact ⟨sameLength, kept⟩
  · cases rendered

/-- An opened form shows an entity, with hours that the columns keep. -/
theorem openEditing_form
    {printed : ℚ → String} {config : SiteConfig} {database : Database}
    {user : Option Nat} {entity : String} {base : EditingForm}
    (opened :
      openEditing printed config database user entity =
        .ok (.form base)) :
    (∃ row, database.entities.find entity = some row) ∧
      ∀ week, base.hours = some week → KeptWeek week := by
  cases user with
  | none => simp [openEditing] at opened
  | some user =>
      simp only [openEditing, renderForm] at opened
      cases found : database.entities.find entity with
      | none => simp [found, Except.map] at opened
      | some row =>
          refine ⟨⟨row, rfl⟩, ?_⟩
          simp only [found] at opened
          cases values : getInfoKeys.mapM fun key =>
              printValue printed (row.getInfoFieldValue key) with
          | error failure =>
              simp [values, Except.map, bind, Except.bind] at opened
          | ok texts =>
              cases rendered :
                  renderHours config (hoursOf database entity) with
              | error failure =>
                  simp [values, rendered, Except.map, bind, Except.bind]
                    at opened
              | ok hours =>
                  simp only [values, rendered, Except.map, bind,
                    Except.bind, pure, Except.pure, Except.ok.injEq,
                    EditingPage.form.injEq] at opened
                  subst opened
                  intro week shown
                  have isShown : hours = some week := shown
                  subst isShown
                  exact renderHours_kept rendered

/-- What the submission of a form leaves of an entity. -/
structure Submitted
    (form : EditingForm) (before : Entity) (entity : String)
    (after : Database) : Prop where
  stored : ∃ row, after.entities.find entity = some row ∧
    row.name = form.name ∧ row.address = form.address ∧
    ∀ key ∈ getInfoKeys,
      row.getInfoFieldValue key =
        if form.info key ≠ "" then .text (form.info key)
        else before.getInfoFieldValue key
  hours : ∃ shown,
    generateBusinessHoursJson (hoursOf after entity) = .ok shown ∧
      ∀ week, form.storedHours = some week → shown = encodeWeek week

/-- The hours that a submission is approved with, and what they show. -/
theorem submitted_hours
    {form : EditingForm} {entity current : String}
    {rows : List BusinessHour}
    (storable : ∀ week, form.hours = some week → StorableWeek week)
    (generated : generateBusinessHoursJson rows = .ok current)
    (user : Nat) (place : ℚ × ℚ) :
    ∃ hours,
      (changedHours ((form.post entity user place).get "business_hours")
          current).bound = .ok hours ∧
        ∃ shown,
          generateBusinessHoursJson
              (match hours with
              | some json => weekRows entity (.text json)
              | none => rows) = .ok shown ∧
            ∀ week, form.storedHours = some week →
              shown = encodeWeek week := by
  rw [post_hours]
  cases given : form.hours with
  | none =>
      refine ⟨none, by simp [changedHours, Input.bound], current,
        generated, ?_⟩
      intro week stored
      simp [EditingForm.storedHours, given] at stored
  | some week =>
      have fits := storable week given
      obtain ⟨after, stored⟩ := Option.isSome_iff_exists.mp fits.stored
      have shownAs : form.storedHours = some after := by
        simp [EditingForm.storedHours, given, stored]
      by_cases same : encodeWeek week = current
      · -- The posted hours are those that are shown, so they are kept.
        refine ⟨none, by simp [changedHours, same, Input.bound], current,
          generated, ?_⟩
        intro other otherStored
        obtain ⟨shown, shownEqual, kept⟩ := keptWeek_of_generate generated
        have equal : week = shown :=
          encodeWeek_injective fits.seven kept.seven
            (same.trans shownEqual)
        rw [shownAs] at otherStored
        cases otherStored
        subst equal
        have unchanged : after = week := by
          have stays := kept.stored
          rw [stored] at stays
          exact Option.some.inj stays
        rw [unchanged, same]
      · refine ⟨some (encodeWeek week),
          by simp [changedHours, same, Input.bound], encodeWeek after,
          generate_weekRows entity fits.seven stored, ?_⟩
        intro other otherStored
        rw [shownAs] at otherStored
        cases otherStored
        rfl

/-- A submitted form is applied to the entity as it is by then. -/
theorem submitEditing_form
    {form : EditingForm} {database : Database} {entity current : String}
    {row : Entity}
    (storable : ∀ week, form.hours = some week → StorableWeek week)
    (fits : FormFits database entity form)
    (found : database.entities.find entity = some row)
    (generated :
      generateBusinessHoursJson (hoursOf database entity) = .ok current)
    (user : Nat) (place : ℚ × ℚ) :
    Submitted form row entity
      ((submitEditing (form.post entity user place)).final database) := by
  obtain ⟨hours, bound, shown, shows, describes⟩ :=
    submitted_hours storable generated user place
  have key : row.id = entity := (Keyed.find_eq_some found).2
  have accepted :=
    submitEditing_accepted (post_entity form entity user place) found
      generated (by rw [post_name]; rfl) (by rw [post_address]; rfl) bound
  obtain ⟨saved, hoursAfter⟩ :=
    approve_located_entity found place.1 place.2 accepted.symm
  rw [key] at saved hoursAfter
  let editing := postedEditing (form.post entity user place) entity
    (some form.name) (some form.address) hours
  have sameFields :
      (form.editing entity).infoFields = editing.infoFields := by
    simp only [editing, postedEditing, post_info, EditingForm.editing]
  have fitsPosted : FitsColumns editing row := by
    have formFits := fits row found
    refine ⟨formFits.name, formFits.address, ?_⟩
    rw [← mergeInfoFields_congr sameFields]
    exact formFits.infoFields
  have carries := applyEditing_carries fitsPosted place.1 place.2
  refine ⟨⟨_, saved, carries.name, carries.address, ?_⟩, shown, ?_,
    describes⟩
  · intro field listed
    have value := getValue_posted form listed editing sameFields.symm
    simpa [value] using carries.getInfoFieldValue listed
  · rw [hoursAfter]
    exact shows

/-- A submission that is answered could read the hours of the entity. -/
theorem generated_of_saved
    {form : EditingForm} {database : Database} {entity : String}
    {row : Entity} {user : Nat} {place : ℚ × ℚ} {answer : Response}
    (found : database.entities.find entity = some row)
    (saved :
      ((submitEditing (form.post entity user place)).run database).1 =
        .ok answer) :
    ∃ current,
      generateBusinessHoursJson (hoursOf database entity) =
        .ok current := by
  have key : row.id = entity := (Keyed.find_eq_some found).2
  cases generated :
      generateBusinessHoursJson (hoursOf database entity) with
  | ok current => exact ⟨current, rfl⟩
  | error failure =>
      simp [submitEditing, findEntity, post_entity, found, key, generated]
        at saved

/-! ## The last form wins -/

variable {base form : EditingForm}

theorem storedHours_some (fills : Fills base form) {week : List ShownDay}
    (given : form.hours = some week) :
    ∃ after, form.storedHours = some after ∧ KeptWeek after := by
  have fits := fills.hours week given
  obtain ⟨after, stored⟩ := Option.isSome_iff_exists.mp fits.stored
  refine ⟨after, ?_, storedWeek_kept fits.seven stored⟩
  rw [EditingForm.storedHours, given, Option.bind_some, stored]

/-- Whatever a submitted form changes is carried. -/
theorem carried_of_submitted
    {before : Entity} {entity : String} {after : Database}
    {input : FormInput}
    (fills : Fills base form)
    (submitted : Submitted form before entity after)
    (changed : Changed base form input) :
    Carried after entity form input := by
  obtain ⟨row, found, name, address, info⟩ := submitted.stored
  cases input with
  | name => exact ⟨row, found, name⟩
  | address => exact ⟨row, found, address⟩
  | info key =>
      refine ⟨row, found, ?_⟩
      rw [info key changed.1, if_pos (fills.info key changed)]
  | hours =>
      cases given : form.hours with
      | none =>
          have notShown : base.hours = none := by
            have shown := fills.shown
            rw [given] at shown
            simpa using shown.symm
          exact absurd
            (by rw [EditingForm.storedHours, given, notShown]; rfl) changed
      | some week =>
          obtain ⟨after, stored, -⟩ := storedHours_some fills given
          obtain ⟨shown, shows, describes⟩ := submitted.hours
          exact ⟨after, stored, by rw [shows, describes after stored]⟩

section Overwritten

variable {first second : EditingForm} {before middle : Entity}
  {entity : String} {between after : Database}

/-- An info field of the first form is carried when it was empty. -/
theorem carried_info_iff
    {key : String} (fills : Fills base first)
    (firstLeft : Submitted first before entity between)
    (found : between.entities.find entity = some middle)
    (secondLeft : Submitted second middle entity after)
    (changed : Changed base first (.info key))
    (unchanged : ¬ Changed base second (.info key)) :
    Carried after entity first (.info key) ↔ base.info key = "" := by
  obtain ⟨listed, different⟩ := changed
  obtain ⟨row, saved, -, -, info⟩ := secondLeft.stored
  have sameInfo : second.info key = base.info key := by
    by_contra other
    exact unchanged ⟨listed, other⟩
  have value := info key listed
  rw [sameInfo] at value
  constructor
  · rintro ⟨other, otherSaved, otherInfo⟩
    rw [saved] at otherSaved
    cases otherSaved
    by_contra nonempty
    rw [if_pos nonempty, otherInfo] at value
    exact different (by simpa using value)
  · intro empty
    obtain ⟨earlier, earlierSaved, -, -, earlierInfo⟩ := firstLeft.stored
    rw [found] at earlierSaved
    cases earlierSaved
    refine ⟨row, saved, ?_⟩
    rw [value, if_neg (not_not.mpr empty), earlierInfo key listed,
      if_pos (fills.info key ⟨listed, different⟩)]

/-- The second form writes the hours back that it was opened with. -/
theorem not_carried_hours
    (kept : ∀ week, base.hours = some week → KeptWeek week)
    (fills : Fills base first)
    (secondLeft : Submitted second middle entity after)
    (changed : Changed base first .hours)
    (unchanged : ¬ Changed base second .hours) :
    ¬ Carried after entity first .hours := by
  rintro ⟨week, stored, shows⟩
  have sameHours : second.storedHours = base.hours := not_not.mp unchanged
  obtain ⟨given, isGiven, weekStored⟩ := Option.bind_eq_some_iff.mp stored
  obtain ⟨rendered, isRendered⟩ :
      ∃ rendered, base.hours = some rendered := by
    have shown := fills.shown
    rw [isGiven] at shown
    exact Option.isSome_iff_exists.mp shown.symm
  have renderedKept := kept rendered isRendered
  have weekKept :=
    storedWeek_kept (fills.hours given isGiven).seven weekStored
  obtain ⟨shown, shownAfter, describes⟩ := secondLeft.hours
  rw [describes rendered (sameHours.trans isRendered), shows] at shownAfter
  have equal : week = rendered :=
    encodeWeek_injective weekKept.seven renderedKept.seven
      (Except.ok.inj shownAfter)
  apply changed
  rw [stored, isRendered, equal]

/--
What the first form changed and the second one did not is carried exactly
when it is an info field that was empty.
-/
theorem carried_of_overwritten
    {input : FormInput}
    (kept : ∀ week, base.hours = some week → KeptWeek week)
    (fills : Fills base first)
    (firstLeft : Submitted first before entity between)
    (found : between.entities.find entity = some middle)
    (secondLeft : Submitted second middle entity after)
    (changed : Changed base first input)
    (unchanged : ¬ Changed base second input) :
    Carried after entity first input ↔
      ∃ key, input = .info key ∧ base.info key = "" := by
  obtain ⟨row, saved, name, address, -⟩ := secondLeft.stored
  cases input with
  | name =>
      have sameName : second.name = base.name := not_not.mp unchanged
      constructor
      · rintro ⟨other, otherSaved, otherName⟩
        rw [saved] at otherSaved
        cases otherSaved
        exact absurd (by rw [← otherName, name, sameName]) changed
      · rintro ⟨key, equal, -⟩
        cases equal
  | address =>
      have sameAddress : second.address = base.address :=
        not_not.mp unchanged
      constructor
      · rintro ⟨other, otherSaved, otherAddress⟩
        rw [saved] at otherSaved
        cases otherSaved
        exact absurd (by rw [← otherAddress, address, sameAddress]) changed
      · rintro ⟨key, equal, -⟩
        cases equal
  | info key =>
      rw [carried_info_iff fills firstLeft found secondLeft changed unchanged]
      constructor
      · intro empty
        exact ⟨key, rfl, empty⟩
      · rintro ⟨other, equal, empty⟩
        cases equal
        exact empty
  | hours =>
      have lost :=
        not_carried_hours kept fills secondLeft changed unchanged
      constructor
      · intro carried
        exact absurd carried lost
      · rintro ⟨key, equal, -⟩
        cases equal

end Overwritten

/--
Of two forms opened on one state that fit into the columns, the one submitted
last is carried, and the other one only where it filled in an info field that
was empty.
-/
theorem last_form_wins
    (printed : ℚ → String) (config : SiteConfig)
    (database between after : Database) (entity : String)
    (base first second : EditingForm) (firstUser secondUser : Nat)
    (firstPlace secondPlace : ℚ × ℚ) (answer : Response)
    (opened : ∀ user ∈ [firstUser, secondUser],
      openEditing printed config database (some user) entity =
        .ok (.form base))
    (firstFills : Fills base first)
    (secondFills : Fills base second)
    (firstFits : FormFits database entity first)
    (secondFits : FormFits between entity second)
    (disjoint : ∀ input,
      ¬ (Changed base first input ∧ Changed base second input))
    (firstSaved :
      (submitEditing (first.post entity firstUser firstPlace)).run
        database = (.ok answer, between))
    (secondLeft :
      (submitEditing (second.post entity secondUser secondPlace)).final
        between = after) :
    (∀ input, Changed base second input →
        Carried after entity second input) ∧
      ∀ input, Changed base first input →
        (Carried after entity first input ↔
          ∃ key, input = .info key ∧ base.info key = "") := by
  obtain ⟨⟨row, found⟩, kept⟩ :=
    openEditing_form (opened firstUser (by simp))
  obtain ⟨current, generated⟩ :=
    generated_of_saved found (congrArg Prod.fst firstSaved)
  have firstSubmitted :=
    submitEditing_form firstFills.hours firstFits found generated firstUser
      firstPlace
  rw [Process.final, firstSaved] at firstSubmitted
  obtain ⟨middle, middleFound, -⟩ := firstSubmitted.stored
  obtain ⟨shown, shownBetween, -⟩ := firstSubmitted.hours
  have secondSubmitted :=
    submitEditing_form secondFills.hours secondFits middleFound
      shownBetween secondUser secondPlace
  rw [secondLeft] at secondSubmitted
  constructor
  · intro input changed
    exact carried_of_submitted secondFills secondSubmitted changed
  · intro input changed
    exact carried_of_overwritten kept firstFills firstSubmitted middleFound
      secondSubmitted changed fun both => disjoint input ⟨changed, both⟩

end ClockColumns

/-! ## Two users and a shop -/

/-- The switches of `config/nomadic.php`, which has no key for the hours. -/
def nomadicConfig : SiteConfig where
  mapEnabled := true
  businessHoursEnabled := false

/-- The form as both users open it. -/
def shopForm : EditingForm where
  name := "Old"
  address := "1 Road"
  info := fun _ => ""
  hours := none

/-- The first user gives the shop a new name and a telephone. -/
def renamed : EditingForm :=
  { shopForm with
    name := "New"
    info := fun key => if key = "info-field-4" then "02" else "" }

/-- The second user gives it a new address. -/
def moved : EditingForm :=
  { shopForm with address := "2 Road" }

def afterRenaming : Database :=
  Process.final (@submitEditing clock (renamed.post "e" 1 (25, 121)))
    chickenSite

def afterMoving : Database :=
  Process.final (@submitEditing clock (moved.post "e" 2 (24, 120)))
    afterRenaming

def updatedNotice : Response :=
  .notice "修改成功！" "非常謝謝您，已經更新進資料庫！"

theorem shopForm_opened (user : Nat) :
    @openEditing clock toString nomadicConfig chickenSite (some user) "e" =
      .ok (.form shopForm) := by
  rfl

theorem renamed_fills : @Fills clock shopForm renamed := by
  refine @Fills.mk clock _ _ ?_ rfl ?_
  · rintro key ⟨-, different⟩ empty
    exact different empty
  · intro week given
    cases given

theorem moved_fills : @Fills clock shopForm moved := by
  refine @Fills.mk clock _ _ ?_ rfl ?_
  · rintro key ⟨-, different⟩
    exact absurd rfl different
  · intro week given
    cases given

theorem renamed_moved_disjoint (input : FormInput) :
    ¬ (@Changed clock shopForm renamed input ∧
        @Changed clock shopForm moved input) := by
  rintro ⟨first, second⟩
  cases input with
  | name => exact second rfl
  | address => exact first rfl
  | info key => exact second.2 rfl
  | hours => exact second rfl

theorem renamed_fits : @FormFits clock chickenSite "e" renamed := by
  intro row found
  have isShop : row = chickenShop := (Option.some.inj found).symm
  rw [isShop]
  exact @FitsColumns.mk clock _ _ (by decide) (by decide)
    (by decide +kernel)

theorem moved_fits : @FormFits clock afterRenaming "e" moved := by
  intro row found
  have telephone : row.infoFields = some [("info-field-4", .text "02")] := by
    have stored : (afterRenaming.entities.find "e").map Entity.infoFields =
        some (some [("info-field-4", .text "02")]) := by decide +kernel
    rw [found] at stored
    exact Option.some.inj stored
  refine @FitsColumns.mk clock _ _ (by decide) (by decide) ?_
  rw [telephone]
  decide +kernel

theorem renaming_run :
    Process.run (@submitEditing clock (renamed.post "e" 1 (25, 121)))
      chickenSite = (.ok updatedNotice, afterRenaming) := by
  rfl

theorem later_address_and_new_telephone_are_carried :
    @Carried clock afterMoving "e" moved .address ∧
      @Carried clock afterMoving "e" renamed (.info "info-field-4") := by
  obtain ⟨last, earlier⟩ :=
    @last_form_wins clockColumn toString nomadicConfig chickenSite
      afterRenaming afterMoving "e" shopForm renamed moved 1 2
      (25, 121) (24, 120) updatedNotice (fun user _ => shopForm_opened user)
      renamed_fills moved_fills renamed_fits moved_fits
      renamed_moved_disjoint renaming_run rfl
  constructor
  · exact last .address (show "2 Road" ≠ "1 Road" by decide)
  · exact (earlier (.info "info-field-4") ⟨by decide, by decide⟩).mpr
      ⟨"info-field-4", rfl, rfl⟩

/-- The second form puts the old name back. -/
theorem renaming_is_overwritten :
    (∀ user ∈ [1, 2],
        @openEditing clock toString nomadicConfig chickenSite (some user)
          "e" = .ok (.form shopForm)) ∧
      @Fills clock shopForm renamed ∧ @Fills clock shopForm moved ∧
      @FormFits clock chickenSite "e" renamed ∧
      @FormFits clock afterRenaming "e" moved ∧
      (∀ input, ¬ (@Changed clock shopForm renamed input ∧
        @Changed clock shopForm moved input)) ∧
      Process.run (@submitEditing clock (renamed.post "e" 1 (25, 121)))
          chickenSite = (.ok updatedNotice, afterRenaming) ∧
      Process.run (@submitEditing clock (moved.post "e" 2 (24, 120)))
          afterRenaming = (.ok updatedNotice, afterMoving) ∧
      @Changed clock shopForm renamed .name ∧
      ¬ @Carried clock afterMoving "e" renamed .name := by
  refine ⟨fun user _ => shopForm_opened user, renamed_fills, moved_fills,
    renamed_fits, moved_fits, renamed_moved_disjoint, renaming_run, rfl, ?_, ?_⟩
  · show "New" ≠ "Old"
    decide
  · rintro ⟨row, found, named⟩
    have left :
        (afterMoving.entities.find "e").map Entity.name = some "Old" := rfl
    rw [found, Option.map_some, named] at left
    revert left
    decide

end NomadiCore
