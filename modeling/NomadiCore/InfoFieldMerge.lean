import NomadiCore.EditingApproval

/-!
# Merging the info fields

`Editing::approve` decodes the `info_fields` column of the entity, overwrites
the fields that the editing has a value for and encodes the array again.  The
column is a text; the rows of the model hold the array it decodes to.  What
is encoded decodes to the same array, so nothing is lost in between as long as
the text fits into the column.
-/

namespace NomadiCore

open NomadiCore.Library.JsonText
open NomadiCore.Library.RowTable
open NomadiCore.Library.StatementProcess
open NomadiCore.Library.TextColumn

/-! ## Arrays -/

section Fields

variable {Content Other : Type}

theorem getField_map (change : Content → Other)
    (fields : List (String × Content)) (key : String) :
    getField (fields.map fun field => (field.1, change field.2)) key =
      (getField fields key).map change := by
  induction fields with
  | nil => rfl
  | cons field rest induction =>
      obtain ⟨name, value⟩ := field
      rw [List.map_cons, getField_cons, getField_cons, induction]
      split
      · rfl
      · rfl

theorem setField_map (change : Content → Other)
    (fields : List (String × Content)) (key : String) (value : Content) :
    setField (fields.map fun field => (field.1, change field.2)) key
        (change value) =
      (setField fields key value).map fun field =>
        (field.1, change field.2) := by
  unfold setField
  rw [getField_map]
  cases getField fields key with
  | none => simp
  | some old =>
      simp only [Option.map_some, List.map_map]
      apply List.map_congr_left
      intro field _
      by_cases same : field.1 = key
      · simp [same]
      · simp [same]

/-- Assigning the value that is already there changes nothing. -/
theorem setField_self
    {fields : List (String × Content)}
    (distinct : (fields.map Prod.fst).Nodup)
    {key : String} {value : Content}
    (present : getField fields key = some value) :
    setField fields key value = fields := by
  rw [setField, present]
  simp only
  have unchanged : ∀ field ∈ fields,
      (if field.1 = key then (key, value) else field) = field := by
    intro field member
    by_cases same : field.1 = key
    · rw [if_pos same]
      have presentMember : (key, value) ∈ fields :=
        (mem_iff_getField distinct key value).mpr present
      exact List.inj_on_of_nodup_map distinct presentMember member same.symm
    · rw [if_neg same]
  exact (List.map_congr_left unchanged).trans (List.map_id fields)

end Fields

/-- A PHP array of texts, in the order of its keys. -/
@[ext]
structure TextArray where
  fields : List (String × String)
  distinct : (fields.map Prod.fst).Nodup

namespace TextArray

def empty : TextArray where
  fields := []
  distinct := List.nodup_nil

/-- `$arr[$key] = $value`. -/
def set (array : TextArray) (key value : String) : TextArray where
  fields := setField array.fields key value
  distinct := setField_distinct array.distinct key value

/-- The array of fields that are read one after the other. -/
def ofFields (fields : List (String × String)) : TextArray :=
  fields.foldl (fun array field => array.set field.1 field.2) empty

theorem set_of_absent {array : TextArray} {key : String}
    (absent : key ∉ array.fields.map Prod.fst) (value : String) :
    (array.set key value).fields = array.fields ++ [(key, value)] := by
  simp only [set, setField, getField_eq_none_iff.mpr absent]

theorem foldl_set_fields {array : TextArray}
    {later : List (String × String)}
    (distinct : ((array.fields ++ later).map Prod.fst).Nodup) :
    (later.foldl (fun array field => array.set field.1 field.2)
        array).fields = array.fields ++ later := by
  induction later generalizing array with
  | nil => simp
  | cons field rest induction =>
      have absent : field.1 ∉ array.fields.map Prod.fst := by
        intro present
        rw [List.map_append, List.nodup_append] at distinct
        exact distinct.2.2 field.1 present field.1 (by simp) rfl
      have appended := set_of_absent absent field.2
      rw [List.foldl_cons, induction (by simpa [appended] using distinct),
        appended]
      simp

/-- The fields of an array are read as that array. -/
theorem ofFields_fields (array : TextArray) :
    ofFields array.fields = array := by
  apply TextArray.ext
  exact foldl_set_fields array.distinct

end TextArray

/-! ## The column -/

def textOf : Json → Option String
  | .text value => some value
  | _ => none

def textField (field : String × Json) : Option (String × String) :=
  (textOf field.2).map fun text => (field.1, text)

/-- The items of a list, under their positions. -/
def numbered (texts : List String) : List (String × String) :=
  texts.zipIdx.map fun item => (toString item.2, item.1)

/--
`json_decode($column, true)` of a column that holds texts only, or no array at
all; `none` for any other JSON.
-/
def decodeColumn (column : String) : Option (Option TextArray) :=
  match decode column with
  | .null => some none
  | .list items =>
      (items.mapM textOf).map fun texts =>
        some (.ofFields (numbered texts))
  | .object fields =>
      (fields.mapM textField).map fun fields => some (.ofFields fields)
  | _ => none

theorem numbered_of_positions {fields : List (String × String)}
    (keys : fields.map Prod.fst = positions fields.length) :
    numbered (fields.map Prod.snd) = fields := by
  have names :
      (numbered (fields.map Prod.snd)).map Prod.fst =
        fields.map Prod.fst := by
    have indices := List.zipIdx_map_snd 0 (fields.map Prod.snd)
    rw [List.length_map, ← List.range_eq_range'] at indices
    rw [keys, positions, ← indices, numbered, List.map_map, List.map_map]
    rfl
  have texts :
      (numbered (fields.map Prod.snd)).map Prod.snd =
        fields.map Prod.snd := by
    rw [numbered, List.map_map]
    exact List.zipIdx_map_fst 0 (fields.map Prod.snd)
  exact (List.zip_of_prod names texts).trans
    (List.zip_of_prod rfl rfl).symm

theorem mapM_textOf (texts : List String) :
    (texts.map Json.text).mapM textOf = some texts := by
  induction texts with
  | nil => rfl
  | cons text rest induction =>
      rw [List.map_cons, List.mapM_cons, induction]
      rfl

theorem mapM_textFields (fields : List (String × String)) :
    (fields.map fun field => (field.1, Json.text field.2)).mapM
        textField = some fields := by
  induction fields with
  | nil => rfl
  | cons field rest induction =>
      rw [List.map_cons, List.mapM_cons, induction]
      rfl

/-- The fields of a row whose column decodes to an array of texts. -/
def columnFields (column : Option TextArray) : Fields :=
  column.map fun array =>
    array.fields.map fun field => (field.1, .text field.2)

section Columns

variable [ColumnFormat]

/-- `json_encode($arr)`. -/
def encodeColumn (column : Option TextArray) : String :=
  String.ofList (encodeFields (columnFields column))

/-- What is encoded is decoded to the same array. -/
theorem decodeColumn_encodeColumn (column : Option TextArray) :
    decodeColumn (encodeColumn column) = some column := by
  cases column with
  | none =>
      have isNull : decode (String.ofList "null".toList) = .null :=
        decode_of_reads (reads_null 0) (by omega)
      simp only [decodeColumn, encodeColumn, columnFields, Option.map_none,
        encodeFields, isNull]
  | some array =>
      have same := array.ofFields_fields
      by_cases listed :
          array.fields.map Prod.fst = positions array.fields.length
      · have text : encodeFields (columnFields (some array)) =
            encodeList ((array.fields.map Prod.snd).map encodeText) := by
          simp [encodeFields, columnFields, encodeValue, listed,
            Function.comp_def]
        have decoded :=
          decode_of_reads (reads_texts 0 (array.fields.map Prod.snd))
            (by omega)
        rw [encodeColumn, text, decodeColumn, decoded]
        simp only [mapM_textOf, Option.map_some]
        rw [numbered_of_positions listed, same]
      · have text : encodeFields (columnFields (some array)) =
            encodeObject (array.fields.map fun field =>
              (field.1, encodeText field.2)) := by
          simp [encodeFields, columnFields, encodeValue, listed,
            Function.comp_def]
        have reads : ∀ field ∈ array.fields.map fun field =>
            (field.1, encodeText field.2, Json.text field.2),
            Reads 0 field.2.1 field.2.2 := by
          intro field member
          obtain ⟨stored, -, rfl⟩ := List.mem_map.mp member
          exact reads_text 0 stored.2
        have decoded := decode_of_reads (reads_object reads) (by omega)
        simp only [List.map_map, Function.comp_def] at decoded
        rw [encodeColumn, text, decodeColumn, decoded]
        simp only [mapM_textFields, Option.map_some]
        rw [same]

end Columns

/-- The column holds these fields. -/
def HoldsTexts (column : String) (fields : Fields) : Prop :=
  ∃ array, decodeColumn column = some array ∧
    fields = columnFields array

/-! ## Merging -/

theorem columnFields_distinct {column : Option TextArray}
    {fields : List (String × Value)}
    (isFields : columnFields column = some fields) :
    (fields.map Prod.fst).Nodup := by
  obtain ⟨array, -, rfl⟩ := Option.map_eq_some_iff.mp isFields
  rw [List.map_map]
  exact array.distinct

/-- A field of an array of texts is a text. -/
theorem fieldValue_columnFields (column : Option TextArray) (key : String) :
    ∃ text, fieldValue (columnFields column) key (.text "") =
      .text text := by
  cases column with
  | none => exact ⟨"", rfl⟩
  | some array =>
      refine ⟨(getField array.fields key).getD "", ?_⟩
      simp only [fieldValue, columnFields, Option.map_some, getField_map]
      cases getField array.fields key with
      | none => rfl
      | some text => rfl

/-- An assignment to `null` or an array of texts leaves an array of texts. -/
theorem assignField_columnFields
    (column : Option TextArray) (key text : String) :
    assignField (columnFields column) key (.text text) =
      columnFields (some ((column.getD .empty).set key text)) := by
  cases column with
  | none => rfl
  | some array =>
      simp only [assignField, columnFields, Option.map_some,
        Option.getD_some, TextArray.set]
      rw [setField_map Value.text]

/-- The merged fields are an array of texts again. -/
theorem mergeInfoFields_columnFields
    {editing : Editing} {posted : Option TextArray}
    (isPosted : editing.infoFields = columnFields posted)
    (keys : List String) (column : Option TextArray) :
    ∃ merged, mergeInfoFields editing keys (columnFields column) =
      columnFields merged := by
  induction keys generalizing column with
  | nil => exact ⟨column, rfl⟩
  | cons key rest induction =>
      obtain ⟨text, isText⟩ := fieldValue_columnFields posted key
      have value : editing.getValue key = .text text := by
        rw [Editing.getValue, isPosted, isText]
      rw [mergeInfoFields, value]
      split
      · rw [assignField_columnFields]
        exact induction _
      · exact induction column

/-- Merging values that are already there changes nothing. -/
theorem mergeInfoFields_self
    {editing : Editing} {fields : Fields} {keys : List String}
    (distinct : ∀ array, fields = some array →
      (array.map Prod.fst).Nodup)
    (carried : ∀ key ∈ keys, editing.getValue key ≠ .text "" →
      storedField fields key = some (editing.getValue key)) :
    mergeInfoFields editing keys fields = fields := by
  induction keys with
  | nil => rfl
  | cons key rest induction =>
      have later := induction fun other member =>
        carried other (by simp [member])
      rw [mergeInfoFields]
      split
      · rename_i given
        have stored := carried key (by simp) given
        obtain ⟨array, rfl, present⟩ := Option.bind_eq_some_iff.mp stored
        rw [assignField, Option.getD_some,
          setField_self (distinct array rfl) present]
        exact later
      · exact later

/-! ## Approving -/

/-- The row carries the edited fields, and every other field as it was. -/
structure MergesInfo (editing : Editing) (before after : Entity) : Prop where
  edited : ∀ key ∈ getInfoKeys, ∀ value,
    storedField editing.infoFields key = some value → value ≠ .text "" →
      after.getInfoFieldValue key = value
  kept : ∀ key ∈ getInfoKeys,
    (storedField editing.infoFields key = none ∨
      storedField editing.infoFields key = some (.text "")) →
      after.getInfoFieldValue key = before.getInfoFieldValue key
  others : ∀ key, key ∉ getInfoKeys →
    storedField after.infoFields key = storedField before.infoFields key

theorem Carries.mergesInfo
    {editing : Editing} {latitude longitude : ℚ} {before after : Entity}
    (carries : Carries editing latitude longitude before after) :
    MergesInfo editing before after where
  edited := by
    intro key listed value given notEmpty
    have isValue : editing.getValue key = value := by
      rw [Editing.getValue, fieldValue_eq, given, Option.getD_some]
    rw [carries.getInfoFieldValue listed, isValue, if_pos notEmpty]
  kept := by
    intro key listed missing
    have isEmpty : editing.getValue key = .text "" := by
      rw [Editing.getValue, fieldValue_eq]
      rcases missing with absent | empty
      · rw [absent, Option.getD_none]
      · rw [empty, Option.getD_some]
    rw [carries.getInfoFieldValue listed, isEmpty, if_neg (by simp)]
  others := by
    intro key unlisted
    rw [carries.infoFields key, if_neg fun both => unlisted both.1]

section ColumnFormats

variable [ColumnFormat]

/-- An editing that was applied once is applied to no effect. -/
theorem applyEditing_again
    {editing : Editing} {entity : Entity} {latitude longitude : ℚ}
    {merged : Option TextArray}
    (fits : FitsColumns editing entity)
    (isMerged :
      mergeInfoFields editing getInfoKeys entity.infoFields =
        columnFields merged)
    (status : Int) :
    applyEditing { editing with status := status } latitude longitude
        (applyEditing editing latitude longitude entity) =
      applyEditing editing latitude longitude entity := by
  have same :
      mergeInfoFields { editing with status := status } getInfoKeys
          (mergeInfoFields editing getInfoKeys entity.infoFields) =
        mergeInfoFields editing getInfoKeys entity.infoFields := by
    apply mergeInfoFields_self
    · intro array isArray
      rw [isMerged] at isArray
      exact columnFields_distinct isArray
    · intro key listed given
      have stored := storedField_mergeInfoFields editing getInfoKeys
        entity.infoFields key
      rw [if_pos ⟨listed, given⟩] at stored
      exact stored
  rw [applyEditing_of_fits fits]
  simp only [applyEditing, same, varchar, keep_of_fits fits.name,
    keep_of_fits fits.address, storeFields_of_fits fits.infoFields]

/--
A located approval of texts that fit into the columns merges the info fields of
the editing into those of the entity, sets its name, address and coordinates
and no other column, and changes nothing when it is repeated.
-/
theorem approve_merges_info_fields
    {database : Database} {id : Nat} {editing : Editing} {entity : Entity}
    {entityColumn editingColumn : String}
    (belongs : database.entities.find editing.entityId = some entity)
    (entityTexts : HoldsTexts entityColumn entity.infoFields)
    (editingTexts : HoldsTexts editingColumn editing.infoFields)
    (fits : FitsColumns editing entity) (latitude longitude : ℚ) :
    ∃ row merged,
      ((approve id editing (.location latitude longitude)).final
          database).entities.find editing.entityId = some row ∧
        MergesInfo editing entity row ∧
        row = { entity with
          name := editing.name.getD ""
          address := editing.address.getD ""
          infoFields := columnFields merged
          latitude := latitude
          longitude := longitude } ∧
        HoldsTexts (encodeColumn merged) row.infoFields ∧
        ((approve id { editing with status := approvedStatus }
            (.location latitude longitude)).final
          ((approve id editing (.location latitude longitude)).final
            database)).entities.find editing.entityId = some row := by
  obtain ⟨column, -, isColumn⟩ := entityTexts
  obtain ⟨posted, -, isPosted⟩ := editingTexts
  obtain ⟨merged, isMerged⟩ :=
    mergeInfoFields_columnFields isPosted getInfoKeys column
  rw [← isColumn] at isMerged
  have rowFields :
      (applyEditing editing latitude longitude entity).infoFields =
        columnFields merged := by
    rw [applyEditing_of_fits fits]
    exact isMerged
  have key : entity.id = editing.entityId :=
    (Keyed.find_eq_some belongs).2
  have saved := (@approve_located_entity _ database id editing entity
    belongs latitude longitude _ rfl).1
  rw [key] at saved
  have again := (@approve_located_entity _ _ id
    { editing with status := approvedStatus } _ saved latitude longitude _
    rfl).1
  rw [applyEditing_again fits isMerged, applyEditing_id, key] at again
  refine ⟨_, merged, saved,
    (applyEditing_carries fits latitude longitude).mergesInfo, ?_, ?_,
    again⟩
  · rw [applyEditing_of_fits fits, isMerged]
  · exact ⟨merged, decodeColumn_encodeColumn merged, rowFields⟩

end ColumnFormats

/-! ## A shop with a telephone -/

def telephone : TextArray where
  fields := [("info-field-4", "02"), ("wifi", "yes")]
  distinct := by decide

/-- The telephone is left empty, and the site of the shop is new. -/
def newSite : TextArray where
  fields := [("info-field-4", ""), ("info-field-5", "shop.tw")]
  distinct := by decide

def telephoneShop : Database :=
  { Database.empty with
    entities := Keyed.empty.append
      { chickenShop with infoFields := columnFields (some telephone) }
      (by decide) }

def siteEditing : Editing :=
  { newName with infoFields := columnFields (some newSite) }

theorem new_site_is_merged :
    ∃ row,
      (Process.final (@approve clock 1 siteEditing (.location 25 121))
          telephoneShop).entities.find "e" = some row ∧
        row.getInfoFieldValue "info-field-4" = .text "02" ∧
        row.getInfoFieldValue "info-field-5" = .text "shop.tw" ∧
        storedField row.infoFields "wifi" = some (.text "yes") := by
  obtain ⟨row, -, saved, merges, -⟩ :=
    @approve_merges_info_fields clock telephoneShop 1 siteEditing
      { chickenShop with infoFields := columnFields (some telephone) }
      (@encodeColumn clock (some telephone))
      (@encodeColumn clock (some newSite)) rfl
      ⟨_, @decodeColumn_encodeColumn clock _, rfl⟩
      ⟨_, @decodeColumn_encodeColumn clock _, rfl⟩
      (@FitsColumns.mk clock _ _ (by decide) (by decide)
        (by decide +kernel)) 25 121
  refine ⟨row, saved, ?_, ?_, ?_⟩
  · exact merges.kept "info-field-4" (by decide) (Or.inr rfl)
  · exact merges.edited "info-field-5" (by decide) _ rfl (by decide)
  · exact merges.others "wifi" (by decide)

/-! ## A shop with a long text -/

/-- A text of so many letters. -/
def letters (count : Nat) : String :=
  String.ofList (List.replicate count 'a')

theorem encodeText_letters (count : Nat) :
    (encodeText (letters count)).length = count + 2 := by
  simp [encodeText, letters, escape]

theorem letters_ne_empty {count : Nat} (positive : 0 < count) :
    letters count ≠ "" := by
  intro empty
  have length := congrArg (fun text => text.toList.length) empty
  simp [letters] at length
  omega

/-- One field of so many letters. -/
def letterField (key : String) (count : Nat) : TextArray where
  fields := [(key, letters count)]
  distinct := List.nodup_singleton key

/-- A shop with a telephone of so many letters. -/
def longShop (count : Nat) : Entity :=
  { chickenShop with
    infoFields := columnFields (some (letterField "info-field-4" count)) }

def longShopSite (count : Nat) : Database :=
  { Database.empty with
    entities := Keyed.empty.append (longShop count) (by simp [Keyed.empty]) }

def longSiteEditing (count : Nat) : Editing :=
  { newName with
    infoFields := columnFields (some (letterField "info-field-5" count)) }

/-- One such text fits into a column. -/
theorem fitsText_letterField {key : String} {count : Nat}
    (named : [key] ≠ positions 1)
    (short : (encodeText key).length + count ≤ 65530) :
    @FitsText clock (columnFields (some (letterField key count))) := by
  simp [FitsText, encodeFields, columnFields, letterField, named,
    encodeObject, encodeValue, encodeText_letters, List.intercalate]
  omega

theorem merge_letters {count : Nat} (positive : 0 < count) :
    mergeInfoFields (longSiteEditing count) getInfoKeys
        (longShop count).infoFields =
      some [("info-field-4", .text (letters count)),
        ("info-field-5", .text (letters count))] := by
  simp [mergeInfoFields, getInfoKeys, infoFieldsConfig, longSiteEditing,
    Editing.getValue, fieldValue, columnFields, letterField, longShop,
    assignField, setField, letters_ne_empty positive]

/-- The texts of both do not. -/
theorem letters_cut {count : Nat} (long : 32768 ≤ count) :
    @storeFields clock
        (mergeInfoFields (longSiteEditing count) getInfoKeys
          (longShop count).infoFields) = none := by
  have named : ["info-field-4", "info-field-5"] ≠ positions 2 := by decide
  apply if_neg
  rw [merge_letters (by omega)]
  simp [FitsText, encodeFields, named, encodeObject, encodeValue,
    encodeText_letters, List.intercalate]
  omega

/-- The fields are lost when either text fits and both of them do not. -/
theorem approve_long_fields {count : Nat} (long : 32768 ≤ count) :
    ∃ row,
      (Process.final
          (@approve clock 1 (longSiteEditing count) (.location 25 121))
          (longShopSite count)).entities.find "e" = some row ∧
        ¬ MergesInfo (longSiteEditing count) (longShop count) row := by
  have saved := (@approve_located_entity clock (longShopSite count) 1
    (longSiteEditing count) (longShop count) rfl 25 121 _ rfl).1
  refine ⟨_, saved, ?_⟩
  intro merges
  have site := merges.edited "info-field-5" (by decide)
    (.text (letters count)) rfl
    (by simp [letters_ne_empty (show 0 < count by omega)])
  have lost : (@applyEditing clock (longSiteEditing count) 25 121
      (longShop count)).infoFields = none := letters_cut long
  rw [Entity.getInfoFieldValue, lost] at site
  have empty : "" = letters count := Value.text.inj site
  exact letters_ne_empty (by omega) empty.symm

theorem long_fields_are_lost :
    (longShopSite 40000).entities.find "e" = some (longShop 40000) ∧
      HoldsTexts
        (@encodeColumn clock (some (letterField "info-field-4" 40000)))
        (longShop 40000).infoFields ∧
      HoldsTexts
        (@encodeColumn clock (some (letterField "info-field-5" 40000)))
        (longSiteEditing 40000).infoFields ∧
      @FitsText clock (longShop 40000).infoFields ∧
      @FitsText clock (longSiteEditing 40000).infoFields ∧
      ∃ row,
        (Process.final
            (@approve clock 1 (longSiteEditing 40000) (.location 25 121))
            (longShopSite 40000)).entities.find "e" = some row ∧
        ¬ MergesInfo (longSiteEditing 40000) (longShop 40000) row := by
  refine ⟨rfl, ⟨_, @decodeColumn_encodeColumn clock _, rfl⟩,
    ⟨_, @decodeColumn_encodeColumn clock _, rfl⟩,
    fitsText_letterField (by decide) (by decide),
    fitsText_letterField (by decide) (by decide),
    approve_long_fields (by decide)⟩

end NomadiCore
