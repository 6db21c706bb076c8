import Mathlib.Data.Rat.Defs
import NomadiCore.Library.RowTable
import NomadiCore.Library.TextColumn

/-!
# The tables

The rows of `storage/app/schema-snapshot-v1.sql` that the modelled handlers
read or write.  Columns that no modelled handler uses are left out, and so are
the `updated_at` timestamps.

The connection is not strict and has the character set `utf8`, so the server
cuts what does not fit into a column.  This and the collation are modelled
where a handler reads back or looks up a text that anybody may post: the names
of tags, the emails of users, the ids of check-ins, and the columns that an
editing is copied to.  Elsewhere ids are the UUIDs of stored rows and texts are
only shown; they are kept whole and compared exactly.

A text column that holds a JSON array is represented by the array the code
reads back from it, `none` standing for a text that `json_decode` turns into
`null` (such as the empty default).
-/

namespace NomadiCore

open NomadiCore.Library.RowTable
open NomadiCore.Library.TextColumn

/-- What a `varchar(255)` column keeps. -/
def varchar (text : String) : String := keep 255 text

/-! ## JSON array columns -/

/-- A value of a JSON array: a number, a text, or a posted list. -/
inductive Value where
  | number (value : ℚ)
  | text (value : String)
  | list (items : List String)
deriving DecidableEq

/-- A JSON array column, in the order of its keys. -/
abbrev Fields := Option (List (String × Value))

/-- The value of a key of an array. -/
def getField {Content : Type}
    (fields : List (String × Content)) (key : String) : Option Content :=
  (fields.find? fun field => field.1 = key).map Prod.snd

@[simp]
theorem getField_nil {Content : Type} (wanted : String) :
    getField ([] : List (String × Content)) wanted = none := rfl

@[simp]
theorem getField_cons {Content : Type}
    (key : String) (value : Content) (rest : List (String × Content))
    (wanted : String) :
    getField ((key, value) :: rest) wanted =
      if key = wanted then some value else getField rest wanted := by
  by_cases same : key = wanted
  · simp [getField, same]
  · simp [getField, same]

/-- `$arr[$key] = $value`: replace in place, or append. -/
def setField {Content : Type}
    (fields : List (String × Content)) (key : String) (value : Content) :
    List (String × Content) :=
  match getField fields key with
  | some _ =>
      fields.map fun field => if field.1 = key then (key, value) else field
  | none => fields ++ [(key, value)]

theorem getField_map_replace {Content : Type}
    (fields : List (String × Content)) (key wanted : String)
    (value : Content) :
    getField
        (fields.map fun field =>
          if field.1 = key then (key, value) else field) wanted =
      if wanted = key then
        (getField fields key).map fun _ => value
      else getField fields wanted := by
  induction fields with
  | nil => simp [getField]
  | cons field rest induction =>
      simp only [getField, List.map_cons, List.find?_cons] at induction ⊢
      by_cases replaced : field.1 = key
      · by_cases same : wanted = key
        · simp [replaced, same]
        · have other : ¬ key = wanted := fun equal => same equal.symm
          simpa [replaced, same, other] using induction
      · by_cases found : field.1 = wanted
        · have other : ¬ wanted = key := fun equal =>
            replaced (found.trans equal)
          simp [found, other]
        · simpa [replaced, found] using induction

/-- Reading back an assignment. -/
@[simp]
theorem getField_setField {Content : Type}
    (fields : List (String × Content)) (key wanted : String)
    (value : Content) :
    getField (setField fields key value) wanted =
      if wanted = key then some value else getField fields wanted := by
  unfold setField
  cases present : getField fields key with
  | some old =>
      simp only
      rw [getField_map_replace, present]
      rfl
  | none =>
      simp only
      by_cases same : wanted = key
      · subst wanted
        have absent : fields.find? (fun field => field.1 = key) = none := by
          simpa [getField] using present
        simp [getField, List.find?_append, absent]
      · have other : ¬ key = wanted := fun equal => same equal.symm
        simp [getField, List.find?_append, same, other]

section Fields

variable {Content : Type}

theorem getField_eq_none_iff
    {fields : List (String × Content)} {key : String} :
    getField fields key = none ↔ key ∉ fields.map Prod.fst := by
  rw [getField, Option.map_eq_none_iff, List.find?_eq_none, List.mem_map]
  constructor
  · rintro none ⟨field, member, same⟩
    exact none field member (by simpa using same)
  · intro absent field member same
    exact absent ⟨field, member, by simpa using same⟩

/-- An assignment keeps the keys, or appends its own. -/
theorem setField_keys
    (fields : List (String × Content)) (key : String) (value : Content) :
    (setField fields key value).map Prod.fst =
      if key ∈ fields.map Prod.fst then fields.map Prod.fst
      else fields.map Prod.fst ++ [key] := by
  unfold setField
  cases found : getField fields key with
  | none =>
      rw [if_neg (getField_eq_none_iff.mp found)]
      simp
  | some old =>
      have present : key ∈ fields.map Prod.fst := by
        by_contra absent
        rw [getField_eq_none_iff.mpr absent] at found
        cases found
      rw [if_pos present, List.map_map]
      apply List.map_congr_left
      intro field _
      by_cases same : field.1 = key
      · simp [same]
      · simp [same]

theorem setField_distinct
    {fields : List (String × Content)}
    (distinct : (fields.map Prod.fst).Nodup)
    (key : String) (value : Content) :
    ((setField fields key value).map Prod.fst).Nodup := by
  rw [setField_keys]
  split
  · exact distinct
  · rename_i absent
    exact List.nodup_append.mpr
      ⟨distinct, List.nodup_singleton key, by
        intro first member second single
        rw [List.mem_singleton.mp single]
        rintro rfl
        exact absent member⟩

/-- With distinct keys, the fields are what is read back. -/
theorem mem_iff_getField
    {fields : List (String × Content)}
    (distinct : (fields.map Prod.fst).Nodup)
    (key : String) (value : Content) :
    (key, value) ∈ fields ↔ getField fields key = some value := by
  constructor
  · intro member
    exact congrArg (Option.map Prod.snd) (find?_of_distinct distinct member)
  · intro found
    obtain ⟨field, isField, isValue⟩ := Option.map_eq_some_iff.mp found
    have fieldKey : field.1 = key := by
      simpa using List.find?_some isField
    rw [← isValue, ← fieldKey]
    exact List.mem_of_find?_eq_some isField

end Fields

/-! ## Rows -/

structure User where
  email : String
  name : String
deriving DecidableEq

structure Profile where
  userId : Nat
  avatar : String
  score : Int
deriving DecidableEq

structure SocialCredential where
  userId : Nat
  socialId : String
deriving DecidableEq

structure Discussion where
  title : String
deriving DecidableEq

structure Post where
  content : String
  userId : Nat
  discussionId : Int
  createdAt : Nat
deriving DecidableEq

structure PostComment where
  content : String
  userId : Nat
  postId : Int
deriving DecidableEq

structure Tag where
  name : String
deriving DecidableEq

structure EntityTag where
  entityId : String
  tagId : Int
  userId : Nat
  isReported : Bool
deriving DecidableEq

structure Photo where
  name : String
  height : Nat
  width : Nat
  entityId : String
  userId : Nat
  status : Int
deriving DecidableEq

/-- `review_fields` is only ever written by `checkHasError`: integers. -/
structure Review where
  entityId : String
  status : Int
  userId : Nat
  reviewFields : Option (List (String × Int))
deriving DecidableEq

structure Comment where
  entityId : String
  body : String
  userId : Nat
deriving DecidableEq

structure Recommendation where
  userId : Nat
  entityId : String
deriving DecidableEq

structure Wish where
  userId : Nat
  entityId : String
deriving DecidableEq

/-- The `rank` column is not in the snapshot, but every list page orders by it. -/
structure Entity where
  id : String
  name : String
  city : String
  status : Int
  rank : Int
  reviewFields : Fields
  infoFields : Fields
  address : String
  latitude : ℚ
  longitude : ℚ
  userId : Nat
  businessHoursJson : String
deriving DecidableEq

/-- A value of a `time` column, in seconds. -/
abbrev Time := Int

structure BusinessHour where
  entityId : String
  day : Nat
  openTime : Option Time
  closeTime : Option Time
deriving DecidableEq

structure Editing where
  entityId : String
  status : Int
  userId : Nat
  name : Option String
  infoFields : Fields
  address : Option String
  businessHours : Option String
deriving DecidableEq

/-! ## The database -/

structure Database where
  users : Table User
  profiles : Keyed Profile Nat Profile.userId
  socialCredentials : Table SocialCredential
  discussions : Table Discussion
  posts : Table Post
  postComments : Table PostComment
  tags : Table Tag
  entityTag :
    Keyed EntityTag (String × Int × Nat)
      fun row => (row.entityId, row.tagId, row.userId)
  photos : Table Photo
  reviews : Table Review
  comments : Table Comment
  recommendations : Table Recommendation
  wishes : Table Wish
  entities : Keyed Entity String Entity.id
  businessHours :
    Keyed BusinessHour (String × Nat) fun row => (row.entityId, row.day)
  editings : Table Editing
deriving DecidableEq

/-- The database right after the migrations. -/
def Database.empty : Database where
  users := .empty
  profiles := .empty
  socialCredentials := .empty
  discussions := .empty
  posts := .empty
  postComments := .empty
  tags := .empty
  entityTag := .empty
  photos := .empty
  reviews := .empty
  comments := .empty
  recommendations := .empty
  wishes := .empty
  entities := .empty
  businessHours := .empty
  editings := .empty

end NomadiCore
