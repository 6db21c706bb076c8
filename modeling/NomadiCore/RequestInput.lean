import NomadiCore.Database
import NomadiCore.Library.DecimalNumeral
import NomadiCore.Library.StatementProcess

/-!
# Requests, failures and bound parameters

A request carries the session user and its parameters, each of them missing,
a text, or a list of texts (from a `name[]` input).  No middleware trims or
nulls them.  The conversions below are those of the query builder and of a
MySQL server in its non-strict mode: an inserted `NULL` violates a `NOT NULL`
column, an updated one becomes the implicit default.
-/

namespace NomadiCore

open NomadiCore.Library.DecimalNumeral
open NomadiCore.Library.StatementProcess

/-- How a handler may stop before its end. -/
inductive Raised where
  | errorException
  | queryException
  | error
  | domainException
  | exit
deriving DecidableEq

/-- What a handler answers. -/
inductive Response where
  | redirect (path : String)
  | back
  | view (name : String)
  | notice (title message : String)
  | json (status : Nat)
  | text (body : String)
deriving DecidableEq

/-- A request handler, statement by statement. -/
abbrev Handler (Answer : Type) := Process Database Raised Answer

/-- A parameter as `Request::get` returns it. -/
inductive Input where
  | missing
  | text (value : String)
  | list (items : List String)
deriving DecidableEq

/-- The size of an uploaded file that the image library can read. -/
structure Image where
  height : Nat
  width : Nat
deriving DecidableEq

/-- What the geocoding service answers. -/
inductive Geocode where
  | location (latitude longitude : ℚ)
  | noResults
  | exception
deriving DecidableEq

/--
A request: the logged-in user, if any, the parameters and the uploaded image,
with what is drawn or answered from outside while it is served.
-/
structure Request where
  user : Option Nat
  parameters : List (String × Input)
  image : Option Image := none
  now : Nat := 0
  uuid : String := ""
  geocode : Geocode := .exception
deriving DecidableEq

/-- `Request::get($name)`. -/
def Request.get (request : Request) (name : String) : Input :=
  (getField request.parameters name).getD .missing

/-- `Auth::user()->id`; reading a property of `null` raises. -/
def Request.userId (request : Request) : Handler Nat :=
  .require .errorException request.user

@[simp]
theorem Request.userId_run_some
    {request : Request} {user : Nat} (login : request.user = some user)
    (database : Database) :
    request.userId.run database = (.ok user, database) := by
  simp [Request.userId, login]

@[simp]
theorem Request.userId_run_none
    {request : Request} (guest : request.user = none)
    (database : Database) :
    request.userId.run database = (.error .errorException, database) := by
  simp [Request.userId, guest]

namespace Input

/-- The value bound to a statement: `NULL` or a text. -/
def bound : Input → Except Raised (Option String)
  | .missing => .ok none
  | .text value => .ok (some value)
  | .list _ => .error .errorException

/-- A text inserted into a `NOT NULL` column. -/
def insertText (input : Input) : Except Raised String :=
  input.bound.bind fun
    | some value => .ok value
    | none => .error .queryException

/-- An integer inserted into a `NOT NULL` column. -/
def insertInt (input : Input) : Except Raised Int :=
  input.insertText.map toColumn

/-- A text a `NOT NULL` column is updated to. -/
def updateText (input : Input) : Except Raised String :=
  input.bound.map fun value => value.getD ""

/--
The value of a `where` clause; `none` selects `NULL`.  The items of a list are
spread over the placeholders, so only a list of one item fits.
-/
def whereValue : Input → Except Raised (Option String)
  | .missing => .ok none
  | .text value => .ok (some value)
  | .list [value] => .ok (some value)
  | .list _ => .error .queryException

/-- The input is text, so that it can be inserted. -/
def IsText : Input → Prop
  | .text _ => True
  | _ => False

instance (input : Input) : Decidable input.IsText := by
  cases input <;> unfold IsText <;> infer_instance

@[simp]
theorem insertText_text (value : String) :
    (Input.text value).insertText = .ok value := rfl

theorem exists_text_of_isText {input : Input} (text : input.IsText) :
    ∃ value, input = .text value := by
  cases input with
  | missing => exact text.elim
  | text value => exact ⟨value, rfl⟩
  | list items => exact text.elim

theorem eq_text_of_insertText {input : Input} {value : String}
    (inserted : input.insertText = .ok value) : input = .text value := by
  cases input with
  | missing => cases inserted
  | text other =>
      cases inserted
      rfl
  | list items => cases inserted

end Input

/-- An integer column compared with a bound value, which is a text. -/
def equalsInt (wanted : Option String) (column : Int) : Bool :=
  match wanted with
  | some text => compared text = column
  | none => false

/-- A text column compared with a bound value. -/
def equalsText (wanted : Option String) (column : String) : Bool :=
  wanted = some column

/-! ## Configuration -/

/-- The keys and labels of `config/review-fields.php`. -/
def reviewFieldsConfig : List (String × String) :=
  [("review1", "鹹度"), ("review2", "酥度"), ("review3", "香度"),
    ("review4", "油度")]

/-- The keys and labels of `config/info-fields.php`. -/
def infoFieldsConfig : List (String × String) :=
  [("info-field-1", "Google Map"), ("info-field-2", "Google 分數"),
    ("info-field-3", "Google 評價數"), ("info-field-4", "電話"),
    ("info-field-5", "網址")]

def getReviewKeys : List String :=
  reviewFieldsConfig.map Prod.fst

def getInfoKeys : List String :=
  infoFieldsConfig.map Prod.fst

end NomadiCore
