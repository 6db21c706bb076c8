import NomadiCore.SocialHandlers

/-!
# Logging in with Facebook

`GET /callback`.  What `GET /login` put into the session and the account that
Facebook vouches for are given.  The three inserts for a new account are
separate statements.
-/

namespace NomadiCore

open NomadiCore.Library.RowTable
open NomadiCore.Library.StatementProcess
open NomadiCore.Library.TextColumn

structure FacebookUser where
  id : String
  email : Option String
  name : Option String
  avatar : String
deriving DecidableEq

/-- A callback, with the session it belongs to. -/
structure Callback where
  denied : Bool := false
  user : Option Nat := none
  action : Input
  cafeId : Input
  path : Input
  facebook : FacebookUser
deriving DecidableEq

/-- The email of an account, or one made from its id; `'0'` is falsy, too. -/
def loginEmail (id : String) (email : Option String) : String :=
  match email with
  | none => id ++ "@facebook.com"
  | some email =>
      if email = "" ∨ email = "0" then id ++ "@facebook.com" else email

section Statements

variable [Collation]

/-! ## Statements -/

/-- A user as the columns of the table keep it. -/
def User.kept (user : User) : User where
  email := varchar user.email
  name := varchar user.name

/-- `users_email_unique`: the email to be stored is that of a stored user. -/
def emailTaken (email : String) (entry : Entry User) : Bool :=
  sameText entry.row.email (varchar email)

/-- A user whose email is taken is not stored. -/
def saveUser (user : User) : Handler Nat :=
  .perform fun database =>
    match database.users.first fun entry => emailTaken user.email entry with
    | some _ => (.error .queryException, database)
    | none =>
        (.ok database.users.next,
          { database with users := database.users.insert user.kept })

def saveProfile (profile : Profile) : Handler Unit :=
  .perform fun database =>
    match database.profiles.insert profile with
    | some table => (.ok (), { database with profiles := table })
    | none => (.error .queryException, database)

def saveSocialCredential (credential : SocialCredential) : Handler Unit :=
  .execute fun database =>
    { database with
      socialCredentials := database.socialCredentials.insert credential }

/-! ## The route -/

def insertCredential (facebook : FacebookUser) (user : Nat) :
    Handler Nat := do
  saveSocialCredential ⟨user, facebook.id⟩
  return user

def insertProfile (facebook : FacebookUser) (user : Nat) :
    Handler Nat := do
  saveProfile
    ⟨user, facebook.avatar.replace "type=normal" "type=square", 0⟩
  insertCredential facebook user

/-- The account has no credential yet; a missing name cannot be stored. -/
def insertUser (facebook : FacebookUser) : Handler Nat := do
  let name ← .require .queryException facebook.name
  let user ← saveUser ⟨loginEmail facebook.id facebook.email, name⟩
  insertProfile facebook user

/-- `Auth::loginUsingId`, which keeps the old user if there is no new one. -/
def loginUsingId (old : Option Nat) (id : Nat) : Handler (Option Nat) := do
  let found ← .query fun database => database.users.find id
  match found with
  | some entry => return some entry.id
  | none => return old

/-- The user of the session after the login. -/
def loginFacebook (old : Option Nat) (facebook : FacebookUser) :
    Handler (Option Nat) := do
  let found ← .query fun database =>
    database.socialCredentials.first fun entry =>
      entry.row.socialId = facebook.id
  match found with
  | some credential => loginUsingId old credential.row.userId
  | none =>
      let user ← insertUser facebook
      return some user

/-- A session value in a string: an array does not convert. -/
def Input.joined : Input → Except Raised String
  | .missing => .ok ""
  | .text value => .ok value
  | .list _ => .error .errorException

/-- The end of the route, once the session has its user. -/
def finishCallback (callback : Callback) (user : Option Nat) :
    Handler Response := do
  if callback.action = .text "recommend" then
    let _ ← .require .errorException user
    let _ ← .ofExcept callback.cafeId.whereValue
    -- the lookup names `cafe_id`, which the table does not have
    unknownColumn
  let path ← .ofExcept callback.path.joined
  let cafe ← .ofExcept callback.cafeId.joined
  return .redirect (path ++ "#" ++ cafe)

def callbackRoute (callback : Callback) : Handler Response :=
  if callback.denied then do
    let path ← .ofExcept callback.path.joined
    return .redirect path
  else do
    let user ← loginFacebook callback.user callback.facebook
    finishCallback callback user

end Statements

/-- Nothing is written. -/
def Quiet (before after : Database) : Prop := after = before

theorem Quiet.refl (database : Database) : Quiet database database := rfl

theorem loginUsingId_quiet (old : Option Nat) (id : Nat) :
    (loginUsingId old id).Within Quiet := by
  unfold loginUsingId
  refine .bind (.query Quiet.refl _) fun found => ?_
  cases found with
  | none => exact .pure _
  | some entry => exact .pure _

/-- The end of the route writes nothing. -/
theorem finishCallback_quiet (callback : Callback) (user : Option Nat) :
    (finishCallback callback user).Within Quiet := by
  have redirects :
      (do
        let path ← Process.ofExcept callback.path.joined
        let cafe ← Process.ofExcept callback.cafeId.joined
        return Response.redirect (path ++ "#" ++ cafe) :
          Handler Response).Within Quiet :=
    .bind (.ofExcept _) fun path => .bind (.ofExcept _) fun cafe => .pure _
  unfold finishCallback
  split
  · refine .bind (.require _ _) fun user => .bind (.ofExcept _) fun cafe =>
      .bind (.perform fun _ => rfl) fun _ => redirects
  · exact redirects

end NomadiCore
