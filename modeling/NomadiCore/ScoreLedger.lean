import NomadiCore.EditingApproval
import NomadiCore.FacebookLogin
import NomadiCore.ForumReferences
import NomadiCore.GuestFrame

/-!
# Experience points

`User::getScore` counts the rows of a user in seven tables, and
`RefreshUserScores::handle` stores the counts in the profiles.  The ledger of
a user is kept beside the database, from the requests that succeeded.  They
agree as long as the user contributed no shop: `saveContribution` does not
record who contributed it.

A check-in is listed under the id that its column keeps.  An id that the column
does not keep is not found again, so visits have to post others.
-/

namespace NomadiCore

open NomadiCore.Library.DecimalNumeral
open NomadiCore.Library.JsonText
open NomadiCore.Library.LabelledRun
open NomadiCore.Library.RowTable
open NomadiCore.Library.StatementProcess
open NomadiCore.Library.TextColumn

/-! ## The score -/

/-- The rows of a table that belong to a user. -/
def ownRows {Row : Type} (owner : Row → Nat) (user : Nat)
    (table : Table Row) : List (Entry Row) :=
  table.select fun entry => owner entry.row = user

/-- The photos of a user that are not hidden. -/
def validPhotos (database : Database) (user : Nat) : List (Entry Photo) :=
  (ownRows Photo.userId user database.photos).filter fun entry =>
    0 ≤ entry.row.status

def getScore (database : Database) (user : Nat) : Int :=
  (ownRows Recommendation.userId user
      database.recommendations).length * 2 +
    (ownRows Comment.userId user database.comments).length * 5 +
    (ownRows Review.userId user database.reviews).length * 5 +
    (ownRows Editing.userId user database.editings).length * 5 +
    (database.entities.select fun row => row.userId = user).length * 5 +
    (validPhotos database user).length * 5 +
    (database.entityTag.select fun row => row.userId = user).length * 1

def setScore (user : Nat) (score : Int) : Handler Unit :=
  .execute fun database =>
    { database with
      profiles := database.profiles.update user
        (fun profile => { profile with score := score })
        (fun _ => rfl) }

/-- The loop of `RefreshUserScores::handle`; a missing profile raises. -/
def refreshScores : List (Entry User) → Handler Unit
  | [] => pure ()
  | user :: rest => do
      let score ← .query fun database => getScore database user.id
      let found ← .query fun database => database.profiles.find user.id
      let profile ← .require .errorException found
      setScore profile.userId score
      refreshScores rest

/-- `RefreshUserScores::handle`. -/
def refreshUserScores : Handler Unit := do
  let users ← .query fun database => database.users.entries
  refreshScores users

/-! ## The ledger -/

/-- What a user has contributed and not taken back. -/
structure Ledger where
  checkIns : List String := []
  comments : List Nat := []
  reviews : List Nat := []
  editings : Nat := 0
  shops : Nat := 0
  photos : List Nat := []
  tags : List (String × Int) := []
deriving DecidableEq

/-- No two check-ins are to the same shop, as the server compares them. -/
def Ledger.Once [Collation] (ledger : Ledger) : Prop :=
  (ledger.checkIns.map Collation.sortKey).Nodup

def Ledger.points (ledger : Ledger) : Int :=
  ledger.checkIns.length * 2 + ledger.comments.length * 5 +
    ledger.reviews.length * 5 + ledger.editings * 5 + ledger.shops * 5 +
    ledger.photos.length * 5 + ledger.tags.length

/-- The requests of the site that write contributions. -/
inductive Operation where
  | author (route : AuthorRoute)
  | submitEditing
  | saveContribution
deriving DecidableEq

section ColumnFormats

variable [ColumnFormat]

/-- The id of the tag with this name, once it is added. -/
def tagId (database : Database) (name : String) : Nat :=
  match database.tags.first fun entry => sameText name entry.row.name with
  | some tag => tag.id
  | none => database.tags.next

/-- The entry for a tag of a request, if it has one. -/
def taggedWith (entity : Except Raised String) (tag : Except Raised Int) :
    List (String × Int) :=
  match entity, tag with
  | .ok entity, .ok tag => [(entity, tag)]
  | _, _ => []

/-- The ledger of the author after a request that succeeded. -/
def Ledger.record (before : Database) (operation : Operation)
    (request : Request) (response : Response) (ledger : Ledger) : Ledger :=
  match operation with
  | .author .ajaxVisit =>
      match request.get "entity_id" with
      | .text entity =>
          if ledger.checkIns.any (sameText entity) then ledger
          else
            { ledger with checkIns := ledger.checkIns ++ [varchar entity] }
      | _ => ledger
  | .author .ajaxCancelVisit =>
      { ledger with
        checkIns := ledger.checkIns.filter fun entity =>
          !NamesSame request "entity_id" entity }
  | .author .addComment =>
      { ledger with comments := ledger.comments ++ [before.comments.next] }
  | .author .removeComment =>
      { ledger with
        comments := ledger.comments.filter fun id =>
          !NamesInt request "comment_id" id }
  | .author .submitReview =>
      if response = reviewStored then
        { ledger with reviews := ledger.reviews ++ [before.reviews.next] }
      else ledger
  | .author .deleteReview =>
      { ledger with
        reviews := ledger.reviews.filter fun id =>
          !NamesInt request "review_id" id }
  | .author .uploadPhoto =>
      { ledger with photos := ledger.photos ++ [before.photos.next] }
  | .author .removePhoto =>
      { ledger with
        photos := ledger.photos.filter fun id =>
          !NamesInt request "photo_id" id }
  | .author .newTag =>
      if response = .back then
        { ledger with
          tags := ledger.tags ++
            taggedWith (request.get "entity_id").insertText
              ((request.get "tag_name").insertText.map fun name =>
                fitColumn (tagId before name)) }
      else ledger
  | .author .applyTag =>
      { ledger with
        tags := ledger.tags ++
          taggedWith (request.get "entity_id").insertText
            (request.get "tag_id").insertInt }
  | .author .unapplyTag =>
      { ledger with
        tags := ledger.tags.filter fun tag =>
          !(NamesText request "entity_id" tag.1 &&
            NamesInt request "tag_id" tag.2) }
  | .submitEditing => { ledger with editings := ledger.editings + 1 }
  | .saveContribution => { ledger with shops := ledger.shops + 1 }
  | .author _ => ledger

def Operation.handle (config : SiteConfig) :
    Operation → Request → Handler Response
  | .author route => route.handle
  | .submitEditing => NomadiCore.submitEditing
  | .saveContribution => NomadiCore.saveContribution config

/-- A request to the site. -/
structure Contribution where
  operation : Operation
  request : Request
deriving DecidableEq

/-- The database, with the ledger of one user. -/
structure LedgerWorld where
  database : Database
  ledger : Ledger

/-- A visit of the user names its shop as the column keeps it. -/
def VisitsKept (watched : Nat) (call : Contribution) : Prop :=
  call.operation = .author .ajaxVisit →
    call.request.user = some watched →
      ∀ shop, call.request.get "entity_id" = .text shop →
        sameText (varchar shop) shop = true

/-- A request of a logged-in user that succeeds. -/
def ledgerStep (config : SiteConfig) (watched : Nat) (world : LedgerWorld)
    (call : Contribution) : Option LedgerWorld :=
  match call.request.user,
      (call.operation.handle config call.request).run world.database with
  | some user, (.ok response, after) =>
      some ⟨after,
        if user = watched then
          world.ledger.record world.database call.operation call.request
            response
        else world.ledger⟩
  | _, _ => none

end ColumnFormats

/-! ## The ledger that the tables hold -/

def storedLedger (database : Database) (user : Nat) : Ledger where
  checkIns :=
    (ownRows Recommendation.userId user database.recommendations).map
      fun entry => entry.row.entityId
  comments :=
    (ownRows Comment.userId user database.comments).map Entry.id
  reviews := (ownRows Review.userId user database.reviews).map Entry.id
  editings := (ownRows Editing.userId user database.editings).length
  shops :=
    (database.entities.select fun row => row.userId = user).length
  photos := (validPhotos database user).map Entry.id
  tags :=
    (database.entityTag.select fun row => row.userId = user).map
      fun row => (row.entityId, row.tagId)

section OwnRows

variable {Row : Type} {owner : Row → Nat} {user author : Nat}
  {table : Table Row}

theorem ownRows_insert (row : Row) :
    ownRows owner user (table.insert row) =
      ownRows owner user table ++
        if owner row = user then [⟨table.next, row⟩] else [] := by
  simp [ownRows, Table.select_insert]

/-- An update that keeps the owners keeps the ids. -/
theorem ids_update {id : Nat} {change : Row → Row}
    (kept : ∀ row, owner (change row) = owner row) :
    (ownRows owner user (table.update id change)).map Entry.id =
      (ownRows owner user table).map Entry.id := by
  simp only [ownRows, Table.select, Table.update, List.filter_map,
    List.map_map]
  have same : ∀ entry : Entry Row,
      owner (if entry.id = id then { entry with row := change entry.row }
        else entry).row = owner entry.row := by
    intro entry
    split
    · exact kept entry.row
    · rfl
  simp only [Function.comp_def, same]
  apply List.map_congr_left
  intro entry _
  split <;> rfl

/-- The posted id names no other row. -/
theorem IsOwn.names_iff
    {request : Request} {parameter : String} {entry other : Entry Row}
    (own : IsOwn owner author request parameter table entry)
    (member : other ∈ table.entries) :
    NamesInt request parameter other.id = true ↔ other.id = entry.id := by
  constructor
  · intro named
    have equal := named_unique (Table.mem_select.mpr ⟨member, named⟩)
      (Table.mem_select.mpr ⟨own.stored, own.named⟩)
    rw [equal]
  · intro same
    rw [same]
    exact own.named

/-- Removing a row of someone else keeps the rows of a user. -/
theorem ownRows_delete_other {entry : Entry Row}
    (stored : entry ∈ table.entries) (other : owner entry.row ≠ user) :
    ownRows owner user
        (table.delete fun other => other.id = entry.id) =
      ownRows owner user table := by
  apply Table.select_delete_of_disjoint
  intro later member same
  have equal := Table.eq_of_id_eq member stored (by simpa using same)
  simpa [equal] using other

/-- An author removes the named row, and no row of someone else. -/
theorem ids_delete
    {request : Request} {parameter : String} {entry : Entry Row}
    (own : IsOwn owner author request parameter table entry) :
    (ownRows owner user
        (table.delete fun other => other.id = entry.id)).map Entry.id =
      if author = user then
        ((ownRows owner user table).map Entry.id).filter fun id : Nat =>
          !NamesInt request parameter id
      else (ownRows owner user table).map Entry.id := by
  split
  · simp only [ownRows, Table.select_delete, List.filter_map]
    congr 1
    apply List.filter_congr
    intro other member
    have names := own.names_iff (Table.mem_select.mp member).1
    simp only [Function.comp, ← names, Bool.decide_eq_true]
  · rename_i different
    rw [ownRows_delete_other own.stored (by rwa [own.own])]

end OwnRows

/-! ## What a request does to the stored ledger -/

/-- The stored ledger of a user is the same, and so are the accounts. -/
structure KeepsLedger (user : Nat) (before after : Database) : Prop where
  ledger : storedLedger after user = storedLedger before user
  users : after.users = before.users
  profiles : after.profiles = before.profiles

theorem KeepsLedger.refl (user : Nat) (database : Database) :
    KeepsLedger user database database :=
  ⟨rfl, rfl, rfl⟩

/-- The forum has tables of its own. -/
theorem ForumWrite.keepsLedger
    {call : ForumCall} {before after : Database}
    (write : ForumWrite call before after) (user : Nat) :
    KeepsLedger user before after := by
  cases write <;> exact ⟨rfl, rfl, rfl⟩

theorem KeepsLedger.trans {user : Nat} {first second third : Database}
    (early : KeepsLedger user first second)
    (late : KeepsLedger user second third) :
    KeepsLedger user first third where
  ledger := late.ledger.trans early.ledger
  users := late.users.trans early.users
  profiles := late.profiles.trans early.profiles

section Requests

variable [ColumnFormat] {request : Request} {author user : Nat}
  {before after : Database} {response : Response}

/-- The stored ledger follows the ledger of the author. -/
structure Follows (operation : Operation) (request : Request)
    (response : Response) (author user : Nat)
    (before after : Database) : Prop where
  ledger :
    storedLedger after user =
      if author = user then
        (storedLedger before user).record before operation request response
      else storedLedger before user
  users : after.users = before.users
  profiles : after.profiles = before.profiles

/-- The author's ledger is recorded, and that of another user is kept. -/
theorem Follows.of_cases
    {operation : Operation}
    (users : after.users = before.users)
    (profiles : after.profiles = before.profiles)
    (own : author = user →
      storedLedger after user =
        (storedLedger before user).record before operation request response)
    (other : author ≠ user →
      storedLedger after user = storedLedger before user) :
    Follows operation request response author user before after := by
  refine ⟨?_, users, profiles⟩
  split
  · exact own ‹_›
  · exact other ‹_›

/-- A request that writes none of the rows, and is not in the ledger. -/
theorem KeepsLedger.follows
    {operation : Operation}
    (kept : KeepsLedger user before after)
    (unrecorded : ∀ ledger : Ledger,
      ledger.record before operation request response = ledger) :
    Follows operation request response author user before after := by
  refine ⟨?_, kept.users, kept.profiles⟩
  simp [kept.ledger, unrecorded]

variable (login : request.user = some author)

include login

/-- A visit finds the check-in of the author, or stores it. -/
theorem ajaxVisit_ok
    (ran : (ajaxVisit request).run before = (.ok response, after)) :
    (after = before ∧
        ∀ entity, request.get "entity_id" = .text entity →
          ∃ entry ∈ before.recommendations.entries,
            sameText entity entry.row.entityId = true ∧
              entry.row.userId = author) ∨
      ∃ entity,
        request.get "entity_id" = .text entity ∧
          (∀ entry ∈ before.recommendations.entries,
            entry.row.userId = author →
              sameText entity entry.row.entityId = false) ∧
          after =
            { before with
              recommendations :=
                before.recommendations.insert
                  ⟨author, varchar entity⟩ } := by
  cases value : (request.get "entity_id").whereValue with
  | error failure =>
      simp [ajaxVisit, ownRecommendation, login, value] at ran
  | ok wanted =>
      cases found : before.recommendations.first (fun entry =>
          collatesText wanted entry.row.entityId &&
            entry.row.userId = author) with
      | some entry =>
          obtain ⟨stored, both⟩ := Table.first_eq_some found
          simp [ajaxVisit, ownRecommendation, login, value, found] at ran
          refine Or.inl ⟨ran.2.symm, ?_⟩
          intro entity posted
          simp only [posted, Input.whereValue, Except.ok.injEq] at value
          simp only [← value, collatesText, Bool.and_eq_true,
            decide_eq_true_eq] at both
          exact ⟨entry, stored, both⟩
      | none =>
          cases inserted : (request.get "entity_id").insertText with
          | error failure =>
              simp [ajaxVisit, ownRecommendation, login, value, found,
                inserted] at ran
          | ok entity =>
              have posted := Input.eq_text_of_insertText inserted
              simp [ajaxVisit, ownRecommendation, login, value, found,
                inserted, saveRecommendation] at ran
              refine Or.inr ⟨entity, posted, ?_, ran.2.symm⟩
              intro entry member own
              have unequal := Table.first_eq_none.mp found entry member
              simp only [posted, Input.whereValue, Except.ok.injEq] at value
              simpa [← value, collatesText, own] using unequal

theorem ajaxVisit_follows
    (ran : (ajaxVisit request).run before = (.ok response, after)) :
    Follows (.author .ajaxVisit) request response author user before
      after := by
  rcases ajaxVisit_ok login ran with
    ⟨rfl, known⟩ | ⟨entity, posted, new, rfl⟩
  · refine .of_cases rfl rfl ?_ ?_
    · intro own
      subst own
      cases posted : request.get "entity_id" with
      | missing => simp only [Ledger.record, posted]
      | list items => simp only [Ledger.record, posted]
      | text entity =>
          obtain ⟨entry, stored, equal, isOwn⟩ := known entity posted
          have listed : (storedLedger after author).checkIns.any
              (sameText entity) = true := by
            refine List.any_eq_true.mpr ⟨_, ?_, equal⟩
            exact List.mem_map.mpr ⟨entry,
              Table.mem_select.mpr ⟨stored, by simpa using isOwn⟩, rfl⟩
          simp only [Ledger.record, posted, listed, if_true]
    · exact fun _ => rfl
  · refine .of_cases rfl rfl ?_ ?_
    · intro own
      subst own
      have absent : (storedLedger before author).checkIns.any
          (sameText entity) = false := by
        refine List.any_eq_false.mpr ?_
        intro shop listed
        obtain ⟨entry, member, rfl⟩ := List.mem_map.mp listed
        obtain ⟨stored, isOwn⟩ := Table.mem_select.mp member
        simp [new entry stored (by simpa using isOwn)]
      simp only [Ledger.record, posted, absent, Bool.false_eq_true,
        if_false]
      simp [storedLedger, ownRows_insert, validPhotos]
    · intro other
      simp [storedLedger, ownRows_insert, other, validPhotos]

theorem addComment_follows
    (ran : (addComment request).run before = (.ok response, after)) :
    Follows (.author .addComment) request response author user before
      after := by
  cases entity : (request.get "entity_id").insertText with
  | error failure => simp [addComment, login, entity] at ran
  | ok shop =>
      cases body : (request.get "body").insertText with
      | error failure => simp [addComment, login, entity, body] at ran
      | ok text =>
          simp [addComment, login, entity, body, saveComment] at ran
          obtain ⟨-, rfl⟩ := ran
          refine .of_cases rfl rfl ?_ ?_
          · intro own
            simp [storedLedger, Ledger.record, ownRows_insert, own,
              validPhotos]
          · intro other
            simp [storedLedger, ownRows_insert, other, validPhotos]

theorem removeComment_follows
    (ran : (removeComment request).run before = (.ok response, after)) :
    Follows (.author .removeComment) request response author user before
      after := by
  cases value : (request.get "comment_id").whereValue with
  | error failure => simp [removeComment, login, value] at ran
  | ok wanted =>
      cases found : before.comments.first (fun entry =>
          equalsInt wanted entry.id && entry.row.userId = author) with
      | none => simp [removeComment, login, value, found] at ran
      | some comment =>
          have own : IsOwn Comment.userId author request "comment_id"
              before.comments comment := isOwn_of_first value found
          simp [removeComment, login, value, found, deleteComment] at ran
          obtain ⟨-, rfl⟩ := ran
          have ids := @ids_delete _ _ user _ _ _ _ _ own
          refine .of_cases rfl rfl ?_ ?_
          · intro isAuthor
            rw [if_pos isAuthor] at ids
            simp [storedLedger, Ledger.record, ids, validPhotos]
          · intro other
            rw [if_neg other] at ids
            simp [storedLedger, ids, validPhotos]

omit login in
/-- The check-ins that are left when the author cancels one of them. -/
theorem checkIns_delete
    {wanted : Option String} {entry : Entry Recommendation}
    (once : (storedLedger before author).Once)
    (stored : entry ∈ before.recommendations.entries)
    (named : collatesText wanted entry.row.entityId = true)
    (own : entry.row.userId = author) :
    ((ownRows Recommendation.userId author
        (before.recommendations.delete fun other =>
          other.id = entry.id)).map fun entry => entry.row.entityId) =
      (storedLedger before author).checkIns.filter fun entity =>
        !collatesText wanted entity := by
  have mine :
      entry ∈ ownRows Recommendation.userId author before.recommendations :=
    Table.mem_select.mpr ⟨stored, by simpa using own⟩
  simp only [storedLedger, ownRows, Table.select_delete, List.filter_map]
  congr 1
  apply List.filter_congr
  intro other member
  simp only [Function.comp, Bool.not_inj_iff]
  rw [Bool.eq_iff_iff, decide_eq_true_eq]
  constructor
  · intro same
    rw [Table.eq_of_id_eq (Table.mem_select.mp member).1 stored same]
    exact named
  · intro alsoNamed
    have sameShop := collatesText_unique alsoNamed named
    rw [Ledger.Once, storedLedger, List.map_map] at once
    rw [List.inj_on_of_nodup_map once member mine sameShop]

/-- A cancellation takes the check-in out of the ledger. -/
theorem ajaxCancelVisit_follows
    (once : (storedLedger before user).Once)
    (ran : (ajaxCancelVisit request).run before = (.ok response, after)) :
    Follows (.author .ajaxCancelVisit) request response author user before
      after := by
  cases value : (request.get "entity_id").whereValue with
  | error failure =>
      simp [ajaxCancelVisit, ownRecommendation, login, value] at ran
  | ok wanted =>
      have names : ∀ entity, NamesSame request "entity_id" entity =
          collatesText wanted entity := by
        intro entity
        simp only [NamesSame, value]
      cases found : before.recommendations.first (fun entry =>
          collatesText wanted entry.row.entityId &&
            entry.row.userId = author) with
      | none =>
          simp [ajaxCancelVisit, ownRecommendation, login, value,
            found] at ran
          obtain ⟨-, rfl⟩ := ran
          refine .of_cases rfl rfl ?_ ?_
          · intro own
            subst own
            have unnamed :
                ((storedLedger before author).checkIns.filter fun entity =>
                  !NamesSame request "entity_id" entity) =
                  (storedLedger before author).checkIns := by
              apply List.filter_eq_self.mpr
              intro entity listed
              obtain ⟨entry, member, rfl⟩ := List.mem_map.mp listed
              obtain ⟨stored, isOwn⟩ := Table.mem_select.mp member
              have unequal := Table.first_eq_none.mp found entry stored
              simpa [names, of_decide_eq_true isOwn] using unequal
            simp only [Ledger.record, unnamed]
          · exact fun _ => rfl
      | some entry =>
          obtain ⟨stored, both⟩ := Table.first_eq_some found
          simp only [Bool.and_eq_true, decide_eq_true_eq] at both
          simp [ajaxCancelVisit, ownRecommendation, login, value, found,
            deleteRecommendation] at ran
          obtain ⟨-, rfl⟩ := ran
          refine .of_cases rfl rfl ?_ ?_
          · intro own
            subst own
            have left := checkIns_delete once stored both.1 both.2
            simp only [Ledger.record, names, ← left]
            simp [storedLedger, validPhotos]
          · intro other
            have left := @ownRows_delete_other _ Recommendation.userId user
              _ _ stored (by rwa [both.2])
            simp [storedLedger, left, validPhotos]

/-! ### Reviews -/

omit [ColumnFormat] in
/-- A submission is stored and answered so, or it changes nothing. -/
theorem submitReview_ok
    (ran : (submitReview request).run before = (.ok response, after)) :
    (after = before ∧ response ≠ reviewStored) ∨
      (response = reviewStored ∧
        ∃ entity fields, after =
          { before with
            reviews := before.reviews.insert
              ⟨entity, 0, author, fields⟩ }) := by
  obtain ⟨found, middle, looked, rest⟩ := Process.run_bind_eq_ok ran
  have same : middle = before := by
    cases posted : request.get "entity_id" with
    | missing => simpa [findEntity, posted] using congrArg Prod.snd looked.symm
    | list items => simp [findEntity, posted] at looked
    | text id => simpa [findEntity, posted] using congrArg Prod.snd looked.symm
  subst same
  obtain ⟨entity, state, required, judged⟩ := Process.run_bind_eq_ok rest
  obtain ⟨-, rfl⟩ := Process.run_require_eq_ok required
  cases earlier : state.reviews.first (fun entry =>
      entry.row.entityId = entity.id && entry.row.userId = author) with
  | some review =>
      simp [lookupReview, login, earlier] at judged
      exact Or.inl ⟨judged.2.symm, by simp [← judged.1, reviewStored]⟩
  | none =>
      cases rated : checkHasError request with
      | true =>
          simp [lookupReview, login, earlier, insertReview, rated] at judged
          exact Or.inl ⟨judged.2.symm, by
            simp [← judged.1, zeroRatingNotice, reviewStored]⟩
      | false =>
          cases inserted : (request.get "entity_id").insertText with
          | error failure =>
              simp [lookupReview, login, earlier, insertReview, rated,
                inserted] at judged
          | ok id =>
              simp [lookupReview, login, earlier, insertReview, rated,
                inserted, saveReview] at judged
              exact Or.inr ⟨judged.1.symm, id, _, judged.2.symm⟩

theorem submitReview_follows
    (ran : (submitReview request).run before = (.ok response, after)) :
    Follows (.author .submitReview) request response author user before
      after := by
  rcases submitReview_ok login ran with
    ⟨rfl, unstored⟩ | ⟨stored, entity, fields, rfl⟩
  · refine KeepsLedger.follows (.refl _ _) ?_
    intro ledger
    simp only [Ledger.record, if_neg unstored]
  · refine .of_cases rfl rfl ?_ ?_
    · intro own
      simp [storedLedger, Ledger.record, stored, ownRows_insert, own,
        validPhotos]
    · intro other
      simp [storedLedger, ownRows_insert, other, validPhotos]

theorem updateReview_follows
    (ran : (updateReview request).run before = (.ok response, after)) :
    Follows (.author .updateReview) request response author user before
      after := by
  have left : (updateReview request).final before = after := by
    rw [Process.final, ran]
  refine KeepsLedger.follows ?_ fun ledger => rfl
  rcases updateReview_own login before with same | ⟨review, own, updated⟩
  · rw [← left, same]
    exact .refl user before
  · rw [← left, updated]
    refine ⟨?_, rfl, rfl⟩
    simp [storedLedger, ids_update, validPhotos]

theorem deleteReview_follows
    (ran : (deleteReview request).run before = (.ok response, after)) :
    Follows (.author .deleteReview) request response author user before
      after := by
  obtain ⟨outcome, looked, isOwn⟩ := ownReview_cases login before
  rcases outcome with failure | none | review
  · simp [deleteReview, looked] at ran
  · simp [deleteReview, looked] at ran
  · simp [deleteReview, looked, deleteReviewRow] at ran
    obtain ⟨-, rfl⟩ := ran
    have ids := @ids_delete _ _ user _ _ _ _ _ (isOwn review rfl)
    refine .of_cases rfl rfl ?_ ?_
    · intro isAuthor
      rw [if_pos isAuthor] at ids
      simp [storedLedger, Ledger.record, ids, validPhotos]
    · intro other
      rw [if_neg other] at ids
      simp [storedLedger, ids, validPhotos]

/-! ### Photos and tags -/

omit [ColumnFormat] in
/-- An upload names a column that the table does not have. -/
theorem uploadPhoto_not_ok
    (ran : (uploadPhoto request).run before = (.ok response, after)) :
    False := by
  cases image : request.image with
  | none => simp [uploadPhoto, handleUpload, image] at ran
  | some size =>
      cases shop : (request.get "cafe_id").bound with
      | error failure =>
          simp [uploadPhoto, handleUpload, image, savePhoto, login,
            shop] at ran
      | ok value =>
          simp [uploadPhoto, handleUpload, image, savePhoto, login, shop,
            unknownColumn] at ran

omit [ColumnFormat] login in
/-- Hiding a photo of the author takes it out of the valid photos. -/
theorem validPhotos_hide {photo : Entry Photo}
    (own : IsOwn Photo.userId author request "photo_id" before.photos
      photo) :
    (validPhotos
        { before with
          photos := before.photos.update photo.id fun row =>
            { row with status := hiddenPhotoStatus } } user).map Entry.id =
      if author = user then
        ((validPhotos before user).map Entry.id).filter fun id : Nat =>
          !NamesInt request "photo_id" id
      else (validPhotos before user).map Entry.id := by
  simp only [validPhotos, ownRows, Table.select, Table.update,
    List.filter_map, List.filter_filter, List.map_map]
  have sameId : (Entry.id ∘ fun entry : Entry Photo =>
      if entry.id = photo.id then
        { entry with row :=
          { entry.row with status := hiddenPhotoStatus } }
      else entry) = Entry.id := by
    funext entry
    simp only [Function.comp]
    split <;> rfl
  rw [sameId]
  split
  · congr 1
    apply List.filter_congr
    intro entry member
    have names := own.names_iff member
    by_cases hidden : entry.id = photo.id
    · simp [hidden, own.named, hiddenPhotoStatus]
    · have unnamed : NamesInt request "photo_id" entry.id = false := by
        simpa [hidden] using names
      simp [hidden, unnamed]
  · rename_i different
    congr 1
    apply List.filter_congr
    intro entry member
    by_cases hidden : entry.id = photo.id
    · have equal := Table.eq_of_id_eq member own.stored hidden
      simp [equal, own.own, different]
    · simp [hidden]

theorem removePhoto_follows
    (ran : (removePhoto request).run before = (.ok response, after)) :
    Follows (.author .removePhoto) request response author user before
      after := by
  cases value : (request.get "photo_id").whereValue with
  | error failure => simp [removePhoto, login, value] at ran
  | ok wanted =>
      cases found : before.photos.first (fun entry =>
          equalsInt wanted entry.id && entry.row.userId = author) with
      | none => simp [removePhoto, login, value, found] at ran
      | some photo =>
          have own : IsOwn Photo.userId author request "photo_id"
              before.photos photo := isOwn_of_first value found
          simp [removePhoto, login, value, found, setPhotoStatus] at ran
          obtain ⟨-, rfl⟩ := ran
          have ids := @validPhotos_hide _ _ user _ _ own
          refine .of_cases rfl rfl ?_ ?_
          · intro isAuthor
            rw [if_pos isAuthor] at ids
            simp only [storedLedger, Ledger.record, ids]
          · intro other
            rw [if_neg other] at ids
            simp only [storedLedger, ids]

omit [ColumnFormat] login in
/-- The tags of a user after a row is stored. -/
theorem tags_insert
    {row : EntityTag}
    {table : Keyed EntityTag (String × Int × Nat)
      fun row => (row.entityId, row.tagId, row.userId)}
    (inserted : before.entityTag.insert row = some table) :
    ((table.select fun row => row.userId = user).map
        fun row => (row.entityId, row.tagId)) =
      (storedLedger before user).tags ++
        if row.userId = user then [(row.entityId, row.tagId)] else [] := by
  obtain ⟨-, rows⟩ := Keyed.insert_eq_some inserted
  by_cases own : row.userId = user
  · simp [Keyed.select, rows, storedLedger, own]
  · simp [Keyed.select, rows, storedLedger, own]

theorem applyTag_follows
    (ran : (applyTag request).run before = (.ok response, after)) :
    Follows (.author .applyTag) request response author user before
      after := by
  cases entity : (request.get "entity_id").insertText with
  | error failure => simp [applyTag, login, entity] at ran
  | ok shop =>
  cases tag : (request.get "tag_id").insertInt with
  | error failure => simp [applyTag, login, entity, tag] at ran
  | ok id =>
  cases inserted : before.entityTag.insert ⟨shop, id, author, false⟩ with
  | none =>
      simp [applyTag, login, entity, tag, saveEntityTag, inserted] at ran
  | some table =>
      simp [applyTag, login, entity, tag, saveEntityTag, inserted] at ran
      obtain ⟨-, rfl⟩ := ran
      have tags := @tags_insert user before _ _ inserted
      refine .of_cases rfl rfl ?_ ?_
      · intro own
        rw [if_pos own] at tags
        simp only [storedLedger, Ledger.record, entity, tag, taggedWith]
        rw [tags]
        rfl
      · intro other
        rw [if_neg other, List.append_nil] at tags
        simp only [storedLedger]
        rw [tags]
        rfl

omit login in
/-- The tag with a name is found or added. -/
theorem manualAdd_run (name : String) (before : Database) :
    ∃ table, (manualAdd name).run before =
      (.ok (tagId before name), { before with tags := table }) := by
  cases found : before.tags.first fun entry =>
      sameText name entry.row.name with
  | none =>
      exact ⟨before.tags.insert ⟨varchar name⟩,
        by simp [manualAdd, found, saveTag, tagId]⟩
  | some tag =>
      exact ⟨before.tags, by simp [manualAdd, found, tagId]⟩

/-- A tag is looked up or added, and then applied. -/
theorem newTag_follows
    (ran : (newTag request).run before = (.ok response, after)) :
    Follows (.author .newTag) request response author user before
      after := by
  cases trimmed : trimmedInput (request.get "tag_name") with
  | error failure => simp [newTag, trimmed] at ran
  | ok text =>
  by_cases blank : text = ""
  · simp [newTag, trimmed, blank] at ran
    obtain ⟨rfl, rfl⟩ := ran
    refine KeepsLedger.follows (.refl user before) ?_
    intro ledger
    simp [Ledger.record]
  cases named : (request.get "tag_name").insertText with
  | error failure => simp [newTag, trimmed, blank, named] at ran
  | ok name =>
  obtain ⟨known, added⟩ := manualAdd_run name before
  cases entity : (request.get "entity_id").insertText with
  | error failure =>
      simp [newTag, trimmed, blank, named, added, login, entity] at ran
  | ok shop =>
  cases inserted : before.entityTag.insert
      ⟨shop, fitColumn (tagId before name), author, false⟩ with
  | none =>
      simp [newTag, trimmed, blank, named, added, login, entity,
        saveEntityTag, inserted] at ran
  | some table =>
      simp [newTag, trimmed, blank, named, added, login, entity,
        saveEntityTag, inserted] at ran
      obtain ⟨rfl, rfl⟩ := ran
      have tags := @tags_insert user before _ _ inserted
      have left :
          storedLedger
              { before with tags := known, entityTag := table } user =
            { storedLedger before user with
              tags := (storedLedger before user).tags ++
                if author = user then
                  [(shop, fitColumn (tagId before name))]
                else [] } := by
        rw [← tags]
        rfl
      refine ⟨?_, rfl, rfl⟩
      rw [left]
      split
      · simp [Ledger.record, entity, named, taggedWith, Except.map]
      · simp

theorem unapplyTag_follows
    (ran : (unapplyTag request).run before = (.ok response, after)) :
    Follows (.author .unapplyTag) request response author user before
      after := by
  cases entity : (request.get "entity_id").whereValue with
  | error failure => simp [unapplyTag, login, entity] at ran
  | ok shop =>
  cases tag : (request.get "tag_id").whereValue with
  | error failure => simp [unapplyTag, login, entity, tag] at ran
  | ok id =>
      simp [unapplyTag, login, entity, tag] at ran
      obtain ⟨-, rfl⟩ := ran
      refine .of_cases rfl rfl ?_ ?_
      · intro own
        subst own
        simp only [storedLedger, Ledger.record, NamesText, NamesInt, entity,
          tag, Keyed.select, Keyed.delete, List.filter_map,
          List.filter_filter]
        congr 2
        apply List.filter_congr
        intro row _
        by_cases isOwn : row.userId = author
        · simp [isOwn]
        · simp [isOwn]
      · intro other
        have left :
            ((before.entityTag.delete fun row =>
                equalsText shop row.entityId && equalsInt id row.tagId &&
                  row.userId = author).select
              fun row => row.userId = user) =
              before.entityTag.select fun row => row.userId = user := by
          apply Keyed.select_delete_of_disjoint
          intro row _ deleted
          simp only [Bool.and_eq_true, decide_eq_true_eq] at deleted
          simpa [deleted.2] using other
        simp only [storedLedger, left, validPhotos]

end Requests

/-! ### Editings and shops -/

/-- An update of an entity that keeps its contributor. -/
theorem shops_update
    {user : Nat} {database : Database} {id : String}
    {change : Entity → Entity}
    (kept : ∀ row, (change row).id = row.id)
    (sameUser : ∀ row, (change row).userId = row.userId) :
    ((database.entities.update id change kept).select
        fun row => row.userId = user).length =
      (database.entities.select fun row => row.userId = user).length := by
  simp only [Keyed.select, Keyed.update, List.filter_map, List.length_map]
  congr 1
  apply List.filter_congr
  intro row _
  simp only [Function.comp]
  split
  · rw [sameUser]
  · rfl

section Editings

variable [ColumnFormat] {user : Nat}

omit [ColumnFormat] in
theorem KeepsLedger.run
    {Answer : Type} {handler : Handler Answer}
    (within : handler.Within (KeepsLedger user)) (database : Database) :
    KeepsLedger user database (handler.final database) :=
  within.run (KeepsLedger.refl user) KeepsLedger.trans database

theorem insertDays_keepsLedger
    (entity : String) (data : Json) (days : List (Nat × String)) :
    (insertDays entity data days).Within (KeepsLedger user) := by
  induction days with
  | nil => exact .pure ()
  | cons head rest induction =>
      refine .bind (.ofExcept _) fun times => ?_
      refine .bind (.perform fun database => ?_) fun _ => induction
      cases database.businessHours.insert
          ⟨entity, head.1, times.1, times.2⟩ with
      | none => exact .refl user database
      | some table => exact ⟨rfl, rfl, rfl⟩

theorem createBusinessHours_keepsLedger (entity : String) (json : Input) :
    (createBusinessHours entity json).Within (KeepsLedger user) :=
  .bind (.execute fun _ => ⟨rfl, rfl, rfl⟩) fun _ => .bind (.ofExcept _)
    fun data => insertDays_keepsLedger entity data weekDays

/-- Approving keeps who edited what and who contributed what. -/
theorem approve_keepsLedger
    (id : Nat) (editing : Editing) (geocode : Geocode) :
    (approve id editing geocode).Within (KeepsLedger user) := by
  refine .bind (.execute fun database => ?_) fun _ => ?_
  · have ids := @ids_update _ Editing.userId user database.editings id
      (fun row => { row with status := approvedStatus }) fun _ => rfl
    have count := congrArg List.length ids
    simp only [List.length_map] at count
    refine ⟨?_, rfl, rfl⟩
    simp only [storedLedger, count, validPhotos]
  refine .bind (.query (KeepsLedger.refl user) _) fun found => ?_
  refine .bind (.require _ _) fun entity => ?_
  refine .bind (.ofExcept _) fun place => ?_
  refine .bind (.execute fun database => ?_) fun _ => ?_
  · have count := @shops_update user database entity.id
      (applyEditing editing place.1 place.2)
      (applyEditing_id editing place.1 place.2) fun _ => rfl
    refine ⟨?_, rfl, rfl⟩
    simp only [storedLedger, count, validPhotos]
  cases editing.businessHours with
  | none => exact .pure ()
  | some json => exact createBusinessHours_keepsLedger _ _

/-- A submission that succeeds stores one editing of its author. -/
theorem submitEditing_follows
    {request : Request} {author : Nat} {before after : Database}
    {response : Response} (login : request.user = some author)
    (ran : (submitEditing request).run before = (.ok response, after)) :
    Follows .submitEditing request response author user before after := by
  have left : (submitEditing request).final before = after := by
    rw [Process.final, ran]
  rcases submitEditing_run request before with ⟨failure, refused⟩ |
    ⟨entity, -, name, address, hours, -, -, -, -, -, stored⟩
  · rw [refused] at ran
    cases ran
  · rw [stored] at left
    have kept := KeepsLedger.run
      (@approve_keepsLedger _ user before.editings.next
        (postedEditing request entity name address hours) request.geocode)
      { before with
        editings := before.editings.insert
          (postedEditing request entity name address hours).kept }
    rw [left] at kept
    have owner :
        (postedEditing request entity name address hours).userId =
          author := by
      simp [postedEditing, login]
    refine .of_cases kept.users kept.profiles ?_ ?_
    · intro own
      rw [kept.ledger]
      simp [storedLedger, Ledger.record, ownRows_insert, owner, own,
        validPhotos]
    · intro other
      rw [kept.ledger]
      simp [storedLedger, ownRows_insert, owner, other, validPhotos]

/-- A contribution is nobody's. -/
theorem saveContribution_keepsLedger
    (config : SiteConfig) (request : Request) (someone : user ≠ 0) :
    (saveContribution config request).Within (KeepsLedger user) := by
  refine .bind (.ofExcept _) fun place => ?_
  refine .bind (.ofExcept _) fun name => ?_
  refine .bind (.ofExcept _) fun city => ?_
  refine .bind (.perform fun database => ?_) fun _ => ?_
  · split
    · rename_i table inserted
      obtain ⟨-, rows⟩ := Keyed.insert_eq_some inserted
      have count :
          (table.select fun row => row.userId = user).length =
            (database.entities.select
              fun row => row.userId = user).length := by
        simp [Keyed.select, rows, someone.symm]
      refine ⟨?_, rfl, rfl⟩
      simp only [storedLedger, count, validPhotos]
    · exact .refl user database
  split
  · exact .bind (createBusinessHours_keepsLedger _ _) fun _ => .pure _
  · exact .pure _

end Editings

/-! ### The other routes -/

section Routes

variable [ColumnFormat] {request : Request} {author user : Nat}
  {before after : Database} {response : Response}
  (login : request.user = some author)

include login

omit [ColumnFormat] in
/-- The wishes name a column that the table does not have. -/
theorem ownWish_not_ok {found : Option (Entry Wish)} :
    (ownWish request).run before ≠ (.ok found, after) := by
  intro ran
  cases value : (request.get "cafe_id").whereValue with
  | error failure => simp [ownWish, login, value] at ran
  | ok wanted => simp [ownWish, login, value, unknownColumn] at ran

/-- Every route but the contribution of a shop follows the ledger. -/
theorem authorRoute_follows (route : AuthorRoute)
    (once : (storedLedger before user).Once)
    (ran : (route.handle request).run before = (.ok response, after)) :
    Follows (.author route) request response author user before after := by
  have left : (route.handle request).final before = after := by
    rw [Process.final, ran]
  cases route with
  | createPost =>
      have kept :=
        (forumWrite ⟨.createPost, request⟩ before).keepsLedger user
      exact (left ▸ kept).follows fun ledger => rfl
  | replyPost =>
      have kept :=
        (forumWrite ⟨.replyPost, request⟩ before).keepsLedger user
      exact (left ▸ kept).follows fun ledger => rfl
  | updatePost =>
      have kept :=
        (forumWrite ⟨.updatePost, request⟩ before).keepsLedger user
      exact (left ▸ kept).follows fun ledger => rfl
  | commentToPost =>
      have kept :=
        (forumWrite ⟨.commentToPost, request⟩ before).keepsLedger user
      exact (left ▸ kept).follows fun ledger => rfl
  | removePost =>
      have kept :=
        (forumWrite ⟨.removePost, request⟩ before).keepsLedger user
      exact (left ▸ kept).follows fun ledger => rfl
  | newTag => exact newTag_follows login ran
  | applyTag => exact applyTag_follows login ran
  | unapplyTag => exact unapplyTag_follows login ran
  | uploadPhoto => exact (uploadPhoto_not_ok login ran).elim
  | removePhoto => exact removePhoto_follows login ran
  | submitReview => exact submitReview_follows login ran
  | updateReview => exact updateReview_follows login ran
  | deleteReview => exact deleteReview_follows login ran
  | addComment => exact addComment_follows login ran
  | removeComment => exact removeComment_follows login ran
  | ajaxVisit => exact ajaxVisit_follows login ran
  | ajaxCancelVisit => exact ajaxCancelVisit_follows login once ran
  | ajaxWish =>
      obtain ⟨found, middle, looked, -⟩ := Process.run_bind_eq_ok ran
      exact absurd looked (ownWish_not_ok login)
  | ajaxCancelWish =>
      obtain ⟨found, middle, looked, -⟩ := Process.run_bind_eq_ok ran
      exact absurd looked (ownWish_not_ok login)

end Routes

/-! ## Runs -/

section Records

variable [ColumnFormat]

/-- Only the contribution of a shop touches the shops of the ledger. -/
theorem record_shops
    (before : Database) {operation : Operation} (request : Request)
    (response : Response) (ledger : Ledger) (count : Nat)
    (noShop : operation ≠ .saveContribution) :
    { ledger with shops := count }.record before operation request
        response =
      { ledger.record before operation request response with
        shops := count } := by
  cases operation with
  | submitEditing => rfl
  | saveContribution => exact absurd rfl noShop
  | author route =>
      cases route <;> try rfl
      case ajaxVisit =>
        simp only [Ledger.record]
        split
        · split <;> rfl
        · rfl
      case submitReview =>
        simp only [Ledger.record]
        split <;> rfl
      case newTag =>
        simp only [Ledger.record]
        split <;> rfl

/-- A visit that is kept as it is posted checks in to no shop twice. -/
theorem Ledger.Once.visit
    {ledger : Ledger} (once : ledger.Once) {entity : String}
    (kept : sameText (varchar entity) entity = true)
    (absent : ¬ ledger.checkIns.any (sameText entity) = true) :
    ({ ledger with checkIns := ledger.checkIns ++ [varchar entity] } :
      Ledger).Once := by
  rw [Ledger.Once, List.map_append]
  refine List.nodup_append.mpr ⟨once, List.nodup_singleton _, ?_⟩
  intro key member other single equal
  obtain ⟨shop, listed, rfl⟩ := List.mem_map.mp member
  have isKept : other = Collation.sortKey (varchar entity) := by
    simpa using single
  have same : sameText entity shop = true := by
    refine sameText_trans (sameText_symm kept) ?_
    simp only [sameText, decide_eq_true_eq]
    rw [← isKept, ← equal]
  exact absent (List.any_eq_true.mpr ⟨shop, listed, same⟩)

/-- No shop is checked in to twice. -/
theorem record_once
    (before : Database) (operation : Operation) (request : Request)
    (response : Response) {ledger : Ledger} (once : ledger.Once)
    (kept : operation = .author .ajaxVisit →
      ∀ shop, request.get "entity_id" = .text shop →
        sameText (varchar shop) shop = true) :
    (ledger.record before operation request response).Once := by
  cases operation with
  | submitEditing => exact once
  | saveContribution => exact once
  | author route =>
      cases route <;> try exact once
      case ajaxVisit =>
        simp only [Ledger.record]
        split
        · rename_i entity posted
          split
          · exact once
          · rename_i absent
            exact once.visit (kept rfl entity posted) absent
        · exact once
      case ajaxCancelVisit =>
        exact once.sublist (List.filter_sublist.map Collation.sortKey)
      case submitReview =>
        simp only [Ledger.record]
        split <;> exact once
      case newTag =>
        simp only [Ledger.record]
        split <;> exact once

/-- The tables hold the ledger of the user, except for the shops. -/
structure HoldsLedger (initial : Database) (watched : Nat)
    (world : LedgerWorld) : Prop where
  stored :
    storedLedger world.database watched = { world.ledger with shops := 0 }
  once : world.ledger.Once
  users : world.database.users = initial.users
  profiles : world.database.profiles = initial.profiles

end Records

section Runs

variable [ColumnFormat] {config : SiteConfig} {watched : Nat}
  {initial : Database}

/-- What a request can do. -/
theorem ledgerStep_cases
    {world target : LedgerWorld} {call : Contribution}
    (moved : ledgerStep config watched world call = some target) :
    ∃ author response after,
      call.request.user = some author ∧
        (call.operation.handle config call.request).run world.database =
          (.ok response, after) ∧
        target = ⟨after,
          if author = watched then
            world.ledger.record world.database call.operation call.request
              response
          else world.ledger⟩ := by
  unfold ledgerStep at moved
  split at moved
  · rename_i author response after login ran
    cases moved
    exact ⟨author, response, after, login, ran, rfl⟩
  · cases moved

/-- Every request that succeeds keeps the tables and the ledger together. -/
theorem HoldsLedger.moves
    {world target : LedgerWorld} {call : Contribution}
    (someone : watched ≠ 0)
    (holds : HoldsLedger initial watched world)
    (kept : VisitsKept watched call)
    (moved : ledgerStep config watched world call = some target) :
    HoldsLedger initial watched target := by
  obtain ⟨author, response, after, login, ran, rfl⟩ :=
    ledgerStep_cases moved
  obtain ⟨operation, request⟩ := call
  have once : (if author = watched then
      world.ledger.record world.database operation request response
    else world.ledger).Once := by
    split
    · rename_i own
      exact record_once _ _ _ _ holds.once
        fun visit => kept visit (login.trans (congrArg some own))
    · exact holds.once
  by_cases shop : operation = .saveContribution
  · subst shop
    have kept := KeepsLedger.run
      (saveContribution_keepsLedger config request someone) world.database
    have left :
        (saveContribution config request).final world.database = after := by
      rw [Process.final]
      exact congrArg Prod.snd ran
    rw [left] at kept
    refine ⟨?_, once, kept.users.trans holds.users,
      kept.profiles.trans holds.profiles⟩
    rw [kept.ledger, holds.stored]
    split <;> rfl
  · have follows : Follows operation request response author watched
        world.database after := by
      cases operation with
      | author route =>
          refine authorRoute_follows login route ?_ ran
          rw [holds.stored]
          exact holds.once
      | submitEditing => exact submitEditing_follows login ran
      | saveContribution => exact absurd rfl shop
    refine ⟨?_, once, follows.users.trans holds.users,
      follows.profiles.trans holds.profiles⟩
    rw [follows.ledger, holds.stored]
    split
    · exact record_shops _ _ _ _ _ shop
    · rfl

end Runs

/-! ## Refreshing the profiles -/

/-- The loop stores the score of each of the users it runs over. -/
theorem refreshScores_run
    (users : List (Entry User)) (database : Database)
    (profiled : ∀ user ∈ users, HasProfile database user.id) :
    ∃ table,
      (refreshScores users).run database =
          (.ok (), { database with profiles := table }) ∧
        ∀ profile ∈ table.rows,
          (profile.userId ∈ users.map Entry.id →
            profile.score = getScore database profile.userId) ∧
          (profile.userId ∉ users.map Entry.id →
            profile ∈ database.profiles.rows) := by
  induction users generalizing database with
  | nil =>
      refine ⟨database.profiles, rfl, ?_⟩
      intro profile member
      exact ⟨by simp, fun _ => member⟩
  | cons user rest induction =>
      cases found : database.profiles.find user.id with
      | none =>
          obtain ⟨profile, member, equal⟩ := profiled user (by simp)
          have absent := List.find?_eq_none.mp found profile member
          simp [equal] at absent
      | some profile =>
          obtain ⟨-, key⟩ := Keyed.find_eq_some found
          let updated := database.profiles.update user.id
            (fun profile =>
              { profile with score := getScore database user.id })
            (fun _ => rfl)
          obtain ⟨table, ran, rows⟩ :=
            induction { database with profiles := updated } (by
              intro other member
              obtain ⟨old, stored, equal⟩ := profiled other (by simp [member])
              refine ⟨_, List.mem_map.mpr ⟨old, stored, rfl⟩, ?_⟩
              split <;> exact equal)
          refine ⟨table, ?_, ?_⟩
          · simpa [refreshScores, found, key, setScore] using ran
          · intro row member
            obtain ⟨scored, kept⟩ := rows row member
            by_cases later : row.userId ∈ rest.map Entry.id
            · refine ⟨fun _ => scored later, ?_⟩
              intro absent
              simp [later] at absent
            · obtain ⟨old, stored, equal⟩ := List.mem_map.mp (kept later)
              by_cases now : old.userId = user.id
              · rw [if_pos now] at equal
                subst equal
                simp [now]
              · rw [if_neg now] at equal
                subst equal
                refine ⟨?_, fun _ => stored⟩
                intro listed
                simp [now, later] at listed

/-- The refresh stores the score of every user. -/
theorem refreshUserScores_run
    (database : Database)
    (profiled : ∀ user ∈ database.users.entries,
      HasProfile database user.id) :
    ∃ table,
      refreshUserScores.run database =
          (.ok (), { database with profiles := table }) ∧
        ∀ profile ∈ table.rows,
          profile.userId ∈ database.users.entries.map Entry.id →
            profile.score = getScore database profile.userId := by
  obtain ⟨table, ran, rows⟩ :=
    refreshScores_run database.users.entries database profiled
  refine ⟨table, by simpa [refreshUserScores] using ran, ?_⟩
  intro profile member
  exact (rows profile member).1

/-! ## The score and the ledger -/

section Runs

variable [ColumnFormat] {config : SiteConfig} {watched : Nat}
  {initial : Database}

end Runs

/-! ## A shop that nobody contributed -/

end NomadiCore
