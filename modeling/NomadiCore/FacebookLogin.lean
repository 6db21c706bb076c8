import NomadiCore.Library.InterleavedPool
import NomadiCore.Library.LabelledRun
import NomadiCore.LoginHandlers

/-!
# One account for each Facebook identity

Nothing keeps two callbacks of one account from both finding no credential.
The unique email is what stops the second: a user is inserted first, so only
one of the callbacks of an account gets to insert a profile and a credential.
-/

namespace NomadiCore

open NomadiCore.Library.InterleavedPool
open NomadiCore.Library.LabelledRun
open NomadiCore.Library.RowTable
open NomadiCore.Library.StatementProcess
open NomadiCore.Library.TextColumn

/-! ## The stages of a callback -/

/-- Where a callback stands; a `quiet` rest writes nothing any more. -/
inductive LoginStage where
  | start
  | insertingUser
  | insertingProfile (user : Nat)
  | insertingCredential (user : Nat)
  | quiet (process : Handler Response)

/-- The row of `users` for a new account. -/
def newUser (facebook : FacebookUser) (name : String) : User :=
  ⟨loginEmail facebook.id facebook.email, name⟩

section Collations

variable [Collation]

namespace LoginStage

/-- The route after one of its inserts. -/
def afterInserts (callback : Callback) (inserts : Handler Nat) :
    Handler Response := do
  let user ← (do
    let user ← inserts
    return some user : Handler (Option Nat))
  finishCallback callback user

/-- The rest of the route. -/
def rest (callback : Callback) : LoginStage → Handler Response
  | .start => callbackRoute callback
  | .insertingUser => afterInserts callback (insertUser callback.facebook)
  | .insertingProfile user =>
      afterInserts callback (insertProfile callback.facebook user)
  | .insertingCredential user =>
      afterInserts callback (insertCredential callback.facebook user)
  | .quiet process => process

/-- The next statement of a callback. -/
def act (callback : Callback) :
    LoginStage → Database → Option (Database × LoginStage)
  | .start, database =>
      if callback.denied then none
      else
        match database.socialCredentials.first fun entry =>
          entry.row.socialId = callback.facebook.id with
        | some credential =>
            some (database, .quiet
              (loginUsingId callback.user credential.row.userId >>=
                finishCallback callback))
        | none => some (database, .insertingUser)
  | .insertingUser, database =>
      match callback.facebook.name with
      | none => none
      | some name =>
          match database.users.first fun entry =>
            emailTaken (loginEmail callback.facebook.id
              callback.facebook.email) entry with
          | some _ => some (database, .quiet (.raised .queryException))
          | none =>
              some
                ({ database with
                  users := database.users.insert
                    (newUser callback.facebook name).kept },
                  .insertingProfile database.users.next)
  | .insertingProfile user, database =>
      match database.profiles.insert
        ⟨user, callback.facebook.avatar.replace "type=normal" "type=square",
          0⟩ with
      | some table =>
          some
            ({ database with profiles := table },
              .insertingCredential user)
      | none => some (database, .quiet (.raised .queryException))
  | .insertingCredential user, database =>
      some
        ({ database with
          socialCredentials := database.socialCredentials.insert
            ⟨user, callback.facebook.id⟩ },
          .quiet (finishCallback callback (some user)))
  | .quiet process, database =>
      (Process.advance process database).map fun after =>
        (after.1, .quiet after.2)

/-- The lookup decides between the two branches of the route. -/
theorem advance_rest_start (callback : Callback) (database : Database) :
    Process.advance (start.rest callback) database =
      (start.act callback database).map fun after =>
        (after.1, after.2.rest callback) := by
  show Process.advance (callbackRoute callback) database = _
  unfold callbackRoute
  cases refused : callback.denied with
  | true =>
      simp only [act, refused, if_pos]
      cases callback.path with
      | missing => rfl
      | text path => rfl
      | list items => rfl
  | false =>
      simp only [act, refused, Bool.false_eq_true, if_false]
      show some (database, (match database.socialCredentials.first _ with
        | some credential =>
            loginUsingId callback.user credential.row.userId
        | none => (do
            let user ← insertUser callback.facebook
            return some user)) >>= finishCallback callback) = _
      cases database.socialCredentials.first fun entry =>
          entry.row.socialId = callback.facebook.id with
      | some credential => rfl
      | none => rfl

theorem advance_rest_insertingUser
    (callback : Callback) (database : Database) :
    Process.advance (insertingUser.rest callback) database =
      (insertingUser.act callback database).map fun after =>
        (after.1, after.2.rest callback) := by
  show Process.advance
    (afterInserts callback (insertUser callback.facebook)) database = _
  unfold afterInserts insertUser
  cases named : callback.facebook.name with
  | none =>
      simp only [act, named]
      rfl
  | some name =>
      cases taken : database.users.first (fun entry =>
          emailTaken (loginEmail callback.facebook.id
            callback.facebook.email) entry) with
      | some entry =>
          have saved :
              Process.advance
                  (saveUser (newUser callback.facebook name)) database =
                some (database, .raised .queryException) := by
            simp [saveUser, newUser, Process.perform, Process.advance, taken,
              Process.ofExcept]
          simp only [act, named, taken]
          exact Process.advance_bind (Process.advance_bind
            (Process.advance_bind saved _) _) _
      | none =>
          have saved :
              Process.advance
                  (saveUser (newUser callback.facebook name)) database =
                some
                  ({ database with
                    users := database.users.insert
                      (newUser callback.facebook name).kept },
                    .done database.users.next) := by
            simp [saveUser, newUser, Process.perform, Process.advance, taken,
              Process.ofExcept]
          simp only [act, named, taken]
          exact Process.advance_bind (Process.advance_bind
            (Process.advance_bind saved _) _) _

theorem advance_rest_insertingProfile
    (callback : Callback) (user : Nat) (database : Database) :
    Process.advance ((insertingProfile user).rest callback) database =
      ((insertingProfile user).act callback database).map fun after =>
        (after.1, after.2.rest callback) := by
  show Process.advance
    (afterInserts callback (insertProfile callback.facebook user))
      database = _
  unfold afterInserts insertProfile
  cases inserted : database.profiles.insert
      ⟨user, callback.facebook.avatar.replace "type=normal"
        "type=square", 0⟩ with
  | some table =>
      have saved :
          Process.advance
              (saveProfile ⟨user, callback.facebook.avatar.replace
                "type=normal" "type=square", 0⟩) database =
            some ({ database with profiles := table }, .done ()) := by
        simp [saveProfile, Process.perform, Process.advance, inserted,
          Process.ofExcept]
      simp only [act, inserted]
      exact Process.advance_bind (Process.advance_bind
        (Process.advance_bind saved _) _) _
  | none =>
      have saved :
          Process.advance
              (saveProfile ⟨user, callback.facebook.avatar.replace
                "type=normal" "type=square", 0⟩) database =
            some (database, .raised .queryException) := by
        simp [saveProfile, Process.perform, Process.advance, inserted,
          Process.ofExcept]
      simp only [act, inserted]
      exact Process.advance_bind (Process.advance_bind
        (Process.advance_bind saved _) _) _

/-- The stages are those of the route. -/
theorem advance_rest
    (callback : Callback) (stage : LoginStage) (database : Database) :
    Process.advance (stage.rest callback) database =
      (stage.act callback database).map fun after =>
        (after.1, after.2.rest callback) := by
  cases stage with
  | start => exact advance_rest_start callback database
  | insertingUser => exact advance_rest_insertingUser callback database
  | insertingProfile user =>
      exact advance_rest_insertingProfile callback user database
  | insertingCredential user => rfl
  | quiet process =>
      show Process.advance process database = _
      cases process with
      | done answer => rfl
      | raised failure => rfl
      | statement write next => rfl

/-- The account for which a user was inserted and a credential was not. -/
def holds (callback : Callback) : LoginStage → Option String
  | .insertingProfile _ => some callback.facebook.id
  | .insertingCredential _ => some callback.facebook.id
  | _ => none

end LoginStage

/-! ## The pool of callbacks -/

abbrev LoginPool := Pool Database Callback (Handler Response)

abbrev StagedLogins := Pool Database Callback LoginStage

/-- A pool with the users created so far, each with its account. -/
structure LoginWorld where
  pool : LoginPool
  created : List (String × Nat)

/-- The users that a move adds, with the account that it runs for. -/
def newUsers {Task : Type}
    (before : Pool Database Callback Task) (move : Move Callback)
    (after : Database) : List (String × Nat) :=
  match move with
  | .arrive _ => []
  | .advance index =>
      match before.running[index]? with
      | none => []
      | some (callback, _) =>
          (after.users.entries.filter fun entry =>
            before.state.users.next ≤ entry.id).map fun entry =>
              (callback.facebook.id, entry.id)

def loginStep (world : LoginWorld) (move : Move Callback) :
    Option LoginWorld :=
  (processStep callbackRoute world.pool move).map fun after =>
    ⟨after, newUsers world.pool move after.state ++ world.created⟩

/-- Every account presents the same email in all its callbacks. -/
def PresentsEmail (emailOf : String → Option String) (_ : LoginWorld) :
    Move Callback → Prop
  | .arrive callback =>
      callback.facebook.email = emailOf callback.facebook.id
  | .advance _ => True

/-! ## The invariant -/

section Emails

variable (emailOf : String → Option String)

/-- The user is stored, with the email of the account. -/
def HasUser (database : Database) (account : String) (user : Nat) : Prop :=
  ∃ entry ∈ database.users.entries,
    entry.id = user ∧
      entry.row.email = varchar (loginEmail account (emailOf account))

def HasProfile (database : Database) (user : Nat) : Prop :=
  ∃ profile ∈ database.profiles.rows, profile.userId = user

/-- What is known of a callback at a stage. -/
def Backed (database : Database) (callback : Callback) :
    LoginStage → Prop
  | .start => True
  | .insertingUser => True
  | .insertingProfile user =>
      HasUser emailOf database callback.facebook.id user
  | .insertingCredential user =>
      HasUser emailOf database callback.facebook.id user ∧
        HasProfile database user
  | .quiet process => process.Within Quiet

/-- The accounts with a credential. -/
def credentialIds (database : Database) : List String :=
  database.socialCredentials.entries.map fun entry => entry.row.socialId

/-- The accounts that the running callbacks hold. -/
def heldAccounts (pool : StagedLogins) : List (Option String) :=
  pool.running.map fun task => task.2.holds task.1

/-- Emails are unique among the users, as the server compares them. -/
def EmailsUnique (database : Database) : Prop :=
  ∀ left ∈ database.users.entries, ∀ right ∈ database.users.entries,
    sameText left.row.email right.row.email = true → left = right

structure LoginInvariant
    (pool : StagedLogins) (created : List (String × Nat)) : Prop where
  exclusive : Exclusive (credentialIds pool.state) (heldAccounts pool)
  emails : EmailsUnique pool.state
  presented : ∀ task ∈ pool.running,
    task.1.facebook.email = emailOf task.1.facebook.id
  backed : ∀ task ∈ pool.running,
    Backed emailOf pool.state task.1 task.2
  credentials : ∀ entry ∈ pool.state.socialCredentials.entries,
    HasUser emailOf pool.state entry.row.socialId entry.row.userId ∧
      HasProfile pool.state entry.row.userId
  stored : ∀ item ∈ created, HasUser emailOf pool.state item.1 item.2
  once : (created.map Prod.snd).Nodup

/-! ## Users and profiles are only added -/

structure Grows (before after : Database) : Prop where
  users : ∀ entry ∈ before.users.entries, entry ∈ after.users.entries
  profiles : ∀ row ∈ before.profiles.rows, row ∈ after.profiles.rows

omit [Collation] in
theorem Grows.refl (database : Database) : Grows database database :=
  ⟨fun _ member => member, fun _ member => member⟩

variable {emailOf}

omit [Collation] in
theorem HasUser.grow
    {before after : Database} {account : String} {user : Nat}
    (has : HasUser emailOf before account user)
    (grows : Grows before after) :
    HasUser emailOf after account user := by
  obtain ⟨entry, member, found⟩ := has
  exact ⟨entry, grows.users entry member, found⟩

omit [Collation] in
theorem HasProfile.grow
    {before after : Database} {user : Nat}
    (has : HasProfile before user) (grows : Grows before after) :
    HasProfile after user := by
  obtain ⟨profile, member, found⟩ := has
  exact ⟨profile, grows.profiles profile member, found⟩

omit [Collation] in
theorem Backed.grow
    {before after : Database} {callback : Callback} {stage : LoginStage}
    (backed : Backed emailOf before callback stage)
    (grows : Grows before after) :
    Backed emailOf after callback stage := by
  cases stage with
  | start => exact trivial
  | insertingUser => exact trivial
  | insertingProfile user => exact HasUser.grow backed grows
  | insertingCredential user =>
      exact ⟨backed.1.grow grows, backed.2.grow grows⟩
  | quiet process => exact backed

omit [Collation] in
theorem heldAccounts_set
    (pool : StagedLogins) (state : Database) (index : Nat)
    (callback : Callback) (stage : LoginStage) :
    heldAccounts ⟨state, pool.running.set index (callback, stage)⟩ =
      (heldAccounts pool).set index (stage.holds callback) := by
  simp [heldAccounts, List.map_set]

/-- A task moves on, while users and profiles are only added. -/
theorem LoginInvariant.advance
    {pool : StagedLogins} {created fresh : List (String × Nat)}
    (invariant : LoginInvariant emailOf pool created)
    {index : Nat} {callback : Callback} {stage next : LoginStage}
    {state : Database}
    (running : pool.running[index]? = some (callback, stage))
    (grows : Grows pool.state state)
    (emails : EmailsUnique state)
    (exclusive :
      Exclusive (credentialIds state)
        ((heldAccounts pool).set index (next.holds callback)))
    (credentials : ∀ entry ∈ state.socialCredentials.entries,
      entry ∈ pool.state.socialCredentials.entries ∨
        HasUser emailOf state entry.row.socialId entry.row.userId ∧
          HasProfile state entry.row.userId)
    (backed : Backed emailOf state callback next)
    (freshStored : ∀ item ∈ fresh, HasUser emailOf state item.1 item.2)
    (once : ((fresh ++ created).map Prod.snd).Nodup) :
    LoginInvariant emailOf
      ⟨state, pool.running.set index (callback, next)⟩
      (fresh ++ created) where
  exclusive := by
    rw [heldAccounts_set]
    exact exclusive
  emails := emails
  presented := by
    intro task member
    rcases List.mem_or_eq_of_mem_set member with old | equal
    · exact invariant.presented task old
    · rw [equal]
      exact invariant.presented (callback, stage)
        (List.mem_of_getElem? running)
  backed := by
    intro task member
    rcases List.mem_or_eq_of_mem_set member with old | equal
    · exact (invariant.backed task old).grow grows
    · rw [equal]
      exact backed
  credentials := by
    intro entry member
    rcases credentials entry member with old | new
    · obtain ⟨hasUser, hasProfile⟩ := invariant.credentials entry old
      exact ⟨hasUser.grow grows, hasProfile.grow grows⟩
    · exact new
  stored := by
    intro item member
    rcases List.mem_append.mp member with new | old
    · exact freshStored item new
    · exact (invariant.stored item old).grow grows
  once := once

/-- A task moves on without a change to users and credentials. -/
theorem LoginInvariant.release
    {pool : StagedLogins} {created : List (String × Nat)}
    (invariant : LoginInvariant emailOf pool created)
    {index : Nat} {callback : Callback} {stage next : LoginStage}
    (running : pool.running[index]? = some (callback, stage))
    (nothing : next.holds callback = none)
    (backed : Backed emailOf pool.state callback next) :
    LoginInvariant emailOf
      ⟨pool.state, pool.running.set index (callback, next)⟩ created := by
  have moved :=
    @LoginInvariant.advance _ emailOf pool created [] invariant index callback
      stage next pool.state running (.refl _) invariant.emails
      (by rw [nothing]; exact invariant.exclusive.release index)
      (fun entry member => Or.inl member) backed (by simp) invariant.once
  exact moved

/-! ## The three inserts -/

omit [Collation] in
/-- A stage that holds an account has a user with the email of it. -/
theorem Backed.hasUser
    {database : Database} {callback : Callback} {stage : LoginStage}
    {account : String}
    (backed : Backed emailOf database callback stage)
    (isHeld : stage.holds callback = some account) :
    ∃ user, HasUser emailOf database account user := by
  cases stage with
  | insertingProfile user =>
      cases isHeld
      exact ⟨user, backed⟩
  | insertingCredential user =>
      cases isHeld
      exact ⟨user, backed.1⟩
  | start => cases isHeld
  | insertingUser => cases isHeld
  | quiet process => cases isHeld

/-- An account whose email is free is neither stored nor held. -/
theorem LoginInvariant.free
    {pool : StagedLogins} {created : List (String × Nat)}
    (invariant : LoginInvariant emailOf pool created)
    {account : String}
    (free : ∀ user, ¬ HasUser emailOf pool.state account user) :
    account ∉ credentialIds pool.state ∧
      ∀ index : Nat,
        (heldAccounts pool)[index]? ≠ some (some account) := by
  constructor
  · intro stored
    obtain ⟨entry, member, equal⟩ := List.mem_map.mp stored
    have backed := (invariant.credentials entry member).1
    rw [equal] at backed
    exact free _ backed
  · intro index isHeld
    simp only [heldAccounts, List.getElem?_map,
      Option.map_eq_some_iff] at isHeld
    obtain ⟨task, running, holds⟩ := isHeld
    obtain ⟨user, hasUser⟩ :=
      (invariant.backed task (List.mem_of_getElem? running)).hasUser holds
    exact free user hasUser

theorem LoginInvariant.insertUser
    {pool : StagedLogins} {created : List (String × Nat)}
    (invariant : LoginInvariant emailOf pool created)
    {index : Nat} {callback : Callback} {name : String}
    (running : pool.running[index]? = some (callback, .insertingUser))
    (unused :
      pool.state.users.first (fun entry =>
        emailTaken (loginEmail callback.facebook.id
          callback.facebook.email) entry) = none) :
    LoginInvariant emailOf
      ⟨{ pool.state with
          users := pool.state.users.insert
            (newUser callback.facebook name).kept },
        pool.running.set index
          (callback, .insertingProfile pool.state.users.next)⟩
      ((callback.facebook.id, pool.state.users.next) :: created) := by
  have presented : callback.facebook.email = emailOf callback.facebook.id :=
    invariant.presented _ (List.mem_of_getElem? running)
  have unused : ∀ entry ∈ pool.state.users.entries,
      ¬ sameText entry.row.email
          (varchar (loginEmail callback.facebook.id
            callback.facebook.email)) = true := by
    intro entry member
    simpa [emailTaken] using Table.first_eq_none.mp unused entry member
  obtain ⟨unstored, unheld⟩ :=
    @LoginInvariant.free _ emailOf pool created invariant callback.facebook.id
      (by
        rintro user ⟨entry, member, -, email⟩
        rw [← presented] at email
        apply unused entry member
        rw [email]
        exact sameText_refl _)
  have hasUser :
      HasUser emailOf
        { pool.state with
          users := pool.state.users.insert
            (newUser callback.facebook name).kept }
        callback.facebook.id pool.state.users.next :=
    ⟨_, Table.mem_insert.mpr (Or.inr rfl), rfl, by rw [← presented]; rfl⟩
  refine @LoginInvariant.advance _ emailOf pool created
    [(callback.facebook.id, pool.state.users.next)] invariant index callback
    .insertingUser _ _ running ?_ ?_ ?_ ?_ hasUser ?_ ?_
  · exact ⟨fun entry member => Table.mem_insert.mpr (Or.inl member),
      fun _ member => member⟩
  · intro left leftMember right rightMember sameEmail
    rcases Table.mem_insert.mp leftMember with oldLeft | newLeft
    · rcases Table.mem_insert.mp rightMember with oldRight | newRight
      · exact invariant.emails left oldLeft right oldRight sameEmail
      · rw [newRight] at sameEmail
        exact absurd sameEmail (unused left oldLeft)
    · rcases Table.mem_insert.mp rightMember with oldRight | newRight
      · rw [newLeft] at sameEmail
        exact absurd (sameText_symm sameEmail) (unused right oldRight)
      · rw [newLeft, newRight]
  · exact invariant.exclusive.acquire unstored
      fun other _ => unheld other
  · exact fun entry member => Or.inl member
  · intro item member
    rw [List.mem_singleton] at member
    rw [member]
    exact hasUser
  · rw [List.map_append, List.map_singleton, List.singleton_append,
      List.nodup_cons]
    refine ⟨?_, invariant.once⟩
    intro listed
    obtain ⟨item, member, equal⟩ := List.mem_map.mp listed
    obtain ⟨entry, entryMember, isItem, -⟩ := invariant.stored item member
    have below := pool.state.users.fresh entry entryMember
    omega

theorem LoginInvariant.insertProfile
    {pool : StagedLogins} {created : List (String × Nat)}
    (invariant : LoginInvariant emailOf pool created)
    {index : Nat} {callback : Callback} {user : Nat} {profile : Profile}
    {table : Keyed Profile Nat Profile.userId}
    (running :
      pool.running[index]? = some (callback, .insertingProfile user))
    (own : profile.userId = user)
    (inserted : pool.state.profiles.insert profile = some table) :
    LoginInvariant emailOf
      ⟨{ pool.state with profiles := table },
        pool.running.set index (callback, .insertingCredential user)⟩
      created := by
  obtain ⟨-, rows⟩ := Keyed.insert_eq_some inserted
  have backed := invariant.backed _ (List.mem_of_getElem? running)
  have grows : Grows pool.state { pool.state with profiles := table } := by
    refine ⟨fun _ member => member, ?_⟩
    intro row member
    show row ∈ table.rows
    rw [rows]
    exact List.mem_append_left _ member
  have hasProfile :
      HasProfile { pool.state with profiles := table } user := by
    refine ⟨profile, ?_, own⟩
    show profile ∈ table.rows
    rw [rows]
    exact List.mem_append_right _ (List.mem_singleton_self profile)
  have held :
      (heldAccounts pool)[index]? =
        some (some callback.facebook.id) := by
    simp [heldAccounts, running, LoginStage.holds]
  exact @LoginInvariant.advance _ emailOf pool created [] invariant index
    callback _ _ _ running grows invariant.emails
    (invariant.exclusive.keep held) (fun entry member => Or.inl member)
    ⟨HasUser.grow backed grows, hasProfile⟩ (by simp) invariant.once

theorem LoginInvariant.insertCredential
    {pool : StagedLogins} {created : List (String × Nat)}
    (invariant : LoginInvariant emailOf pool created)
    {index : Nat} {callback : Callback} {user : Nat}
    (running :
      pool.running[index]? = some (callback, .insertingCredential user)) :
    LoginInvariant emailOf
      ⟨{ pool.state with
          socialCredentials := pool.state.socialCredentials.insert
            ⟨user, callback.facebook.id⟩ },
        pool.running.set index
          (callback, .quiet (finishCallback callback (some user)))⟩
      created := by
  obtain ⟨hasUser, hasProfile⟩ :=
    invariant.backed _ (List.mem_of_getElem? running)
  have held :
      (heldAccounts pool)[index]? =
        some (some callback.facebook.id) := by
    simp [heldAccounts, running, LoginStage.holds]
  have accounts :
      credentialIds
          { pool.state with
            socialCredentials := pool.state.socialCredentials.insert
              ⟨user, callback.facebook.id⟩ } =
        credentialIds pool.state ++ [callback.facebook.id] := by
    simp [credentialIds]
  refine @LoginInvariant.advance _ emailOf pool created [] invariant index
    callback _ _ _ running ⟨fun _ member => member, fun _ member => member⟩
    invariant.emails ?_ ?_ (finishCallback_quiet callback (some user))
    (by simp) invariant.once
  · rw [accounts]
    exact invariant.exclusive.store held
  · intro entry member
    rcases Table.mem_insert.mp member with old | new
    · exact Or.inl old
    · rw [new]
      exact Or.inr ⟨hasUser, hasProfile⟩

/-! ## Moves -/

section NewUsers

variable {Task Image : Type}

omit [Collation] in
theorem newUsers_map
    (embed : Callback → Task → Image) (pool : Pool Database Callback Task)
    (move : Move Callback) (after : Database) :
    newUsers (pool.map embed) move after = newUsers pool move after := by
  cases move with
  | arrive callback => rfl
  | advance index =>
      simp only [newUsers, Pool.map, List.getElem?_map]
      cases pool.running[index]? with
      | none => rfl
      | some task => rfl

omit [Collation] in
/-- No user is new when the users are the same. -/
theorem newUsers_same
    {pool : Pool Database Callback Task} {move : Move Callback}
    {after : Database} (same : after.users = pool.state.users) :
    newUsers pool move after = [] := by
  cases move with
  | arrive callback => rfl
  | advance index =>
      simp only [newUsers, same, Table.filter_next_eq_nil]
      cases pool.running[index]? with
      | none => rfl
      | some task => rfl

omit [Collation] in
/-- An inserted user is new. -/
theorem newUsers_insert
    {pool : Pool Database Callback Task} {index : Nat}
    {callback : Callback} {task : Task} {after : Database} {user : User}
    (running : pool.running[index]? = some (callback, task))
    (inserted : after.users = pool.state.users.insert user) :
    newUsers pool (.advance index) after =
      [(callback.facebook.id, pool.state.users.next)] := by
  simp [newUsers, running, inserted, List.filter_append,
    Table.filter_next_eq_nil]

end NewUsers

/-- A new callback has written nothing yet. -/
theorem LoginInvariant.arrive
    {pool : StagedLogins} {created : List (String × Nat)}
    {callback : Callback}
    (invariant : LoginInvariant emailOf pool created)
    (presents :
      callback.facebook.email = emailOf callback.facebook.id) :
    LoginInvariant emailOf
      ⟨pool.state, pool.running ++ [(callback, .start)]⟩ created := by
  refine ⟨?_, invariant.emails, ?_, ?_, invariant.credentials,
    invariant.stored, invariant.once⟩
  · have held :
        heldAccounts ⟨pool.state, pool.running ++ [(callback, .start)]⟩ =
          heldAccounts pool ++ [none] := by
      simp [heldAccounts, LoginStage.holds]
    rw [held]
    exact invariant.exclusive.arrive
  · intro task member
    rcases List.mem_append.mp member with old | new
    · exact invariant.presented task old
    · rw [List.mem_singleton] at new
      rw [new]
      exact presents
  · intro task member
    rcases List.mem_append.mp member with old | new
    · exact invariant.backed task old
    · rw [List.mem_singleton] at new
      rw [new]
      exact trivial

/-- Every move of the staged callbacks keeps the invariant. -/
theorem LoginInvariant.moves
    {pool target : StagedLogins} {created : List (String × Nat)}
    {move : Move Callback}
    (invariant : LoginInvariant emailOf pool created)
    (presents : ∀ callback, move = .arrive callback →
      callback.facebook.email = emailOf callback.facebook.id)
    (moved : pool.step (fun _ => .start) LoginStage.act move = some target) :
    LoginInvariant emailOf target
      (newUsers pool move target.state ++ created) := by
  rcases Pool.step_cases moved with
    ⟨callback, rfl, rfl⟩ |
      ⟨index, callback, stage, state, next, rfl, running, acted, rfl⟩
  · exact invariant.arrive (presents callback rfl)
  · cases stage with
    | start =>
        simp only [LoginStage.act] at acted
        split at acted
        · cases acted
        · split at acted
          · rename_i credential found
            cases acted
            rw [newUsers_same rfl]
            exact invariant.release running rfl
              (.bind (loginUsingId_quiet _ _)
                fun user => finishCallback_quiet callback user)
          · cases acted
            rw [newUsers_same rfl]
            exact invariant.release running rfl trivial
    | insertingUser =>
        simp only [LoginStage.act] at acted
        split at acted
        · cases acted
        · split at acted
          · cases acted
            rw [newUsers_same rfl]
            exact invariant.release running rfl trivial
          · rename_i unused
            cases acted
            rw [newUsers_insert running rfl]
            exact invariant.insertUser running unused
    | insertingProfile user =>
        simp only [LoginStage.act] at acted
        split at acted
        · rename_i table inserted
          cases acted
          have same :=
            @newUsers_same _ pool (.advance index)
              { pool.state with profiles := table } rfl
          rw [same]
          exact invariant.insertProfile running rfl inserted
        · cases acted
          rw [newUsers_same rfl]
          exact invariant.release running rfl trivial
    | insertingCredential user =>
        cases acted
        have same :=
          @newUsers_same _ pool (.advance index)
            { pool.state with
              socialCredentials := pool.state.socialCredentials.insert
                ⟨user, callback.facebook.id⟩ } rfl
        rw [same]
        exact invariant.insertCredential running
    | quiet process =>
        have quiet : process.Within Quiet :=
          invariant.backed _ (List.mem_of_getElem? running)
        cases process with
        | done answer => cases acted
        | raised failure => cases acted
        | statement write continuation =>
            cases acted
            obtain ⟨same, later⟩ := quiet pool.state
            have same : write pool.state = pool.state := same
            rw [same, newUsers_same rfl]
            exact invariant.release running rfl later

/-- The running routes are at stages that keep the invariant. -/
def LogsInStages (emailOf : String → Option String) (world : LoginWorld) :
    Prop :=
  ∃ staged : StagedLogins,
    world.pool = staged.map LoginStage.rest ∧
      LoginInvariant emailOf staged world.created

theorem LogsInStages.moves
    {world target : LoginWorld} {move : Move Callback}
    (stages : LogsInStages emailOf world)
    (presents : PresentsEmail emailOf world move)
    (moved : loginStep world move = some target) :
    LogsInStages emailOf target := by
  obtain ⟨pool, created⟩ := world
  obtain ⟨staged, rfl, invariant⟩ := stages
  have commutes :
      processStep callbackRoute (staged.map LoginStage.rest) move =
        (staged.step (fun _ => .start) LoginStage.act move).map
          (Pool.map LoginStage.rest) := by
    unfold processStep
    apply Pool.step_map
    · intro callback
      rfl
    · exact LoginStage.advance_rest
  simp only [loginStep, commutes, Option.map_map,
    Option.map_eq_some_iff] at moved
  obtain ⟨next, stagedMoved, rfl⟩ := moved
  refine ⟨next, rfl, ?_⟩
  simp only [Function.comp, newUsers_map]
  refine invariant.moves ?_ stagedMoved
  rintro callback rfl
  exact presents

/--
In every interleaving of callbacks in which each account keeps its email, no
account has two credentials or creates two users, and the user of every
credential has a profile.
-/
theorem one_account_for_each_identity
    {initial : Database} {history : List (Move Callback)}
    {world : LoginWorld}
    (noUsers : initial.users.entries = [])
    (noCredentials : initial.socialCredentials.entries = [])
    (run :
      Reaches loginStep (PresentsEmail emailOf) ⟨⟨initial, []⟩, []⟩ history
        world) :
    (∀ left ∈ world.pool.state.socialCredentials.entries,
        ∀ right ∈ world.pool.state.socialCredentials.entries,
          left.row.socialId = right.row.socialId → left = right) ∧
      (world.created.map Prod.fst).Nodup ∧
      ∀ entry ∈ world.pool.state.socialCredentials.entries,
        HasProfile world.pool.state entry.row.userId := by
  have initially : LogsInStages emailOf ⟨⟨initial, []⟩, []⟩ := by
    refine ⟨⟨initial, []⟩, rfl, ?_⟩
    constructor
    · exact .idle (by simp [credentialIds, noCredentials])
    · intro left member
      simp [noUsers] at member
    · simp
    · simp
    · intro entry member
      simp [noCredentials] at member
    · simp
    · exact List.nodup_nil
  obtain ⟨staged, isStaged, invariant⟩ : LogsInStages emailOf world :=
    run.invariant initially LogsInStages.moves
  have state : world.pool.state = staged.state := by
    rw [isStaged]
    rfl
  rw [state]
  refine ⟨?_, ?_, ?_⟩
  · intro left leftMember right rightMember same
    exact List.inj_on_of_nodup_map invariant.exclusive.once leftMember
      rightMember same
  · refine List.Nodup.map_on ?_ (List.Nodup.of_map _ invariant.once)
    intro left leftMember right rightMember same
    obtain ⟨leftEntry, leftStored, leftUser, leftEmail⟩ :=
      invariant.stored left leftMember
    obtain ⟨rightEntry, rightStored, rightUser, rightEmail⟩ :=
      invariant.stored right rightMember
    have equal : leftEntry = rightEntry := by
      apply invariant.emails leftEntry leftStored rightEntry rightStored
      rw [leftEmail, rightEmail, same]
      exact sameText_refl _
    refine Prod.ext same ?_
    rw [← leftUser, ← rightUser, equal]
  · intro entry member
    exact (invariant.credentials entry member).2

end Emails

end Collations

/-! ## Two callbacks of one account -/

def firstLogin : Callback where
  action := .missing
  cafeId := .missing
  path := .text "/"
  facebook := ⟨"fb1", some "alice@example.com", some "alice", "a.png"⟩

/-- Both look up before either inserts; then the first runs to its end. -/
theorem simultaneous_logins_make_one_account :
    ∃ world,
      Reaches (@loginStep caseBlind)
          (PresentsEmail fun _ => some "alice@example.com")
          ⟨⟨Database.empty, []⟩, []⟩
          [.advance 0, .advance 0, .advance 1, .advance 0, .advance 1,
            .advance 0, .arrive firstLogin, .arrive firstLogin] world ∧
        world.pool.state.socialCredentials.entries = [⟨1, ⟨1, "fb1"⟩⟩] ∧
        (world.created.map Prod.fst).Nodup := by
  have run :
      ∃ world,
        Reaches (@loginStep caseBlind)
            (PresentsEmail fun _ => some "alice@example.com")
            ⟨⟨Database.empty, []⟩, []⟩
            [.advance 0, .advance 0, .advance 1, .advance 0, .advance 1,
              .advance 0, .arrive firstLogin, .arrive firstLogin] world ∧
          world.pool.state.socialCredentials.entries =
            [⟨1, ⟨1, "fb1"⟩⟩] :=
    ⟨_, .next (.next (.next (.next (.next (.next (.next (.next .start
      rfl rfl) rfl rfl) trivial rfl) trivial rfl) trivial rfl) trivial rfl)
      trivial rfl) trivial rfl, rfl⟩
  obtain ⟨world, run, stored⟩ := run
  exact ⟨world, run, stored,
    (@one_account_for_each_identity caseBlind _ _ _ _ rfl rfl run).2.1⟩

end NomadiCore
