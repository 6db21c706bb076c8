import NomadiCore.FacebookLogin

/-!
# Registrations that were cut off

The three inserts for a new account are not in a transaction.  After the first
of them the email is taken, but the account is only found by the third, so a
retry neither finds the account nor can register it.
-/

namespace NomadiCore

open NomadiCore.Library.InterleavedPool
open NomadiCore.Library.LabelledRun
open NomadiCore.Library.RowTable
open NomadiCore.Library.StatementProcess
open NomadiCore.Library.TextColumn

/-- A callback that stops after some of its statements, or at its end. -/
structure CutCallback where
  callback : Callback
  stop : Option Nat

section Collations

variable [Collation]

/-- What a callback leaves behind. -/
def CutCallback.leaves (cut : CutCallback) (database : Database) :
    Database :=
  match cut.stop with
  | none => (callbackRoute cut.callback).final database
  | some count => (callbackRoute cut.callback).stopAfter count database

def registrationStep (database : Database) (cut : CutCallback) :
    Option Database :=
  some (cut.leaves database)

/-! ## The condition -/

/-- The account has a credential. -/
def HasCredential (database : Database) (account : String) : Prop :=
  ∃ entry ∈ database.socialCredentials.entries,
    entry.row.socialId = account

/-- No user has an email that the server takes for that of the account. -/
def EmailFree (database : Database) (facebook : FacebookUser) : Prop :=
  ∀ entry ∈ database.users.entries,
    emailTaken (loginEmail facebook.id facebook.email) entry = false

/-- The callback ends before it can insert. -/
def CutCallback.InsertsNothing (cut : CutCallback) : Prop :=
  cut.callback.denied = true ∨ cut.callback.facebook.name = none ∨
    ∃ count, cut.stop = some count ∧ count ≤ 1

/-- The callback gets past the last of its inserts. -/
def CutCallback.InsertsAll (cut : CutCallback) : Prop :=
  cut.callback.denied = false ∧ cut.callback.facebook.name ≠ none ∧
    ∀ count, cut.stop = some count → 4 ≤ count

/-- The callback leaves no registration half finished. -/
def SavesWhole (database : Database) (cut : CutCallback) : Prop :=
  HasCredential database cut.callback.facebook.id ∨
    ¬ EmailFree database cut.callback.facebook ∨
    cut.InsertsNothing ∨ cut.InsertsAll

/--
A retry by an account that has a credential, or whose email is free and whose
callback before inserted all or nothing.
-/
def Recoverable (database : Database) (first : CutCallback)
    (again : Callback) : Prop :=
  HasCredential database first.callback.facebook.id ∨
    EmailFree database first.callback.facebook ∧
      (first.InsertsNothing ∧ again.facebook.name ≠ none ∨
        first.InsertsAll)

/--
The callback logs the account in to a user with a profile, and no user is
left without.
-/
structure Recovers (again : Callback) (database : Database) : Prop where
  login : ∃ user,
    ((loginFacebook again.user again.facebook).run database).1 =
        .ok (some user) ∧
      (∃ entry ∈
          ((callbackRoute again).final database).socialCredentials.entries,
        entry.row = ⟨user, again.facebook.id⟩) ∧
      HasProfile ((callbackRoute again).final database) user
  profiles :
    ∀ entry ∈ ((callbackRoute again).final database).users.entries,
      HasProfile ((callbackRoute again).final database) entry.id

/-! ## What a callback leaves -/

/-- The stages give what is left after each number of statements. -/
theorem stopAfter_stage
    (callback : Callback) (stage : LoginStage) (count : Nat)
    (database : Database) :
    (stage.rest callback).stopAfter (count + 1) database =
      match stage.act callback database with
      | none => database
      | some after => (after.2.rest callback).stopAfter count after.1 := by
  rw [Process.stopAfter_succ, LoginStage.advance_rest]
  cases stage.act callback database with
  | none => rfl
  | some after => rfl

omit [Collation] in
theorem stopAfter_quiet
    {Answer : Type} {process : Handler Answer}
    (quiet : process.Within Quiet) (count : Nat) (database : Database) :
    process.stopAfter count database = database :=
  quiet.stopAfter Quiet.refl
    (fun first second => Eq.trans second first) count database

theorem emailFree_iff (database : Database) (facebook : FacebookUser) :
    EmailFree database facebook ↔
      database.users.first (fun entry =>
        emailTaken (loginEmail facebook.id facebook.email) entry) =
          none := by
  rw [Table.first_eq_none]
  simp [EmailFree]

omit [Collation] in
theorem not_hasCredential_iff (database : Database) (account : String) :
    ¬ HasCredential database account ↔
      database.socialCredentials.first (fun entry =>
        entry.row.socialId = account) = none := by
  rw [Table.first_eq_none]
  simp [HasCredential]

/-- A callback that cannot or need not register leaves the database. -/
theorem stopAfter_unchanged
    {callback : Callback} {database : Database}
    (without :
      callback.denied = true ∨
        HasCredential database callback.facebook.id ∨
        callback.facebook.name = none ∨
        ¬ EmailFree database callback.facebook)
    (count : Nat) :
    (callbackRoute callback).stopAfter count database = database := by
  cases count with
  | zero => rfl
  | succ count =>
      show (LoginStage.start.rest callback).stopAfter _ _ = _
      rw [stopAfter_stage]
      simp only [LoginStage.act]
      cases refused : callback.denied with
      | true => rfl
      | false =>
          cases found : database.socialCredentials.first fun entry =>
              entry.row.socialId = callback.facebook.id with
          | some credential =>
              exact stopAfter_quiet
                (.bind (loginUsingId_quiet _ _)
                  fun user => finishCallback_quiet callback user) _ _
          | none =>
              have unknown := (not_hasCredential_iff _ _).mpr found
              cases count with
              | zero => rfl
              | succ count =>
                  simp only [Bool.false_eq_true, if_false]
                  rw [stopAfter_stage]
                  simp only [LoginStage.act]
                  cases named : callback.facebook.name with
                  | none => rfl
                  | some name =>
                      have taken : ¬ EmailFree database callback.facebook := by
                        simpa [refused, unknown, named] using without
                      rw [emailFree_iff] at taken
                      cases holder : database.users.first fun entry =>
                          emailTaken (loginEmail callback.facebook.id
                            callback.facebook.email) entry with
                      | none => exact absurd holder taken
                      | some entry =>
                          refine stopAfter_quiet ?_ _ _
                          exact trivial

/-- The first statement only looks the account up. -/
theorem stopAfter_lookup (callback : Callback) (database : Database)
    {count : Nat} (lookup : count ≤ 1) :
    (callbackRoute callback).stopAfter count database = database := by
  obtain rfl | rfl : count = 0 ∨ count = 1 := by omega
  · rfl
  · show (LoginStage.start.rest callback).stopAfter _ _ = _
    rw [stopAfter_stage]
    simp only [LoginStage.act]
    cases callback.denied with
    | true => rfl
    | false =>
        cases database.socialCredentials.first fun entry =>
            entry.row.socialId = callback.facebook.id with
        | some credential => rfl
        | none => rfl

/-! ## A new account -/

/-- The account can be registered. -/
structure Registers (database : Database) (callback : Callback)
    (name : String)
    (profiles : Keyed Profile Nat Profile.userId) : Prop where
  allowed : callback.denied = false
  unknown : ¬ HasCredential database callback.facebook.id
  free : EmailFree database callback.facebook
  named : callback.facebook.name = some name
  profile :
    database.profiles.insert
        ⟨database.users.next,
          callback.facebook.avatar.replace "type=normal" "type=square", 0⟩ =
      some profiles

/-- The database with the new user. -/
def withUser (database : Database) (facebook : FacebookUser)
    (name : String) : Database :=
  { database with
    users := database.users.insert (newUser facebook name).kept }

/-- The database with the credential for the new user. -/
def withCredential (database : Database) (facebook : FacebookUser)
    (name : String) (profiles : Keyed Profile Nat Profile.userId) :
    Database :=
  { withUser database facebook name with
    profiles := profiles
    socialCredentials := database.socialCredentials.insert
      ⟨database.users.next, facebook.id⟩ }

/-- The database after each number of statements. -/
def savedAfter (database : Database) (facebook : FacebookUser)
    (name : String) (profiles : Keyed Profile Nat Profile.userId) :
    Nat → Database
  | 0 => database
  | 1 => database
  | 2 => withUser database facebook name
  | 3 => { withUser database facebook name with profiles := profiles }
  | _ => withCredential database facebook name profiles

theorem Registers.stopAfter
    {database : Database} {callback : Callback} {name : String}
    {profiles : Keyed Profile Nat Profile.userId}
    (registers : Registers database callback name profiles) (count : Nat) :
    (callbackRoute callback).stopAfter count database =
      savedAfter database callback.facebook name profiles count := by
  have found := (not_hasCredential_iff _ _).mp registers.unknown
  have holder := (emailFree_iff _ _).mp registers.free
  have first : ∀ later,
      (callbackRoute callback).stopAfter (later + 1) database =
        (LoginStage.insertingUser.rest callback).stopAfter later
          database := by
    intro later
    show (LoginStage.start.rest callback).stopAfter _ _ = _
    rw [stopAfter_stage]
    simp only [LoginStage.act, registers.allowed, found,
      Bool.false_eq_true, if_false]
  have second : ∀ later,
      (LoginStage.insertingUser.rest callback).stopAfter (later + 1)
          database =
        ((LoginStage.insertingProfile database.users.next).rest
          callback).stopAfter later
            (withUser database callback.facebook name) := by
    intro later
    rw [stopAfter_stage]
    simp only [LoginStage.act, registers.named, holder]
    rfl
  have third : ∀ later,
      ((LoginStage.insertingProfile database.users.next).rest
          callback).stopAfter (later + 1)
            (withUser database callback.facebook name) =
        ((LoginStage.insertingCredential database.users.next).rest
          callback).stopAfter later
            { withUser database callback.facebook name with
              profiles := profiles } := by
    intro later
    rw [stopAfter_stage]
    simp only [LoginStage.act, withUser, registers.profile]
  rcases count with _ | _ | _ | _ | later
  · rfl
  · exact first 0
  · rw [first, second]
    rfl
  · rw [first, second, third]
    rfl
  · rw [first, second, third, stopAfter_stage]
    exact stopAfter_quiet (finishCallback_quiet callback _) _ _

/-- A callback that runs to its end is one with enough statements. -/
theorem exists_leaves_eq_stopAfter
    (cut : CutCallback) (database : Database) :
    ∃ count,
      cut.leaves database =
          (callbackRoute cut.callback).stopAfter count database ∧
        (cut.stop = some count ∨ cut.stop = none ∧ 4 ≤ count) := by
  cases stop : cut.stop with
  | none =>
      obtain ⟨enough, ends⟩ :=
        (callbackRoute cut.callback).exists_stopAfter_eq_final database
      refine ⟨max enough 4, ?_, Or.inr ⟨rfl, le_max_right _ _⟩⟩
      rw [ends _ (le_max_left _ _)]
      simp only [CutCallback.leaves, stop]
  | some count =>
      refine ⟨count, ?_, Or.inl rfl⟩
      simp only [CutCallback.leaves, stop]

theorem leaves_unchanged
    {cut : CutCallback} {database : Database}
    (without :
      HasCredential database cut.callback.facebook.id ∨
        ¬ EmailFree database cut.callback.facebook ∨
        cut.InsertsNothing) :
    cut.leaves database = database := by
  obtain ⟨count, left, stops⟩ := exists_leaves_eq_stopAfter cut database
  rw [left]
  rcases without with known | taken | refused | unnamed | ⟨few, stop, bound⟩
  · exact stopAfter_unchanged (Or.inr (Or.inl known)) count
  · exact stopAfter_unchanged (Or.inr (Or.inr (Or.inr taken))) count
  · exact stopAfter_unchanged (Or.inl refused) count
  · exact stopAfter_unchanged (Or.inr (Or.inr (Or.inl unnamed))) count
  · have equal : count = few := by
      rcases stops with stops | ⟨stops, -⟩
      · simpa [stop] using stops.symm
      · simp [stop] at stops
    exact stopAfter_lookup _ _ (equal ▸ bound)

/-- What a registration leaves when it gets past its inserts. -/
theorem Registers.leaves
    {database : Database} {cut : CutCallback} {name : String}
    {profiles : Keyed Profile Nat Profile.userId}
    (registers : Registers database cut.callback name profiles)
    (all : cut.InsertsAll) :
    cut.leaves database =
      withCredential database cut.callback.facebook name profiles := by
  obtain ⟨count, left, stops⟩ := exists_leaves_eq_stopAfter cut database
  have enough : 4 ≤ count := by
    rcases stops with stops | ⟨-, bound⟩
    · exact all.2.2 count stops
    · exact bound
  obtain ⟨later, rfl⟩ := Nat.exists_eq_add_of_le' enough
  exact left.trans (registers.stopAfter (later + 4))

/-- A registration that is cut off takes the email and gives no credential. -/
theorem Registers.leaves_part
    {database : Database} {cut : CutCallback} {name : String}
    {profiles : Keyed Profile Nat Profile.userId}
    (registers : Registers database cut.callback name profiles)
    (begun : ¬ cut.InsertsNothing) (part : ¬ cut.InsertsAll) :
    (cut.leaves database).users =
        (withUser database cut.callback.facebook name).users ∧
      (cut.leaves database).socialCredentials =
        database.socialCredentials := by
  obtain ⟨count, left, stops⟩ := exists_leaves_eq_stopAfter cut database
  rcases stops with stops | ⟨stops, -⟩
  · have lower : 1 < count := by
      by_contra few
      exact begun (Or.inr (Or.inr ⟨count, stops, by omega⟩))
    have upper : count < 4 := by
      by_contra many
      refine part ⟨registers.allowed, by simp [registers.named], ?_⟩
      intro other same
      rw [stops] at same
      cases same
      omega
    rw [left, registers.stopAfter]
    obtain rfl | rfl : count = 2 ∨ count = 3 := by omega
    · exact ⟨rfl, rfl⟩
    · exact ⟨rfl, rfl⟩
  · refine absurd ⟨registers.allowed, by simp [registers.named], ?_⟩ part
    intro count same
    simp [stops] at same

/-! ## A site whose registrations are whole -/

/-- Every user has a profile, and profiles and credentials have users. -/
structure WholeUsers (database : Database) : Prop where
  profiled : ∀ entry ∈ database.users.entries,
    HasProfile database entry.id
  owned : ∀ profile ∈ database.profiles.rows,
    profile.userId < database.users.next
  credited : ∀ entry ∈ database.socialCredentials.entries,
    ∃ user ∈ database.users.entries, user.id = entry.row.userId

namespace WholeUsers

variable {database : Database}

theorem registers (whole : WholeUsers database)
    {callback : Callback} {name : String}
    (allowed : callback.denied = false)
    (unknown : ¬ HasCredential database callback.facebook.id)
    (free : EmailFree database callback.facebook)
    (named : callback.facebook.name = some name) :
    ∃ profiles, Registers database callback name profiles := by
  have unowned :
      database.users.next ∉ database.profiles.rows.map Profile.userId := by
    intro member
    obtain ⟨profile, stored, equal⟩ := List.mem_map.mp member
    have below := whole.owned profile stored
    omega
  exact ⟨_, allowed, unknown, free, named,
    Keyed.insert_of_free _ _ unowned⟩

/-- A whole registration keeps the site whole. -/
theorem afterCredential (whole : WholeUsers database)
    {callback : Callback} {name : String}
    {profiles : Keyed Profile Nat Profile.userId}
    (registers : Registers database callback name profiles) :
    WholeUsers
      (withCredential database callback.facebook name profiles) := by
  obtain ⟨-, rows⟩ := Keyed.insert_eq_some registers.profile
  constructor
  · intro entry member
    show ∃ profile ∈ profiles.rows, profile.userId = entry.id
    rw [rows]
    rcases Table.mem_insert.mp member with old | new
    · obtain ⟨profile, stored, equal⟩ := whole.profiled entry old
      exact ⟨profile, List.mem_append_left _ stored, equal⟩
    · rw [new]
      exact ⟨_, List.mem_append_right _ (List.mem_singleton_self _), rfl⟩
  · intro profile member
    show profile.userId < database.users.next + 1
    have member : profile ∈ profiles.rows := member
    rw [rows] at member
    rcases List.mem_append.mp member with old | new
    · have below := whole.owned profile old
      omega
    · rw [List.mem_singleton] at new
      rw [new]
      exact Nat.lt_succ_self _
  · intro entry member
    rcases Table.mem_insert.mp member with old | new
    · obtain ⟨user, stored, equal⟩ := whole.credited entry old
      exact ⟨user, Table.mem_insert.mpr (Or.inl stored), equal⟩
    · rw [new]
      exact ⟨_, Table.mem_insert.mpr (Or.inr rfl), rfl⟩

/-- A callback that leaves nothing half finished keeps the site whole. -/
theorem leaves (whole : WholeUsers database) {cut : CutCallback}
    (saves : SavesWhole database cut) :
    WholeUsers (cut.leaves database) := by
  by_cases without :
      HasCredential database cut.callback.facebook.id ∨
        ¬ EmailFree database cut.callback.facebook ∨ cut.InsertsNothing
  · rw [leaves_unchanged without]
    exact whole
  · simp only [not_or, not_not] at without
    obtain ⟨unknown, free, inserts⟩ := without
    have all : cut.InsertsAll := by
      rcases saves with known | taken | nothing | all
      · exact absurd known unknown
      · exact absurd free taken
      · exact absurd nothing inserts
      · exact all
    obtain ⟨name, named⟩ := Option.ne_none_iff_exists'.mp all.2.1
    obtain ⟨profiles, registers⟩ :=
      whole.registers all.1 unknown free named
    rw [registers.leaves all]
    exact whole.afterCredential registers

end WholeUsers

/-! ## Logging in again -/

/-- Only a known account, or a new one with a free email, logs in. -/
theorem loginFacebook_ok
    {old : Option Nat} {facebook : FacebookUser} {database : Database}
    {user : Option Nat}
    (login : ((loginFacebook old facebook).run database).1 = .ok user) :
    HasCredential database facebook.id ∨
      EmailFree database facebook ∧ facebook.name ≠ none := by
  by_contra neither
  simp only [not_or, not_and, not_not] at neither
  obtain ⟨unknown, taken⟩ := neither
  have found := (not_hasCredential_iff _ _).mp unknown
  cases named : facebook.name with
  | none => simp [loginFacebook, found, insertUser, named] at login
  | some name =>
      cases holder : database.users.first fun entry =>
          emailTaken (loginEmail facebook.id facebook.email) entry with
      | none =>
          have free := (emailFree_iff _ _).mpr holder
          simp [named] at taken
          exact taken free
      | some entry =>
          simp [loginFacebook, found, insertUser, named, saveUser,
            holder] at login

/-- A known account is logged in to its user. -/
theorem WholeUsers.recovers_known
    {again : Callback} {database : Database}
    (whole : WholeUsers database)
    (known : HasCredential database again.facebook.id) :
    Recovers again database := by
  have left : (callbackRoute again).final database = database :=
    @leaves_unchanged _ ⟨again, none⟩ database (Or.inl known)
  cases found : database.socialCredentials.first fun entry =>
      entry.row.socialId = again.facebook.id with
  | none => exact absurd known ((not_hasCredential_iff _ _).mpr found)
  | some credential =>
      obtain ⟨stored, isAccount⟩ := Table.first_eq_some found
      have isAccount : credential.row.socialId = again.facebook.id := by
        simpa using isAccount
      obtain ⟨user, userStored, isUser⟩ := whole.credited credential stored
      have present := Table.find_of_mem userStored
      rw [isUser] at present
      constructor
      · rw [left]
        refine ⟨user.id, ?_, ⟨credential, stored, ?_⟩, ?_⟩
        · simp [loginFacebook, found, loginUsingId, present]
        · rw [isUser, ← isAccount]
        · exact whole.profiled user userStored
      · rw [left]
        exact whole.profiled

/-- A new account is logged in to its new user. -/
theorem WholeUsers.recovers_new
    {again : Callback} {database : Database} {name : String}
    {profiles : Keyed Profile Nat Profile.userId}
    (whole : WholeUsers database)
    (registers : Registers database again name profiles) :
    Recovers again database := by
  have left :
      (callbackRoute again).final database =
        withCredential database again.facebook name profiles := by
    refine @Registers.leaves _ database ⟨again, none⟩ name profiles
      registers ⟨registers.allowed, by simp [registers.named], ?_⟩
    intro count stops
    cases stops
  have found := (not_hasCredential_iff _ _).mp registers.unknown
  have holder := (emailFree_iff _ _).mp registers.free
  have after := whole.afterCredential registers
  constructor
  · rw [left]
    refine ⟨database.users.next, ?_,
      ⟨_, Table.mem_insert.mpr (Or.inr rfl), rfl⟩, ?_⟩
    · simp [loginFacebook, found, insertUser, registers.named, saveUser,
        holder, insertProfile, saveProfile, registers.profile,
        insertCredential, saveSocialCredential]
    · exact after.profiled _ (Table.mem_insert.mpr (Or.inr rfl))
  · rw [left]
    exact after.profiled

/-- On a whole site, whether a callback logs in depends on its account. -/
theorem WholeUsers.recovers_iff
    {again : Callback} {database : Database}
    (whole : WholeUsers database) (allowed : again.denied = false) :
    Recovers again database ↔
      HasCredential database again.facebook.id ∨
        EmailFree database again.facebook ∧ again.facebook.name ≠ none := by
  constructor
  · intro recovers
    obtain ⟨user, login, -⟩ := recovers.login
    exact loginFacebook_ok login
  · intro possible
    by_cases known : HasCredential database again.facebook.id
    · exact whole.recovers_known known
    · obtain ⟨free, named⟩ := possible.resolve_left known
      obtain ⟨name, named⟩ := Option.ne_none_iff_exists'.mp named
      obtain ⟨profiles, registers⟩ :=
        whole.registers allowed known free named
      exact whole.recovers_new registers

omit [Collation] in
theorem CutCallback.InsertsNothing.not_all {cut : CutCallback}
    (nothing : cut.InsertsNothing) : ¬ cut.InsertsAll := by
  rintro ⟨allowed, named, enough⟩
  rcases nothing with refused | unnamed | ⟨count, stop, few⟩
  · simp [allowed] at refused
  · exact named unnamed
  · have bound := enough count stop
    omega

/-- After a registration that is cut off, a retry does not log in. -/
theorem Registers.not_recovers
    {database : Database} {first : CutCallback} {again : Callback}
    {name : String} {profiles : Keyed Profile Nat Profile.userId}
    (registers : Registers database first.callback name profiles)
    (account : again.facebook.id = first.callback.facebook.id)
    (email : again.facebook.email = first.callback.facebook.email)
    (begun : ¬ first.InsertsNothing) (part : ¬ first.InsertsAll) :
    ¬ Recovers again (first.leaves database) := by
  obtain ⟨users, credentials⟩ := registers.leaves_part begun part
  intro recovers
  obtain ⟨user, login, -⟩ := recovers.login
  rcases loginFacebook_ok login with ⟨entry, member, isAccount⟩ | ⟨free, -⟩
  · rw [credentials] at member
    exact registers.unknown ⟨entry, member, isAccount.trans account⟩
  · have stored :
        ⟨database.users.next,
            (newUser first.callback.facebook name).kept⟩ ∈
          (first.leaves database).users.entries := by
      rw [users]
      exact Table.mem_insert.mpr (Or.inr rfl)
    have different := free _ stored
    rw [account, email] at different
    simp [emailTaken, newUser, User.kept] at different

/-- On a whole site, a retry recovers exactly under the condition. -/
theorem WholeUsers.recovers_after
    {first : CutCallback} {again : Callback} {database : Database}
    (whole : WholeUsers database)
    (account : again.facebook.id = first.callback.facebook.id)
    (email : again.facebook.email = first.callback.facebook.email)
    (allowed : again.denied = false) :
    Recovers again (first.leaves database) ↔
      Recoverable database first again := by
  by_cases known : HasCredential database first.callback.facebook.id
  · rw [leaves_unchanged (Or.inl known), whole.recovers_iff allowed, account]
    exact iff_of_true (Or.inl known) (Or.inl known)
  by_cases free : EmailFree database first.callback.facebook
  swap
  · rw [leaves_unchanged (Or.inr (Or.inl free)), whole.recovers_iff allowed]
    simp only [EmailFree, account, email] at free ⊢
    simp [Recoverable, known, EmailFree, free]
  by_cases nothing : first.InsertsNothing
  · rw [leaves_unchanged (Or.inr (Or.inr nothing)),
      whole.recovers_iff allowed]
    simp only [EmailFree, account, email] at free ⊢
    simp [Recoverable, known, EmailFree, nothing, nothing.not_all]
  -- the callback registers the account, if only in part
  have begun : first.callback.denied = false ∧
      first.callback.facebook.name ≠ none := by
    simp only [CutCallback.InsertsNothing, not_or] at nothing
    exact ⟨by simpa using nothing.1, nothing.2.1⟩
  obtain ⟨name, named⟩ := Option.ne_none_iff_exists'.mp begun.2
  obtain ⟨profiles, registers⟩ :=
    whole.registers begun.1 known free named
  by_cases all : first.InsertsAll
  · refine iff_of_true ?_ (Or.inr ⟨free, Or.inr all⟩)
    rw [registers.leaves all]
    refine ((whole.afterCredential registers).recovers_iff allowed).mpr
      (Or.inl ?_)
    exact ⟨_, Table.mem_insert.mpr (Or.inr rfl), account.symm⟩
  · refine iff_of_false
      (registers.not_recovers account email nothing all) ?_
    simp [Recoverable, known, nothing, all]

/--
After any run of callbacks that leave no registration half finished, a retry
recovers exactly if the account was known before, or its email was free and
the callback that stopped had inserted all or nothing.
-/
theorem retry_recovers_iff
    {initial database : Database} {history : List CutCallback}
    {first : CutCallback} {again : Callback}
    (noUsers : initial.users.entries = [])
    (noProfiles : initial.profiles.rows = [])
    (noCredentials : initial.socialCredentials.entries = [])
    (run : Reaches registrationStep SavesWhole initial history database)
    (account : again.facebook.id = first.callback.facebook.id)
    (email : again.facebook.email = first.callback.facebook.email)
    (allowed : again.denied = false) :
    Recovers again (first.leaves database) ↔
      Recoverable database first again := by
  have initially : WholeUsers initial := by
    constructor
    · simp [noUsers]
    · simp [noProfiles]
    · simp [noCredentials]
  have whole : WholeUsers database := by
    refine run.invariant initially ?_
    intro state target cut whole saves moved
    cases moved
    exact whole.leaves saves
  exact whole.recovers_after account email allowed

end Collations

/-! ## A retry -/

/-- Another account, with a name that is not known yet. -/
def bobLogin : Callback where
  action := .missing
  cafeId := .missing
  path := .text "/"
  facebook := ⟨"fb2", some "bob@example.com", some "bob", "b.png"⟩

/-- The site after the first account registered. -/
def registeredSite : Database :=
  (@callbackRoute caseBlind firstLogin).final .empty

/-- A retry after a callback that was cut off before its first insert. -/
theorem retry_after_lookup_recovers :
    @Recovers caseBlind bobLogin
      (@CutCallback.leaves caseBlind ⟨bobLogin, some 1⟩
        registeredSite) := by
  have whole : @SavesWhole caseBlind Database.empty ⟨firstLogin, none⟩ := by
    refine Or.inr (Or.inr (Or.inr ⟨rfl, by decide, ?_⟩))
    intro count stops
    cases stops
  refine (@retry_recovers_iff caseBlind Database.empty registeredSite
    [⟨firstLogin, none⟩] ⟨bobLogin, some 1⟩ bobLogin rfl rfl rfl
    (.next .start whole rfl) rfl rfl rfl).mpr (Or.inr ⟨?_, ?_⟩)
  · have users : registeredSite.users.entries =
        [⟨1, ⟨"alice@example.com", "alice"⟩⟩] := by
      decide +kernel
    intro entry member
    rw [users, List.mem_singleton] at member
    rw [member]
    decide
  · exact Or.inl ⟨Or.inr (Or.inr ⟨1, rfl, le_refl 1⟩), by decide⟩

/-! ## A user without a profile -/

/-- The callback stops right after it stored the user. -/
def cutLogin : CutCallback := ⟨firstLogin, some 2⟩

/-- The site that the callback leaves. -/
def cutSite : Database := @CutCallback.leaves caseBlind cutLogin .empty

theorem cut_login_is_not_recovered :
    ¬ @Recovers caseBlind firstLogin cutSite ∧
      ((@loginFacebook caseBlind firstLogin.user firstLogin.facebook).run
          cutSite).1 = .error .queryException ∧
      ∃ entry ∈ ((@callbackRoute caseBlind firstLogin).final
          cutSite).users.entries,
        ¬ HasProfile ((@callbackRoute caseBlind firstLogin).final
          cutSite) entry.id := by
  have fails :
      ((@loginFacebook caseBlind firstLogin.user firstLogin.facebook).run
          cutSite).1 = .error .queryException := by
    decide +kernel
  refine ⟨?_, fails, ?_⟩
  · intro recovers
    obtain ⟨user, login, -⟩ := @Recovers.login caseBlind _ _ recovers
    rw [fails] at login
    cases login
  · refine ⟨⟨1, ⟨"alice@example.com", "alice"⟩⟩, by decide +kernel, ?_⟩
    rintro ⟨profile, member, -⟩
    have none : ((@callbackRoute caseBlind firstLogin).final
        cutSite).profiles.rows = [] := by
      decide +kernel
    rw [none] at member
    cases member

end NomadiCore
