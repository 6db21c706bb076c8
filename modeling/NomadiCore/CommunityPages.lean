import NomadiCore.Library.Paging
import NomadiCore.RegistrationRecovery
import NomadiCore.ScoreLedger

/-!
# The community pages

`GET /community` ranks the users by the score in their profile, forty on a
page, and links to all the pages; its view asks for a relation that users do
not have, so it shows none of them.  The route reads the profile of every
user, so a single user without one stops it on every page; such a user is left
behind by a registration that is cut off between its first two inserts, and
also stops the refresh of the scores.
-/

namespace NomadiCore.CommunityPages

open NomadiCore.Library.LabelledRun
open NomadiCore.Library.Paging
open NomadiCore.Library.RowTable
open NomadiCore.Library.StatementProcess
open NomadiCore.Library.TextColumn

/-! ## The route -/

/-- A user with the score of the profile. -/
abbrev Ranked := Entry User × Int

/--
`sortByDesc`: the order of equal scores is open, but it is the same whenever
the same users are sorted.
-/
structure DescendingSort where
  sort : List Ranked → List Ranked
  perm : ∀ users, (sort users).Perm users
  sorted : ∀ users, (sort users).Pairwise fun first second =>
    second.2 ≤ first.2

/-- The users whose score is positive; a missing profile raises. -/
def scored (database : Database) :
    List (Entry User) → Except Raised (List Ranked)
  | [] => .ok []
  | user :: rest =>
      match database.profiles.find user.id with
      | none => .error .errorException
      | some profile =>
          (scored database rest).map fun later =>
            if profile.score > 0 then (user, profile.score) :: later
            else later

structure Page where
  users : List Ranked
  totalPage : Nat

/-- `GET /community`; page zero stands for a missing or empty number. -/
def community (sorting : DescendingSort) (database : Database)
    (page : Nat) : Except Raised Page :=
  (scored database database.users.entries).map fun users =>
    let ranked := sorting.sort users
    { users := forPage ranked (if page = 0 then 1 else page) 40
      totalPage := pageCount ranked.length 40 }

/-- The view calls `count` on the `cafes` of each user, which is `null`. -/
def display (page : Page) : Except Raised Unit :=
  if page.users.isEmpty then .ok () else .error .error

/-- The users of some pages, one page after the other. -/
def openPages (sorting : DescendingSort) (database : Database) :
    List Nat → Except Raised (List Ranked)
  | [] => .ok []
  | page :: rest =>
      (community sorting database page).bind fun shown =>
        (openPages sorting database rest).map (shown.users ++ ·)

/-- The users of all the pages that the first page links to. -/
def followLinks (sorting : DescendingSort) (database : Database) :
    Except Raised (List Ranked) :=
  (community sorting database 0).bind fun first =>
    openPages sorting database
      ((List.range first.totalPage).map (· + 1))

/-! ## The site -/

inductive Action where
  | login (cut : CutCallback)
  | refresh
  | other (after : Database)

section Collations

variable [Collation]

/--
A login is one action, cut off or not; all other requests leave the users and
their profiles.
-/
def step (database : Database) : Action → Option Database
  | .login cut => some (cut.leaves database)
  | .refresh => some (refreshUserScores.final database)
  | .other after =>
      if after.users = database.users ∧
          after.profiles = database.profiles then some after
      else none

/-- A registration is cut off between the user and the profile. -/
def Splits (database : Database) (cut : CutCallback) : Prop :=
  cut.callback.denied = false ∧
    ¬ HasCredential database cut.callback.facebook.id ∧
    EmailFree database cut.callback.facebook ∧
    cut.callback.facebook.name ≠ none ∧ cut.stop = some 2

def Unsplit (database : Database) (action : Action) : Prop :=
  ∀ cut, action = .login cut → ¬ Splits database cut

end Collations

/-! ## What the pages show -/

/-- The score in the profile of a user. -/
def profileScore (database : Database) (user : Nat) : Int :=
  ((database.profiles.find user).map Profile.score).getD 0

/--
The linked pages have every user with a positive score once, the best first.
The view shows a page exactly if it comes after them.
-/
def ListsRanking (sorting : DescendingSort) (database : Database)
    (score : Nat → Int) : Prop :=
  ∃ ranked, followLinks sorting database = .ok ranked ∧
    (ranked.map Prod.fst).Nodup ∧
    (∀ user points, (user, points) ∈ ranked ↔
      user ∈ database.users.entries ∧ points = score user.id ∧
        0 < points) ∧
    (ranked.Pairwise fun first second => second.2 ≤ first.2) ∧
    ∀ page shown, community sorting database page = .ok shown →
      (display shown = .ok () ↔ shown.totalPage < max page 1)

/-- No page gets to its view, and the scores are not refreshed. -/
def Down (sorting : DescendingSort) (database : Database) : Prop :=
  (∀ page, community sorting database page = .error .errorException) ∧
    (refreshUserScores.run database).1 = .error .errorException

/-! ## Reading the profiles -/

theorem find_profile_of_hasProfile {database : Database} {user : Nat}
    (profiled : HasProfile database user) :
    ∃ profile, database.profiles.find user = some profile := by
  obtain ⟨profile, stored, rfl⟩ := profiled
  exact ⟨profile, Keyed.find_of_mem stored⟩

theorem scored_error {database : Database} {users : List (Entry User)}
    (missing : ∃ user ∈ users, ¬ HasProfile database user.id) :
    scored database users = .error .errorException := by
  induction users with
  | nil =>
      obtain ⟨user, member, -⟩ := missing
      cases member
  | cons user rest inductionHypothesis =>
      rw [scored]
      cases found : database.profiles.find user.id with
      | none => rfl
      | some profile =>
          obtain ⟨stored, key⟩ := Keyed.find_eq_some found
          obtain ⟨lacking, member, unprofiled⟩ := missing
          rcases List.mem_cons.mp member with rfl | later
          · exact absurd ⟨profile, stored, key⟩ unprofiled
          · rw [inductionHypothesis ⟨lacking, later, unprofiled⟩]
            rfl

theorem scored_ok {database : Database} {users : List (Entry User)}
    (profiled : ∀ user ∈ users, HasProfile database user.id)
    (once : users.Nodup) :
    ∃ ranked, scored database users = .ok ranked ∧
      (ranked.map Prod.fst).Nodup ∧
      ∀ user points, (user, points) ∈ ranked ↔
        user ∈ users ∧ points = profileScore database user.id ∧
          0 < points := by
  induction users with
  | nil => exact ⟨[], rfl, List.nodup_nil, by simp⟩
  | cons user rest inductionHypothesis =>
      obtain ⟨absent, restOnce⟩ := List.nodup_cons.mp once
      obtain ⟨later, isLater, laterOnce, members⟩ := inductionHypothesis
        (fun other member =>
          profiled other (List.mem_cons_of_mem user member)) restOnce
      obtain ⟨profile, found⟩ := find_profile_of_hasProfile
        (profiled user List.mem_cons_self)
      have score : profileScore database user.id = profile.score := by
        simp [profileScore, found]
      have notLater : user ∉ later.map Prod.fst := by
        intro member
        obtain ⟨ranked, isRanked, equal⟩ := List.mem_map.mp member
        obtain ⟨inRest, -⟩ := (members ranked.1 ranked.2).mp isRanked
        rw [equal] at inRest
        exact absent inRest
      have isScored : scored database (user :: rest) =
          .ok (if profile.score > 0 then (user, profile.score) :: later
            else later) := by
        rw [scored, found, isLater]
        rfl
      refine ⟨_, isScored, ?_, ?_⟩
      · split
        · exact List.nodup_cons.mpr ⟨notLater, laterOnce⟩
        · exact laterOnce
      · intro other points
        split
        · rename_i positive
          rw [List.mem_cons, Prod.mk.injEq, members, List.mem_cons]
          constructor
          · rintro (⟨rfl, rfl⟩ | ⟨inRest, isScore, above⟩)
            · exact ⟨Or.inl rfl, score.symm, positive⟩
            · exact ⟨Or.inr inRest, isScore, above⟩
          · rintro ⟨rfl | inRest, isScore, above⟩
            · exact Or.inl ⟨rfl, isScore.trans score⟩
            · exact Or.inr ⟨inRest, isScore, above⟩
        · rename_i notPositive
          rw [members, List.mem_cons]
          constructor
          · rintro ⟨inRest, isScore, above⟩
            exact ⟨Or.inr inRest, isScore, above⟩
          · rintro ⟨rfl | inRest, isScore, above⟩
            · rw [isScore, score] at above
              exact absurd above notPositive
            · exact ⟨inRest, isScore, above⟩

/-! ## Following the links -/

theorem display_iff {page : Page} :
    display page = .ok () ↔ page.users = [] := by
  cases users : page.users with
  | nil => simp [display, users]
  | cons user rest => simp [display, users]

section Links

variable (sorting : DescendingSort) {database : Database}

theorem openPages_ok {users : List Ranked}
    (isScored : scored database database.users.entries = .ok users)
    (indices : List Nat) :
    openPages sorting database (indices.map (· + 1)) =
      .ok (indices.flatMap fun index =>
        forPage (sorting.sort users) (index + 1) 40) := by
  induction indices with
  | nil => rfl
  | cons index rest inductionHypothesis =>
      rw [List.map_cons, openPages, inductionHypothesis, community, isScored]
      rfl

theorem listsRanking
    (profiled : ∀ user ∈ database.users.entries,
      HasProfile database user.id) :
    ListsRanking sorting database (profileScore database) := by
  obtain ⟨users, isScored, once, members⟩ :=
    scored_ok profiled database.users.nodup
  have permutes := sorting.perm users
  refine ⟨sorting.sort users, ?_, ?_, ?_, sorting.sorted users, ?_⟩
  · have opened := openPages_ok sorting isScored
      (List.range (pageCount (sorting.sort users).length 40))
    rw [flatMap_forPage (by decide)] at opened
    rw [followLinks, community, isScored]
    exact opened
  · exact (permutes.map Prod.fst).nodup_iff.mpr once
  · intro user points
    rw [permutes.mem_iff]
    exact members user points
  · intro page shown isShown
    rw [community, isScored] at isShown
    cases isShown
    have isPage : (if page = 0 then 1 else page) = max page 1 := by
      split
      · omega
      · omega
    obtain ⟨index, isIndex⟩ := Nat.exists_eq_add_of_le'
      (Nat.le_max_right page 1)
    simp only [isPage, isIndex, display_iff]
    rw [forPage_eq_nil_iff (by decide)]
    exact Nat.lt_succ_iff.symm

end Links

/-! ## A user without a profile -/

/-- Users are not touched, and profiles keep their keys. -/
def KeepsProfiles (before after : Database) : Prop :=
  after.users = before.users ∧
    after.profiles.rows.map Profile.userId =
      before.profiles.rows.map Profile.userId

theorem hasProfile_iff {database : Database} {user : Nat} :
    HasProfile database user ↔
      user ∈ database.profiles.rows.map Profile.userId := by
  simp [HasProfile]

theorem setScore_keeps (user : Nat) (score : Int) :
    (setScore user score).Within KeepsProfiles := by
  refine .execute fun database => ⟨rfl, ?_⟩
  simp only [Keyed.update, List.map_map]
  apply List.map_congr_left
  intro profile _
  simp only [Function.comp]
  split
  · rfl
  · rfl

theorem refreshScores_keeps (users : List (Entry User)) :
    (refreshScores users).Within KeepsProfiles := by
  induction users with
  | nil => exact .pure _
  | cons user rest inductionHypothesis =>
      refine .bind (.query (fun _ => ⟨rfl, rfl⟩) _) fun score => ?_
      refine .bind (.query (fun _ => ⟨rfl, rfl⟩) _) fun found => ?_
      refine .bind (.require _ _) fun profile => ?_
      exact .bind (setScore_keeps _ _) fun _ => inductionHypothesis

theorem KeepsProfiles.run {Answer : Type} {process : Handler Answer}
    (within : process.Within KeepsProfiles) (database : Database) :
    KeepsProfiles database (process.final database) :=
  within.run (fun _ => ⟨rfl, rfl⟩)
    (fun earlier later =>
      ⟨later.1.trans earlier.1, later.2.trans earlier.2⟩) database

theorem refreshUserScores_keeps (database : Database) :
    KeepsProfiles database (refreshUserScores.final database) :=
  .run (.bind (.query (fun _ => ⟨rfl, rfl⟩) _) refreshScores_keeps) database

/-- The loop stops at the first user without a profile. -/
theorem refreshScores_error {users : List (Entry User)}
    {database : Database}
    (missing : ∃ user ∈ users, ¬ HasProfile database user.id) :
    ((refreshScores users).run database).1 = .error .errorException := by
  induction users generalizing database with
  | nil =>
      obtain ⟨user, member, -⟩ := missing
      cases member
  | cons user rest inductionHypothesis =>
      cases found : database.profiles.find user.id with
      | none => simp [refreshScores, found]
      | some profile =>
          obtain ⟨stored, key⟩ := Keyed.find_eq_some found
          obtain ⟨lacking, member, unprofiled⟩ := missing
          rcases List.mem_cons.mp member with rfl | later
          · exact absurd ⟨profile, stored, key⟩ unprofiled
          · let after := (setScore profile.userId
              (getScore database user.id)).final database
            have kept : KeepsProfiles database after :=
              .run (setScore_keeps _ _) database
            have stillMissing : ¬ HasProfile after lacking.id := by
              rw [hasProfile_iff, kept.2, ← hasProfile_iff]
              exact unprofiled
            have fails := @inductionHypothesis after
              ⟨lacking, later, stillMissing⟩
            simpa [refreshScores, found, setScore, after, Process.final]
              using fails

theorem down_of_missing (sorting : DescendingSort) {database : Database}
    (missing : ∃ user ∈ database.users.entries,
      ¬ HasProfile database user.id) :
    Down sorting database := by
  refine ⟨fun page => ?_, ?_⟩
  · rw [community, scored_error missing]
    rfl
  · have fails := refreshScores_error missing
    simpa [refreshUserScores] using fails

/-! ## Logins -/

/-- Profiles belong to users that were stored. -/
def Owned (database : Database) : Prop :=
  ∀ user, HasProfile database user → user < database.users.next

section Collations

variable [Collation]

theorem registers_of_owned {database : Database} (owned : Owned database)
    {callback : Callback} {name : String}
    (allowed : callback.denied = false)
    (unknown : ¬ HasCredential database callback.facebook.id)
    (free : EmailFree database callback.facebook)
    (named : callback.facebook.name = some name) :
    ∃ profiles, Registers database callback name profiles := by
  have unowned :
      database.users.next ∉ database.profiles.rows.map Profile.userId := by
    intro member
    have below := owned _ (hasProfile_iff.mpr member)
    omega
  exact ⟨_, allowed, unknown, free, named,
    Keyed.insert_of_free _ _ unowned⟩

/-- A login leaves the database, or begins a registration. -/
theorem leaves_cases {database : Database} (owned : Owned database)
    (cut : CutCallback) :
    cut.leaves database = database ∨
      ∃ name profiles count,
        Registers database cut.callback name profiles ∧ 2 ≤ count ∧
          (cut.stop = some count ∨ cut.stop = none ∧ 4 ≤ count) ∧
          cut.leaves database =
            savedAfter database cut.callback.facebook name profiles
              count := by
  by_cases without :
      HasCredential database cut.callback.facebook.id ∨
        ¬ EmailFree database cut.callback.facebook ∨ cut.InsertsNothing
  · exact Or.inl (leaves_unchanged without)
  · simp only [not_or, not_not] at without
    obtain ⟨unknown, free, begun⟩ := without
    simp only [CutCallback.InsertsNothing, not_or, not_exists,
      not_and] at begun
    obtain ⟨allowed, hasName, enough⟩ := begun
    obtain ⟨name, named⟩ := Option.ne_none_iff_exists'.mp hasName
    obtain ⟨profiles, registers⟩ := registers_of_owned owned
      (by simpa using allowed) unknown free named
    obtain ⟨count, left, stops⟩ := exists_leaves_eq_stopAfter cut database
    refine Or.inr ⟨name, _, count, registers, ?_, stops,
      left.trans (registers.stopAfter count)⟩
    rcases stops with stops | ⟨-, many⟩
    · have := enough count stops
      omega
    · omega

/-- The users and profiles that a registration adds. -/
theorem Registers.rows {database : Database} {callback : Callback}
    {name : String} {profiles : Keyed Profile Nat Profile.userId}
    (registers : Registers database callback name profiles) {count : Nat}
    (begun : 2 ≤ count) :
    (savedAfter database callback.facebook name profiles count).users =
        database.users.insert
          (newUser callback.facebook name).kept ∧
      (savedAfter database callback.facebook name profiles
          count).profiles.rows.map Profile.userId =
        database.profiles.rows.map Profile.userId ++
          if count = 2 then [] else [database.users.next] := by
  obtain ⟨-, rows⟩ := Keyed.insert_eq_some registers.profile
  obtain rfl | rfl | ⟨later, rfl⟩ :
      count = 2 ∨ count = 3 ∨ ∃ later, count = later + 4 := by
    rcases count with _ | _ | _ | _ | later
    · omega
    · omega
    · exact Or.inl rfl
    · exact Or.inr (Or.inl rfl)
    · exact Or.inr (Or.inr ⟨later, rfl⟩)
  · exact ⟨rfl, by simp [savedAfter, withUser]⟩
  · exact ⟨rfl, by simp [savedAfter, rows]⟩
  · exact ⟨rfl, by simp [savedAfter, withCredential, rows]⟩

/-- Every user has a profile. -/
def Profiled (database : Database) : Prop :=
  ∀ user ∈ database.users.entries, HasProfile database user.id

/-- Some user has none. -/
def Lacking (database : Database) : Prop :=
  ∃ user ∈ database.users.entries, ¬ HasProfile database user.id

/-- Every user has a profile, and profiles have users. -/
def Whole (database : Database) : Prop :=
  Owned database ∧ Profiled database

/-- Some user has no profile, and no new user gets that key. -/
def Broken (database : Database) : Prop :=
  Owned database ∧ Lacking database

section Keeps

variable {before after : Database}

omit [Collation] in
theorem KeepsProfiles.hasProfile_iff (keeps : KeepsProfiles before after)
    {user : Nat} : HasProfile after user ↔ HasProfile before user := by
  rw [CommunityPages.hasProfile_iff, keeps.2, ← CommunityPages.hasProfile_iff]

omit [Collation] in
theorem KeepsProfiles.owned (keeps : KeepsProfiles before after)
    (owned : Owned before) : Owned after := by
  intro user profiled
  rw [keeps.1]
  exact owned user (keeps.hasProfile_iff.mp profiled)

omit [Collation] in
theorem KeepsProfiles.profiled (keeps : KeepsProfiles before after)
    (profiled : Profiled before) : Profiled after := by
  intro user member
  rw [keeps.1] at member
  exact keeps.hasProfile_iff.mpr (profiled user member)

omit [Collation] in
theorem KeepsProfiles.lacking (keeps : KeepsProfiles before after)
    (lacking : Lacking before) : Lacking after := by
  obtain ⟨user, member, missing⟩ := lacking
  exact ⟨user, keeps.1 ▸ member, fun profiled =>
    missing (keeps.hasProfile_iff.mp profiled)⟩

end Keeps

section Registration

variable {database : Database} {callback : Callback} {name : String}
    {profiles : Keyed Profile Nat Profile.userId} {count : Nat}

theorem hasProfile_savedAfter
    (registers : Registers database callback name profiles)
    (begun : 2 ≤ count) {user : Nat} :
    HasProfile
        (savedAfter database callback.facebook name profiles count) user ↔
      HasProfile database user ∨
        count ≠ 2 ∧ user = database.users.next := by
  rw [hasProfile_iff, (Registers.rows registers begun).2, List.mem_append,
    ← hasProfile_iff]
  by_cases early : count = 2
  · simp [early]
  · simp [early]

theorem owned_savedAfter (owned : Owned database)
    (registers : Registers database callback name profiles)
    (begun : 2 ≤ count) :
    Owned (savedAfter database callback.facebook name profiles count) := by
  intro user profiled
  rw [(Registers.rows registers begun).1, Table.insert_next]
  rcases (hasProfile_savedAfter registers begun).mp profiled with
    old | ⟨-, rfl⟩
  · have below := owned user old
    omega
  · exact Nat.lt_succ_self _

theorem profiled_savedAfter (profiled : Profiled database)
    (registers : Registers database callback name profiles)
    (begun : 3 ≤ count) :
    Profiled
      (savedAfter database callback.facebook name profiles count) := by
  intro user member
  rw [(Registers.rows registers (by omega)).1] at member
  rw [hasProfile_savedAfter registers (by omega)]
  rcases Table.mem_insert.mp member with old | rfl
  · exact Or.inl (profiled user old)
  · exact Or.inr ⟨by omega, rfl⟩

/-- Another registration does not bring the missing profile. -/
theorem lacking_savedAfter (lacking : Lacking database)
    (registers : Registers database callback name profiles)
    (begun : 2 ≤ count) :
    Lacking
      (savedAfter database callback.facebook name profiles count) := by
  obtain ⟨user, member, missing⟩ := lacking
  refine ⟨user, ?_, ?_⟩
  · rw [(Registers.rows registers begun).1]
    exact Table.mem_insert.mpr (Or.inl member)
  · rw [hasProfile_savedAfter registers begun]
    rintro (profiled | ⟨-, isNext⟩)
    · exact missing profiled
    · have below := database.users.fresh user member
      omega

theorem broken_of_splits {cut : CutCallback} (owned : Owned database)
    (splits : Splits database cut) : Broken (cut.leaves database) := by
  obtain ⟨allowed, unknown, free, hasName, stop⟩ := splits
  obtain ⟨name, named⟩ := Option.ne_none_iff_exists'.mp hasName
  obtain ⟨profiles, registers⟩ :=
    registers_of_owned owned allowed unknown free named
  have left : cut.leaves database =
      savedAfter database cut.callback.facebook name profiles 2 := by
    rw [CutCallback.leaves, stop]
    exact registers.stopAfter 2
  rw [left]
  refine ⟨owned_savedAfter owned registers (Nat.le_refl 2),
    ⟨database.users.next,
      (newUser cut.callback.facebook name).kept⟩, ?_, ?_⟩
  · exact Table.mem_insert.mpr (Or.inr rfl)
  · rw [hasProfile_savedAfter registers (Nat.le_refl 2)]
    rintro (profiled | ⟨other, -⟩)
    · exact absurd (owned _ profiled) (Nat.lt_irrefl _)
    · exact other rfl

end Registration

/-! ## Runs -/

theorem step_keeps {database target : Database} {action : Action}
    (notLogin : ∀ cut, action ≠ .login cut)
    (moved : step database action = some target) :
    KeepsProfiles database target := by
  cases action with
  | login cut => exact absurd rfl (notLogin cut)
  | refresh =>
      cases moved
      exact refreshUserScores_keeps database
  | other after =>
      simp only [step] at moved
      split at moved
      · rename_i same
        cases moved
        exact ⟨same.1, by rw [same.2]⟩
      · cases moved

theorem owned_step {database target : Database} {action : Action}
    (owned : Owned database) (moved : step database action = some target) :
    Owned target := by
  cases action with
  | login cut =>
      cases moved
      rcases leaves_cases owned cut with unchanged |
        ⟨name, profiles, count, registers, begun, -, left⟩
      · rw [unchanged]
        exact owned
      · rw [left]
        exact owned_savedAfter owned registers begun
  | refresh => exact (step_keeps (by simp) moved).owned owned
  | other after => exact (step_keeps (by simp) moved).owned owned

theorem profiled_step {database target : Database} {action : Action}
    (owned : Owned database) (profiled : Profiled database)
    (unsplit : Unsplit database action)
    (moved : step database action = some target) : Profiled target := by
  cases action with
  | login cut =>
      cases moved
      rcases leaves_cases owned cut with unchanged |
        ⟨name, profiles, count, registers, begun, stops, left⟩
      · rw [unchanged]
        exact profiled
      · have past : 3 ≤ count := by
          by_contra early
          refine unsplit cut rfl ⟨registers.allowed, registers.unknown,
            registers.free, by simp [registers.named], ?_⟩
          rcases stops with stops | ⟨-, many⟩
          · rw [stops]
            congr 1
            omega
          · omega
        rw [left]
        exact profiled_savedAfter profiled registers past
  | refresh => exact (step_keeps (by simp) moved).profiled profiled
  | other after => exact (step_keeps (by simp) moved).profiled profiled

theorem lacking_step {database target : Database} {action : Action}
    (owned : Owned database) (lacking : Lacking database)
    (moved : step database action = some target) : Lacking target := by
  cases action with
  | login cut =>
      cases moved
      rcases leaves_cases owned cut with unchanged |
        ⟨name, profiles, count, registers, begun, -, left⟩
      · rw [unchanged]
        exact lacking
      · rw [left]
        exact lacking_savedAfter lacking registers begun
  | refresh => exact (step_keeps (by simp) moved).lacking lacking
  | other after => exact (step_keeps (by simp) moved).lacking lacking

theorem owned_of_run {meets : Database → Action → Prop}
    {history : List Action} {database : Database}
    (run : Reaches step meets Database.empty history database) :
    Owned database := by
  refine run.invariant ?_ fun owned _ moved => owned_step owned moved
  rintro user ⟨profile, member, -⟩
  cases member

theorem whole_of_run {history : List Action} {database : Database}
    (run : Reaches step Unsplit Database.empty history database) :
    Whole database := by
  have initially : Whole Database.empty := by
    refine ⟨owned_of_run (Reaches.start : Reaches step Unsplit _ _ _), ?_⟩
    intro user member
    cases member
  refine run.invariant initially ?_
  rintro state target action ⟨owned, profiled⟩ unsplit moved
  exact ⟨owned_step owned moved,
    profiled_step owned profiled unsplit moved⟩

theorem broken_of_run {start : Database} {history : List Action}
    {database : Database} (broken : Broken start)
    (run : Reaches step Anything start history database) :
    Broken database := by
  refine run.invariant broken ?_
  rintro state target action ⟨owned, lacking⟩ - moved
  exact ⟨owned_step owned moved, lacking_step owned lacking moved⟩

omit [Collation] in
theorem ListsRanking.congr {sorting : DescendingSort}
    {database : Database} {score other : Nat → Int}
    (lists : ListsRanking sorting database score)
    (same : ∀ user ∈ database.users.entries,
      score user.id = other user.id) :
    ListsRanking sorting database other := by
  obtain ⟨ranked, followed, once, members, sorted, full⟩ := lists
  refine ⟨ranked, followed, once, fun user points => ?_, sorted, full⟩
  rw [members]
  constructor
  · rintro ⟨member, isScore, positive⟩
    exact ⟨member, isScore.trans (same user member), positive⟩
  · rintro ⟨member, isScore, positive⟩
    exact ⟨member, isScore.trans (same user member).symm, positive⟩

omit [Collation] in
/-- A refresh ranks the users by what they contributed. -/
theorem listsRanking_refreshed (sorting : DescendingSort)
    {database : Database} (profiled : Profiled database) :
    ListsRanking sorting (refreshUserScores.final database)
      (getScore database) := by
  have keeps := refreshUserScores_keeps database
  have lists := listsRanking sorting (keeps.profiled profiled)
  obtain ⟨table, ran, scores⟩ := refreshUserScores_run database profiled
  have isFinal : refreshUserScores.final database =
      { database with profiles := table } := by
    rw [Process.final, ran]
  refine lists.congr fun user member => ?_
  obtain ⟨profile, found⟩ := find_profile_of_hasProfile
    (keeps.profiled profiled user member)
  obtain ⟨stored, key⟩ := Keyed.find_eq_some found
  rw [profileScore, found]
  rw [keeps.1] at member
  rw [isFinal] at stored
  have isScore := scores profile stored (by
    rw [key]
    exact List.mem_map_of_mem member)
  rw [key] at isScore
  exact isScore

/--
As long as no registration was cut off between the user and the profile, the
linked pages have the users with a positive score, by the stored score and
after a refresh by their contributions.  Once one was, no page gets to its view
and no refresh to its end, whatever logins and requests follow.
-/
theorem community_along_runs (sorting : DescendingSort) :
    (∀ history database,
      Reaches step Unsplit Database.empty history database →
        ListsRanking sorting database (profileScore database) ∧
          ListsRanking sorting (refreshUserScores.final database)
            (getScore database)) ∧
      ∀ history database cut,
        Reaches step Anything Database.empty history database →
        Splits database cut →
        ∀ later after,
          Reaches step Anything (cut.leaves database) later after →
          Down sorting after := by
  constructor
  · intro history database run
    obtain ⟨-, profiled⟩ := whole_of_run run
    exact ⟨listsRanking sorting profiled,
      listsRanking_refreshed sorting profiled⟩
  · intro history database cut run splits later after next
    have broken := broken_of_splits (owned_of_run run) splits
    exact down_of_missing sorting (broken_of_run broken next).2

end Collations

def noWorse (first second : Ranked) : Bool := second.2 ≤ first.2

theorem mergeSort_noWorse (users : List Ranked) :
    (users.mergeSort noWorse).Pairwise fun first second =>
      second.2 ≤ first.2 := by
  have sorted := @List.pairwise_mergeSort Ranked noWorse
    (by
      intro first second third earlier later
      simp only [noWorse, decide_eq_true_eq] at *
      omega)
    (by
      intro first second
      simp only [noWorse, Bool.or_eq_true, decide_eq_true_eq]
      omega)
    users
  refine sorted.imp ?_
  intro first second ordered
  simpa [noWorse] using ordered

def stableSort : DescendingSort where
  sort users := users.mergeSort noWorse
  perm users := List.mergeSort_perm users noWorse
  sorted := mergeSort_noWorse

/-- The first user checks in to a shop and comments on it. -/
def busySite : Database :=
  { registeredSite with
    recommendations := Table.empty.insert ⟨1, "e"⟩
    comments := Table.empty.insert ⟨"e", "good", 1⟩ }

def scoredSite : Database := refreshUserScores.final busySite

/-- Another registration, cut off between its user and its profile. -/
def bobCut : CutCallback := ⟨bobLogin, some 2⟩

theorem community_along_runs_scored_user :
    ListsRanking stableSort scoredSite (profileScore scoredSite) ∧
      profileScore scoredSite 1 = 7 ∧
      @Splits caseBlind scoredSite bobCut ∧
      Down stableSort (@CutCallback.leaves caseBlind bobCut scoredSite) := by
  have unsplit : ∀ cut, cut.stop = none →
      ∀ database, @Unsplit caseBlind database (.login cut) := by
    intro cut whole database other isLogin isSplit
    cases isLogin
    have stop := isSplit.2.2.2.2
    rw [whole] at stop
    cases stop
  have refreshed : ∀ database, @Unsplit caseBlind database .refresh := by
    intro database cut isLogin
    cases isLogin
  have others : ∀ database after,
      @Unsplit caseBlind database (.other after) := by
    intro database after cut isLogin
    cases isLogin
  have busy : @step caseBlind registeredSite (.other busySite) =
      some busySite := if_pos ⟨rfl, rfl⟩
  have run : Reaches (@step caseBlind) (@Unsplit caseBlind) Database.empty
      [.refresh, .other busySite, .login ⟨firstLogin, none⟩] scoredSite :=
    .next (.next (.next .start (unsplit _ rfl _) rfl) (others _ _) busy)
      (refreshed _) rfl
  have splits : @Splits caseBlind scoredSite bobCut := by
    refine ⟨rfl, ?_, ?_, by decide, rfl⟩
    · rintro ⟨entry, member, isAccount⟩
      have stored : scoredSite.socialCredentials.entries =
          [⟨1, ⟨1, "fb1"⟩⟩] := by
        decide +kernel
      rw [stored, List.mem_singleton] at member
      rw [member] at isAccount
      exact absurd isAccount (by decide)
    · intro entry member
      have users : scoredSite.users.entries =
          [⟨1, ⟨"alice@example.com", "alice"⟩⟩] := by
        decide +kernel
      rw [users, List.mem_singleton] at member
      rw [member]
      decide
  refine ⟨?_, by decide +kernel, splits, ?_⟩
  · exact ((@community_along_runs caseBlind stableSort).1 _ _ run).1
  · have anything : Reaches (@step caseBlind) Anything Database.empty
        [.refresh, .other busySite, .login ⟨firstLogin, none⟩] scoredSite :=
      .next (.next (.next .start trivial rfl) trivial busy) trivial rfl
    exact (@community_along_runs caseBlind stableSort).2 _ _ bobCut
      anything splits _ _ .start

end NomadiCore.CommunityPages
