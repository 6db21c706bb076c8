import NomadiCore.Library.InterleavedPool
import NomadiCore.SocialHandlers

/-!
# Tag suggestions

`Tag\Query` suggests tags for a shop in three queries.  Two of them forget
elements of a collection inside a `foreach` over that same collection; the
loop walks a copy made when it starts, so nothing is skipped.
-/

namespace NomadiCore.TagSuggestions

open NomadiCore.Library.DecimalNumeral
open NomadiCore.Library.InterleavedPool
open NomadiCore.Library.LabelledRun
open NomadiCore.Library.RowTable
open NomadiCore.Library.StatementProcess
open NomadiCore.Library.TextColumn

/-! ## Collections -/

/-- The items of an `Illuminate\Support\Collection` under their keys. -/
abbrev Collection (Item : Type) := List (Nat × Item)

namespace Collection

variable {Item : Type}

/-- The items of a query are numbered from zero. -/
def ofList (items : List Item) : Collection Item :=
  items.zipIdx.map Prod.swap

def forget (collection : Collection Item) (index : Nat) :
    Collection Item :=
  collection.filter fun item => item.1 ≠ index

def values (collection : Collection Item) : List Item :=
  collection.map Prod.snd

@[simp]
theorem values_ofList (items : List Item) :
    (ofList items).values = items := by
  simp [ofList, values, Function.comp_def]

theorem ofList_indices_nodup (items : List Item) :
    ((ofList items).map Prod.fst).Nodup := by
  simp [ofList, Function.comp_def, List.nodup_range']

end Collection

/-! ## The queries -/

def findMany (ids : List Int) : Handler (Collection (Entry Tag)) :=
  .query fun database =>
    .ofList (database.tags.select fun tag => (tag.id : Int) ∈ ids)

def getAllByUserOnCafe (user : Nat) (cafe : String) :
    Handler (Collection (Entry Tag)) := do
  let rows ← .query fun database =>
    database.entityTag.select fun row =>
      row.entityId = cafe ∧ row.userId = user ∧ row.isReported = false
  findMany (rows.map EntityTag.tagId)

/-- The inner loop: forget a tag once for every used tag with its id. -/
def forgetIfUsed (used : Collection (Entry Tag)) (item : Nat × Entry Tag)
    (tags : Collection (Entry Tag)) : Collection (Entry Tag) :=
  used.values.foldl
    (fun tags alreadyUsed =>
      if alreadyUsed.id = item.2.id then tags.forget item.1 else tags)
    tags

/-- The outer loop walks the tags as they were when it started. -/
def forgetUsed (tags used : Collection (Entry Tag)) :
    Collection (Entry Tag) :=
  tags.foldl (fun kept item => forgetIfUsed used item kept) tags

/-- The tags that some rows name, without those already used. -/
def suggestFrom (condition : EntityTag → Bool) (user : Nat)
    (cafe : String) : Handler (Collection (Entry Tag)) := do
  let rows ← .query fun database => database.entityTag.select condition
  let tags ← findMany (rows.map EntityTag.tagId)
  let alreadyUsedTags ← getAllByUserOnCafe user cafe
  return forgetUsed tags alreadyUsedTags

def getAllByUserNotOnCafe (user : Nat) (cafe : String) :
    Handler (Collection (Entry Tag)) :=
  suggestFrom (fun row => row.entityId ≠ cafe ∧ row.userId = user)
    user cafe

def getAllByNotUserNotOnCafe (user : Nat) (cafe : String) :
    Handler (Collection (Entry Tag)) :=
  suggestFrom (fun row => row.entityId ≠ cafe ∧ row.userId ≠ user)
    user cafe

/-! ## Runs of the requests that write tags -/

inductive TagRoute where
  | newTag
  | applyTag
  | unapplyTag
deriving DecidableEq

def TagRoute.handle [Collation] : TagRoute → Request → Handler Response
  | .newTag => NomadiCore.newTag
  | .applyTag => NomadiCore.applyTag
  | .unapplyTag => NomadiCore.unapplyTag

structure TagCall where
  route : TagRoute
  request : Request
deriving DecidableEq

/-- Requests of any users, statement by statement in any order. -/
abbrev TagPool := Pool Database TagCall (Handler Response)

def tagStep [Collation] : TagPool → Move TagCall → Option TagPool :=
  processStep fun call => call.route.handle call.request

/-! ## What the queries are for -/

/-- The user has the tag on the shop. -/
def HasTag (database : Database) (user : Nat) (shop : String)
    (tag : Entry Tag) : Prop :=
  ∃ row ∈ database.entityTag.rows,
    row.userId = user ∧ row.entityId = shop ∧ row.tagId = tag.id

/-- A query returns the stored tags with a property, each once. -/
def ReturnsExactly (database : Database)
    (query : Handler (Collection (Entry Tag)))
    (wanted : Entry Tag → Prop) : Prop :=
  ∃ tags, query.run database = (.ok tags, database) ∧
    tags.values.Nodup ∧
    ∀ tag, tag ∈ tags.values ↔
      tag ∈ database.tags.entries ∧ wanted tag

/-- One of the two queries suggests the tag. -/
def Suggested (database : Database) (user : Nat) (shop : String)
    (tag : Entry Tag) : Prop :=
  ∃ tags, tag ∈ tags.values ∧
    ((getAllByUserNotOnCafe user shop).run database =
        (.ok tags, database) ∨
      (getAllByNotUserNotOnCafe user shop).run database =
        (.ok tags, database))

/-- The form next to a suggested tag. -/
def AppliesTag (request : Request) (user : Nat) (shop : String)
    (tag : Entry Tag) : Prop :=
  request.user = some user ∧
    request.get "entity_id" = .text shop ∧
    request.get "tag_id" = .text (toString tag.id)

/-- The queries are exact, and what they suggest can be applied. -/
structure SuggestsExactly (database : Database) (user : Nat)
    (shop : String) : Prop where
  onShop :
    ReturnsExactly database (getAllByUserOnCafe user shop)
      (HasTag database user shop)
  elsewhere :
    ReturnsExactly database (getAllByUserNotOnCafe user shop) fun tag =>
      (∃ other, other ≠ shop ∧ HasTag database user other tag) ∧
        ¬ HasTag database user shop tag
  byOthers :
    ReturnsExactly database (getAllByNotUserNotOnCafe user shop) fun tag =>
      (∃ author other, author ≠ user ∧ other ≠ shop ∧
          HasTag database author other tag) ∧
        ¬ HasTag database user shop tag
  applicable :
    ∀ tag request, Suggested database user shop tag →
      AppliesTag request user shop tag →
        ((applyTag request).run database).1 = .ok .back

/-! ## The loops -/

/-- The user already has a tag with this id. -/
def isAlreadyUsed (used : Collection (Entry Tag)) (tag : Entry Tag) : Bool :=
  used.values.any fun alreadyUsed => alreadyUsed.id = tag.id

theorem forget_forget (tags : Collection (Entry Tag)) (index : Nat) :
    Collection.forget (Collection.forget tags index) index =
      Collection.forget tags index := by
  simp [Collection.forget]

/-- Forgetting a tag several times is forgetting it once. -/
theorem forgetIfUsed_eq
    (used : Collection (Entry Tag)) (item : Nat × Entry Tag)
    (tags : Collection (Entry Tag)) :
    forgetIfUsed used item tags =
      if isAlreadyUsed used item.2 then Collection.forget tags item.1
      else tags := by
  unfold forgetIfUsed isAlreadyUsed
  generalize Collection.values used = usedTags
  induction usedTags generalizing tags with
  | nil => rfl
  | cons alreadyUsed rest inductionHypothesis =>
      rw [List.foldl_cons, inductionHypothesis, List.any_cons]
      by_cases same : alreadyUsed.id = item.2.id
      · simp [same, forget_forget]
      · simp [same]

/-- What is left after some items were walked. -/
theorem foldl_forgetIfUsed
    (used walked kept : Collection (Entry Tag)) :
    walked.foldl (fun kept item => forgetIfUsed used item kept) kept =
      kept.filter fun item =>
        walked.all fun other =>
          other.1 ≠ item.1 || !isAlreadyUsed used other.2 := by
  induction walked generalizing kept with
  | nil => simp
  | cons other rest inductionHypothesis =>
      rw [List.foldl_cons, inductionHypothesis, forgetIfUsed_eq]
      by_cases isOld : isAlreadyUsed used other.2 = true
      · rw [if_pos isOld, Collection.forget, List.filter_filter]
        apply List.filter_congr
        intro item _
        simp [isOld, Bool.and_comm, eq_comm]
      · simp [isOld]

/-- The loops leave the tags that are not used. -/
theorem values_forgetUsed
    (tags : List (Entry Tag)) (used : Collection (Entry Tag)) :
    (forgetUsed (.ofList tags) used).values =
      tags.filter fun tag => !isAlreadyUsed used tag := by
  have kept :
      forgetUsed (.ofList tags) used =
        (Collection.ofList tags).filter
          ((fun tag => !isAlreadyUsed used tag) ∘ Prod.snd) := by
    rw [forgetUsed, foldl_forgetIfUsed]
    apply List.filter_congr
    intro item member
    rw [Bool.eq_iff_iff, List.all_eq_true]
    constructor
    · intro all
      simpa using all item member
    · intro unused other otherMember
      by_cases same : other.1 = item.1
      · have equal := List.inj_on_of_nodup_map
          (Collection.ofList_indices_nodup tags) otherMember member same
        rw [equal]
        simpa using unused
      · simp [same]
  rw [kept, Collection.values, ← List.filter_map]
  exact congrArg _ (Collection.values_ofList tags)

/-! ## The queries on one database -/

section Queries

variable {database : Database} {user : Nat} {cafe : String}

/-- The tags that some rows name. -/
def namedTags (database : Database) (condition : EntityTag → Bool) :
    List (Entry Tag) :=
  database.tags.select fun tag =>
    (tag.id : Int) ∈
      (database.entityTag.select condition).map EntityTag.tagId

theorem namedTags_nodup (condition : EntityTag → Bool) :
    (namedTags database condition).Nodup :=
  database.tags.nodup.filter _

theorem mem_namedTags {condition : EntityTag → Bool} {tag : Entry Tag} :
    tag ∈ namedTags database condition ↔
      tag ∈ database.tags.entries ∧
        ∃ row ∈ database.entityTag.rows,
          condition row = true ∧ row.tagId = tag.id := by
  simp [namedTags, Table.mem_select, Keyed.select, and_assoc]

/-- The rows of a user on a shop. -/
def usedRow (user : Nat) (cafe : String) (row : EntityTag) : Bool :=
  row.entityId = cafe ∧ row.userId = user ∧ row.isReported = false

theorem getAllByUserOnCafe_run :
    (getAllByUserOnCafe user cafe).run database =
      (.ok (.ofList (namedTags database (usedRow user cafe))),
        database) := rfl

theorem suggestFrom_run (condition : EntityTag → Bool) :
    (suggestFrom condition user cafe).run database =
      (.ok (forgetUsed
          (.ofList (namedTags database condition))
          (.ofList (namedTags database (usedRow user cafe)))),
        database) := rfl

/-- The rows as the three requests leave them. -/
def AppliedRows (database : Database) : Prop :=
  ∀ row ∈ database.entityTag.rows,
    row.isReported = false ∧ row.tagId ≤ 2147483647

theorem mem_used (applied : AppliedRows database) {tag : Entry Tag} :
    tag ∈ namedTags database (usedRow user cafe) ↔
      tag ∈ database.tags.entries ∧ HasTag database user cafe tag := by
  rw [mem_namedTags]
  refine and_congr_right fun _ => ?_
  constructor
  · rintro ⟨row, member, used, named⟩
    obtain ⟨onCafe, byUser, -⟩ : row.entityId = cafe ∧
        row.userId = user ∧ row.isReported = false := by
      simpa [usedRow] using used
    exact ⟨row, member, byUser, onCafe, named⟩
  · rintro ⟨row, member, byUser, onCafe, named⟩
    have unreported := (applied row member).1
    exact ⟨row, member, by simp [usedRow, onCafe, byUser, unreported],
      named⟩

/-- A stored tag is used when the user has it on the shop. -/
theorem isAlreadyUsed_iff
    (applied : AppliedRows database) {tag : Entry Tag}
    (stored : tag ∈ database.tags.entries) :
    isAlreadyUsed (.ofList (namedTags database (usedRow user cafe)))
        tag = true ↔
      HasTag database user cafe tag := by
  rw [isAlreadyUsed, Collection.values_ofList, List.any_eq_true]
  constructor
  · rintro ⟨used, member, same⟩
    obtain ⟨usedStored, has⟩ := (mem_used applied).mp member
    rw [← Table.eq_of_id_eq usedStored stored (by simpa using same)]
    exact has
  · intro has
    exact ⟨tag, (mem_used applied).mpr ⟨stored, has⟩, by simp⟩

theorem getAllByUserOnCafe_exact (applied : AppliedRows database) :
    ReturnsExactly database (getAllByUserOnCafe user cafe)
      (HasTag database user cafe) := by
  refine ⟨_, getAllByUserOnCafe_run, ?_, fun tag => ?_⟩
  · rw [Collection.values_ofList]
    exact namedTags_nodup _
  · rw [Collection.values_ofList]
    exact mem_used applied

/-- A suggestion is what some rows name and the user does not have. -/
theorem suggestFrom_exact
    (applied : AppliedRows database) (condition : EntityTag → Bool) :
    ReturnsExactly database (suggestFrom condition user cafe) fun tag =>
      (∃ row ∈ database.entityTag.rows,
          condition row = true ∧ row.tagId = tag.id) ∧
        ¬ HasTag database user cafe tag := by
  refine ⟨_, suggestFrom_run condition, ?_, fun tag => ?_⟩
  · rw [values_forgetUsed]
    exact (namedTags_nodup condition).filter _
  · rw [values_forgetUsed, List.mem_filter, mem_namedTags, and_assoc]
    refine and_congr_right fun stored => and_congr_right fun _ => ?_
    rw [← isAlreadyUsed_iff applied stored]
    simp

theorem ReturnsExactly.congr
    {query : Handler (Collection (Entry Tag))}
    {wanted other : Entry Tag → Prop}
    (same : ∀ tag, wanted tag ↔ other tag)
    (returns : ReturnsExactly database query wanted) :
    ReturnsExactly database query other := by
  obtain ⟨tags, ran, once, members⟩ := returns
  refine ⟨tags, ran, once, fun tag => ?_⟩
  rw [members, same]

theorem getAllByUserNotOnCafe_exact (applied : AppliedRows database) :
    ReturnsExactly database (getAllByUserNotOnCafe user cafe) fun tag =>
      (∃ other, other ≠ cafe ∧ HasTag database user other tag) ∧
        ¬ HasTag database user cafe tag := by
  refine (suggestFrom_exact applied _).congr fun tag => ?_
  refine and_congr_left fun _ => ?_
  constructor
  · rintro ⟨row, member, isOther, named⟩
    obtain ⟨elsewhere, byUser⟩ : row.entityId ≠ cafe ∧
        row.userId = user := by simpa using isOther
    exact ⟨row.entityId, elsewhere, row, member, byUser, rfl, named⟩
  · rintro ⟨other, elsewhere, row, member, byUser, rfl, named⟩
    exact ⟨row, member, by simp [elsewhere, byUser], named⟩

theorem getAllByNotUserNotOnCafe_exact (applied : AppliedRows database) :
    ReturnsExactly database (getAllByNotUserNotOnCafe user cafe) fun tag =>
      (∃ author other, author ≠ user ∧ other ≠ cafe ∧
          HasTag database author other tag) ∧
        ¬ HasTag database user cafe tag := by
  refine (suggestFrom_exact applied _).congr fun tag => ?_
  refine and_congr_left fun _ => ?_
  constructor
  · rintro ⟨row, member, isOther, named⟩
    obtain ⟨elsewhere, byOther⟩ : row.entityId ≠ cafe ∧
        row.userId ≠ user := by simpa using isOther
    exact ⟨row.userId, row.entityId, byOther, elsewhere,
      row, member, rfl, rfl, named⟩
  · rintro ⟨author, other, byOther, elsewhere, row, member, rfl, rfl,
      named⟩
    exact ⟨row, member, by simp [elsewhere, byOther], named⟩

/-! ## Applying a suggested tag -/

/-- A suggested tag is named by a row, and the user does not have it. -/
theorem Suggested.row
    (applied : AppliedRows database) {tag : Entry Tag}
    (suggested : Suggested database user cafe tag) :
    (∃ row ∈ database.entityTag.rows, row.tagId = tag.id) ∧
      ¬ HasTag database user cafe tag := by
  obtain ⟨tags, member, condition, ran⟩ :
      ∃ tags : Collection (Entry Tag), tag ∈ tags.values ∧
        ∃ condition, (suggestFrom condition user cafe).run database =
          (.ok tags, database) := by
    obtain ⟨tags, member, ran | ran⟩ := suggested
    · exact ⟨tags, member, _, ran⟩
    · exact ⟨tags, member, _, ran⟩
  obtain ⟨returned, ranExact, -, members⟩ :=
    @suggestFrom_exact _ user cafe applied condition
  rw [ran] at ranExact
  cases ranExact
  obtain ⟨-, ⟨row, stored, -, named⟩, unused⟩ := (members tag).mp member
  exact ⟨⟨row, stored, named⟩, unused⟩

/-- The form of a suggested tag meets a free key. -/
theorem applyTag_suggested
    (applied : AppliedRows database) {tag : Entry Tag}
    (suggested : Suggested database user cafe tag) {request : Request}
    (form : AppliesTag request user cafe tag) :
    ((applyTag request).run database).1 = .ok .back := by
  obtain ⟨login, entity, posted⟩ := form
  obtain ⟨⟨row, stored, named⟩, unused⟩ := suggested.row applied
  have fits : (tag.id : Int) ≤ 2147483647 := by
    rw [← named]
    exact (applied row stored).2
  have inserted : (request.get "tag_id").insertInt = .ok (tag.id : Int) := by
    rw [posted, ← fitColumn_of_le fits, ← toColumn_toString]
    rfl
  have free : (cafe, (tag.id : Int), user) ∉
      database.entityTag.rows.map
        fun row => (row.entityId, row.tagId, row.userId) := by
    intro taken
    obtain ⟨other, otherStored, key⟩ := List.mem_map.mp taken
    obtain ⟨onCafe, isTag, byUser⟩ : other.entityId = cafe ∧
        other.tagId = tag.id ∧ other.userId = user := by simpa using key
    exact unused ⟨other, otherStored, byUser, onCafe, isTag⟩
  have stores := database.entityTag.insert_of_free
    ⟨cafe, tag.id, user, false⟩ free
  simp [applyTag, login, entity, inserted, saveEntityTag, stores]

theorem AppliedRows.suggestsExactly (applied : AppliedRows database)
    (user : Nat) (shop : String) :
    SuggestsExactly database user shop where
  onShop := getAllByUserOnCafe_exact applied
  elsewhere := getAllByUserNotOnCafe_exact applied
  byOthers := getAllByNotUserNotOnCafe_exact applied
  applicable := fun _ _ suggested form =>
    applyTag_suggested applied suggested form

end Queries

/-! ## Along a run -/

/-- The statements of a request keep the rows as they should be. -/
abbrev KeepsApplied (before after : Database) : Prop :=
  AppliedRows before → AppliedRows after

theorem saveEntityTag_keeps
    {row : EntityTag} (unreported : row.isReported = false)
    (fits : row.tagId ≤ 2147483647) :
    (saveEntityTag row).Within KeepsApplied := by
  refine .perform fun database applied => ?_
  cases inserted : database.entityTag.insert row with
  | none =>
      simp only
      exact applied
  | some table =>
      simp only
      intro stored member
      have rows := (Keyed.insert_eq_some inserted).2
      rw [rows] at member
      rcases List.mem_append.mp member with old | new
      · exact applied stored old
      · rw [List.mem_singleton.mp new]
        exact ⟨unreported, fits⟩

section Collations

variable [Collation]

theorem manualAdd_keeps (name : String) :
    (manualAdd name).Within KeepsApplied := by
  refine .bind (.query (fun _ => id) _) fun found => ?_
  cases found with
  | some tag => exact .pure _
  | none => exact .perform fun _ => id

theorem newTag_keeps (request : Request) :
    (newTag request).Within KeepsApplied := by
  refine .bind (.ofExcept _) fun trimmed => ?_
  split
  · exact .pure _
  · refine .bind (.ofExcept _) fun name => ?_
    refine .bind (manualAdd_keeps name) fun tag => ?_
    refine .bind (.require _ _) fun user => ?_
    refine .bind (.ofExcept _) fun entity => ?_
    refine .bind ?_ fun _ => .pure _
    exact saveEntityTag_keeps rfl (fitColumn_le _)

omit [Collation] in
theorem insertInt_le {input : Input} {value : Int}
    (inserted : input.insertInt = .ok value) : value ≤ 2147483647 := by
  cases text : input.insertText with
  | error failure =>
      rw [Input.insertInt, text] at inserted
      cases inserted
  | ok written =>
      rw [Input.insertInt, text] at inserted
      cases inserted
      exact toColumn_le written

omit [Collation] in
theorem applyTag_keeps (request : Request) :
    (applyTag request).Within KeepsApplied := by
  refine .bind (.require _ _) fun user => ?_
  refine .bind (.ofExcept _) fun entity => ?_
  cases inserted : (request.get "tag_id").insertInt with
  | error failure => exact trivial
  | ok tag =>
      have saved := @saveEntityTag_keeps ⟨entity, tag, user, false⟩ rfl
        (insertInt_le inserted)
      exact saved.bind fun _ => .pure Response.back

omit [Collation] in
theorem unapplyTag_keeps (request : Request) :
    (unapplyTag request).Within KeepsApplied := by
  refine .bind (.require _ _) fun user => ?_
  refine .bind (.ofExcept _) fun entity => ?_
  refine .bind (.ofExcept _) fun tag => ?_
  refine .bind (.execute fun database applied => ?_) fun _ => .pure _
  intro row member
  exact applied row (List.mem_of_mem_filter member)

theorem TagCall.keeps (call : TagCall) :
    (call.route.handle call.request).Within KeepsApplied := by
  obtain ⟨route, request⟩ := call
  cases route with
  | newTag => exact newTag_keeps request
  | applyTag => exact applyTag_keeps request
  | unapplyTag => exact unapplyTag_keeps request

/--
From an empty `entity_tag` table, along every interleaving of requests of any
users, the suggestions of every user for every shop are exact, and applying
one of them never meets a taken key.
-/
theorem suggestions_exact_along_runs
    {initial : Database} {history : List (Move TagCall)} {pool : TagPool}
    (untagged : initial.entityTag.rows = [])
    (run : Reaches tagStep Anything ⟨initial, []⟩ history pool)
    (user : Nat) (shop : String) :
    SuggestsExactly pool.state user shop := by
  have initially : AppliedRows initial := by
    intro row member
    rw [untagged] at member
    cases member
  have applied : AppliedRows pool.state :=
    processStep_invariant TagCall.keeps initially run
  exact applied.suggestsExactly user shop

end Collations

/-- User 1 tags the shop `a`. -/
def wifiTag : TagCall where
  route := .newTag
  request :=
    { user := some 1
      parameters := [("tag_name", .text "wifi"), ("entity_id", .text "a")] }

def wifiPool : TagPool where
  state := (@newTag caseBlind wifiTag.request).final .empty
  running := [(wifiTag, .done .back)]

/-- Then `wifi` is suggested to user 2 for the shop `b`, exactly. -/
theorem suggestions_exact_wifi :
    wifiPool.state.entityTag.rows = [⟨"a", 1, 1, false⟩] ∧
      Suggested wifiPool.state 2 "b" ⟨1, ⟨"wifi"⟩⟩ ∧
      SuggestsExactly wifiPool.state 2 "b" := by
  have replayed :
      replay (@tagStep caseBlind) ⟨.empty, []⟩
          [.arrive wifiTag, .advance 0, .advance 0, .advance 0] =
        some wifiPool := rfl
  refine ⟨by decide +kernel, ⟨_, by decide +kernel, Or.inr rfl⟩, ?_⟩
  exact @suggestions_exact_along_runs caseBlind .empty _ _ rfl
    (.of_replay replayed) 2 "b"

end NomadiCore.TagSuggestions
