import NomadiCore.TagSuggestions

/-!
# The tags of a shop

`shop/tag.blade.php` shows the tags that users gave to a shop, each with the
number of users who gave it and with the buttons the visitor may press.  The
relation `Entity::tags` has one tag for every row of `entity_tag`, in any
order, so `uniqueTags` has to drop the repetitions.
-/

namespace NomadiCore.TagChips

open NomadiCore.Library.DecimalNumeral
open NomadiCore.Library.InterleavedPool
open NomadiCore.Library.LabelledRun
open NomadiCore.Library.RowTable
open NomadiCore.Library.StatementProcess
open NomadiCore.Library.TextColumn
open NomadiCore.TagSuggestions

/-! ## The page -/

/-- `Entity::tags`: the join of the rows of the shop with the tags. -/
def tags (database : Database) (shop : String) : List (Entry Tag) :=
  (database.entityTag.select fun row => row.entityId = shop).flatMap
    fun row => database.tags.select fun tag => (tag.id : Int) = row.tagId

/-- One round of the loop of `uniqueTags`. -/
def pushNew (tags : List (Entry Tag)) (rawTag : Entry Tag) :
    List (Entry Tag) :=
  if tags.any fun tag => tag.id = rawTag.id then tags else tags ++ [rawTag]

def uniqueTags (rawTags : List (Entry Tag)) : List (Entry Tag) :=
  rawTags.foldl pushNew []

/-- The rows of a tag on a shop. -/
def onCafe (tag : Entry Tag) (shop : String) (row : EntityTag) : Bool :=
  row.tagId = tag.id && row.entityId = shop

def countOnCafe (database : Database) (tag : Entry Tag) (shop : String) :
    Nat :=
  (database.entityTag.select fun row =>
    onCafe tag shop row && !row.isReported).length

/-- The user has a row of the tag on the shop that meets a condition. -/
def hasRow (condition : EntityTag → Bool) (database : Database)
    (tag : Entry Tag) (user : Nat) (shop : String) : Bool :=
  (database.entityTag.select fun row =>
    onCafe tag shop row && row.userId = user && condition row).length > 0

def isUsed : Database → Entry Tag → Nat → String → Bool :=
  hasRow fun _ => true

def isApplied : Database → Entry Tag → Nat → String → Bool :=
  hasRow fun row => !row.isReported

def isReported : Database → Entry Tag → Nat → String → Bool :=
  hasRow fun row => row.isReported

inductive Button where
  | reportTag
  | applyTag
  | unapplyTag
  | unreportTag
deriving DecidableEq

/-- The buttons next to a tag. -/
def buttons (database : Database) (tag : Entry Tag) (user : Nat)
    (shop : String) : List Button :=
  if !isUsed database tag user shop then [.reportTag, .applyTag]
  else if isApplied database tag user shop then [.unapplyTag]
  else if isReported database tag user shop then [.unreportTag]
  else []

/--
The tags in the order of the page: the rows come in any order, and
`sortByDesc` leaves the order of equal counts open.
-/
def Shown (database : Database) (shop : String)
    (shown : List (Entry Tag)) : Prop :=
  ∃ rawTags, rawTags.Perm (tags database shop) ∧
    shown.Perm (uniqueTags rawTags) ∧
    shown.Pairwise fun first second =>
      countOnCafe database second shop ≤ countOnCafe database first shop

/-- A request leaves the tags of all users but for one. -/
def Leaves (handler : Handler Response) (database : Database)
    (has : Nat → String → Entry Tag → Prop) : Prop :=
  ∃ after, handler.run database = (.ok .back, after) ∧
    ∀ author other tag, HasTag after author other tag ↔
      has author other tag

/-- The page is exact, and its buttons do what they say. -/
structure ShowsExactly (database : Database) (user : Nat)
    (shop : String) (shown : List (Entry Tag)) : Prop where
  once : shown.Nodup
  tags : ∀ tag, tag ∈ shown ↔
    tag ∈ database.tags.entries ∧
      ∃ author, HasTag database author shop tag
  counted : ∀ tag, ∃ authors : List Nat, authors.Nodup ∧
    (∀ author, author ∈ authors ↔ HasTag database author shop tag) ∧
    countOnCafe database tag shop = authors.length
  given : ∀ tag ∈ shown, HasTag database user shop tag →
    buttons database tag user shop = [.unapplyTag] ∧
      ∀ request, AppliesTag request user shop tag →
        Leaves (unapplyTag request) database fun author other wanted =>
          HasTag database author other wanted ∧
            ¬ (author = user ∧ other = shop ∧ wanted.id = tag.id)
  notGiven : ∀ tag ∈ shown, ¬ HasTag database user shop tag →
    buttons database tag user shop = [.reportTag, .applyTag] ∧
      ∀ request, AppliesTag request user shop tag →
        Leaves (applyTag request) database fun author other wanted =>
          HasTag database author other wanted ∨
            (author = user ∧ other = shop ∧ wanted.id = tag.id)

/-! ## Repetitions -/

theorem mem_pushNew {tags : List (Entry Tag)} {rawTag : Entry Tag}
    (sameId : ∀ tag ∈ tags, tag.id = rawTag.id → tag = rawTag)
    (tag : Entry Tag) :
    tag ∈ pushNew tags rawTag ↔ tag ∈ tags ∨ tag = rawTag := by
  unfold pushNew
  split
  · rename_i found
    obtain ⟨old, member, same⟩ := List.any_eq_true.mp found
    have isRaw := sameId old member (by simpa using same)
    subst isRaw
    constructor
    · exact Or.inl
    · rintro (there | rfl)
      · exact there
      · exact member
  · simp

theorem nodup_pushNew {tags : List (Entry Tag)} (once : tags.Nodup)
    (rawTag : Entry Tag) : (pushNew tags rawTag).Nodup := by
  unfold pushNew
  split
  · exact once
  · rename_i notFound
    have absent : rawTag ∉ tags := by
      intro member
      exact notFound (List.any_eq_true.mpr ⟨rawTag, member, by simp⟩)
    exact List.nodup_append.mpr ⟨once, List.nodup_singleton rawTag, by
      intro first member second single
      rw [List.mem_singleton.mp single]
      rintro rfl
      exact absent member⟩

/-- The loop keeps every tag, once. -/
theorem foldl_pushNew {table : Table Tag} {rawTags kept : List (Entry Tag)}
    (stored : ∀ tag ∈ kept ++ rawTags, tag ∈ table.entries)
    (once : kept.Nodup) :
    (rawTags.foldl pushNew kept).Nodup ∧
      ∀ tag, tag ∈ rawTags.foldl pushNew kept ↔
        tag ∈ kept ∨ tag ∈ rawTags := by
  induction rawTags generalizing kept with
  | nil => exact ⟨once, by simp⟩
  | cons rawTag rest inductionHypothesis =>
      have isStored : rawTag ∈ table.entries := stored rawTag (by simp)
      have members := @mem_pushNew kept rawTag fun tag member same =>
        Table.eq_of_id_eq (stored tag (by simp [member])) isStored same
      have later := inductionHypothesis
        (fun tag member => by
          rcases List.mem_append.mp member with pushed | left
          · rcases (members tag).mp pushed with old | rfl
            · exact stored tag (by simp [old])
            · exact isStored
          · exact stored tag (by simp [left]))
        (nodup_pushNew once rawTag)
      refine ⟨later.1, fun tag => ?_⟩
      rw [List.foldl_cons, later.2, members, List.mem_cons, or_assoc]

section Page

variable {database : Database} {user : Nat} {shop : String}

theorem mem_tags {tag : Entry Tag} :
    tag ∈ tags database shop ↔
      tag ∈ database.tags.entries ∧
        ∃ author, HasTag database author shop tag := by
  simp only [tags, List.mem_flatMap, Keyed.select, List.mem_filter,
    decide_eq_true_eq, Table.mem_select, HasTag]
  constructor
  · rintro ⟨row, ⟨stored, onShop⟩, isTag, named⟩
    exact ⟨isTag, row.userId, row, stored, rfl, onShop, named.symm⟩
  · rintro ⟨isTag, author, row, stored, -, onShop, named⟩
    exact ⟨row, ⟨stored, onShop⟩, isTag, named.symm⟩

/-- The page has every tag of the shop once. -/
theorem mem_shown {shown : List (Entry Tag)}
    (isShown : Shown database shop shown) :
    shown.Nodup ∧
      ∀ tag, tag ∈ shown ↔
        tag ∈ database.tags.entries ∧
          ∃ author, HasTag database author shop tag := by
  obtain ⟨rawTags, order, sorted, -⟩ := isShown
  have unique := @foldl_pushNew database.tags rawTags []
    (fun tag member => (mem_tags.mp (order.mem_iff.mp member)).1)
    List.nodup_nil
  refine ⟨sorted.nodup_iff.mpr unique.1, fun tag => ?_⟩
  rw [sorted.mem_iff, uniqueTags, unique.2, order.mem_iff, mem_tags]
  simp

/-! ## Counts and buttons -/

theorem countOnCafe_authors (applied : AppliedRows database)
    (tag : Entry Tag) :
    ∃ authors : List Nat, authors.Nodup ∧
      (∀ author, author ∈ authors ↔ HasTag database author shop tag) ∧
      countOnCafe database tag shop = authors.length := by
  refine ⟨(database.entityTag.select fun row =>
    onCafe tag shop row && !row.isReported).map EntityTag.userId, ?_, ?_, ?_⟩
  · apply List.Nodup.map_on
    · intro first firstMember second secondMember same
      simp only [Keyed.select, onCafe, List.mem_filter, Bool.and_eq_true,
        decide_eq_true_eq] at firstMember secondMember
      obtain ⟨firstStored, ⟨firstTag, firstShop⟩, -⟩ := firstMember
      obtain ⟨secondStored, ⟨secondTag, secondShop⟩, -⟩ := secondMember
      apply Keyed.eq_of_key_eq firstStored secondStored
      simp [firstTag, firstShop, secondTag, secondShop, same]
    · exact (List.Nodup.of_map _ database.entityTag.distinct).filter _
  · intro author
    simp only [List.mem_map, Keyed.select, onCafe, List.mem_filter,
      Bool.and_eq_true, decide_eq_true_eq, HasTag]
    constructor
    · rintro ⟨row, ⟨stored, ⟨named, onShop⟩, -⟩, byAuthor⟩
      exact ⟨row, stored, byAuthor, onShop, named⟩
    · rintro ⟨row, stored, byAuthor, onShop, named⟩
      exact ⟨row, ⟨stored, ⟨named, onShop⟩,
        by simp [(applied row stored).1]⟩, byAuthor⟩
  · rw [List.length_map]
    rfl

/-- No row is reported, so every row of the user is found. -/
theorem hasRow_iff {condition : EntityTag → Bool} {tag : Entry Tag}
    (met : ∀ row ∈ database.entityTag.rows, condition row = true) :
    hasRow condition database tag user shop = true ↔
      HasTag database user shop tag := by
  simp only [hasRow, gt_iff_lt, decide_eq_true_eq, List.length_pos_iff_exists_mem,
    Keyed.select, onCafe, List.mem_filter, Bool.and_eq_true, HasTag]
  constructor
  · rintro ⟨row, stored, ⟨⟨named, onShop⟩, byUser⟩, -⟩
    exact ⟨row, stored, byUser, onShop, named⟩
  · rintro ⟨row, stored, byUser, onShop, named⟩
    exact ⟨row, stored, ⟨⟨named, onShop⟩, byUser⟩, met row stored⟩

theorem buttons_of_given (applied : AppliedRows database)
    {tag : Entry Tag} (given : HasTag database user shop tag) :
    buttons database tag user shop = [.unapplyTag] := by
  have used : isUsed database tag user shop = true :=
    (hasRow_iff fun _ _ => rfl).mpr given
  have isApplied : isApplied database tag user shop = true :=
    (hasRow_iff fun row stored => by simp [(applied row stored).1]).mpr given
  simp [buttons, used, isApplied]

theorem buttons_of_notGiven {tag : Entry Tag}
    (notGiven : ¬ HasTag database user shop tag) :
    buttons database tag user shop = [.reportTag, .applyTag] := by
  have unused : ¬ isUsed database tag user shop = true := fun used =>
    notGiven ((hasRow_iff fun _ _ => rfl).mp used)
  simp [buttons, unused]

/-! ## Pressing a button -/

/-- The rows that `unapplyTag` deletes for a posted tag. -/
def takenBack (user : Nat) (shop : String) (tag : Entry Tag)
    (row : EntityTag) : Bool :=
  equalsText (some shop) row.entityId &&
    equalsInt (some (toString tag.id)) row.tagId && row.userId = user

theorem takenBack_iff {tag : Entry Tag} (row : EntityTag) :
    takenBack user shop tag row = true ↔
      row.entityId = shop ∧ row.tagId = tag.id ∧ row.userId = user := by
  have isId : compared (toString tag.id) = ((tag.id : Int) : ℚ) :=
    compared_of_number (by rw [number_toString, Int.cast_natCast])
  simp only [takenBack, equalsText, equalsInt, isId,
    Bool.and_eq_true, decide_eq_true_eq, Option.some.injEq, and_assoc]
  constructor
  · rintro ⟨onShop, named, byUser⟩
    exact ⟨onShop.symm, by exact_mod_cast named.symm, byUser⟩
  · rintro ⟨onShop, named, byUser⟩
    exact ⟨onShop.symm, by rw [named], byUser⟩

theorem unapplyTag_leaves {tag : Entry Tag} {request : Request}
    (form : AppliesTag request user shop tag) :
    Leaves (unapplyTag request) database fun author other wanted =>
      HasTag database author other wanted ∧
        ¬ (author = user ∧ other = shop ∧ wanted.id = tag.id) := by
  obtain ⟨login, entity, posted⟩ := form
  refine ⟨{ database with
    entityTag := database.entityTag.delete (takenBack user shop tag) },
    ?_, ?_⟩
  · simp [unapplyTag, login, entity, posted, Input.whereValue]
    rfl
  · intro author other wanted
    constructor
    · rintro ⟨row, stored, byAuthor, onOther, named⟩
      obtain ⟨before, kept⟩ := List.mem_filter.mp stored
      refine ⟨⟨row, before, byAuthor, onOther, named⟩, ?_⟩
      rintro ⟨rfl, rfl, same⟩
      have gone : takenBack author other tag row = true :=
        (takenBack_iff row).mpr ⟨onOther, by rw [named, same], byAuthor⟩
      rw [gone] at kept
      cases kept
    · rintro ⟨⟨row, stored, byAuthor, onOther, named⟩, apart⟩
      refine ⟨row, List.mem_filter.mpr ⟨stored, ?_⟩, byAuthor, onOther,
        named⟩
      rw [Bool.not_eq_true', ← Bool.not_eq_true, takenBack_iff]
      rintro ⟨onShop, isTag, byUser⟩
      refine apart
        ⟨byAuthor.symm.trans byUser, onOther.symm.trans onShop, ?_⟩
      rw [named] at isTag
      exact_mod_cast isTag

theorem applyTag_leaves (applied : AppliedRows database) {tag : Entry Tag}
    (named : ∃ author, HasTag database author shop tag)
    (notGiven : ¬ HasTag database user shop tag) {request : Request}
    (form : AppliesTag request user shop tag) :
    Leaves (applyTag request) database fun author other wanted =>
      HasTag database author other wanted ∨
        (author = user ∧ other = shop ∧ wanted.id = tag.id) := by
  obtain ⟨login, entity, posted⟩ := form
  have fits : (tag.id : Int) ≤ 2147483647 := by
    obtain ⟨_, row, stored, -, -, isTag⟩ := named
    rw [← isTag]
    exact (applied row stored).2
  have inserted : (request.get "tag_id").insertInt = .ok (tag.id : Int) := by
    rw [posted, ← fitColumn_of_le fits, ← toColumn_toString]
    rfl
  have free : (shop, (tag.id : Int), user) ∉
      database.entityTag.rows.map
        fun row => (row.entityId, row.tagId, row.userId) := by
    intro taken
    obtain ⟨other, stored, key⟩ := List.mem_map.mp taken
    obtain ⟨onShop, isTag, byUser⟩ : other.entityId = shop ∧
        other.tagId = tag.id ∧ other.userId = user := by simpa using key
    exact notGiven ⟨other, stored, byUser, onShop, isTag⟩
  have stores := database.entityTag.insert_of_free
    ⟨shop, tag.id, user, false⟩ free
  refine ⟨{ database with
    entityTag :=
      database.entityTag.append ⟨shop, tag.id, user, false⟩ free },
    ?_, ?_⟩
  · simp [applyTag, login, entity, inserted, saveEntityTag, stores]
  · intro author other wanted
    simp only [HasTag, Keyed.append, List.mem_append, List.mem_singleton]
    constructor
    · rintro ⟨row, old | rfl, byAuthor, onOther, isTag⟩
      · exact Or.inl ⟨row, old, byAuthor, onOther, isTag⟩
      · have sameId : (tag.id : Int) = wanted.id := isTag
        exact Or.inr ⟨byAuthor.symm, onOther.symm, by omega⟩
    · rintro (⟨row, old, byAuthor, onOther, isTag⟩ | ⟨rfl, rfl, same⟩)
      · exact ⟨row, Or.inl old, byAuthor, onOther, isTag⟩
      · exact ⟨_, Or.inr rfl, rfl, rfl, by rw [same]⟩

theorem AppliedRows.showsExactly (applied : AppliedRows database)
    {shown : List (Entry Tag)} (isShown : Shown database shop shown) :
    ShowsExactly database user shop shown where
  once := (mem_shown isShown).1
  tags := (mem_shown isShown).2
  counted := countOnCafe_authors applied
  given := fun _ _ given =>
    ⟨buttons_of_given applied given, fun _ form => unapplyTag_leaves form⟩
  notGiven := fun tag member notGiven =>
    ⟨buttons_of_notGiven notGiven, fun _ form =>
      applyTag_leaves applied (((mem_shown isShown).2 tag).mp member).2
        notGiven form⟩

end Page

/-! ## Along a run -/

/--
From an empty `entity_tag` table, along every interleaving of requests of any
users, the page of every shop shows every visitor the tags that some user gave
to it, once each, with the number of those users, and the button that takes
the visitor's own tag back or gives it, and nothing else.
-/
theorem tag_chips_exact_along_runs [Collation]
    {initial : Database} {history : List (Move TagCall)} {pool : TagPool}
    (untagged : initial.entityTag.rows = [])
    (run : Reaches tagStep Anything ⟨initial, []⟩ history pool)
    (user : Nat) (shop : String) {shown : List (Entry Tag)}
    (isShown : Shown pool.state shop shown) :
    ShowsExactly pool.state user shop shown := by
  have initially : AppliedRows initial := by
    intro row member
    rw [untagged] at member
    cases member
  have applied : AppliedRows pool.state :=
    processStep_invariant TagCall.keeps initially run
  exact AppliedRows.showsExactly applied isShown

/-- User 2 tags the shop `a` with the same name, and with another one. -/
def tagAgain (name : String) : TagCall where
  route := .newTag
  request :=
    { user := some 2
      parameters := [("tag_name", .text name), ("entity_id", .text "a")] }

/-- The moves of three requests, the second tag of which is known by then. -/
def threeTags : List (Move TagCall) :=
  [.arrive wifiTag, .arrive (tagAgain "WIFI"), .arrive (tagAgain "quiet"),
    .advance 0, .advance 0, .advance 1, .advance 2, .advance 2, .advance 1,
    .advance 2, .advance 0]

def threeTagsPool : TagPool where
  state :=
    { Database.empty with
      tags := (Table.empty.insert ⟨"wifi"⟩).insert ⟨"quiet"⟩
      entityTag :=
        ⟨[⟨"a", 1, 2, false⟩, ⟨"a", 2, 2, false⟩, ⟨"a", 1, 1, false⟩],
          by decide⟩ }
  running :=
    [(wifiTag, .done .back), (tagAgain "WIFI", .done .back),
      (tagAgain "quiet", .done .back)]

/-- Both users see the tag of both first, and once. -/
theorem tag_chips_exact_two_users :
    (tags threeTagsPool.state "a").length = 3 ∧
      Shown threeTagsPool.state "a" [⟨1, ⟨"wifi"⟩⟩, ⟨2, ⟨"quiet"⟩⟩] ∧
      ShowsExactly threeTagsPool.state 1 "a"
        [⟨1, ⟨"wifi"⟩⟩, ⟨2, ⟨"quiet"⟩⟩] := by
  have replayed :
      replay (@tagStep caseBlind) ⟨.empty, []⟩ threeTags =
        some threeTagsPool := rfl
  have isShown : Shown threeTagsPool.state "a"
      [⟨1, ⟨"wifi"⟩⟩, ⟨2, ⟨"quiet"⟩⟩] :=
    ⟨tags threeTagsPool.state "a", .refl _, by decide +kernel,
      by decide +kernel⟩
  exact ⟨by decide +kernel, isShown,
    @tag_chips_exact_along_runs caseBlind .empty _ _ rfl
      (.of_replay replayed) 1 "a" _ isShown⟩

end NomadiCore.TagChips
