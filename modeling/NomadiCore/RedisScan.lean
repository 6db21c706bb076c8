import NomadiCore.RedisDictMap

/-!
# Scanning a dictionary

`dictScan` visits a dictionary step by step: the caller keeps a cursor between
the calls, and the dictionary may change and its tables may be resized in the
meantime.  The cursor counts from the highest bit, so that it has passed the
same hashes whatever the tables were.
-/

namespace NomadiCore.Redis

open NomadiCore.Library.ChainedTable
open NomadiCore.Library.ReverseCursor

variable {Key Value : Type}

/-! ## The cursor -/

/-- Blocks of `2 ^ steps` bits are swapped, then smaller ones. -/
def revLoop : Nat → Word → Word → Word
  | 0, _, v => v
  | steps + 1, outer, v =>
      let s := 2 ^ steps
      let inner := outer ^^^ (outer <<< s)
      revLoop steps inner
        (((v >>> s) &&& inner) ||| ((v <<< s) &&& ~~~inner))

def rev (v : Word) : Word := revLoop 6 (~~~0) v

/-- The reversed cursor is incremented on the bits of the mask. -/
def nextCursor (v sizemask : Word) : Word :=
  rev (rev (v ||| ~~~sizemask) + 1)

/-- The chain at a cursor. -/
def Dictht.bucket (ht : Dictht Key Value) (v : Word) :
    Option (List (DictEntry Key Value)) :=
  ht.table[(v &&& ht.sizemask).toNat]?

/-- The places of the larger table that belong to one of the smaller. -/
def scanLarger (t1 : Dictht Key Value) (m0 : Word) :
    Nat → Word → Option (List (DictEntry Key Value) × Word)
  | 0, _ => none
  | rounds + 1, v => do
      let emitted ← t1.bucket v
      let v := nextCursor v t1.sizemask
      if v &&& (m0 ^^^ t1.sizemask) = 0 then some (emitted, v)
      else
        let rest ← scanLarger t1 m0 rounds v
        some (emitted ++ rest.1, rest.2)

def scanTables (t0 t1 : Dictht Key Value) (v : Word) :
    Option (List (DictEntry Key Value) × Word) := do
  let emitted ← t0.bucket v
  let rest ← scanLarger t1 t0.sizemask t1.size v
  some (emitted ++ rest.1, rest.2)

/-- The entries that the callback gets, and the next cursor. -/
def dictScan (d : Dict Key Value) (v : Word) :
    Option (List (DictEntry Key Value) × Word) :=
  if dictSize d = 0 then some ([], 0)
  else if !dictIsRehashing d then do
    let emitted ← d.ht0.bucket v
    some (emitted, nextCursor v d.ht0.sizemask)
  else if d.ht0.size > d.ht1.size then scanTables d.ht1 d.ht0 v
  else scanTables d.ht0 d.ht1 v

/-! ## Reversing bits -/

/-- The mask of the indices that have the bit `steps` clear. -/
def IsSwapMask (steps : Nat) (outer : Word) : Prop :=
  ∀ index < 64, outer.getLsbD index = !(index.testBit steps)

theorem xor_two_pow {steps index : Nat} (bound : steps < 6)
    (inside : index < 64) :
    if index.testBit steps then
      2 ^ steps ≤ index ∧ index ^^^ 2 ^ steps = index - 2 ^ steps
    else index ^^^ 2 ^ steps = 2 ^ steps + index := by
  have all : ∀ steps < 6, ∀ index < 64,
      if index.testBit steps then
        2 ^ steps ≤ index ∧ index ^^^ 2 ^ steps = index - 2 ^ steps
      else index ^^^ 2 ^ steps = 2 ^ steps + index := by
    decide
  exact all steps bound index inside

/-- A mask splits into the mask of half the block. -/
theorem IsSwapMask.half {steps : Nat} (bound : steps < 6) {outer : Word}
    (isMask : IsSwapMask (steps + 1) outer) :
    IsSwapMask steps (outer ^^^ (outer <<< 2 ^ steps)) := by
  have all : ∀ steps < 6, ∀ index < 64,
      ((!(index.testBit (steps + 1))) ^^
        (!(decide (index < 2 ^ steps)) &&
          !((index - 2 ^ steps).testBit (steps + 1)))) =
        !(index.testBit steps) := by
    decide
  intro index inside
  rw [BitVec.getLsbD_xor, BitVec.getLsbD_shiftLeft, isMask index inside,
    isMask (index - 2 ^ steps) (Nat.lt_of_le_of_lt (Nat.sub_le _ _) inside),
    decide_eq_true inside,
    Bool.true_and]
  exact all steps bound index inside

theorem getLsbD_swap {steps index : Nat} (bound : steps < 6) {inner : Word}
    (isMask : IsSwapMask steps inner) (v : Word) (inside : index < 64) :
    (((v >>> 2 ^ steps) &&& inner) |||
        ((v <<< 2 ^ steps) &&& ~~~inner)).getLsbD index =
      v.getLsbD (index ^^^ 2 ^ steps) := by
  have swapped := xor_two_pow bound inside
  simp only [BitVec.getLsbD_or, BitVec.getLsbD_and, BitVec.getLsbD_not,
    BitVec.getLsbD_ushiftRight, BitVec.getLsbD_shiftLeft,
    isMask index inside, inside, decide_true, Bool.true_and]
  cases bit : index.testBit steps with
  | true =>
      rw [bit, if_pos rfl] at swapped
      have notLow : ¬ index < 2 ^ steps := by omega
      simp [swapped.2, notLow]
  | false =>
      rw [bit, if_neg (by decide)] at swapped
      simp [swapped]

theorem getLsbD_revLoop {steps index : Nat} (bound : steps ≤ 6)
    {outer : Word} (isMask : IsSwapMask steps outer) (v : Word)
    (inside : index < 64) :
    (revLoop steps outer v).getLsbD index =
      v.getLsbD (index ^^^ (2 ^ steps - 1)) := by
  induction steps generalizing outer v with
  | zero => simp [revLoop]
  | succ steps inductionHypothesis =>
      have small : ∀ steps < 6, ∀ index < 64,
          index ^^^ (2 ^ steps - 1) < 64 ∧
          index ^^^ (2 ^ steps - 1) ^^^ 2 ^ steps =
            index ^^^ (2 ^ (steps + 1) - 1) := by
        decide
      obtain ⟨within, joined⟩ := small steps (by omega) index inside
      have half := isMask.half (by omega)
      rw [revLoop, inductionHypothesis (by omega) half,
        getLsbD_swap (by omega) half v within, joined]

theorem rev_eq (v : Word) : rev v = v.reverse := by
  have all : IsSwapMask 6 (~~~(0 : Word)) := by
    unfold IsSwapMask
    decide
  have mirrored : ∀ index < 64, index ^^^ (2 ^ 6 - 1) = 64 - 1 - index := by
    decide
  apply BitVec.eq_of_getLsbD_eq
  intro index inside
  rw [rev, getLsbD_revLoop (by omega) all v inside, mirrored index inside,
    BitVec.getLsbD_reverse, BitVec.getMsbD_eq_getLsbD]
  simp [inside]

theorem nextCursor_eq (v : Word) (bits : Nat) :
    nextCursor v (mask 64 bits) = advance bits v := by
  rw [nextCursor, rev_eq, rev_eq]
  rfl

/-! ## What a scan passes -/

section Coverage

variable {type : DictType Key} {ht t0 t1 : Dictht Key Value}
  {bits less more : Nat} {v : Word}

/-- The entries whose hashes are in an interval of ranks. -/
def Covers (type : DictType Key)
    (entries emitted : List (DictEntry Key Value)) (least stop : Nat) :
    Prop :=
  ∀ entry ∈ entries, least ≤ rank (type.hashFunction entry.key) →
    rank (type.hashFunction entry.key) < stop → entry ∈ emitted

/-- The chain at a cursor has the entries up to the end of its place. -/
theorem TableValid.bucket (valid : TableValid type ht)
    (isMask : ht.sizemask = mask 64 bits) (bound : bits ≤ 63) (v : Word) :
    ∃ chain, ht.bucket v = some chain ∧
      Covers type ht.table.flatten chain (rank v) (stop bits v) ∧
      chain ⊆ ht.table.flatten := by
  obtain ⟨own, -, isBound, isSize, isOwn⟩ := valid.sized
  have inside : (v &&& ht.sizemask).toNat < ht.table.length := by
    rw [valid.length, isSize, isOwn]
    exact and_mask_lt v isBound
  have found := List.getElem?_eq_getElem inside
  refine ⟨_, found, ?_, ?_⟩
  · intro entry member least below
    have same : type.hashFunction entry.key &&& mask 64 bits =
        v &&& mask 64 bits :=
      and_mask_of_lt_stop (by omega) least below
    have isPlace : ht.index type entry.key =
        (v &&& ht.sizemask).toNat := by
      rw [Dictht.index, isMask, same]
    exact valid.placed.mem_chain member (by rw [isPlace]; exact found)
  · intro entry member
    exact List.mem_flatten.mpr ⟨_, List.getElem_mem inside, member⟩

theorem scanLarger_covers (valid : TableValid type t1)
    (isMask : t1.sizemask = mask 64 more) (bound : more ≤ 63)
    (order : less ≤ more) {rounds : Nat} {v : Word}
    (enough : stop less v ≤
      (rank v / block 64 more + rounds) * block 64 more) :
    ∃ emitted next,
      scanLarger t1 (mask 64 less) rounds v = some (emitted, next) ∧
      rank next = stop less v % 2 ^ 64 ∧
      Covers type t1.table.flatten emitted (rank v) (stop less v) ∧
      emitted ⊆ t1.table.flatten := by
  induction rounds generalizing v with
  | zero =>
      have ahead := lt_stop less v
      have floor := Nat.div_mul_le_self (rank v) (block 64 more)
      rw [Nat.add_zero] at enough
      omega
  | succ rounds inductionHypothesis =>
      obtain ⟨chain, isChain, covers, within⟩ := valid.bucket isMask bound v
      have isNext : nextCursor v t1.sizemask = advance more v := by
        rw [isMask, nextCursor_eq]
      have ranked := rank_advance (show more ≤ 64 by omega) v
      have ahead := lt_stop less v
      have shorter : stop more v ≤ stop less v :=
        stop_le_of_dvd
          (Nat.dvd_trans (block_dvd_block order) (block_dvd_stop less v))
          ahead
      have moreDvd : block 64 more ∣ 2 ^ 64 := Nat.pow_dvd_pow 2 (by omega)
      have lessDvd : block 64 less ∣ 2 ^ 64 := Nat.pow_dvd_pow 2 (by omega)
      have aligned : block 64 more ∣ rank (advance more v) := by
        rw [ranked, Nat.dvd_mod_iff moreDvd]
        exact block_dvd_stop more v
      have atPlace :
          advance more v &&& (mask 64 less ^^^ mask 64 more) = 0 ↔
            block 64 less ∣ rank (advance more v) :=
        and_xor_eq_zero_iff order (by omega) aligned
      rw [scanLarger, isChain, Option.bind_eq_bind, Option.bind_some]
      dsimp only
      rw [isNext, isMask]
      by_cases finished : block 64 less ∣ rank (advance more v)
      · -- The cursor is at the next place of the smaller table.
        have reached : stop less v = stop more v := by
          rw [ranked, Nat.dvd_mod_iff lessDvd] at finished
          exact Nat.le_antisymm
            (stop_le_of_dvd finished (lt_stop more v)) shorter
        rw [if_pos (atPlace.mpr finished)]
        refine ⟨chain, advance more v, rfl, ?_, ?_, within⟩
        · rw [ranked, reached]
        · rw [reached]
          exact covers
      · have nonzero : advance more v ≠ BitVec.ofNat 64 0 := by
          intro zero
          apply finished
          rw [zero, rank_zero]
          exact Nat.dvd_zero _
        have isRank := rank_advance_of_ne_zero (by omega) nonzero
        have below : rank (advance more v) < stop less v := by
          rw [isRank] at finished ⊢
          apply Nat.lt_of_le_of_ne shorter
          intro equal
          apply finished
          rw [equal]
          exact block_dvd_stop less v
        have later : rank v ≤ rank (advance more v) := by
          rw [isRank]
          exact Nat.le_of_lt (lt_stop more v)
        have sameStop : stop less (advance more v) = stop less v := by
          rw [stop, stop, rank_div_of_lt_stop later below]
        have remaining : stop less (advance more v) ≤
            (rank (advance more v) / block 64 more + rounds) *
              block 64 more := by
          have isExact : rank (advance more v) / block 64 more =
              rank v / block 64 more + 1 := by
            rw [isRank, stop, Nat.mul_div_cancel _ (block_pos 64 more)]
          rw [sameStop, isExact, Nat.add_assoc, Nat.add_comm 1]
          exact enough
        obtain ⟨rest, next, isRest, isLast, restCovers, restWithin⟩ :=
          inductionHypothesis remaining
        rw [if_neg fun zero => finished (atPlace.mp zero), isRest]
        refine ⟨chain ++ rest, next, rfl, ?_, ?_, ?_⟩
        · rw [isLast, sameStop]
        · intro entry member least isBelow
          by_cases here : rank (type.hashFunction entry.key) < stop more v
          · exact List.mem_append_left rest (covers entry member least here)
          · refine List.mem_append_right chain
              (restCovers entry member ?_ ?_)
            · rw [isRank]
              omega
            · rw [sameStop]
              exact isBelow
        · exact List.append_subset.mpr ⟨within, restWithin⟩

theorem scanTables_covers (first : TableValid type t0)
    (second : TableValid type t1) (order : t0.size ≤ t1.size) (v : Word) :
    ∃ emitted next bits,
      scanTables t0 t1 v = some (emitted, next) ∧ bits ≤ 63 ∧
      2 ^ bits = t0.size ∧ rank next = stop bits v % 2 ^ 64 ∧
      Covers type (t0.table.flatten ++ t1.table.flatten) emitted (rank v)
        (stop bits v) ∧
      emitted ⊆ t0.table.flatten ++ t1.table.flatten := by
  obtain ⟨less, -, lessBound, isLess, lessMask⟩ := first.sized
  obtain ⟨more, -, moreBound, isMore, moreMask⟩ := second.sized
  have smaller : less ≤ more := by
    rw [isLess, isMore] at order
    exact (Nat.pow_le_pow_iff_right (by decide)).mp order
  obtain ⟨chain, isChain, covers, within⟩ :=
    first.bucket lessMask lessBound v
  have enough : stop less v ≤
      (rank v / block 64 more + t1.size) * block 64 more := by
    rw [Nat.add_mul, isMore, block_mul (by omega)]
    exact Nat.le_trans (stop_le (by omega) v) (Nat.le_add_left _ _)
  obtain ⟨rest, next, isRest, isNext, restCovers, restWithin⟩ :=
    scanLarger_covers second moreMask moreBound smaller enough
  refine ⟨chain ++ rest, next, less, ?_, lessBound, isLess.symm, isNext, ?_,
    ?_⟩
  · rw [scanTables, isChain, lessMask, Option.bind_eq_bind,
      Option.bind_some, isRest]
    rfl
  · intro entry member least below
    rcases List.mem_append.mp member with inFirst | inSecond
    · exact List.mem_append_left rest (covers entry inFirst least below)
    · exact List.mem_append_right chain
        (restCovers entry inSecond least below)
  · intro entry member
    rcases List.mem_append.mp member with inChain | inRest
    · exact List.mem_append_left _ (within inChain)
    · exact List.mem_append_right _ (restWithin inRest)

/-- A scan passes every hash up to the end of a place of the first table. -/
theorem DictValid.dictScan {d : Dict Key Value} (valid : DictValid type d)
    (nonempty : dictEntries d ≠ []) (v : Word) :
    ∃ emitted next bits,
      dictScan d v = some (emitted, next) ∧ bits ≤ 63 ∧
      2 ^ bits ≤ d.ht0.size ∧ rank next = stop bits v % 2 ^ 64 ∧
      Covers type (dictEntries d) emitted (rank v) (stop bits v) ∧
      emitted ⊆ dictEntries d := by
  have first := valid.ht0_made nonempty
  have positive : dictSize d ≠ 0 := fun zero =>
    nonempty (valid.size_eq_zero_iff.mp zero)
  rw [Redis.dictScan, if_neg positive]
  cases isRehashing : d.rehashidx with
  | none =>
      obtain ⟨bits, -, bound, isSize, isMask⟩ := first.sized
      obtain ⟨chain, isChain, covers, within⟩ := first.bucket isMask bound v
      have isEntries : dictEntries d = d.ht0.table.flatten := by
        rw [dictEntries, valid.alone isRehashing]
        exact List.append_nil _
      refine ⟨chain, advance bits v, bits, ?_, bound,
        Nat.le_of_eq isSize.symm, rank_advance (by omega) v, ?_, ?_⟩
      · rw [dictIsRehashing, isRehashing, isChain, isMask, nextCursor_eq]
        rfl
      · rw [isEntries]
        exact covers
      · rw [isEntries]
        exact within
  | some rehashidx =>
      have second := (valid.rehashing isRehashing).1.second
      rw [dictIsRehashing, isRehashing]
      by_cases larger : d.ht0.size > d.ht1.size
      · obtain ⟨emitted, next, bits, isScan, bound, isSize, isNext, covers,
          within⟩ := scanTables_covers second first (by omega) v
        refine ⟨emitted, next, bits, ?_, bound, by omega, isNext, ?_, ?_⟩
        · rw [if_neg (by simp), if_pos larger, isScan]
        · intro entry member
          exact covers entry (List.perm_append_comm.mem_iff.mp member)
        · intro entry member
          exact List.perm_append_comm.mem_iff.mp (within member)
      · obtain ⟨emitted, next, bits, isScan, bound, isSize, isNext, covers,
          within⟩ := scanTables_covers first second (by omega) v
        refine ⟨emitted, next, bits, ?_, bound, by omega, isNext, covers,
          within⟩
        rw [if_neg (by simp), if_neg larger, isScan]

end Coverage

/-! ## Iterations -/

/-- What happens during an iteration: its next call, or something else. -/
inductive ScanEvent (Key Value : Type) where
  | op (event : DictEvent Key Value)
  | scan

/-- The caller calls again with the cursor it got, until that is zero. -/
structure Iteration (Key Value : Type) where
  dict : Dict Key Value
  cursor : Word := 0
  returned : List (DictEntry Key Value) := []
  complete : Bool := false

def Iteration.take (iteration : Iteration Key Value)
    (result : List (DictEntry Key Value) × Word) : Iteration Key Value where
  dict := iteration.dict
  cursor := result.2
  returned := iteration.returned ++ result.1
  complete := decide (result.2 = 0)

/-- The operations other than the calls of the iteration. -/
def otherEvents : List (ScanEvent Key Value) → List (DictEvent Key Value)
  | [] => []
  | .op event :: later => event :: otherEvents later
  | .scan :: later => otherEvents later

/-- An operation takes a key out. -/
def DictOp.removes (type : DictType Key) (key : Key) :
    DictOp Key Value → Bool
  | .delete other => type.keyCompare.same key other
  | .unlink other => type.keyCompare.same key other
  | .empty => true
  | _ => false

/-- An operation may give a key this value. -/
def DictOp.Puts (type : DictType Key) (key : Key) (val : Value) :
    DictOp Key Value → Prop
  | .add other new => type.keyCompare.same key other = true ∧ new = val
  | .replace other new => type.keyCompare.same key other = true ∧ new = val
  | _ => False

section Iterations

variable (type : DictType Key) (memory : Nat)

def iterationStep (iteration : Iteration Key Value) :
    ScanEvent Key Value → Option (Iteration Key Value)
  | .op event =>
      (dictStep type memory iteration.dict event).map fun result =>
        { iteration with dict := result.2 }
  | .scan =>
      if iteration.complete then some iteration
      else
        (dictScan iteration.dict iteration.cursor).map iteration.take

def iterationRun (iteration : Iteration Key Value) :
    List (ScanEvent Key Value) → Option (Iteration Key Value)
  | [] => some iteration
  | event :: later =>
      (iterationStep type memory iteration event).bind fun after =>
        iterationRun after later

end Iterations

section Runs

variable {type : DictType Key} {memory : Nat}
  {iteration after : Iteration Key Value} {map : PlainMap Key Value}
  {key : Key} {val : Value}

/-- A key stays unless an operation takes it out. -/
theorem plainStep_keeps {op : DictOp Key Value}
    {result : DictAnswer Value × PlainMap Key Value}
    (stepped : plainStep type memory map op = some result)
    (present : (map.lookup key).isSome = true)
    (kept : op.removes type key = false) :
    (result.2.lookup key).isSome = true := by
  have written {other : Key} {new : Value} {count : Nat} :
      ((map.write type other (some new) count).lookup key).isSome =
        true := by
    dsimp only [PlainMap.write]
    split
    · rfl
    · exact present
  have inserted {other : Key} {new : Value}
      {answer : DictAnswer Value}
      (isResult : (map.insert type memory other new).map
        (fun map => (answer, map)) = some result) :
      (result.2.lookup key).isSome = true := by
    obtain ⟨larger, isLarger, rfl⟩ := Option.map_eq_some_iff.mp isResult
    obtain ⟨rfl, -⟩ := PlainMap.eq_write_of_insert isLarger
    exact written
  have erased {other : Key}
      (different : type.keyCompare.same key other = false) :
      ((map.erase type other).lookup key).isSome = true := by
    rw [PlainMap.erase]
    split
    · dsimp only [PlainMap.write]
      rw [different]
      exact present
    · exact present
  cases op with
  | add other new =>
      rw [plainStep] at stepped
      split at stepped
      · cases stepped
        exact present
      · exact inserted stepped
  | replace other new =>
      rw [plainStep] at stepped
      split at stepped
      · cases stepped
        exact written
      · exact inserted stepped
  | delete other => cases stepped; exact erased kept
  | unlink other => cases stepped; exact erased kept
  | empty => cases kept
  | fetchValue other => cases stepped; exact present
  | size => cases stepped; exact present
  | rehash n => cases stepped; exact present
  | resize => cases stepped; exact present
  | startIterator => cases stepped; exact present
  | releaseIterator => cases stepped; exact present

/-- A value was there, or an operation put it. -/
theorem plainStep_origin {op : DictOp Key Value}
    {result : DictAnswer Value × PlainMap Key Value}
    (stepped : plainStep type memory map op = some result)
    (found : result.2.lookup key = some val) :
    map.lookup key = some val ∨ op.Puts type key val := by
  have written {other : Key} {new : Value} {count : Nat}
      (isFound : (map.write type other (some new) count).lookup key =
        some val) :
      map.lookup key = some val ∨
        type.keyCompare.same key other = true ∧ new = val := by
    dsimp only [PlainMap.write] at isFound
    split at isFound
    next isSame => exact Or.inr ⟨isSame, Option.some.inj isFound⟩
    · exact Or.inl isFound
  have inserted {other : Key} {new : Value}
      {answer : DictAnswer Value}
      (isResult : (map.insert type memory other new).map
        (fun map => (answer, map)) = some result) :
      map.lookup key = some val ∨
        type.keyCompare.same key other = true ∧ new = val := by
    obtain ⟨larger, isLarger, rfl⟩ := Option.map_eq_some_iff.mp isResult
    obtain ⟨rfl, -⟩ := PlainMap.eq_write_of_insert isLarger
    exact written found
  have erased {other : Key}
      (isFound : (map.erase type other).lookup key = some val) :
      map.lookup key = some val := by
    rw [PlainMap.erase] at isFound
    split at isFound
    · dsimp only [PlainMap.write] at isFound
      split at isFound
      · cases isFound
      · exact isFound
    · exact isFound
  cases op with
  | add other new =>
      rw [plainStep] at stepped
      split at stepped
      · cases stepped
        exact Or.inl found
      · exact inserted stepped
  | replace other new =>
      rw [plainStep] at stepped
      split at stepped
      · cases stepped
        exact written found
      · exact inserted stepped
  | delete other => cases stepped; exact Or.inl (erased found)
  | unlink other => cases stepped; exact Or.inl (erased found)
  | empty => cases stepped; cases found
  | fetchValue other => cases stepped; exact Or.inl found
  | size => cases stepped; exact Or.inl found
  | rehash n => cases stepped; exact Or.inl found
  | resize => cases stepped; exact Or.inl found
  | startIterator => cases stepped; exact Or.inl found
  | releaseIterator => cases stepped; exact Or.inl found

/-- What an iteration has returned, for a key that stays. -/
structure Passed (type : DictType Key) (key : Key)
    (iteration : Iteration Key Value) : Prop where
  present :
    ((plainOf type iteration.dict).lookup key).isSome = true
  returned : iteration.complete = true ∨
      rank (type.hashFunction key) < rank iteration.cursor →
    ∃ entry ∈ iteration.returned,
      type.keyCompare.same key entry.key = true

/-- Entries and what was returned have a value that was put. -/
structure Stems (type : DictType Key) (origin : Key → Value → Prop)
    (iteration : Iteration Key Value) : Prop where
  held : ∀ {key val},
    (plainOf type iteration.dict).lookup key = some val → origin key val
  returned : ∀ entry ∈ iteration.returned, origin entry.key entry.val

structure IterationValid (type : DictType Key) (memory : Nat)
    (iteration : Iteration Key Value) : Prop where
  valid : DictValid type iteration.dict
  fits : dictSize iteration.dict ≤ memory

/-- An iteration may start whenever a dictionary has been reached. -/
theorem IterationValid.start (room : memory ≤ 2 ^ 59)
    {before : List (DictEvent Key Value)}
    {start : List (DictAnswer Value) × Dict Key Value}
    (reached : dictRun type memory {} before = some start) :
    IterationValid type memory { dict := start.2 } := by
  obtain ⟨same, valid⟩ :=
    dictRun_agrees room (dictValid_empty type 0) (Nat.zero_le memory) before
  rw [reached] at same
  exact ⟨valid start reached,
    plainRun_count (Nat.zero_le memory) same.symm⟩

theorem IterationValid.op (room : memory ≤ 2 ^ 59)
    (isValid : IterationValid type memory iteration)
    {event : DictEvent Key Value}
    {result : DictAnswer Value × Dict Key Value}
    (stepped : dictStep type memory iteration.dict event = some result) :
    IterationValid type memory { iteration with dict := result.2 } ∧
      plainStep type memory (plainOf type iteration.dict) event.op =
        some (result.1, plainOf type result.2) := by
  obtain ⟨same, afterValid⟩ :=
    dictStep_agrees room isValid.valid isValid.fits event
  rw [stepped] at same
  refine ⟨⟨afterValid result stepped, ?_⟩, same.symm⟩
  exact @plainStep_count _ _ type memory (plainOf type iteration.dict)
    isValid.fits _ _ same.symm

/-- What one call does: it covers an interval of hashes, or there is nothing. -/
theorem IterationValid.scan (isValid : IterationValid type memory iteration)
    (running : iteration.complete = false) :
    ∃ after, iterationStep type memory iteration .scan = some after ∧
      after.dict = iteration.dict ∧
      (∀ entry ∈ after.returned, entry ∈ iteration.returned ∨
        entry ∈ dictEntries iteration.dict) ∧
      iteration.returned ⊆ after.returned ∧
      (dictEntries iteration.dict ≠ [] →
        Covers type (dictEntries iteration.dict) after.returned
          (rank iteration.cursor)
          (if after.complete then 2 ^ 64 else rank after.cursor)) := by
  by_cases isEmpty : dictEntries iteration.dict = []
  · have size := isValid.valid.size_eq_zero_iff.mpr isEmpty
    have taken : (iteration.take ([], 0)).returned = iteration.returned :=
      List.append_nil _
    refine ⟨iteration.take ([], 0),
      by rw [iterationStep, running, dictScan, if_pos size]; rfl,
      rfl, ?_, ?_, fun nonempty => absurd isEmpty nonempty⟩
    · intro entry member
      rw [taken] at member
      exact Or.inl member
    · rw [taken]
      exact List.Subset.refl _
  · obtain ⟨emitted, next, bits, isScan, bound, -, isNext, covers, within⟩ :=
      isValid.valid.dictScan isEmpty iteration.cursor
    refine ⟨iteration.take (emitted, next),
      by rw [iterationStep, running, isScan]; rfl, rfl, ?_, ?_, ?_⟩
    · intro entry member
      rcases List.mem_append.mp member with earlier | new
      · exact Or.inl earlier
      · exact Or.inr (within new)
    · exact List.subset_append_left _ _
    · intro nonempty entry member least below
      refine List.mem_append_right _ (covers entry member least ?_)
      have positive := lt_stop bits iteration.cursor
      have most := stop_le (show bits ≤ 64 by omega) iteration.cursor
      by_cases full : stop bits iteration.cursor = 2 ^ 64
      · rw [full]
        exact rank_lt _
      · rw [Nat.mod_eq_of_lt (by omega)] at isNext
        have nonzero : next ≠ 0 := by
          rintro rfl
          rw [show (0 : Word) = BitVec.ofNat 64 0 from rfl, rank_zero]
            at isNext
          omega
        have goesOn : (iteration.take (emitted, next)).complete = false :=
          decide_eq_false nonzero
        rw [goesOn, if_neg (by decide)] at below
        exact isNext ▸ below

theorem Passed.op (passed : Passed type key iteration)
    {event : DictEvent Key Value}
    {result : DictAnswer Value × Dict Key Value}
    (stepped :
      plainStep type memory (plainOf type iteration.dict) event.op =
        some (result.1, plainOf type result.2))
    (kept : event.op.removes type key = false) :
    Passed type key { iteration with dict := result.2 } where
  present := plainStep_keeps stepped passed.present kept
  returned := passed.returned

theorem Passed.scan (passed : Passed type key iteration)
    (isValid : IterationValid type memory iteration)
    (stepped : iterationStep type memory iteration .scan = some after) :
    Passed type key after := by
  cases running : iteration.complete with
  | true =>
      rw [iterationStep, running, if_pos rfl] at stepped
      cases stepped
      exact passed
  | false =>
      obtain ⟨next, isNext, sameDict, -, kept, covers⟩ :=
        isValid.scan running
      rw [stepped] at isNext
      cases isNext
      refine ⟨sameDict ▸ passed.present, ?_⟩
      intro whether
      obtain ⟨val, isVal⟩ := Option.isSome_iff_exists.mp passed.present
      obtain ⟨entry, member, isSame, -⟩ :=
        (lookup_eq_some_iff isValid.valid.distinct).mp isVal
      have sameHash := type.hash_congr isSame
      by_cases early : rank (type.hashFunction key) < rank iteration.cursor
      · obtain ⟨found, isFound, matched⟩ := passed.returned (Or.inr early)
        exact ⟨found, kept isFound, matched⟩
      · refine ⟨entry, ?_, isSame⟩
        apply covers (List.ne_nil_of_mem member) entry member
        · rw [← sameHash]
          omega
        · rw [← sameHash]
          split
          · exact rank_lt _
          next goesOn =>
            rcases whether with complete | below
            · exact absurd complete goesOn
            · exact below

theorem Stems.op {origin : Key → Value → Prop}
    (stems : Stems type origin iteration) {event : DictEvent Key Value}
    {result : DictAnswer Value × Dict Key Value}
    (stepped :
      plainStep type memory (plainOf type iteration.dict) event.op =
        some (result.1, plainOf type result.2))
    (put : ∀ key val, event.op.Puts type key val → origin key val) :
    Stems type origin { iteration with dict := result.2 } where
  held := by
    intro key val found
    rcases plainStep_origin stepped found with earlier | isPut
    · exact stems.held earlier
    · exact put key val isPut
  returned := stems.returned

theorem Stems.scan {origin : Key → Value → Prop}
    (stems : Stems type origin iteration)
    (isValid : IterationValid type memory iteration)
    (stepped : iterationStep type memory iteration .scan = some after) :
    Stems type origin after := by
  cases running : iteration.complete with
  | true =>
      rw [iterationStep, running, if_pos rfl] at stepped
      cases stepped
      exact stems
  | false =>
      obtain ⟨next, isNext, sameDict, within, -⟩ := isValid.scan running
      rw [stepped] at isNext
      cases isNext
      refine ⟨fun found => stems.held (sameDict ▸ found), ?_⟩
      intro entry member
      rcases within entry member with earlier | inDict
      · exact stems.returned entry earlier
      · apply stems.held
        exact (lookup_eq_some_iff isValid.valid.distinct).mpr
          ⟨entry, inDict, type.keyCompare.refl entry.key, rfl⟩

/-- The calls of an iteration leave the dictionary as it is. -/
theorem IterationValid.scan_dict
    (isValid : IterationValid type memory iteration) :
    ∃ after, iterationStep type memory iteration .scan = some after ∧
      after.dict = iteration.dict := by
  cases running : iteration.complete with
  | true =>
      refine ⟨iteration, ?_, rfl⟩
      rw [iterationStep, running, if_pos rfl]
  | false =>
      obtain ⟨after, isAfter, sameDict, -⟩ := isValid.scan running
      exact ⟨after, isAfter, sameDict⟩

theorem iterationRun_spec (room : memory ≤ 2 ^ 59)
    (isValid : IterationValid type memory iteration)
    {events : List (ScanEvent Key Value)}
    {result : List (DictAnswer Value) × Dict Key Value}
    (ran : dictRun type memory iteration.dict (otherEvents events) =
      some result) :
    ∃ final, iterationRun type memory iteration events = some final ∧
      final.dict = result.2 ∧
      (∀ key, Passed type key iteration →
        (∀ event ∈ otherEvents events,
          event.op.removes type key = false) →
        Passed type key final) ∧
      ∀ origin, Stems type origin iteration →
        (∀ event ∈ otherEvents events, ∀ key val,
          event.op.Puts type key val → origin key val) →
        Stems type origin final := by
  induction events generalizing iteration result with
  | nil =>
      cases ran
      exact ⟨iteration, rfl, rfl, fun _ passed _ => passed,
        fun _ stems _ => stems⟩
  | cons event later inductionHypothesis =>
      cases event with
      | op event =>
          obtain ⟨stepResult, stepped, rest⟩ :=
            Option.bind_eq_some_iff.mp ran
          obtain ⟨laterResult, laterRan, isResult⟩ :=
            Option.map_eq_some_iff.mp rest
          obtain ⟨afterValid, plainStepped⟩ := isValid.op room stepped
          obtain ⟨final, isFinal, isDict, passes, originates⟩ :=
            inductionHypothesis afterValid laterRan
          refine ⟨final, ?_, ?_, ?_, ?_⟩
          · rw [iterationRun, iterationStep, stepped]
            exact isFinal
          · rw [isDict, ← isResult]
          · intro key passed kept
            refine passes key (passed.op plainStepped ?_) ?_
            · exact kept event List.mem_cons_self
            · intro other member
              exact kept other (List.mem_cons_of_mem event member)
          · intro origin stems put
            refine originates origin (stems.op plainStepped ?_) ?_
            · exact put event List.mem_cons_self
            · intro other member
              exact put other (List.mem_cons_of_mem event member)
      | scan =>
          obtain ⟨after, stepped, sameDict⟩ := isValid.scan_dict
          have afterValid : IterationValid type memory after :=
            ⟨sameDict ▸ isValid.valid, sameDict ▸ isValid.fits⟩
          have laterRan : dictRun type memory after.dict
              (otherEvents later) = some result := by
            rw [sameDict]
            exact ran
          obtain ⟨final, isFinal, isDict, passes, originates⟩ :=
            inductionHypothesis afterValid laterRan
          refine ⟨final, ?_, isDict, ?_, ?_⟩
          · rw [iterationRun, stepped]
            exact isFinal
          · intro key passed kept
            exact passes key (passed.scan isValid stepped) kept
          · intro origin stems put
            exact originates origin (stems.scan isValid stepped) put

/--
An iteration that has come back to the cursor zero has returned every key that
was there from its start to its end, whatever the other operations did to the
dictionary and its tables between the calls; and it has returned no value that
was not there or put in the meantime.
-/
theorem scan_returns_kept_keys (type : DictType Key) {memory : Nat}
    (room : memory ≤ 2 ^ 59) {before : List (DictEvent Key Value)}
    {events : List (ScanEvent Key Value)}
    {start result : List (DictAnswer Value) × Dict Key Value}
    (reached : dictRun type memory {} before = some start)
    (ran : dictRun type memory start.2 (otherEvents events) =
      some result) :
    ∃ final,
      iterationRun type memory { dict := start.2 } events = some final ∧
      final.dict = result.2 ∧
      (final.complete = true → ∀ key,
        ((plainOf type start.2).lookup key).isSome = true →
        (∀ event ∈ otherEvents events,
          event.op.removes type key = false) →
        ∃ entry ∈ final.returned,
          type.keyCompare.same key entry.key = true) ∧
      ∀ entry ∈ final.returned,
        (plainOf type start.2).lookup entry.key = some entry.val ∨
        ∃ event ∈ otherEvents events,
          event.op.Puts type entry.key entry.val := by
  obtain ⟨final, isFinal, isDict, passes, originates⟩ :=
    @iterationRun_spec _ _ type memory { dict := start.2 } room
      (IterationValid.start room reached) events result ran
  refine ⟨final, isFinal, isDict, ?_, ?_⟩
  · intro complete key present kept
    have passed : Passed type key
        ({ dict := start.2 } : Iteration Key Value) := by
      refine ⟨present, ?_⟩
      intro whether
      rw [show (0 : Word) = BitVec.ofNat 64 0 from rfl, rank_zero] at whether
      rcases whether with impossible | impossible
      · cases impossible
      · omega
    exact (passes key passed kept).returned (Or.inl complete)
  · intro entry member
    have stems := originates
      (fun key val => (plainOf type start.2).lookup key = some val ∨
        ∃ event ∈ otherEvents events, event.op.Puts type key val)
      ⟨Or.inl, by intro entry impossible; cases impossible⟩
      (fun event member key val isPut => Or.inr ⟨event, member, isPut⟩)
    exact stems.returned entry member

end Runs

/-- Numbers that are their own hashes; the dictionary is being rehashed. -/
def numberStart : List (DictAnswer Nat) × Dict Nat Nat :=
  (dictRun (exactDictType (BitVec.ofNat 64)) 1000 {}
    ((List.range 5).map fun key => ⟨true, .add key key⟩)).get (by decide)

/-- Between the calls keys come and go, and the rehashing goes on. -/
def numberScans : List (ScanEvent Nat Nat) :=
  [.scan, .op ⟨true, .delete 1⟩, .scan, .op ⟨true, .add 9 90⟩, .scan,
    .op ⟨true, .rehash 100⟩, .scan, .scan, .scan, .scan, .scan]

theorem numberStart_reached :
    dictRun (exactDictType (BitVec.ofNat 64)) 1000 {}
      ((List.range 5).map fun key => ⟨true, .add key key⟩) =
        some numberStart :=
  (Option.some_get _).symm

theorem numberScans_ran :
    ∃ result,
      dictRun (exactDictType (BitVec.ofNat 64)) 1000 numberStart.2
        (otherEvents numberScans) = some result :=
  Option.isSome_iff_exists.mp (by decide)

theorem scan_returns_kept_keys_numbers :
    ∃ final,
      iterationRun (exactDictType (BitVec.ofNat 64)) 1000
        { dict := numberStart.2 } numberScans = some final ∧
      final.complete = true ∧ ∃ entry ∈ final.returned, entry.key = 3 := by
  obtain ⟨result, ran⟩ := numberScans_ran
  obtain ⟨final, isFinal, -, returns, -⟩ :=
    scan_returns_kept_keys (exactDictType (BitVec.ofNat 64))
      (show 1000 ≤ 2 ^ 59 by decide) numberStart_reached ran
  have complete : final.complete = true := by
    have shown : (iterationRun (exactDictType (BitVec.ofNat 64)) 1000
        { dict := numberStart.2 } numberScans).map (·.complete) =
          some true := by
      decide
    rw [isFinal] at shown
    exact Option.some.inj shown
  obtain ⟨entry, member, isSame⟩ := returns complete 3 (by decide) (by decide)
  exact ⟨final, isFinal, complete, entry, member, (eq_of_beq isSame).symm⟩

/-! ## How many calls an iteration takes -/

/-- The calls of an iteration. -/
def calls : List (ScanEvent Key Value) → Nat
  | [] => 0
  | .op _ :: later => calls later
  | .scan :: later => calls later + 1

section Progress

variable {type : DictType Key} {memory bits done : Nat}
  {iteration after : Iteration Key Value}

/-- An iteration that is over, or has passed a place with each call. -/
def Progress (bits done : Nat) (iteration : Iteration Key Value) : Prop :=
  iteration.complete = true ∨
    block 64 bits ∣ rank iteration.cursor ∧
      done * block 64 bits ≤ rank iteration.cursor

theorem IterationValid.progress
    (isValid : IterationValid type memory iteration)
    (small : iteration.dict.ht0.size ≤ 2 ^ bits)
    (progress : Progress bits done iteration)
    (stepped : iterationStep type memory iteration .scan = some after) :
    Progress bits (done + 1) after := by
  cases running : iteration.complete with
  | true =>
      rw [iterationStep, running, if_pos rfl] at stepped
      cases stepped
      exact Or.inl running
  | false =>
      obtain ⟨aligned, passed⟩ : block 64 bits ∣ rank iteration.cursor ∧
          done * block 64 bits ≤ rank iteration.cursor := by
        rcases progress with complete | passing
        · rw [running] at complete
          cases complete
        · exact passing
      by_cases isEmpty : dictEntries iteration.dict = []
      · have size := isValid.valid.size_eq_zero_iff.mpr isEmpty
        rw [iterationStep, running, dictScan, if_pos size] at stepped
        cases stepped
        exact Or.inl rfl
      · obtain ⟨emitted, next, own, isScan, bound, isSize, isNext, -⟩ :=
          isValid.valid.dictScan isEmpty iteration.cursor
        rw [iterationStep, running, isScan] at stepped
        cases stepped
        by_cases zero : next = 0
        · exact Or.inl (decide_eq_true zero)
        · have order : own ≤ bits :=
            (Nat.pow_le_pow_iff_right (by decide)).mp
              (Nat.le_trans isSize small)
          have isStop : rank next = stop own iteration.cursor := by
            have most := stop_le (show own ≤ 64 by omega) iteration.cursor
            by_cases full : stop own iteration.cursor = 2 ^ 64
            · rw [full, Nat.mod_self] at isNext
              exact absurd (rank_eq_zero_iff.mp isNext) zero
            · rw [isNext, Nat.mod_eq_of_lt (by omega)]
          have alignedStop : block 64 bits ∣ stop own iteration.cursor :=
            Nat.dvd_trans (block_dvd_block order) (block_dvd_stop own _)
          refine Or.inr ⟨?_, ?_⟩
          · rw [show (iteration.take (emitted, next)).cursor = next from rfl,
              isStop]
            exact alignedStop
          · rw [show (iteration.take (emitted, next)).cursor = next from rfl,
              isStop, Nat.add_mul, Nat.one_mul]
            have ahead := lt_stop own iteration.cursor
            have apart : block 64 bits ≤
                stop own iteration.cursor - rank iteration.cursor :=
              Nat.le_of_dvd (by omega)
                (Nat.dvd_sub alignedStop aligned)
            omega

/-- No table that the operations pass is larger. -/
def StaysSmall (type : DictType Key) (memory bits : Nat)
    (d : Dict Key Value) (events : List (DictEvent Key Value)) : Prop :=
  ∀ earlier later middle, events = earlier ++ later →
    dictRun type memory d earlier = some middle →
    middle.2.ht0.size ≤ 2 ^ bits

theorem StaysSmall.start {d : Dict Key Value}
    {events : List (DictEvent Key Value)}
    (small : StaysSmall type memory bits d events) :
    d.ht0.size ≤ 2 ^ bits :=
  small [] events ([], d) rfl rfl

theorem StaysSmall.step {d : Dict Key Value} {event : DictEvent Key Value}
    {events : List (DictEvent Key Value)}
    {result : DictAnswer Value × Dict Key Value}
    (small : StaysSmall type memory bits d (event :: events))
    (stepped : dictStep type memory d event = some result) :
    StaysSmall type memory bits result.2 events := by
  intro earlier later middle isSplit ran
  have whole : dictRun type memory d (event :: earlier) =
      some (result.1 :: middle.1, middle.2) := by
    rw [dictRun, stepped, Option.bind_some, ran]
    rfl
  have bounded :=
    small (event :: earlier) later _ (by rw [isSplit]; rfl) whole
  exact bounded

theorem iterationRun_progress (room : memory ≤ 2 ^ 59)
    (isValid : IterationValid type memory iteration)
    {events : List (ScanEvent Key Value)}
    {result : List (DictAnswer Value) × Dict Key Value}
    (ran : dictRun type memory iteration.dict (otherEvents events) =
      some result)
    (small : StaysSmall type memory bits iteration.dict
      (otherEvents events))
    (progress : Progress bits done iteration) :
    ∃ final, iterationRun type memory iteration events = some final ∧
      Progress bits (done + calls events) final := by
  induction events generalizing iteration result done with
  | nil => exact ⟨iteration, rfl, progress⟩
  | cons event later inductionHypothesis =>
      cases event with
      | op event =>
          obtain ⟨stepResult, stepped, rest⟩ :=
            Option.bind_eq_some_iff.mp ran
          obtain ⟨laterResult, laterRan, -⟩ :=
            Option.map_eq_some_iff.mp rest
          obtain ⟨afterValid, -⟩ := isValid.op room stepped
          obtain ⟨final, isFinal, isProgress⟩ :=
            inductionHypothesis afterValid laterRan (small.step stepped)
              progress
          refine ⟨final, ?_, isProgress⟩
          rw [iterationRun, iterationStep, stepped]
          exact isFinal
      | scan =>
          obtain ⟨after, stepped, sameDict⟩ := isValid.scan_dict
          have afterValid : IterationValid type memory after :=
            ⟨sameDict ▸ isValid.valid, sameDict ▸ isValid.fits⟩
          have isProgress :=
            isValid.progress small.start progress stepped
          obtain ⟨final, isFinal, finalProgress⟩ :=
            inductionHypothesis afterValid (by rw [sameDict]; exact ran)
              (by rw [sameDict]; exact small) isProgress
          refine ⟨final, ?_, ?_⟩
          · rw [iterationRun, stepped]
            exact isFinal
          · rw [calls, Nat.add_comm (calls later), ← Nat.add_assoc]
            exact finalProgress

/--
An iteration takes no more calls than the first table has had places, whatever
happens between the calls.
-/
theorem scan_comes_to_end (type : DictType Key) {memory : Nat}
    (room : memory ≤ 2 ^ 59) {before : List (DictEvent Key Value)}
    {events : List (ScanEvent Key Value)}
    {start result : List (DictAnswer Value) × Dict Key Value}
    (reached : dictRun type memory {} before = some start)
    (ran : dictRun type memory start.2 (otherEvents events) =
      some result)
    {bits : Nat}
    (small : StaysSmall type memory bits start.2 (otherEvents events))
    (enough : 2 ^ bits ≤ calls events) :
    ∃ final,
      iterationRun type memory { dict := start.2 } events = some final ∧
      final.complete = true := by
  have isStart : Progress bits 0
      ({ dict := start.2 } : Iteration Key Value) :=
    Or.inr ⟨by rw [show (0 : Word) = BitVec.ofNat 64 0 from rfl, rank_zero];
               exact Nat.dvd_zero _, by rw [Nat.zero_mul]; exact Nat.zero_le _⟩
  obtain ⟨final, isFinal, progress⟩ :=
    @iterationRun_progress _ _ type memory bits 0 { dict := start.2 } room
      (IterationValid.start room reached) events result ran small isStart
  refine ⟨final, isFinal, ?_⟩
  rcases progress with complete | ⟨-, passed⟩
  · exact complete
  · have most := rank_lt final.cursor
    rw [Nat.zero_add] at passed
    have full : 2 ^ 64 ≤ calls events * block 64 bits := by
      calc
        2 ^ 64 ≤ 2 ^ bits * block 64 bits := by
          rw [block, ← Nat.pow_add]
          exact Nat.pow_le_pow_right (by decide) (by omega)
        _ ≤ calls events * block 64 bits := Nat.mul_le_mul_right _ enough
    omega

end Progress

/-- The eight calls suffice, as the first table has at most eight places. -/
theorem scan_comes_to_end_numbers :
    ∃ final,
      iterationRun (exactDictType (BitVec.ofNat 64)) 1000
        { dict := numberStart.2 } numberScans = some final ∧
      final.complete = true := by
  obtain ⟨result, ran⟩ := numberScans_ran
  have all : ∀ count < 4,
      (dictRun (exactDictType (BitVec.ofNat 64)) 1000 numberStart.2
        ((otherEvents numberScans).take count)).all
          (fun middle => decide (middle.2.ht0.size ≤ 2 ^ 3)) = true := by
    decide
  refine scan_comes_to_end (exactDictType (BitVec.ofNat 64))
    (show 1000 ≤ 2 ^ 59 by decide) numberStart_reached ran ?_
    (show 2 ^ 3 ≤ calls numberScans by decide)
  intro earlier later middle isSplit isMiddle
  have length := congrArg List.length isSplit
  rw [List.length_append] at length
  have few : earlier.length < 4 := by
    have three : (otherEvents numberScans).length = 3 := by decide
    omega
  have isTake : (otherEvents numberScans).take earlier.length = earlier := by
    rw [isSplit, List.take_left]
  have bounded := all earlier.length few
  rw [isTake, isMiddle] at bounded
  exact of_decide_eq_true bounded

end NomadiCore.Redis
