import Mathlib.Algebra.Order.Ring.Rat
import NomadiCore.Library.BinaryFloat

/-!
# Marker tiers of the map page

The map page walks the shops in rank order and files each one under the
twentieth of the ranking it falls into; the marker icon is chosen by that
number.  `pic_no` is one variable of the page: where no bucket matches, the
shop gets what the shop before it got.

The script computes on doubles.  The number of shops and the index are whole
numbers that doubles represent; the bounds of the buckets are rounded.
-/

namespace NomadiCore.MapMarkers

open NomadiCore.Library.BinaryFloat

variable {Cafe : Type}

/-- `var m`, the number of buckets. -/
def m : Nat := 20

/-- `(ay_len/m)*j`: both operations round. -/
def bound (ayLen j : Nat) : ℚ :=
  toDouble (toDouble (ayLen / m) * j)

/-- The test of bucket `j`: both of its bounds are left out. -/
def inBucket (ayLen i j : Nat) : Prop :=
  bound ayLen j < i ∧ i < bound ayLen (j + 1)

instance (ayLen i j : Nat) : Decidable (inBucket ayLen i j) :=
  inferInstanceAs (Decidable (_ ∧ _))

/-- The inner loop over the buckets `js`, which breaks at the first match. -/
def bucketLoop (ayLen i picNo : Nat) : List Nat → Nat
  | [] => picNo
  | j :: js =>
      if inBucket ayLen i j then j else bucketLoop ayLen i picNo js

/-- The `pic_no` after the inner loop for shop `i`. -/
def nextPicNo (ayLen i picNo : Nat) : Nat :=
  bucketLoop ayLen i picNo (List.range m)

/-- The `@foreach` over the shops from index `i` on. -/
def pushLoop (ayLen : Nat) : Nat → Nat → List Cafe → List (Nat × Cafe)
  | _, _, [] => []
  | i, picNo, cafe :: cafes =>
      (nextPicNo ayLen i picNo, cafe) ::
        pushLoop ayLen (i + 1) (nextPicNo ayLen i picNo) cafes

/-- What the page pushes: every shop with its `pic_no`. -/
def pushCafes (cafes : List Cafe) : List (Nat × Cafe) :=
  pushLoop cafes.length 0 0 cafes

/-- The icon of a marker. -/
def markerIcon (picNo : Nat) : String :=
  if picNo < 1 then "/img/markers/star.png"
  else if picNo < 3 then "/img/pe/1.png"
  else if picNo < 7 then "/img/pe/2.png"
  else if picNo < 11 then "/img/pe/3.png"
  else if picNo < 15 then "/img/pe/4.png"
  else if picNo < 19 then "/img/pe/5.png"
  else "/img/pe/6.png"

theorem markerIcon_eq_star (picNo : Nat) :
    markerIcon picNo = "/img/markers/star.png" ↔ picNo < 1 := by
  constructor
  · intro star
    by_contra high
    simp only [markerIcon, high, if_false] at star
    revert star
    split_ifs <;> decide
  · intro low
    simp [markerIcon, low]

/-! ## Bounds -/

/-- The number of shops is far from what doubles cannot count. -/
def ExactCount (ayLen : Nat) : Prop := ayLen ≤ 2 ^ 46

instance (ayLen : Nat) : Decidable (ExactCount ayLen) :=
  inferInstanceAs (Decidable (_ ≤ _))

@[simp]
theorem bound_zero (ayLen : Nat) : bound ayLen 0 = 0 := by
  simp [bound]

/-- A rounded bound is less than a twentieth of a shop off. -/
theorem bound_near
    {ayLen j : Nat} (counted : ExactCount ayLen) (low : j ≤ 20) :
    |bound ayLen j - ayLen * j / 20| < 1 / 20 := by
  rcases Nat.eq_zero_or_pos j with rfl | bucket
  · simp
  rcases Nat.eq_zero_or_pos ayLen with rfl | shops
  · simp [bound]
  have few : (ayLen : ℚ) ≤ 2 ^ 46 := by exact_mod_cast counted
  have some : (1 : ℚ) ≤ ayLen := by exact_mod_cast shops
  have first : (1 : ℚ) ≤ j := by exact_mod_cast bucket
  have last : (j : ℚ) ≤ 20 := by exact_mod_cast low
  have tiny := smallestNormal_le
  have quotient : (0 : ℚ) ≤ ayLen / m := by positivity
  have step := @abs_toDouble_sub_le ((ayLen : ℚ) / m) (by
    rw [abs_of_nonneg quotient, m]
    push_cast
    linarith)
  rw [abs_of_nonneg quotient, abs_le] at step
  obtain ⟨stepLow, stepHigh⟩ := step
  rw [m] at stepLow stepHigh
  push_cast at stepLow stepHigh
  -- the rounded quotient, times the number of the bucket
  have below : toDouble (ayLen / 20) * j ≤ ayLen * j / 20 * (1 + 1 / 2 ^ 53) := by
    nlinarith
  have above : ayLen * j / 20 * (1 - 1 / 2 ^ 53) ≤ toDouble (ayLen / 20) * j := by
    nlinarith
  have size : (ayLen : ℚ) * j ≤ 2 ^ 46 * 20 := by nlinarith
  have large : (1 : ℚ) ≤ ayLen * j := by nlinarith
  have positive : 0 ≤ toDouble (ayLen / 20) * j := by
    refine le_trans ?_ above
    positivity
  have product := @abs_toDouble_sub_le (toDouble ((ayLen : ℚ) / 20) * j) (by
    rw [abs_of_nonneg positive]
    linarith)
  rw [abs_of_nonneg positive, abs_le] at product
  obtain ⟨productLow, productHigh⟩ := product
  rw [bound, m, abs_lt]
  push_cast
  constructor <;> linarith

/-- A shop above the exact bound is above the rounded one. -/
theorem bound_lt
    {ayLen i j : Nat} (counted : ExactCount ayLen) (low : j ≤ 20)
    (above : ayLen * j < 20 * i) : bound ayLen j < i := by
  have near := (abs_lt.mp (bound_near counted low)).2
  have gap : (ayLen * j : ℚ) + 1 ≤ 20 * i := by exact_mod_cast above
  linarith

theorem lt_bound
    {ayLen i j : Nat} (counted : ExactCount ayLen) (low : j ≤ 20)
    (below : 20 * i < ayLen * j) : i < bound ayLen j := by
  have near := (abs_lt.mp (bound_near counted low)).1
  have gap : (20 * i : ℚ) + 1 ≤ ayLen * j := by exact_mod_cast below
  linarith

/-! ## One shop -/

/-- The twentieth of the ranking that shop `i` falls into. -/
def twentieth (ayLen i : Nat) : Nat := 20 * i / ayLen

/-- The shop lies on a bound whose rounding does not leave it above. -/
def OnBound (ayLen i : Nat) : Prop :=
  ayLen ∣ 20 * i ∧ ¬ bound ayLen (twentieth ayLen i) < i

instance (ayLen i : Nat) : Decidable (OnBound ayLen i) :=
  inferInstanceAs (Decidable (_ ∧ _))

theorem twentieth_lt {ayLen i : Nat} (below : i < ayLen) :
    twentieth ayLen i < 20 := by
  apply Nat.div_lt_of_lt_mul
  omega

theorem twentieth_mul_le (ayLen i : Nat) :
    ayLen * twentieth ayLen i ≤ 20 * i :=
  Nat.mul_div_le (20 * i) ayLen

theorem lt_twentieth_succ_mul {ayLen i : Nat} (below : i < ayLen) :
    20 * i < ayLen * (twentieth ayLen i + 1) :=
  Nat.lt_mul_div_succ (20 * i) (by omega)

/-- A match is the twentieth, or the one before it on a bound. -/
theorem eq_of_inBucket
    {ayLen i j : Nat} (counted : ExactCount ayLen) (below : i < ayLen)
    (bucket : j < 20) (found : inBucket ayLen i j) :
    j = twentieth ayLen i ∨
      j + 1 = twentieth ayLen i ∧ OnBound ayLen i := by
  obtain ⟨low, high⟩ := found
  have notAbove : ¬ 20 * i < ayLen * j := fun short =>
    absurd low (lt_bound counted (by omega) short).not_gt
  have notBelow : ¬ ayLen * (j + 1) < 20 * i := fun long =>
    absurd high (bound_lt counted (by omega) long).not_gt
  have atMost : j ≤ twentieth ayLen i := by
    apply (Nat.le_div_iff_mul_le (by omega)).mpr
    rw [mul_comm]
    omega
  have atLeast : twentieth ayLen i ≤ j + 1 := by
    by_contra far
    have more : ayLen * (j + 1) < ayLen * twentieth ayLen i :=
      Nat.mul_lt_mul_of_pos_left (by omega) (by omega)
    have within := twentieth_mul_le ayLen i
    omega
  rcases Nat.lt_or_ge j (twentieth ayLen i) with lower | same
  · have next : j + 1 = twentieth ayLen i := by omega
    have within := twentieth_mul_le ayLen i
    rw [← next] at within
    refine Or.inr ⟨next, ⟨j + 1, by omega⟩, ?_⟩
    rw [← next]
    exact not_lt.mpr high.le
  · exact Or.inl (by omega)

/-- Off the bounds, and above a bound rounded down, the twentieth matches. -/
theorem inBucket_twentieth
    {ayLen i : Nat} (counted : ExactCount ayLen) (below : i < ayLen)
    (clear : ¬ OnBound ayLen i) :
    inBucket ayLen i (twentieth ayLen i) := by
  have small := twentieth_lt below
  refine ⟨?_, lt_bound counted (by omega) (lt_twentieth_succ_mul below)⟩
  by_cases divides : ayLen ∣ 20 * i
  · by_contra high
    exact clear ⟨divides, high⟩
  · apply bound_lt counted (by omega)
    apply lt_of_le_of_ne (twentieth_mul_le ayLen i)
    intro equal
    exact divides ⟨twentieth ayLen i, equal.symm⟩

/-- On a bound the twentieth does not match. -/
theorem not_inBucket_of_onBound
    {ayLen i j : Nat} (counted : ExactCount ayLen) (below : i < ayLen)
    (bucket : j < 20) (onBound : OnBound ayLen i)
    (found : inBucket ayLen i j) : j < twentieth ayLen i := by
  rcases eq_of_inBucket counted below bucket found with same | ⟨next, -⟩
  · rw [same] at found
    exact absurd found.1 onBound.2
  · omega

theorem bucketLoop_spec
    (ayLen i picNo : Nat) (js : List Nat) :
    (bucketLoop ayLen i picNo js = picNo ∧
        ∀ j ∈ js, ¬ inBucket ayLen i j) ∨
      bucketLoop ayLen i picNo js ∈ js ∧
        inBucket ayLen i (bucketLoop ayLen i picNo js) := by
  induction js with
  | nil => simp [bucketLoop]
  | cons j js inductionHypothesis =>
      rw [bucketLoop]
      split_ifs with here
      · exact Or.inr ⟨by simp, here⟩
      · rcases inductionHypothesis with ⟨kept, none⟩ | ⟨member, found⟩
        · refine Or.inl ⟨kept, ?_⟩
          simp only [List.forall_mem_cons]
          exact ⟨here, none⟩
        · exact Or.inr ⟨List.mem_cons_of_mem j member, found⟩

/-- Off the bounds the number is the twentieth of the shop. -/
theorem nextPicNo_of_clear
    {ayLen i : Nat} (counted : ExactCount ayLen) (picNo : Nat)
    (below : i < ayLen) (clear : ¬ OnBound ayLen i) :
    nextPicNo ayLen i picNo = twentieth ayLen i := by
  rcases bucketLoop_spec ayLen i picNo (List.range m) with
    ⟨-, none⟩ | ⟨member, found⟩
  · exact absurd (inBucket_twentieth counted below clear)
      (none _ (List.mem_range.mpr (twentieth_lt below)))
  · rcases eq_of_inBucket counted below (List.mem_range.mp member)
      found with same | ⟨-, onBound⟩
    · exact same
    · exact absurd onBound clear

/-- On a bound it is the number before, or that of a lower twentieth. -/
theorem nextPicNo_of_onBound
    {ayLen i : Nat} (counted : ExactCount ayLen) (picNo : Nat)
    (below : i < ayLen) (onBound : OnBound ayLen i) :
    nextPicNo ayLen i picNo = picNo ∨
      nextPicNo ayLen i picNo < twentieth ayLen i := by
  rcases bucketLoop_spec ayLen i picNo (List.range m) with
    ⟨kept, -⟩ | ⟨member, found⟩
  · exact Or.inl kept
  · exact Or.inr (not_inBucket_of_onBound counted below
      (List.mem_range.mp member) onBound found)

/-! ## The whole page -/

/-- The number pushed for shop `i`, and carried into the next one. -/
def picNoAt (ayLen : Nat) : Nat → Nat
  | 0 => nextPicNo ayLen 0 0
  | i + 1 => nextPicNo ayLen (i + 1) (picNoAt ayLen i)

theorem pushLoop_getElem?
    (ayLen start picNo : Nat) (cafes : List Cafe) (offset : Nat)
    (carried : nextPicNo ayLen start picNo = picNoAt ayLen start) :
    (pushLoop ayLen start picNo cafes)[offset]? =
      cafes[offset]?.map fun cafe => (picNoAt ayLen (start + offset), cafe) := by
  induction cafes generalizing start picNo offset with
  | nil => simp [pushLoop]
  | cons cafe cafes inductionHypothesis =>
      cases offset with
      | zero => simp [pushLoop, carried]
      | succ offset =>
          rw [pushLoop, List.getElem?_cons_succ, List.getElem?_cons_succ,
            carried, inductionHypothesis (start + 1) _ offset rfl]
          congr 2
          funext cafe
          rw [Nat.add_right_comm, Nat.add_assoc]

theorem pushCafes_getElem? (cafes : List Cafe) (i : Nat) :
    (pushCafes cafes)[i]? =
      cafes[i]?.map fun cafe => (picNoAt cafes.length i, cafe) := by
  rw [pushCafes, pushLoop_getElem? _ _ _ _ _ rfl, Nat.zero_add]

/-- A carried number comes from a better shop, so it is not too high. -/
theorem picNoAt_le
    {ayLen : Nat} (counted : ExactCount ayLen) (i : Nat)
    (below : i < ayLen) :
    picNoAt ayLen i ≤ twentieth ayLen i := by
  induction i with
  | zero =>
      by_cases onBound : OnBound ayLen 0
      · rcases nextPicNo_of_onBound counted 0 below onBound with
          kept | lower
        · simp [picNoAt, kept]
        · exact lower.le
      · exact (nextPicNo_of_clear counted 0 below onBound).le
  | succ i inductionHypothesis =>
      rw [picNoAt]
      by_cases onBound : OnBound ayLen (i + 1)
      · rcases nextPicNo_of_onBound counted (picNoAt ayLen i) below
          onBound with kept | lower
        · rw [kept]
          calc picNoAt ayLen i
              ≤ twentieth ayLen i := inductionHypothesis (by omega)
            _ ≤ twentieth ayLen (i + 1) := Nat.div_le_div_right (by omega)
        · exact lower.le
      · exact (nextPicNo_of_clear counted _ below onBound).le

/-- The number is the twentieth of the shop exactly off the bucket bounds. -/
theorem picNoAt_eq_iff
    {ayLen i : Nat} (counted : ExactCount ayLen) (below : i < ayLen) :
    picNoAt ayLen i = twentieth ayLen i ↔ i = 0 ∨ ¬ OnBound ayLen i := by
  cases i with
  | zero =>
      have lowest := picNoAt_le counted 0 below
      simp only [twentieth, mul_zero, Nat.zero_div] at lowest ⊢
      simpa using lowest
  | succ i =>
      simp only [Nat.add_eq_zero_iff, one_ne_zero, and_false, false_or]
      by_cases onBound : OnBound ayLen (i + 1)
      · -- on a bound the shop before lies in a lower twentieth
        have before := picNoAt_le counted i (by omega)
        have lower : twentieth ayLen i < twentieth ayLen (i + 1) := by
          rw [twentieth, twentieth, Nat.div_lt_iff_lt_mul (by omega),
            Nat.div_mul_cancel onBound.1]
          omega
        have wrong : picNoAt ayLen (i + 1) ≠ twentieth ayLen (i + 1) := by
          rcases nextPicNo_of_onBound counted (picNoAt ayLen i) below
            onBound with kept | less
          · rw [picNoAt, kept]
            omega
          · exact less.ne
        simp [wrong, onBound]
      · simp [picNoAt, onBound,
          nextPicNo_of_clear counted _ below onBound]

/-- The marker tier of shop `i` is what the ranking says. -/
def TierRight (cafes : List Cafe) (i : Nat) : Prop :=
  ∃ cafe picNo,
    cafes[i]? = some cafe ∧
      (pushCafes cafes)[i]? = some (picNo, cafe) ∧
      picNo = 20 * i / cafes.length ∧
      (markerIcon picNo = "/img/markers/star.png" ↔ 20 * i < cafes.length)

theorem tierRight_iff_picNoAt
    {cafes : List Cafe} {i : Nat} (below : i < cafes.length) :
    TierRight cafes i ↔
      picNoAt cafes.length i = twentieth cafes.length i := by
  have pushed := pushCafes_getElem? cafes i
  rw [List.getElem?_eq_getElem below, Option.map_some] at pushed
  constructor
  · rintro ⟨cafe, picNo, -, found, tier, -⟩
    rw [pushed] at found
    cases found
    exact tier
  · intro tier
    refine ⟨cafes[i], picNoAt cafes.length i,
      List.getElem?_eq_getElem below, pushed, tier, ?_⟩
    rw [markerIcon_eq_star, tier, twentieth,
      Nat.div_lt_iff_lt_mul (by omega), one_mul]

/--
The tier of a shop is its twentieth of the ranking if and only if the shop is
the first one, lies strictly between two exact bucket bounds, or lies on one
that the doubles of the script round down.
-/
theorem tierRight_iff
    (cafes : List Cafe) (i : Nat) (below : i < cafes.length)
    (counted : ExactCount cafes.length) :
    TierRight cafes i ↔
      i = 0 ∨ ¬ cafes.length ∣ 20 * i ∨
        bound cafes.length (20 * i / cafes.length) < i := by
  rw [tierRight_iff_picNoAt below, picNoAt_eq_iff counted below, OnBound,
    not_and_or, not_not, twentieth]

/-- Of 164 shops the one at index 123 lies on a bound that is rounded down. -/
theorem tierRight_iff_rounded_down :
    TierRight (List.replicate 164 "shop") 123 :=
  (tierRight_iff (List.replicate 164 "shop") 123
    (by rw [List.length_replicate]; decide)
    (by rw [List.length_replicate]; decide)).mpr
      (Or.inr (Or.inr (by decide +kernel)))

/-- Of two shops the second one keeps the star of the first. -/
theorem second_of_two_starred :
    pushCafes ["first", "second"] = [(0, "first"), (0, "second")] ∧
      markerIcon 0 = "/img/markers/star.png" ∧
      20 * 1 / 2 = 10 ∧
      ¬ TierRight ["first", "second"] 1 := by
  have pushed :
      pushCafes ["first", "second"] = [(0, "first"), (0, "second")] := by
    decide +kernel
  refine ⟨pushed, by decide, by decide, ?_⟩
  rintro ⟨cafe, picNo, -, found, tier, -⟩
  rw [pushed] at found
  cases found
  cases tier

end NomadiCore.MapMarkers
