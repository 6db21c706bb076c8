import Mathlib.Algebra.GroupWithZero.Nat
import Mathlib.Data.List.TakeWhile
import Mathlib.Tactic.Common

/-!
# Text columns of a database server

A server that is not strict stores what fits into a column: the characters of
its character set up to the first one it does not have, cut at the length of
the column.  It compares texts by a collation, which may take different texts
for equal.
-/

namespace NomadiCore.Library.TextColumn

/-! ## Comparing -/

/-- A collation gives every text a sort key and compares the keys. -/
class Collation where
  sortKey : String → String

section Collations

variable [Collation] {first second third : String}

/-- The server takes two texts for equal. -/
def sameText (first second : String) : Bool :=
  Collation.sortKey first = Collation.sortKey second

@[simp]
theorem sameText_refl (text : String) : sameText text text = true := by
  simp [sameText]

theorem sameText_symm (same : sameText first second = true) :
    sameText second first = true := by
  simp only [sameText, decide_eq_true_eq] at same ⊢
  exact same.symm

theorem sameText_trans (early : sameText first second = true)
    (late : sameText second third = true) :
    sameText first third = true := by
  simp only [sameText, decide_eq_true_eq] at early late ⊢
  exact early.trans late

/-- Equal texts are equal to the same texts. -/
theorem sameText_congr_left (same : sameText first second = true) :
    sameText first third = sameText second third := by
  simp only [sameText, decide_eq_true_eq] at same ⊢
  rw [same]

end Collations

/-- Letters of both cases are the same, and blanks at the end do not count. -/
@[reducible]
def caseBlind : Collation where
  sortKey text :=
    String.ofList
      ((text.toList.map Char.toLower).reverse.dropWhile (· = ' ')).reverse

/-! ## Storing -/

/-- The characters of the basic plane, which take up to three bytes. -/
def isBasic (character : Char) : Bool :=
  character.toNat < 0x10000

/-- What a column of this length keeps of a text. -/
def keep (limit : Nat) (text : String) : String :=
  String.ofList ((text.toList.takeWhile isBasic).take limit)

/-- A text that a column of this length keeps as it is. -/
def Fits (limit : Nat) (text : String) : Prop :=
  text.toList.length ≤ limit ∧ ∀ character ∈ text.toList, isBasic character

instance (limit : Nat) (text : String) : Decidable (Fits limit text) :=
  @instDecidableAnd _ _ (Nat.decLe _ _) (List.decidableBAll _ text.toList)

theorem keep_of_fits {limit : Nat} {text : String}
    (fits : Fits limit text) : keep limit text = text := by
  have basic : text.toList.takeWhile isBasic = text.toList :=
    List.takeWhile_eq_self_iff.mpr fits.2
  rw [keep, basic, List.take_of_length_le fits.1, String.ofList_toList]

/-- What is kept fits. -/
theorem fits_keep (limit : Nat) (text : String) :
    Fits limit (keep limit text) := by
  refine ⟨?_, ?_⟩
  · simp only [keep, String.toList_ofList]
    exact List.length_take_le _ _
  · intro character member
    simp only [keep, String.toList_ofList] at member
    exact List.mem_takeWhile_imp (List.mem_of_mem_take member)

theorem keep_eq_self_iff {limit : Nat} {text : String} :
    keep limit text = text ↔ Fits limit text := by
  constructor
  · intro same
    rw [← same]
    exact fits_keep limit text
  · exact keep_of_fits

/-- The longest beginning of at most so many bytes. -/
def takeBytes : Nat → List Char → List Char
  | _, [] => []
  | limit, character :: rest =>
      if character.utf8Size ≤ limit then
        character :: takeBytes (limit - character.utf8Size) rest
      else []

/-- What a column that is limited in bytes keeps of a text. -/
def keepBytes (limit : Nat) (text : String) : String :=
  String.ofList (takeBytes limit (text.toList.takeWhile isBasic))

theorem takeBytes_of_short {limit : Nat} {text : List Char}
    (short : (text.map Char.utf8Size).sum ≤ limit) :
    takeBytes limit text = text := by
  induction text generalizing limit with
  | nil => rfl
  | cons character rest induction =>
      rw [List.map_cons, List.sum_cons] at short
      rw [takeBytes, if_pos (by omega), induction (by omega)]

theorem keepBytes_of_short {limit : Nat} {text : String}
    (basic : ∀ character ∈ text.toList, isBasic character)
    (short : (text.toList.map Char.utf8Size).sum ≤ limit) :
    keepBytes limit text = text := by
  rw [keepBytes, List.takeWhile_eq_self_iff.mpr basic,
    takeBytes_of_short short, String.ofList_toList]

end NomadiCore.Library.TextColumn
