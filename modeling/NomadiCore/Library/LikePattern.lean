import Mathlib.Data.List.Infix
import Mathlib.Tactic.Common

/-!
# LIKE patterns

`like` matches a text against an SQL pattern: `%` stands for any letters and
`_` for one of them, and a backslash takes the letter after it as it is.
-/

namespace NomadiCore.Library.LikePattern

/-- The pattern matches the whole text. -/
def like : List Char → List Char → Bool
  | [], text => text.isEmpty
  | '%' :: pattern, text => text.tails.any fun rest => like pattern rest
  | '_' :: _, [] => false
  | '_' :: pattern, _ :: text => like pattern text
  | '\\' :: _ :: _, [] => false
  | '\\' :: letter :: pattern, first :: text =>
      first = letter && like pattern text
  | _ :: _, [] => false
  | letter :: pattern, first :: text => first = letter && like pattern text

/-- A letter that a pattern takes as it is. -/
def Ordinary (letter : Char) : Prop :=
  letter ≠ '%' ∧ letter ≠ '_' ∧ letter ≠ '\\'

theorem like_percent (pattern text : List Char) :
    like ('%' :: pattern) text = true ↔
      ∃ skipped rest, text = skipped ++ rest ∧ like pattern rest = true := by
  rw [like, List.any_eq_true]
  constructor
  · rintro ⟨rest, tail, matched⟩
    obtain ⟨skipped, equal⟩ := (List.mem_tails rest text).mp tail
    exact ⟨skipped, rest, equal.symm, matched⟩
  · rintro ⟨skipped, rest, equal, matched⟩
    exact ⟨rest, (List.mem_tails rest text).mpr ⟨skipped, equal.symm⟩,
      matched⟩

theorem like_cons_ordinary {letter : Char} (ordinary : Ordinary letter)
    (pattern text : List Char) :
    like (letter :: pattern) text = true ↔
      ∃ rest, text = letter :: rest ∧ like pattern rest = true := by
  obtain ⟨notPercent, notLow, notSlash⟩ := ordinary
  cases text with
  | nil =>
      have fails : like (letter :: pattern) [] = false := by
        rw [like]
        · exact notPercent
        · exact notLow
        · intro next later isSlash
          exact absurd isSlash notSlash
      simp [fails]
  | cons first text =>
      rw [like]
      · constructor
        · intro matched
          rw [Bool.and_eq_true, decide_eq_true_eq] at matched
          exact ⟨text, by rw [matched.1], matched.2⟩
        · rintro ⟨rest, equal, matched⟩
          cases equal
          simp [matched]
      · exact notPercent
      · exact notLow
      · intro next later isSlash
        exact absurd isSlash notSlash

/-- Ordinary letters match themselves. -/
theorem like_append_ordinary {word : List Char}
    (ordinary : ∀ letter ∈ word, Ordinary letter)
    (pattern text : List Char) :
    like (word ++ pattern) text = true ↔
      ∃ rest, text = word ++ rest ∧ like pattern rest = true := by
  induction word generalizing text with
  | nil => simp
  | cons letter word inductionHypothesis =>
      have later := inductionHypothesis fun other member =>
        ordinary other (List.mem_cons_of_mem letter member)
      rw [List.cons_append,
        like_cons_ordinary (ordinary letter List.mem_cons_self)]
      constructor
      · rintro ⟨after, rfl, matched⟩
        obtain ⟨rest, rfl, last⟩ := (later after).mp matched
        exact ⟨rest, rfl, last⟩
      · rintro ⟨rest, rfl, last⟩
        exact ⟨word ++ rest, rfl, (later _).mpr ⟨rest, rfl, last⟩⟩

/-- A word between two `%` is looked for anywhere in the text. -/
theorem like_contains_iff {word : List Char}
    (ordinary : ∀ letter ∈ word, Ordinary letter) (text : List Char) :
    like ('%' :: (word ++ ['%'])) text = true ↔ word <:+: text := by
  rw [like_percent]
  constructor
  · rintro ⟨skipped, after, rfl, matched⟩
    obtain ⟨rest, rfl, -⟩ :=
      (like_append_ordinary ordinary ['%'] after).mp matched
    exact ⟨skipped, rest, List.append_assoc skipped word rest⟩
  · rintro ⟨skipped, rest, rfl⟩
    refine ⟨skipped, word ++ rest, List.append_assoc skipped word rest, ?_⟩
    have anything : like ['%'] rest = true :=
      (like_percent [] rest).mpr ⟨rest, [], by simp, rfl⟩
    exact (like_append_ordinary ordinary ['%'] _).mpr
      ⟨rest, rfl, anything⟩

end NomadiCore.Library.LikePattern
