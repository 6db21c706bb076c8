import Mathlib.Data.List.Infix
import Mathlib.Tactic.Basic

/-!
# Escaping by entities

A table names some letters and writes an entity for each of them.  Every
entity starts with a mark, which is itself one of the escaped letters and
occurs nowhere else in an entity, and no entity is the beginning of another.
Then escaping can be undone by reading entities from left to right.
-/

namespace NomadiCore.Library.EntityEscape

/-- A table of escaped letters and their entities. -/
structure EscapeTable (Letter : Type) where
  entries : List (Letter × List Letter)
  mark : Letter
  marked : mark ∈ entries.map Prod.fst
  starts : ∀ entry ∈ entries, entry.2.head? = some mark
  plain : ∀ entry ∈ entries, ∀ letter ∈ entry.2.tail,
    letter ∉ entries.map Prod.fst
  prefixFree : ∀ first ∈ entries, ∀ second ∈ entries,
    first.2 <+: second.2 → first = second

namespace EscapeTable

variable {Letter : Type} [DecidableEq Letter] (table : EscapeTable Letter)

/-- What is written for one letter. -/
def escapeLetter (letter : Letter) : List Letter :=
  match table.entries.find? fun entry => entry.1 = letter with
  | some entry => entry.2
  | none => [letter]

def escape (text : List Letter) : List Letter :=
  text.flatMap table.escapeLetter

/-- The entity a text starts with, if it does. -/
def entityAt (text : List Letter) : Option (Letter × List Letter) :=
  table.entries.find? fun entry => entry.2.isPrefixOf text

/-- Replace entities from left to right; `skip` letters are already read. -/
def unescapeFrom : Nat → List Letter → List Letter
  | _, [] => []
  | skip + 1, _ :: rest => unescapeFrom skip rest
  | 0, letter :: rest =>
      match table.entityAt (letter :: rest) with
      | some entry => entry.1 :: unescapeFrom (entry.2.length - 1) rest
      | none => letter :: unescapeFrom 0 rest

def unescape (text : List Letter) : List Letter :=
  table.unescapeFrom 0 text

/-! ## What is written for a letter -/

variable {table}

/-- A letter is written as its entity, or as itself when it has none. -/
theorem escapeLetter_cases (letter : Letter) :
    (∃ entry ∈ table.entries,
        entry.1 = letter ∧ table.escapeLetter letter = entry.2) ∨
      letter ∉ table.entries.map Prod.fst ∧
        table.escapeLetter letter = [letter] := by
  unfold escapeLetter
  split
  · rename_i entry found
    exact Or.inl ⟨entry, List.mem_of_find?_eq_some found,
      by simpa using List.find?_some found, rfl⟩
  · rename_i none
    refine Or.inr ⟨fun listed => ?_, rfl⟩
    obtain ⟨entry, member, same⟩ := List.mem_map.mp listed
    simpa [same] using List.find?_eq_none.mp none entry member

omit [DecidableEq Letter] in
/-- An entity is the mark and letters that are not escaped. -/
theorem entity_eq {entry : Letter × List Letter}
    (member : entry ∈ table.entries) :
    ∃ body, entry.2 = table.mark :: body ∧
      ∀ letter ∈ body, letter ∉ table.entries.map Prod.fst := by
  have start := table.starts entry member
  have plain := table.plain entry member
  cases entity : entry.2 with
  | nil => simp [entity] at start
  | cons first body =>
      rw [entity] at start plain
      cases start
      exact ⟨body, rfl, plain⟩

omit [DecidableEq Letter] in
/-- A letter of an entity that is escaped is the mark. -/
theorem eq_mark_of_mem_entity {entry : Letter × List Letter}
    (member : entry ∈ table.entries) {letter : Letter}
    (inEntity : letter ∈ entry.2)
    (escaped : letter ∈ table.entries.map Prod.fst) :
    letter = table.mark := by
  obtain ⟨body, entity, plain⟩ := entity_eq member
  rw [entity] at inEntity
  rcases List.mem_cons.mp inEntity with isMark | inBody
  · exact isMark
  · exact absurd escaped (plain letter inBody)

/-! ## Escaped texts -/

/-- Of the escaped letters only the mark is left. -/
theorem eq_mark_of_mem_escape
    {text : List Letter} {letter : Letter}
    (written : letter ∈ table.escape text)
    (escaped : letter ∈ table.entries.map Prod.fst) :
    letter = table.mark := by
  obtain ⟨source, -, inPart⟩ := List.mem_flatMap.mp written
  rcases @escapeLetter_cases _ _ table source with
    ⟨entry, member, -, part⟩ | ⟨unlisted, part⟩
  · rw [part] at inPart
    exact eq_mark_of_mem_entity member inPart escaped
  · rw [part, List.mem_singleton] at inPart
    rw [inPart] at escaped
    exact absurd escaped unlisted

/-- A mark in what is written for a letter starts that entity. -/
theorem entity_of_mark_in_letter
    {letter : Letter} {front back : List Letter}
    (found : table.escapeLetter letter = front ++ table.mark :: back) :
    ∃ entry ∈ table.entries, entry.2 = table.mark :: back := by
  rcases @escapeLetter_cases _ _ table letter with
    ⟨entry, member, -, part⟩ | ⟨unlisted, part⟩
  · obtain ⟨body, entity, plain⟩ := entity_eq member
    rw [part, entity] at found
    cases front with
    | nil => exact ⟨entry, member, entity.trans found⟩
    | cons first front =>
        have inBody : table.mark ∈ body := by
          rw [(List.cons.inj found).2]
          simp
        exact absurd table.marked (plain table.mark inBody)
  · have isMark : table.mark = letter := by
      have member : table.mark ∈ table.escapeLetter letter := by
        rw [found]
        simp
      rw [part] at member
      exact List.mem_singleton.mp member
    rw [← isMark] at unlisted
    exact absurd table.marked unlisted

/-- Every mark of an escaped text starts an entity. -/
theorem entity_of_mark
    {text front back : List Letter}
    (found : table.escape text = front ++ table.mark :: back) :
    ∃ entry ∈ table.entries, entry.2 <+: table.mark :: back := by
  induction text generalizing front with
  | nil => simp [escape] at found
  | cons letter text inductionHypothesis =>
      have parts :
          table.escapeLetter letter ++ table.escape text =
            front ++ table.mark :: back := found
      rcases List.append_eq_append_iff.mp parts with
        ⟨later, -, inRest⟩ | ⟨rest, inLetter, isBack⟩
      · exact inductionHypothesis inRest
      · cases rest with
        | nil => exact @inductionHypothesis [] isBack.symm
        | cons first rest =>
            obtain ⟨rfl, rfl⟩ := List.cons.inj isBack
            obtain ⟨entry, member, entity⟩ :=
              entity_of_mark_in_letter inLetter
            refine ⟨entry, member, ?_⟩
            rw [entity]
            exact ⟨table.escape text, rfl⟩

/-! ## Reading an escaped text -/

/-- Letters that are already read are left out. -/
theorem unescapeFrom_append (skipped rest : List Letter) :
    table.unescapeFrom skipped.length (skipped ++ rest) =
      table.unescapeFrom 0 rest := by
  induction skipped with
  | nil => rfl
  | cons letter skipped inductionHypothesis =>
      exact inductionHypothesis

theorem entityAt_entity
    {entry : Letter × List Letter} (member : entry ∈ table.entries)
    (rest : List Letter) :
    table.entityAt (entry.2 ++ rest) = some entry := by
  have atStart : entry.2 <+: entry.2 ++ rest := List.prefix_append _ _
  cases found : table.entityAt (entry.2 ++ rest) with
  | none =>
      have absent := List.find?_eq_none.mp found entry member
      rw [List.isPrefixOf_iff_prefix] at absent
      exact absurd atStart absent
  | some other =>
      have otherMember := List.mem_of_find?_eq_some found
      have otherAtStart : other.2 <+: entry.2 ++ rest := by
        simpa using List.find?_some found
      -- Of two beginnings of one text one is the beginning of the other.
      rcases List.prefix_or_prefix_of_prefix otherAtStart atStart with
        shorter | longer
      · rw [table.prefixFree other otherMember entry member shorter]
      · rw [table.prefixFree entry member other otherMember longer]

theorem unescapeFrom_entity
    {entry : Letter × List Letter} (member : entry ∈ table.entries)
    (rest : List Letter) :
    table.unescapeFrom 0 (entry.2 ++ rest) =
      entry.1 :: table.unescapeFrom 0 rest := by
  obtain ⟨body, entity, -⟩ := entity_eq member
  have found := entityAt_entity member rest
  rw [entity, List.cons_append] at found ⊢
  rw [unescapeFrom, found]
  simp only [entity, List.length_cons, Nat.add_sub_cancel,
    unescapeFrom_append]

/-- A letter other than the mark starts no entity. -/
theorem unescapeFrom_letter
    {letter : Letter} (unmarked : letter ≠ table.mark)
    (rest : List Letter) :
    table.unescapeFrom 0 (letter :: rest) =
      letter :: table.unescapeFrom 0 rest := by
  have none : table.entityAt (letter :: rest) = none := by
    apply List.find?_eq_none.mpr
    intro entry member
    obtain ⟨body, entity, -⟩ := entity_eq member
    rw [List.isPrefixOf_iff_prefix, entity]
    intro begins
    exact unmarked (List.cons_prefix_cons.mp begins).1.symm
  rw [unescapeFrom, none]

/-- Reading the entities gives back the text. -/
theorem unescape_escape (text : List Letter) :
    table.unescape (table.escape text) = text := by
  induction text with
  | nil => rfl
  | cons letter text inductionHypothesis =>
      have parts :
          table.escape (letter :: text) =
            table.escapeLetter letter ++ table.escape text := rfl
      rw [unescape] at inductionHypothesis ⊢
      rw [parts]
      rcases @escapeLetter_cases _ _ table letter with
        ⟨entry, member, rfl, part⟩ | ⟨unlisted, part⟩
      · rw [part, unescapeFrom_entity member, inductionHypothesis]
      · have unmarked : letter ≠ table.mark := by
          rintro rfl
          exact unlisted table.marked
        rw [part, List.singleton_append, unescapeFrom_letter unmarked,
          inductionHypothesis]

theorem escape_injective : Function.Injective table.escape :=
  Function.LeftInverse.injective unescape_escape

end EscapeTable

end NomadiCore.Library.EntityEscape
