import NomadiCore.Library.EntityEscape

/-!
# Escaping of comments

`helper.js` declares `escapeHtml` twice; of two declarations of one name the
later one is in force once the script is loaded.  Texts are sequences of 16-bit
code units, as they are to the script, so that unpaired surrogates are texts
too.
-/

namespace NomadiCore.CommentEscaping

open NomadiCore.Library.EntityEscape

/-! ## Texts of a script -/

abbrev JsString := List UInt16

/-- The code units of a literal, whose characters are all one unit long. -/
def units (literal : String) : JsString :=
  literal.toList.map fun character => character.val.toUInt16

def ampersand : UInt16 := 38

def doubleQuote : UInt16 := 34

def singleQuote : UInt16 := 39

def slash : UInt16 := 47

def lessThan : UInt16 := 60

def greaterThan : UInt16 := 62

/-- `text.replace(/[…]/g, f)` for a class of single code units. -/
def replaceEach (characterClass : JsString) (callback : UInt16 → JsString)
    (text : JsString) : JsString :=
  text.flatMap fun unit =>
    if unit ∈ characterClass then callback unit else [unit]

/-- `map[m]` as it is written into a text. -/
def readMap (map : List (UInt16 × JsString)) (m : UInt16) : JsString :=
  match map.find? fun entry => entry.1 = m with
  | some entry => entry.2
  | none => units "undefined"

/-! ## `helper.js` -/

def entityMap : List (UInt16 × JsString) :=
  [(ampersand, units "&amp;"), (lessThan, units "&lt;"),
    (greaterThan, units "&gt;"), (doubleQuote, units "&quot;"),
    (singleQuote, units "&#39;"), (slash, units "&#x2F;")]

/-- The first declaration of `escapeHtml`. -/
def escapeHtmlFirst (string : JsString) : JsString :=
  replaceEach (units "&<>\"'/") (readMap entityMap) string

/-- The local `map` of the second declaration. -/
def commentMap : List (UInt16 × JsString) :=
  [(ampersand, units "&amp;"), (lessThan, units "&lt;"),
    (greaterThan, units "&gt;"), (doubleQuote, units "&quot;"),
    (singleQuote, units "&#039;")]

/-- The second declaration of `escapeHtml`. -/
def escapeHtmlSecond (text : JsString) : JsString :=
  replaceEach (units "&<>\"'") (readMap commentMap) text

structure FunctionDeclaration where
  name : String
  body : JsString → JsString

/-- The functions from texts to texts that the script declares. -/
def helperDeclarations : List FunctionDeclaration :=
  [⟨"escapeHtml", escapeHtmlFirst⟩, ⟨"escapeHtml", escapeHtmlSecond⟩]

/-- Loading a script binds a name to the last function declared with it. -/
def load (declarations : List FunctionDeclaration) (name : String) :
    Option (JsString → JsString) :=
  (declarations.reverse.find? fun declared => declared.name = name).map
    FunctionDeclaration.body

/-! ## The comment box -/

/-- A comment as the box shows it; `fromNow` is the age that is printed. -/
structure BoxComment where
  body : JsString
  avatar : JsString
  fromNow : JsString

def divTag : JsString := units "<div class='n'>"

/-- The markup `render` makes of a comment. -/
def render (escapeHtml : JsString → JsString) (comment : BoxComment) :
    JsString :=
  divTag ++ (escapeHtml comment.body ++ units "&nbsp;" ++
    (units "<img src='" ++ comment.avatar ++
      units "' style='border-radius: 50%; width: 40px;'>" ++
      units "<span style='font-size: 12px;'>&nbsp;" ++ comment.fromNow ++
      units "</span>" ++ units "</div>"))

/-- The text of the markup up to the next tag. -/
def textUpToTag (markup : JsString) : JsString :=
  markup.takeWhile fun unit => unit ≠ lessThan

/-! ## The table of the function in force -/

theorem commentMap_marked : ampersand ∈ commentMap.map Prod.fst := by
  decide

theorem commentMap_starts :
    ∀ entry ∈ commentMap, entry.2.head? = some ampersand := by
  decide

theorem commentMap_plain :
    ∀ entry ∈ commentMap, ∀ unit ∈ entry.2.tail,
      unit ∉ commentMap.map Prod.fst := by
  have checked :
      (commentMap.all fun entry => entry.2.tail.all fun unit =>
        decide (unit ∉ commentMap.map Prod.fst)) = true := by
    decide
  intro entry member unit inTail
  have all := List.all_eq_true.mp checked entry member
  exact of_decide_eq_true (List.all_eq_true.mp all unit inTail)

theorem commentMap_prefixFree :
    ∀ first ∈ commentMap, ∀ second ∈ commentMap,
      first.2 <+: second.2 → first = second := by
  decide

def commentTable : EscapeTable UInt16 where
  entries := commentMap
  mark := ampersand
  marked := commentMap_marked
  starts := commentMap_starts
  plain := commentMap_plain
  prefixFree := commentMap_prefixFree

/-- Replacing the keys of a map through the map is escaping. -/
theorem replaceEach_keys (table : EscapeTable UInt16) (text : JsString) :
    replaceEach (table.entries.map Prod.fst) (readMap table.entries) text =
      table.escape text := by
  apply List.flatMap_congr
  intro unit _
  rw [readMap, EscapeTable.escapeLetter]
  cases found : table.entries.find? fun entry => entry.1 = unit with
  | some entry =>
      have listed : unit ∈ table.entries.map Prod.fst :=
        List.mem_map.mpr ⟨entry, List.mem_of_find?_eq_some found,
          by simpa using List.find?_some found⟩
      rw [if_pos listed]
  | none =>
      have unlisted : unit ∉ table.entries.map Prod.fst := by
        intro listed
        obtain ⟨entry, member, same⟩ := List.mem_map.mp listed
        simpa [same] using List.find?_eq_none.mp found entry member
      rw [if_neg unlisted]

theorem escapeHtmlSecond_eq (text : JsString) :
    escapeHtmlSecond text = commentTable.escape text :=
  replaceEach_keys commentTable text

/-- The later declaration is in force. -/
theorem load_escapeHtml :
    load helperDeclarations "escapeHtml" = some escapeHtmlSecond := rfl

/-! ## What is written -/

/-- Read the five entities from left to right. -/
def unescapeHtml (text : JsString) : JsString :=
  commentTable.unescape text

theorem not_mem_escapeHtml
    {unit : UInt16} (escaped : unit ∈ commentMap.map Prod.fst)
    (notMark : unit ≠ ampersand) (text : JsString) :
    unit ∉ escapeHtmlSecond text := by
  rw [escapeHtmlSecond_eq]
  intro written
  exact notMark (EscapeTable.eq_mark_of_mem_escape written escaped)

/-- The text before the first tag of the page is the escaped comment. -/
theorem textUpToTag_render (comment : BoxComment) :
    textUpToTag
        ((render escapeHtmlSecond comment).drop divTag.length) =
      escapeHtmlSecond comment.body ++ units "&nbsp;" := by
  have noTag : ∀ unit ∈ escapeHtmlSecond comment.body ++ units "&nbsp;",
      decide (unit ≠ lessThan) = true := by
    intro unit member
    rw [decide_eq_true_eq]
    rintro rfl
    rcases List.mem_append.mp member with inBody | inSpace
    · exact not_mem_escapeHtml (by decide) (by decide) _ inBody
    · revert inSpace
      decide
  rw [render, List.drop_left, textUpToTag,
    List.takeWhile_append_of_pos noTag]
  simp [units, lessThan]

theorem render_body_injective {first second : BoxComment}
    (same : render escapeHtmlSecond first = render escapeHtmlSecond second) :
    first.body = second.body := by
  have texts := textUpToTag_render first
  rw [same, textUpToTag_render second] at texts
  have escaped := List.append_cancel_right texts
  rw [escapeHtmlSecond_eq, escapeHtmlSecond_eq] at escaped
  exact (EscapeTable.escape_injective escaped).symm

/--
Comment escaping is safe and lossless.  What the function in force writes has
no angle bracket and no quote, each of its ampersands starts one of the five
entities, and reading these from left to right gives back the text.  Comments
with different texts are rendered differently, whatever else is shown of them,
and the first tag after a comment is the one the page writes.
-/
theorem escapeHtml_safe_lossless :
    ∃ escapeHtml,
      load helperDeclarations "escapeHtml" = some escapeHtml ∧
        (∀ text,
          (∀ unit ∈ [lessThan, greaterThan, doubleQuote, singleQuote],
            unit ∉ escapeHtml text) ∧
          (∀ front back,
            escapeHtml text = front ++ ampersand :: back →
              ∃ entry ∈ commentMap, entry.2 <+: ampersand :: back) ∧
          unescapeHtml (escapeHtml text) = text) ∧
        (∀ first second : BoxComment, first.body ≠ second.body →
          render escapeHtml first ≠ render escapeHtml second) ∧
        ∀ comment : BoxComment,
          textUpToTag ((render escapeHtml comment).drop divTag.length) =
            escapeHtml comment.body ++ units "&nbsp;" := by
  refine ⟨escapeHtmlSecond, load_escapeHtml, fun text => ⟨?_, ?_, ?_⟩,
    fun _ _ different same => different (render_body_injective same),
    textUpToTag_render⟩
  · intro unit listed
    have escaped :
        unit ∈ commentMap.map Prod.fst ∧ unit ≠ ampersand := by
      simp only [List.mem_cons, List.not_mem_nil, or_false] at listed
      rcases listed with rfl | rfl | rfl | rfl <;> decide
    exact not_mem_escapeHtml escaped.1 escaped.2 text
  · intro front back found
    rw [escapeHtmlSecond_eq] at found
    exact EscapeTable.entity_of_mark found
  · rw [escapeHtmlSecond_eq]
    exact EscapeTable.unescape_escape text

example :
    escapeHtmlSecond (units "<b>&lt;") = units "&lt;b&gt;&amp;lt;" := by
  decide

end NomadiCore.CommentEscaping
