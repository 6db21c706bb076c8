import Mathlib.Tactic.Common
import NomadiCore.Library.DecimalNumeral

/-!
# JSON text

`decode` reads a JSON text the way a PHP 7 server does: keywords in any case,
nesting of at most 512 arrays, unpaired surrogates refused, and `null` for
every text that is not JSON.  `encodeText` writes a string literal with the
default escapes, `encodeObject` and `encodeList` write objects and arrays, and
what they write is read back.  Numbers are exact rationals.
-/

namespace NomadiCore.Library.JsonText

open NomadiCore.Library.DecimalNumeral

/-- A decoded JSON value; the fields of an object keep their order. -/
inductive Json where
  | null
  | bool (value : Bool)
  | number (value : ℚ)
  | text (value : String)
  | list (items : List Json)
  | object (fields : List (String × Json))

/-- The value of a key; of a repeated key the last one counts. -/
def lookup (key : String) (fields : List (String × Json)) : Option Json :=
  (fields.reverse.find? fun field => field.1 = key).map Prod.snd

/-! ## String literals -/

def hexDigit (value : Nat) : Char :=
  if value < 10 then Char.ofNat ('0'.toNat + value)
  else Char.ofNat ('a'.toNat + (value - 10))

def hexValue (digit : Char) : Option Nat :=
  if digit.isDigit then some (digit.toNat - '0'.toNat)
  else if 'a' ≤ digit ∧ digit ≤ 'f' then
    some (digit.toNat - 'a'.toNat + 10)
  else if 'A' ≤ digit ∧ digit ≤ 'F' then
    some (digit.toNat - 'A'.toNat + 10)
  else none

/-- Four hexadecimal digits. -/
def hexWord (first second third fourth : Char) : Option Nat := do
  let first ← hexValue first
  let second ← hexValue second
  let third ← hexValue third
  let fourth ← hexValue fourth
  return ((first * 16 + second) * 16 + third) * 16 + fourth

def unicodeEscape (word : Nat) : List Char :=
  ['\\', 'u', hexDigit (word / 4096 % 16), hexDigit (word / 256 % 16),
    hexDigit (word / 16 % 16), hexDigit (word % 16)]

/-- One character of a string literal. -/
def escape (character : Char) : List Char :=
  match character with
  | '"' => ['\\', '"']
  | '\\' => ['\\', '\\']
  | '/' => ['\\', '/']
  | '\x08' => ['\\', 'b']
  | '\x0c' => ['\\', 'f']
  | '\n' => ['\\', 'n']
  | '\r' => ['\\', 'r']
  | '\t' => ['\\', 't']
  | _ =>
      let code := character.toNat
      if code < 0x20 then unicodeEscape code
      else if code < 0x80 then [character]
      else if code < 0x10000 then unicodeEscape code
      else
        unicodeEscape (0xd800 + (code - 0x10000) / 1024) ++
          unicodeEscape (0xdc00 + (code - 0x10000) % 1024)

/-- A string literal with its quotes. -/
def encodeText (text : String) : List Char :=
  '"' :: (text.toList.flatMap escape ++ ['"'])

/-- The character of an escape of one letter. -/
def letterEscape : Char → Option Char
  | '"' => some '"'
  | '\\' => some '\\'
  | '/' => some '/'
  | 'b' => some '\x08'
  | 'f' => some '\x0c'
  | 'n' => some '\n'
  | 'r' => some '\r'
  | 't' => some '\t'
  | _ => none

/-- The rest of a string literal after its opening quote. -/
def textBody : List Char → Option (List Char × List Char)
  | [] => none
  | '"' :: rest => some ([], rest)
  | '\\' :: 'u' :: a :: b :: c :: d :: rest => do
      let word ← hexWord a b c d
      if word < 0xd800 ∨ 0xe000 ≤ word then
        let (body, after) ← textBody rest
        return (Char.ofNat word :: body, after)
      else if 0xdc00 ≤ word then none
      else
        -- a high surrogate counts only with the low one that follows it
        match rest with
        | '\\' :: 'u' :: e :: f :: g :: h :: rest =>
            let low ← hexWord e f g h
            if 0xdc00 ≤ low ∧ low < 0xe000 then
              let (body, after) ← textBody rest
              return (Char.ofNat
                (0x10000 + (word - 0xd800) * 1024 + (low - 0xdc00)) ::
                  body, after)
            else none
        | _ => none
  | '\\' :: letter :: rest => do
      let character ← letterEscape letter
      let (body, after) ← textBody rest
      return (character :: body, after)
  | character :: rest =>
      if character.toNat < 0x20 then none
      else do
        let (body, after) ← textBody rest
        return (character :: body, after)

/-! ## Values -/

def skipBlank (input : List Char) : List Char :=
  input.dropWhile fun character =>
    character ∈ [' ', '\t', '\n', '\r']

/-- The digits after a decimal point, when there is at least one. -/
def numberFraction (input : List Char) : List Char × List Char :=
  match fractionPart input with
  | ([], _) => ([], input)
  | part => part

/-- A JSON number: no leading zeros, digits on both sides of the point. -/
def numberLiteral (input : List Char) : Option (ℚ × List Char) :=
  let (negative, unsigned) :=
    match input with
    | '-' :: rest => (true, rest)
    | input => (false, input)
  let (whole, afterWhole) :=
    match unsigned with
    | '0' :: rest => (['0'], rest)
    | input => (input.takeWhile Char.isDigit, input.dropWhile Char.isDigit)
  let (fraction, afterFraction) := numberFraction afterWhole
  let (exponent, rest) := exponentPart afterFraction
  if whole = [] then none
  else
    let magnitude :=
      scale (digitsValue (whole ++ fraction)) (exponent - fraction.length)
    some (if negative then -magnitude else magnitude, rest)

/-- A keyword in any case, or a number. -/
def literal (input : List Char) : Option (Json × List Char) :=
  if (input.take 4).map Char.toLower = ['n', 'u', 'l', 'l'] then
    some (.null, input.drop 4)
  else if (input.take 4).map Char.toLower = ['t', 'r', 'u', 'e'] then
    some (.bool true, input.drop 4)
  else if (input.take 5).map Char.toLower = ['f', 'a', 'l', 's', 'e'] then
    some (.bool false, input.drop 5)
  else
    (numberLiteral input).map fun (value, rest) => (.number value, rest)

mutual

/-- A value, with the number of arrays that may still be opened. -/
def parseValue : Nat → Nat → List Char → Option (Json × List Char)
  | 0, _, _ => none
  | fuel + 1, depth, input =>
      match skipBlank input with
      | '"' :: rest =>
          (textBody rest).map fun (body, after) =>
            (.text (String.ofList body), after)
      | '[' :: rest =>
          if depth = 0 then none
          else
            match skipBlank rest with
            | ']' :: after => some (.list [], after)
            | _ =>
                (parseItems fuel (depth - 1) rest).map
                  fun (items, after) => (.list items, after)
      | '{' :: rest =>
          if depth = 0 then none
          else
            match skipBlank rest with
            | '}' :: after => some (.object [], after)
            | _ =>
                (parseFields fuel (depth - 1) rest).map
                  fun (fields, after) => (.object fields, after)
      | start => literal start

/-- The items of an array, up to its closing bracket. -/
def parseItems : Nat → Nat → List Char → Option (List Json × List Char)
  | 0, _, _ => none
  | fuel + 1, depth, input => do
      let (item, after) ← parseValue fuel depth input
      match skipBlank after with
      | ',' :: rest =>
          (parseItems fuel depth rest).map
            fun (items, after) => (item :: items, after)
      | ']' :: rest => some ([item], rest)
      | _ => none

/-- The fields of an object, up to its closing brace. -/
def parseFields :
    Nat → Nat → List Char → Option (List (String × Json) × List Char)
  | 0, _, _ => none
  | fuel + 1, depth, input =>
      match skipBlank input with
      | '"' :: quoted => do
          let (key, afterKey) ← textBody quoted
          match skipBlank afterKey with
          | ':' :: rest => do
              let (value, after) ← parseValue fuel depth rest
              match skipBlank after with
              | ',' :: rest =>
                  (parseFields fuel depth rest).map
                    fun (fields, after) =>
                      ((String.ofList key, value) :: fields, after)
              | '}' :: rest => some ([(String.ofList key, value)], rest)
              | _ => none
          | _ => none
      | _ => none

end

/-- The value of a JSON text, `null` when it is not one. -/
def decode (text : String) : Json :=
  match parseValue (2 * text.toList.length + 2) 512 text.toList with
  | some (value, rest) => if skipBlank rest = [] then value else .null
  | none => .null

/-! ## Reading back string literals -/

theorem hexValue_hexDigit {value : Nat} (small : value < 16) :
    hexValue (hexDigit value) = some value := by
  have all : ∀ value : Fin 16,
      hexValue (hexDigit value) = some value.val := by
    decide
  exact all ⟨value, small⟩

/-- The digits of an escape are read back. -/
theorem hexWord_digits {word : Nat} (small : word < 0x10000) :
    hexWord (hexDigit (word / 4096 % 16)) (hexDigit (word / 256 % 16))
        (hexDigit (word / 16 % 16)) (hexDigit (word % 16)) =
      some word := by
  have digits :
      ((word / 4096 % 16 * 16 + word / 256 % 16) * 16 +
          word / 16 % 16) * 16 + word % 16 = word := by
    omega
  rw [hexWord, hexValue_hexDigit (by omega), hexValue_hexDigit (by omega),
    hexValue_hexDigit (by omega), hexValue_hexDigit (by omega)]
  simp [digits]

theorem char_not_surrogate (character : Char) :
    character.toNat < 0xd800 ∨
      0xe000 ≤ character.toNat ∧ character.toNat < 0x110000 := by
  have valid := character.valid
  unfold UInt32.isValidChar Nat.isValidChar at valid
  have code : character.toNat = character.val.toNat := rfl
  omega

theorem textBody_unicode {character : Char}
    (basic : character.toNat < 0x10000) (rest : List Char) :
    textBody (unicodeEscape character.toNat ++ rest) =
      (textBody rest).bind fun (body, after) =>
        some (character :: body, after) := by
  have single : character.toNat < 0xd800 ∨ 0xe000 ≤ character.toNat :=
    (char_not_surrogate character).imp_right And.left
  simp only [unicodeEscape, List.cons_append, List.nil_append]
  rw [textBody, hexWord_digits basic]
  simp only [Option.bind_eq_bind, Option.bind_some, if_pos single,
    Char.ofNat_toNat]
  rfl

/-- A high surrogate and the low one that follows it. -/
theorem textBody_pair {high low : Nat}
    (isHigh : 0xd800 ≤ high ∧ high < 0xdc00)
    (isLow : 0xdc00 ≤ low ∧ low < 0xe000) (rest : List Char) :
    textBody (unicodeEscape high ++ unicodeEscape low ++ rest) =
      (textBody rest).bind fun (body, after) =>
        some (Char.ofNat
          (0x10000 + (high - 0xd800) * 1024 + (low - 0xdc00)) :: body,
            after) := by
  have highRead : hexWord _ _ _ _ = some high :=
    hexWord_digits (by omega)
  have lowRead : hexWord _ _ _ _ = some low :=
    hexWord_digits (by omega)
  have paired : ¬ (high < 0xd800 ∨ 0xe000 ≤ high) := by omega
  have notLow : ¬ 0xdc00 ≤ high := by omega
  simp only [unicodeEscape, List.cons_append, List.nil_append]
  rw [textBody, highRead]
  simp only [Option.bind_eq_bind, Option.bind_some, if_neg paired,
    if_neg notLow, lowRead, if_pos isLow]
  rfl

theorem textBody_letter {letter character : Char}
    (escaped : letterEscape letter = some character) (rest : List Char) :
    textBody ('\\' :: letter :: rest) =
      (textBody rest).bind fun (body, after) =>
        some (character :: body, after) := by
  have notUnicode : letter ≠ 'u' := by
    rintro rfl
    cases escaped
  rw [textBody.eq_def]
  split
  · rename_i equal
    cases equal
  · rename_i equal
    cases equal
  · rename_i equal
    cases equal
    exact absurd rfl notUnicode
  · rename_i equal
    cases equal
    rw [escaped]
    rfl
  · rename_i noEscape equal
    cases equal
    exact absurd rfl (noEscape letter rest rfl)

theorem textBody_printable {character : Char}
    (notQuote : character ≠ '"') (notBackslash : character ≠ '\\')
    (printable : ¬ character.toNat < 0x20) (rest : List Char) :
    textBody (character :: rest) =
      (textBody rest).bind fun (body, after) =>
        some (character :: body, after) := by
  rw [textBody.eq_def]
  split
  · rename_i equal
    cases equal
  · rename_i equal
    cases equal
    exact absurd rfl notQuote
  · rename_i equal
    cases equal
    exact absurd rfl notBackslash
  · rename_i equal
    cases equal
    exact absurd rfl notBackslash
  · rename_i equal
    cases equal
    rw [if_neg printable]
    rfl

/-- An escaped character is read back. -/
theorem textBody_escape (character : Char) (rest : List Char) :
    textBody (escape character ++ rest) =
      (textBody rest).bind fun (body, after) =>
        some (character :: body, after) := by
  unfold escape
  split
  · exact textBody_letter rfl rest
  · exact textBody_letter rfl rest
  · exact textBody_letter rfl rest
  · exact textBody_letter rfl rest
  · exact textBody_letter rfl rest
  · exact textBody_letter rfl rest
  · exact textBody_letter rfl rest
  · exact textBody_letter rfl rest
  · rename_i notQuote notBackslash _ _ _ _ _ _
    have bound := char_not_surrogate character
    simp only
    split
    · exact textBody_unicode (by omega) rest
    · rename_i printable
      split
      · exact textBody_printable notQuote notBackslash printable rest
      · split
        · exact textBody_unicode (by omega) rest
        · have code :
              0x10000 +
                  (0xd800 + (character.toNat - 0x10000) / 1024 - 0xd800) *
                    1024 +
                  (0xdc00 + (character.toNat - 0x10000) % 1024 - 0xdc00) =
                character.toNat := by
            omega
          rw [textBody_pair (by omega) (by omega), code,
            Char.ofNat_toNat]

theorem textBody_quoted (characters rest : List Char) :
    textBody (characters.flatMap escape ++ '"' :: rest) =
      some (characters, rest) := by
  induction characters with
  | nil => simp [textBody]
  | cons character later induction =>
      rw [List.flatMap_cons, List.append_assoc, textBody_escape, induction]
      rfl

/-! ## Reading back values -/

/--
The text is read as the value, whatever follows it.  Two steps for each
character are enough.
-/
def Reads (nesting : Nat) (characters : List Char) (value : Json) : Prop :=
  ∀ fuel depth rest, 2 * characters.length ≤ fuel → nesting ≤ depth →
    parseValue fuel depth (characters ++ rest) = some (value, rest)

theorem reads_null (nesting : Nat) :
    Reads nesting "null".toList .null := by
  intro fuel depth rest enough _
  obtain ⟨fuel, rfl⟩ : ∃ less, fuel = less + 1 :=
    ⟨fuel - 1, by simp at enough; omega⟩
  rfl

theorem reads_text (nesting : Nat) (text : String) :
    Reads nesting (encodeText text) (.text text) := by
  intro fuel depth rest enough _
  obtain ⟨fuel, rfl⟩ : ∃ less, fuel = less + 1 :=
    ⟨fuel - 1, by simp [encodeText] at enough; omega⟩
  have body := textBody_quoted text.toList rest
  simp [parseValue, encodeText, skipBlank, body]

/-! ### Objects -/

/-- The text is read as the fields of an object, with its closing brace. -/
def ReadsFields
    (nesting : Nat) (characters : List Char)
    (fields : List (String × Json)) : Prop :=
  ∀ fuel depth rest, 2 * characters.length ≤ fuel → nesting ≤ depth →
    parseFields fuel depth (characters ++ rest) = some (fields, rest)

/-- A field followed by the closing brace. -/
theorem readsFields_last
    {nesting : Nat} (key : String) {characters : List Char} {value : Json}
    (reads : Reads nesting characters value) :
    ReadsFields nesting
      (encodeText key ++ ':' :: (characters ++ ['}']))
      [(key, value)] := by
  intro fuel depth rest enough deep
  obtain ⟨fuel, rfl⟩ : ∃ less, fuel = less + 1 :=
    ⟨fuel - 1, by simp [encodeText] at enough; omega⟩
  have body :=
    textBody_quoted key.toList (':' :: (characters ++ '}' :: rest))
  have read :=
    reads fuel depth ('}' :: rest)
      (by simp [encodeText] at enough; omega) deep
  simp [parseFields, encodeText, skipBlank, body, read]

/-- A field followed by a comma and more fields. -/
theorem readsFields_more
    {nesting : Nat} (key : String) {characters later : List Char}
    {value : Json} {fields : List (String × Json)}
    (reads : Reads nesting characters value)
    (readsLater : ReadsFields nesting later fields) :
    ReadsFields nesting
      (encodeText key ++ ':' :: (characters ++ ',' :: later))
      ((key, value) :: fields) := by
  intro fuel depth rest enough deep
  obtain ⟨fuel, rfl⟩ : ∃ less, fuel = less + 1 :=
    ⟨fuel - 1, by simp [encodeText] at enough; omega⟩
  have body := textBody_quoted key.toList
    (':' :: (characters ++ ',' :: (later ++ rest)))
  have read :=
    reads fuel depth (',' :: (later ++ rest))
      (by simp [encodeText] at enough; omega) deep
  have readRest :=
    readsLater fuel depth rest (by simp [encodeText] at enough; omega) deep
  simp [parseFields, encodeText, skipBlank, body, read, readRest]

/-- Fields separated by commas. -/
theorem readsFields_joined
    {nesting : Nat} {fields : List (String × List Char × Json)}
    (nonempty : fields ≠ [])
    (reads : ∀ field ∈ fields, Reads nesting field.2.1 field.2.2) :
    ReadsFields nesting
      (List.intercalate [','] (fields.map fun field =>
        encodeText field.1 ++ ':' :: field.2.1) ++ ['}'])
      (fields.map fun field => (field.1, field.2.2)) := by
  induction fields with
  | nil => exact absurd rfl nonempty
  | cons head rest induction =>
      obtain ⟨key, characters, value⟩ := head
      have read := reads (key, characters, value) (by simp)
      cases rest with
      | nil =>
          have last := readsFields_last key read
          simpa [List.intercalate] using last
      | cons second rest =>
          have later := induction (by simp) fun field member =>
            reads field (by simp [member])
          have more := readsFields_more key read later
          simpa [List.intercalate] using more

/-- An object, with the texts of its values. -/
def encodeObject (fields : List (String × List Char)) : List Char :=
  '{' :: (List.intercalate [','] (fields.map fun field =>
    encodeText field.1 ++ ':' :: field.2) ++ ['}'])

theorem reads_object
    {nesting : Nat} {fields : List (String × List Char × Json)}
    (reads : ∀ field ∈ fields, Reads nesting field.2.1 field.2.2) :
    Reads (nesting + 1)
      (encodeObject (fields.map fun field => (field.1, field.2.1)))
      (.object (fields.map fun field => (field.1, field.2.2))) := by
  intro fuel depth rest enough deep
  have opened : depth ≠ 0 := by omega
  obtain ⟨fuel, rfl⟩ : ∃ less, fuel = less + 1 :=
    ⟨fuel - 1, by simp [encodeObject] at enough; omega⟩
  cases fields with
  | nil => simp [encodeObject, List.intercalate, parseValue, skipBlank, opened]
  | cons head others =>
      have joined := readsFields_joined (by simp) reads
      generalize texts :
        (List.intercalate [','] ((head :: others).map fun field =>
          encodeText field.1 ++ ':' :: field.2.1) ++ ['}']) =
            characters at joined
      have isText :
          encodeObject ((head :: others).map fun field =>
            (field.1, field.2.1)) = '{' :: characters := by
        rw [← texts, encodeObject, List.map_map]
        rfl
      obtain ⟨tail, quoted⟩ : ∃ tail, characters = '"' :: tail := by
        rw [← texts]
        cases others with
        | nil => exact ⟨_, rfl⟩
        | cons second more => exact ⟨_, rfl⟩
      rw [isText] at enough ⊢
      have read := joined fuel (depth - 1) rest
        (by simp at enough; omega) (by omega)
      rw [quoted] at read ⊢
      simp only [List.cons_append] at read
      simp [parseValue, skipBlank, opened, read]

/-! ### Arrays -/

/-- The text is read as the items of an array, with its closing bracket. -/
def ReadsItems
    (nesting : Nat) (characters : List Char) (items : List Json) : Prop :=
  ∀ fuel depth rest, 2 * characters.length ≤ fuel → nesting ≤ depth →
    parseItems fuel depth (characters ++ rest) = some (items, rest)

/-- Items separated by commas. -/
theorem readsItems_joined
    {nesting : Nat} {items : List (List Char × Json)}
    (nonempty : items ≠ [])
    (reads : ∀ item ∈ items, Reads nesting item.1 item.2) :
    ReadsItems nesting
      (List.intercalate [','] (items.map Prod.fst) ++ [']'])
      (items.map Prod.snd) := by
  induction items with
  | nil => exact absurd rfl nonempty
  | cons head rest induction =>
      obtain ⟨characters, value⟩ := head
      have read : Reads nesting characters value :=
        reads (characters, value) (by simp)
      intro fuel depth after enough deep
      obtain ⟨fuel, rfl⟩ : ∃ less, fuel = less + 1 :=
        ⟨fuel - 1, by simp at enough; omega⟩
      cases rest with
      | nil =>
          have one := read fuel depth (']' :: after)
            (by simp [List.intercalate] at enough; omega) deep
          simp [List.intercalate, parseItems, one, skipBlank]
      | cons second rest =>
          have later := induction (by simp) fun item member =>
            reads item (by simp [member])
          generalize texts :
            (List.intercalate [','] ((second :: rest).map Prod.fst) ++
              [']']) = more at later
          have isText :
              List.intercalate [',']
                  (((characters, value) :: second :: rest).map Prod.fst) ++
                [']'] = characters ++ ',' :: more := by
            rw [← texts]
            simp [List.intercalate]
          rw [isText] at enough ⊢
          have one := read fuel depth (',' :: (more ++ after))
            (by simp at enough; omega) deep
          have others := later fuel depth after
            (by simp at enough; omega) deep
          simp only [List.append_assoc, List.cons_append]
          simp [parseItems, one, skipBlank, others]

/-- An array, with the texts of its items. -/
def encodeList (items : List (List Char)) : List Char :=
  '[' :: (List.intercalate [','] items ++ [']'])

/-- An array of string literals. -/
theorem reads_texts (nesting : Nat) (texts : List String) :
    Reads (nesting + 1) (encodeList (texts.map encodeText))
      (.list (texts.map .text)) := by
  intro fuel depth rest enough deep
  have opened : depth ≠ 0 := by omega
  obtain ⟨fuel, rfl⟩ : ∃ less, fuel = less + 1 :=
    ⟨fuel - 1, by simp [encodeList] at enough; omega⟩
  cases texts with
  | nil => simp [encodeList, List.intercalate, parseValue, skipBlank, opened]
  | cons first others =>
      have each : ∀ item ∈ (first :: others).map fun text =>
          (encodeText text, Json.text text),
            Reads nesting item.1 item.2 := by
        intro item member
        obtain ⟨text, -, rfl⟩ := List.mem_map.mp member
        exact reads_text nesting text
      have joined := readsItems_joined (by simp) each
      simp only [List.map_map, Function.comp_def] at joined
      generalize isText :
        (List.intercalate [','] ((first :: others).map encodeText) ++
          [']']) = characters at joined
      obtain ⟨tail, quoted⟩ : ∃ tail, characters = '"' :: tail := by
        rw [← isText]
        cases others with
        | nil => exact ⟨_, rfl⟩
        | cons second more => exact ⟨_, rfl⟩
      rw [encodeList, isText] at enough ⊢
      have read := joined fuel (depth - 1) rest
        (by simp at enough; omega) (by omega)
      rw [quoted] at read ⊢
      simp only [List.cons_append] at read
      simp [parseValue, skipBlank, opened, read]

/-! ### Whole texts -/

theorem decode_of_reads
    {nesting : Nat} {characters : List Char} {value : Json}
    (reads : Reads nesting characters value) (shallow : nesting ≤ 512) :
    decode (String.ofList characters) = value := by
  have read := reads (2 * characters.length + 2) 512 [] (by omega) shallow
  rw [List.append_nil] at read
  simp [decode, read, skipBlank]

/-! ## Plain text -/

/-- A character that a string literal holds as it is. -/
def Plain (character : Char) : Prop :=
  character ≠ '"' ∧ character ≠ '\\' ∧ escape character = [character] ∧
    ¬ character.toNat < 0x20

instance (character : Char) : Decidable (Plain character) :=
  inferInstanceAs (Decidable (_ ∧ _ ∧ _ ∧ _))

/-- A text of plain characters. -/
def PlainText (text : String) : Prop :=
  ∀ character ∈ text.toList, Plain character

instance (text : String) : Decidable (PlainText text) :=
  decidable_of_iff
    (text.toList.all fun character => decide (Plain character)) (by
      simp [PlainText])

end NomadiCore.Library.JsonText
