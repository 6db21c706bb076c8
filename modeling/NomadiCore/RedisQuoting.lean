import Mathlib.Data.List.TakeWhile
import Mathlib.Tactic.Common
import NomadiCore.RedisKeyspace

/-!
# Quoted strings of the Redis server

`sdssplitargs` of `sds.c` splits a line into words: the inline requests of
clients, the lines of a configuration file and the input of the command line
client.  `sdscatrepr` writes a string as one quoted word, with escapes for
what cannot be printed.  What the one writes the other reads back.
-/

namespace NomadiCore.Redis

/-! ## The functions -/

def backslash : Char := '\x5c'

def doubleQuote : Char := '\x22'

def singleQuote : Char := '\x27'

def isspace (character : Char) : Bool :=
  character == ' ' || character == '\t' || character == '\n' ||
    character == '\x0b' || character == '\x0c' || character == '\r'

/-- The printable characters of the C locale. -/
def isprint (character : Char) : Bool :=
  32 ≤ character.toNat && character.toNat ≤ 126

def isHexDigit (character : Char) : Bool :=
  ('0' ≤ character && character ≤ '9') ||
    ('a' ≤ character && character ≤ 'f') ||
    ('A' ≤ character && character ≤ 'F')

def hexDigitToInt (character : Char) : Nat :=
  if '0' ≤ character ∧ character ≤ '9' then character.toNat - '0'.toNat
  else if 'a' ≤ character ∧ character ≤ 'f' then
    character.toNat - 'a'.toNat + 10
  else if 'A' ≤ character ∧ character ≤ 'F' then
    character.toNat - 'A'.toNat + 10
  else 0

/-- The flags `inq` and `insq` of the loop, which are never both set. -/
inductive Quoting where
  | plain
  | double
  | single
deriving DecidableEq

/-- The character an escape in double quotes stands for. -/
def unescape (character : Char) : Char :=
  if character = 'n' then '\n'
  else if character = 'r' then '\r'
  else if character = 't' then '\t'
  else if character = 'b' then '\x08'
  else if character = 'a' then '\x07'
  else character

/-- A quote that closes a word is followed by a space or by nothing. -/
def closes : Sds → Bool
  | [] => true
  | next :: _ => isspace next

/--
The loop that gets one word: the word and what follows it, unless a quote is
not closed as it should be.
-/
def getToken (quoting : Quoting) (current : Sds) :
    Sds → Option (Sds × Sds)
  | [] =>
      match quoting with
      | .plain => some (current, [])
      | .double => none
      | .single => none
  | first :: rest =>
      match quoting with
      | .plain =>
          if first = ' ' ∨ first = '\n' ∨ first = '\r' ∨ first = '\t' then
            some (current, rest)
          else if first = doubleQuote then getToken .double current rest
          else if first = singleQuote then getToken .single current rest
          else getToken .plain (current ++ [first]) rest
      | .double =>
          if first = backslash then
            match rest with
            | [] => getToken .double (current ++ [first]) []
            | second :: tail =>
                match tail with
                | high :: low :: left =>
                    if second = 'x' ∧ isHexDigit high ∧ isHexDigit low then
                      getToken .double
                        (current ++ [Char.ofNat
                          (hexDigitToInt high * 16 + hexDigitToInt low)])
                        left
                    else
                      getToken .double (current ++ [unescape second])
                        (high :: low :: left)
                | tail =>
                    getToken .double (current ++ [unescape second]) tail
          else if first = doubleQuote then
            if closes rest then some (current, rest) else none
          else getToken .double (current ++ [first]) rest
      | .single =>
          if first = backslash ∧ rest.head? = some singleQuote then
            match rest with
            | [] => none
            | _ :: tail => getToken .single (current ++ [singleQuote]) tail
          else if first = singleQuote then
            if closes rest then some (current, rest) else none
          else getToken .single (current ++ [first]) rest

/-- A word takes at least one character. -/
theorem getToken_length {quoting : Quoting} {current text token left : Sds}
    (got : getToken quoting current text = some (token, left)) :
    left.length ≤ text.length - 1 := by
  fun_induction getToken quoting current text <;> simp_all <;> omega

/-- The outer loop, which skips the blanks before each word. -/
def splitArgs (line : Sds) : Option (List Sds) :=
  match _ : line.dropWhile isspace with
  | [] => some []
  | first :: rest =>
      match _ : getToken .plain [] (first :: rest) with
      | none => none
      | some (token, left) => (splitArgs left).map (token :: ·)
termination_by line.length
decreasing_by
  rename_i found got
  have shorter := getToken_length got
  have suffix := (List.dropWhile_suffix isspace (l := line)).length_le
  rw [found] at suffix
  simp only [List.length_cons] at shorter suffix
  omega

/-- The words of a line, which ends at a zero. -/
def sdssplitargs (line : Sds) : Option (List Sds) :=
  splitArgs (line.takeWhile (· != '\x00'))

/-- One character as `sdscatrepr` writes it; `%02x` has two digits. -/
def catChar (character : Char) : Sds :=
  if character = backslash ∨ character = doubleQuote then
    [backslash, character]
  else if character = '\n' then [backslash, 'n']
  else if character = '\r' then [backslash, 'r']
  else if character = '\t' then [backslash, 't']
  else if character = '\x07' then [backslash, 'a']
  else if character = '\x08' then [backslash, 'b']
  else if isprint character then [character]
  else
    [backslash, 'x', Nat.digitChar (character.toNat / 16),
      Nat.digitChar (character.toNat % 16)]

def sdscatrepr (text : Sds) : Sds :=
  doubleQuote :: text.flatMap catChar ++ [doubleQuote]

/-! ## Reading back what was written -/

theorem isHexDigit_digitChar {value : Nat} (small : value < 16) :
    isHexDigit (Nat.digitChar value) = true := by
  revert value
  decide

theorem hexDigitToInt_digitChar {value : Nat} (small : value < 16) :
    hexDigitToInt (Nat.digitChar value) = value := by
  revert value
  decide

/-- An escape whose second character is no `x`. -/
theorem getToken_escape {second : Char} (notHex : second ≠ 'x')
    (current rest : Sds) :
    getToken .double current (backslash :: second :: rest) =
      getToken .double (current ++ [unescape second]) rest := by
  rcases rest with _ | ⟨high, _ | ⟨low, left⟩⟩
  · rw [getToken.eq_def]
    simp
  · rw [getToken.eq_def]
    simp
  · rw [getToken.eq_def]
    simp [notHex]

theorem getToken_hex {value : Nat} (byte : value < 256)
    (current rest : Sds) :
    getToken .double current
        (backslash :: 'x' :: Nat.digitChar (value / 16) ::
          Nat.digitChar (value % 16) :: rest) =
      getToken .double (current ++ [Char.ofNat value]) rest := by
  have high : value / 16 < 16 := by omega
  have low : value % 16 < 16 := by omega
  rw [getToken]
  simp only [if_true, isHexDigit_digitChar high, isHexDigit_digitChar low,
    hexDigitToInt_digitChar high, hexDigitToInt_digitChar low, and_self]
  rw [show value / 16 * 16 + value % 16 = value by omega]

/-- A character of a quoted word is read back. -/
theorem getToken_catChar {character : Char} (byte : character.toNat < 256)
    (current rest : Sds) :
    getToken .double current (catChar character ++ rest) =
      getToken .double (current ++ [character]) rest := by
  unfold catChar
  split
  next special =>
    have same : unescape character = character := by
      rcases special with rfl | rfl <;> decide
    have notHex : character ≠ 'x' := by
      rcases special with rfl | rfl <;> decide
    simp only [List.cons_append, List.nil_append]
    rw [getToken_escape notHex, same]
  next ordinary =>
    have noBackslash : character ≠ backslash := fun same =>
      ordinary (.inl same)
    have noQuote : character ≠ doubleQuote := fun same =>
      ordinary (.inr same)
    split
    next isNewline =>
      subst isNewline
      exact getToken_escape (by decide) current rest
    split
    next isReturn =>
      subst isReturn
      exact getToken_escape (by decide) current rest
    split
    next isTab =>
      subst isTab
      exact getToken_escape (by decide) current rest
    split
    next isBell =>
      subst isBell
      exact getToken_escape (by decide) current rest
    split
    next isBackspace =>
      subst isBackspace
      exact getToken_escape (by decide) current rest
    split
    next printed =>
      simp only [List.cons_append, List.nil_append]
      rw [getToken.eq_def]
      simp [noBackslash, noQuote]
    next unprinted =>
      have same := getToken_hex byte current rest
      rw [Char.ofNat_toNat] at same
      exact same

theorem getToken_quoted {text : Sds}
    (bytes : ∀ character ∈ text, character.toNat < 256)
    (current : Sds) {rest : Sds} (ends : closes rest = true) :
    getToken .double current (text.flatMap catChar ++ doubleQuote :: rest) =
      some (current ++ text, rest) := by
  induction text generalizing current with
  | nil =>
      rw [getToken.eq_def]
      simp [ends, doubleQuote, backslash]
  | cons first others inductionHypothesis =>
      have step := inductionHypothesis
        (fun character member => bytes character (by simp [member]))
        (current ++ [first])
      rw [List.flatMap_cons, List.append_assoc,
        getToken_catChar (bytes first (by simp)), step]
      simp

/-- A word without quotes ends at one of these. -/
def endsWord (character : Char) : Bool :=
  character == ' ' || character == '\n' || character == '\r' ||
    character == '\t'

/-- A character that may stand in a word without quotes. -/
def isBare (character : Char) : Bool :=
  !isspace character && character != doubleQuote &&
    character != singleQuote && character != '\x00'

theorem getToken_bare {text : Sds}
    (bare : ∀ character ∈ text, isBare character = true) (current : Sds) :
    getToken .plain current text = some (current ++ text, []) ∧
      ∀ {character : Char} (rest : Sds), endsWord character = true →
        getToken .plain current (text ++ character :: rest) =
          some (current ++ text, rest) := by
  induction text generalizing current with
  | nil =>
      refine ⟨by simp [getToken], fun {character} rest ends => ?_⟩
      simp only [endsWord, Bool.or_eq_true, beq_iff_eq, or_assoc] at ends
      rw [List.nil_append, getToken.eq_def]
      simp [ends]
  | cons first others inductionHypothesis =>
      have isBareFirst := bare first (by simp)
      obtain ⟨atEnd, before⟩ := inductionHypothesis
        (fun character member => bare character (by simp [member]))
        (current ++ [first])
      simp only [isBare, isspace, Bool.and_eq_true, Bool.not_eq_true',
        Bool.or_eq_false_iff, beq_eq_false_iff_ne, bne_iff_ne, ne_eq]
        at isBareFirst
      have plainStep (rest : Sds) :
          getToken .plain current (first :: rest) =
            getToken .plain (current ++ [first]) rest := by
        rw [getToken.eq_def]
        simp [isBareFirst]
      refine ⟨?_, fun rest ends => ?_⟩
      · rw [plainStep, atEnd]
        simp
      · rw [List.cons_append, plainStep, before rest ends]
        simp

/-! ## Whole lines -/

/-- A word as it stands in a line, and the string it stands for. -/
inductive Spells : Sds → Sds → Prop where
  | bare {value : Sds} (nonempty : value ≠ [])
      (bare : ∀ character ∈ value, isBare character = true) :
      Spells value value
  | quoted {value : Sds}
      (bytes : ∀ character ∈ value, character.toNat < 256) :
      Spells (sdscatrepr value) value

/-- A line of words with blanks around them, and the strings. -/
inductive Line : Sds → List Sds → Prop where
  | empty : Line [] []
  | blank {character : Char} {rest : Sds} {values : List Sds}
      (isBlank : isspace character = true) (line : Line rest values) :
      Line (character :: rest) values
  | last {word value : Sds} (spelled : Spells word value) :
      Line word [value]
  | word {word value rest : Sds} {character : Char} {values : List Sds}
      (spelled : Spells word value) (ends : endsWord character = true)
      (line : Line rest values) :
      Line (word ++ character :: rest) (value :: values)

theorem isspace_of_endsWord {character : Char}
    (ends : endsWord character = true) : isspace character = true := by
  simp only [endsWord, Bool.or_eq_true, beq_iff_eq] at ends
  rcases ends with ((rfl | rfl) | rfl) | rfl <;> decide

theorem splitArgs_of_blank {line : Sds}
    (found : line.dropWhile isspace = []) : splitArgs line = some [] := by
  rw [splitArgs]
  split
  next => rfl
  next isCons => simp [found] at isCons

theorem splitArgs_of_word {line : Sds} {first : Char} {rest : Sds}
    (found : line.dropWhile isspace = first :: rest) :
    splitArgs line =
      (getToken .plain [] (first :: rest)).bind fun word =>
        (splitArgs word.2).map (word.1 :: ·) := by
  rw [splitArgs]
  split
  next isNil => simp [found] at isNil
  next first' rest' isCons =>
    rw [found, List.cons.injEq] at isCons
    obtain ⟨rfl, rfl⟩ := isCons
    split
    next missing => rw [missing, Option.bind_none]
    next token left got => rw [got, Option.bind_some]

@[simp]
theorem splitArgs_nil : splitArgs [] = some [] := splitArgs_of_blank rfl

theorem splitArgs_blank {character : Char}
    (isBlank : isspace character = true) (rest : Sds) :
    splitArgs (character :: rest) = splitArgs rest := by
  have skipped : (character :: rest).dropWhile isspace =
      rest.dropWhile isspace := by
    simp [isBlank]
  cases found : rest.dropWhile isspace with
  | nil =>
      rw [splitArgs_of_blank found, splitArgs_of_blank (skipped.trans found)]
  | cons first others =>
      rw [splitArgs_of_word found, splitArgs_of_word (skipped.trans found)]

theorem splitArgs_token {first : Char} {rest token left : Sds}
    (notBlank : isspace first = false)
    (got : getToken .plain [] (first :: rest) = some (token, left)) :
    splitArgs (first :: rest) = (splitArgs left).map (token :: ·) := by
  have found : (first :: rest).dropWhile isspace = first :: rest := by
    simp [notBlank]
  rw [splitArgs_of_word found, got, Option.bind_some]

theorem splitArgs_bare {value : Sds} (nonempty : value ≠ [])
    (bare : ∀ character ∈ value, isBare character = true) :
    splitArgs value = some [value] ∧
      ∀ {character : Char} (rest : Sds), endsWord character = true →
        splitArgs (value ++ character :: rest) =
          (splitArgs rest).map (value :: ·) := by
  obtain ⟨first, others, rfl⟩ := List.exists_cons_of_ne_nil nonempty
  have isBareFirst := bare first (by simp)
  have notBlank : isspace first = false := by
    simp only [isBare, Bool.and_eq_true, Bool.not_eq_true'] at isBareFirst
    exact isBareFirst.1.1.1
  obtain ⟨atEnd, before⟩ := getToken_bare bare []
  refine ⟨?_, fun rest ends => ?_⟩
  · rw [splitArgs_token notBlank atEnd]
    simp
  · exact splitArgs_token notBlank (before rest ends)

theorem splitArgs_quoted {value : Sds}
    (bytes : ∀ character ∈ value, character.toNat < 256) {rest : Sds}
    (ends : closes rest = true) :
    splitArgs (sdscatrepr value ++ rest) =
      (splitArgs rest).map (value :: ·) := by
  have got := getToken_quoted bytes [] ends
  simp only [sdscatrepr, List.cons_append, List.append_assoc,
    List.nil_append]
  refine splitArgs_token (by decide) ?_
  rw [getToken.eq_def]
  simpa [doubleQuote, singleQuote] using got

/-- The words of a line are split, whatever blanks stand between them. -/
theorem splitArgs_line {text : Sds} {values : List Sds}
    (line : Line text values) : splitArgs text = some values := by
  induction line with
  | empty => simp
  | blank isBlank _ inductionHypothesis =>
      rw [splitArgs_blank isBlank, inductionHypothesis]
  | last spelled =>
      cases spelled with
      | bare nonempty bare => exact (splitArgs_bare nonempty bare).1
      | quoted bytes =>
          have split := @splitArgs_quoted _ bytes [] rfl
          simpa using split
  | word spelled ends _ inductionHypothesis =>
      cases spelled with
      | bare nonempty bare =>
          rw [(splitArgs_bare nonempty bare).2 _ ends, inductionHypothesis]
          rfl
      | quoted bytes =>
          have isBlank := isspace_of_endsWord ends
          rw [splitArgs_quoted bytes (by simpa [closes] using isBlank),
            splitArgs_blank isBlank, inductionHypothesis]
          rfl

theorem isprint_digitChar {value : Nat} (small : value < 16) :
    isprint (Nat.digitChar value) = true := by
  revert value
  decide

/-- Whatever is quoted can be printed. -/
theorem isprint_catChar {character : Char} (byte : character.toNat < 256)
    {written : Char} (member : written ∈ catChar character) :
    isprint written = true := by
  have high : character.toNat / 16 < 16 := by omega
  have low : character.toNat % 16 < 16 := by omega
  have isBackslash : isprint backslash = true := by decide
  unfold catChar at member
  split at member
  next special =>
    rcases special with rfl | rfl
    · simp only [List.mem_cons, List.not_mem_nil, or_false] at member
      rcases member with rfl | rfl <;> decide
    · simp only [List.mem_cons, List.not_mem_nil, or_false] at member
      rcases member with rfl | rfl <;> decide
  next =>
    split_ifs at member with _ _ _ _ _ printed
    all_goals simp only [List.mem_cons, List.not_mem_nil, or_false] at member
    · rcases member with rfl | rfl <;> decide
    · rcases member with rfl | rfl <;> decide
    · rcases member with rfl | rfl <;> decide
    · rcases member with rfl | rfl <;> decide
    · rcases member with rfl | rfl <;> decide
    · exact member ▸ printed
    · rcases member with rfl | rfl | rfl | rfl
      · exact isBackslash
      · decide
      · exact isprint_digitChar high
      · exact isprint_digitChar low

theorem isprint_sdscatrepr {value : Sds}
    (bytes : ∀ character ∈ value, character.toNat < 256)
    {written : Char} (member : written ∈ sdscatrepr value) :
    isprint written = true := by
  simp only [sdscatrepr, List.cons_append, List.mem_cons, List.mem_append,
    List.mem_flatMap, List.not_mem_nil, or_false] at member
  rcases member with rfl | ⟨character, stored, among⟩ | rfl
  · decide
  · exact isprint_catChar (bytes character stored) among
  · decide

/-- No zero ends a line before its end. -/
theorem Line.noZero {text : Sds} {values : List Sds}
    (line : Line text values) : ∀ character ∈ text, character ≠ '\x00' := by
  have ofWord {word value : Sds} (spelled : Spells word value) :
      ∀ character ∈ word, character ≠ '\x00' := by
    intro character member isZero
    subst isZero
    cases spelled with
    | bare nonempty bare =>
        have impossible := bare _ member
        revert impossible
        decide
    | quoted bytes =>
        have impossible := isprint_sdscatrepr bytes member
        revert impossible
        decide
  have ofBlank {character : Char} (isBlank : isspace character = true) :
      character ≠ '\x00' := by
    rintro rfl
    revert isBlank
    decide
  induction line with
  | empty => simp
  | blank isBlank _ inductionHypothesis =>
      simp only [List.mem_cons, forall_eq_or_imp]
      exact ⟨ofBlank isBlank, inductionHypothesis⟩
  | last spelled => exact ofWord spelled
  | word spelled ends _ inductionHypothesis =>
      intro character member
      simp only [List.mem_append, List.mem_cons] at member
      rcases member with inWord | rfl | inRest
      · exact ofWord spelled character inWord
      · exact ofBlank (isspace_of_endsWord ends)
      · exact inductionHypothesis character inRest

/--
A line of bare and quoted words, with any blanks around them, is split into
the strings the words stand for.
-/
theorem sdssplitargs_line {text : Sds} {values : List Sds}
    (line : Line text values) : sdssplitargs text = some values := by
  have whole : text.takeWhile (· != '\x00') = text := by
    rw [List.takeWhile_eq_self_iff]
    intro character member
    simpa using line.noZero character member
  rw [sdssplitargs, whole]
  exact splitArgs_line line

/-- A name, a string with a line end in it, and blanks. -/
theorem sdssplitargs_line_set :
    sdssplitargs (['S', 'E', 'T'] ++ ' ' :: '\t' ::
        sdscatrepr ['a', '\n', '\x00', 'b']) =
      some [['S', 'E', 'T'], ['a', '\n', '\x00', 'b']] :=
  sdssplitargs_line
    (.word (.bare (by simp) (by
        simp [isBare, isspace, doubleQuote, singleQuote])) (by decide)
      (.blank (by decide) (.last (.quoted (by simp)))))

end NomadiCore.Redis
