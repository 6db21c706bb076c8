import NomadiCore.Library.BufferedReader
import NomadiCore.RedisCommands
import NomadiCore.RedisQuoting

/-!
# The protocol of the Redis server

`networking.c` appends what arrives on a connection to a query buffer and takes
requests off its front: a line of words, or a count followed by that many
strings, each behind its length.  A request may arrive in any number of pieces;
what has been read of it stays in the client's record until the rest is there.
A large string that fills the buffer is not copied but taken over as a whole.
A failed assertion stops the server: such a run has no result.
-/

namespace NomadiCore.Redis

open NomadiCore.Library

/-! ## The functions -/

inductive RequestType where
  | inline
  | multibulk
deriving DecidableEq

/-- The record of a connection; `none` stands for a `bulklen` of −1. -/
structure Client where
  querybuf : Sds := []
  qbPos : Nat := 0
  reqtype : Option RequestType := none
  argv : List Sds := []
  multibulklen : Nat := 0
  bulklen : Option Nat := none
  closeAfterReply : Bool := false
  reply : Sds := []
deriving DecidableEq

/-- The bytes of the buffer from `qb_pos` on. -/
def Client.pending (c : Client) : Sds := c.querybuf.drop c.qbPos

/-- The distance to a character, which is not looked for behind a zero. -/
def strchr (wanted : Char) : Sds → Option Nat
  | [] => none
  | first :: rest =>
      if first = wanted then some 0
      else if first = '\x00' then none
      else (strchr wanted rest).map (· + 1)

/-- Nothing is added once the connection is to be closed. -/
def addReply (c : Client) (text : Sds) : Client :=
  if c.closeAfterReply then c else { c with reply := c.reply ++ text }

def addReplyError (c : Client) (message : Sds) : Client :=
  addReply c ("-ERR ".toList ++ message ++ "\r\n".toList)

/-- A formatted error has no line ends. -/
def addReplyErrorFormat (c : Client) (message : Sds) : Client :=
  addReplyError c
    (message.map fun character =>
      if character = '\r' ∨ character = '\n' then ' ' else character)

def setProtocolError (c : Client) : Client :=
  { c with closeAfterReply := true }

def protoInlineMaxSize : Nat := 65536

def protoMbulkBigArg : Nat := 32768

def protoIobufLen : Nat := 16384

/-- The client, and whether a request is complete. -/
def processInlineBuffer (c : Client) : Client × Bool :=
  match strchr '\n' c.pending with
  | none =>
      if c.querybuf.length - c.qbPos > protoInlineMaxSize then
        (setProtocolError (addReplyError c
          "Protocol error: too big inline request".toList), false)
      else (c, false)
  | some newline =>
      let carriage := newline ≠ 0 ∧ charAt c.pending (newline - 1) = '\r'
      let querylen := if carriage then newline - 1 else newline
      let linefeedChars := if carriage then 2 else 1
      match sdssplitargs (c.pending.take querylen) with
      | none =>
          (setProtocolError (addReplyError c
            "Protocol error: unbalanced quotes in request".toList), false)
      | some argv =>
          ({ c with
              qbPos := c.qbPos + (querylen + linefeedChars)
              argv := argv.filter fun argument => !argument.isEmpty }, true)

/-- Whether a string of a known length is complete; `none` ends the loop. -/
def readBulk (c : Client) (bulklen : Nat) : Option Client :=
  if c.querybuf.length - c.qbPos < bulklen + 2 then none
  else if c.qbPos = 0 ∧ bulklen ≥ protoMbulkBigArg ∧
      c.querybuf.length = bulklen + 2 then
    -- The buffer becomes the argument, without its last two bytes.
    some { c with
      argv := c.argv ++ [c.querybuf.take (c.querybuf.length - 2)]
      querybuf := []
      bulklen := none }
  else
    some { c with
      argv := c.argv ++ [c.pending.take bulklen]
      qbPos := c.qbPos + (bulklen + 2)
      bulklen := none }

/-- A buffer with nothing but a part of a large string starts with it. -/
def startBulk (c : Client) (ll : Nat) : Client :=
  if ll ≥ protoMbulkBigArg ∧ c.querybuf.length - c.qbPos ≤ ll + 2 then
    { c with querybuf := c.pending, qbPos := 0, bulklen := some ll }
  else { c with bulklen := some ll }

/-- The length of the next string, if it is unknown; an error ends the loop. -/
def readBulkLength (protoMaxBulkLen : Nat) (c : Client) :
    Except Client (Client × Nat) :=
  match c.bulklen with
  | some bulklen => .ok (c, bulklen)
  | none =>
      match strchr '\r' c.pending with
      | none =>
          if c.querybuf.length - c.qbPos > protoInlineMaxSize then
            .error (setProtocolError (addReplyError c
              "Protocol error: too big bulk count string".toList))
          else .error c
      | some newline =>
          if newline + 2 > c.querybuf.length - c.qbPos then .error c
          else if charAt c.pending 0 ≠ '$' then
            .error (setProtocolError (addReplyErrorFormat c
              ("Protocol error: expected '$', got '".toList ++
                [charAt c.pending 0] ++ "'".toList)))
          else
            match string2ll ((c.pending.take newline).drop 1) with
            | none =>
                .error (setProtocolError (addReplyError c
                  "Protocol error: invalid bulk length".toList))
            | some ll =>
                if ll < 0 ∨ ll > protoMaxBulkLen then
                  .error (setProtocolError (addReplyError c
                    "Protocol error: invalid bulk length".toList))
                else
                  .ok (startBulk { c with qbPos := c.qbPos + (newline + 2) }
                    ll.toNat, ll.toNat)

/-- The loop over the strings of a request. -/
def readBulks (protoMaxBulkLen : Nat) : Nat → Client → Client × Bool
  | 0, c => (c, true)
  | left + 1, c =>
      match readBulkLength protoMaxBulkLen c with
      | .error stopped => (stopped, false)
      | .ok (started, bulklen) =>
          match readBulk started bulklen with
          | none => (started, false)
          | some read =>
              readBulks protoMaxBulkLen left { read with multibulklen := left }

def processMultibulkBuffer (protoMaxBulkLen : Nat) (c : Client) :
    Option (Client × Bool) :=
  if c.multibulklen = 0 then
    if c.argv ≠ [] then none
    else
      match strchr '\r' c.pending with
      | none =>
          if c.querybuf.length - c.qbPos > protoInlineMaxSize then
            some (setProtocolError (addReplyError c
              "Protocol error: too big mbulk count string".toList), false)
          else some (c, false)
      | some newline =>
          if newline + 2 > c.querybuf.length - c.qbPos then some (c, false)
          else if charAt c.pending 0 ≠ '*' then none
          else
            match string2ll ((c.pending.take newline).drop 1) with
            | none =>
                some (setProtocolError (addReplyError c
                  "Protocol error: invalid multibulk length".toList), false)
            | some ll =>
                if ll > 1048576 then
                  some (setProtocolError (addReplyError c
                    "Protocol error: invalid multibulk length".toList), false)
                else
                  let passed := { c with qbPos := c.qbPos + (newline + 2) }
                  if ll ≤ 0 then some (passed, true)
                  else
                    some (readBulks protoMaxBulkLen ll.toNat
                      { passed with multibulklen := ll.toNat })
  else some (readBulks protoMaxBulkLen c.multibulklen c)

def resetClient (c : Client) : Client :=
  { c with argv := [], reqtype := none, multibulklen := 0, bulklen := none }

/-- The first byte of a request determines its type. -/
def determineType (c : Client) : Client :=
  match c.reqtype with
  | some _ => c
  | none =>
      if charAt c.pending 0 = '*' then { c with reqtype := some .multibulk }
      else { c with reqtype := some .inline }

/--
What a command does to the rest of the server, its reply, and whether it closes
the connection.
-/
structure Answer (World : Type) where
  world : World
  reply : Sds
  closes : Bool

section Requests

variable {World : Type} (protoMaxBulkLen : Nat)
  (processCommand : List Sds → World → Answer World)

def parseRequest (c : Client) : Option (Client × Bool) :=
  match c.reqtype with
  | some .multibulk => processMultibulkBuffer protoMaxBulkLen c
  | some .inline => some (processInlineBuffer c)
  | none => none

/-- The end of one round of the loop; only what was executed is reset. -/
def finishRequest (c : Client) (world : World) : Client × World :=
  if c.argv = [] then (resetClient c, world)
  else
    let answer := processCommand c.argv world
    let answered := addReply c answer.reply
    if answer.closes then
      ({ answered with closeAfterReply := true }, answer.world)
    else (resetClient answered, answer.world)

/-- The loop of `processInputBuffer`; each round takes a byte at least. -/
def processRequests : Nat → Client → World → Option (Client × World)
  | 0, c, world => some (c, world)
  | rounds + 1, c, world =>
      if c.querybuf.length ≤ c.qbPos then some (c, world)
      else if c.closeAfterReply then some (c, world)
      else do
        let parsed ← parseRequest protoMaxBulkLen (determineType c)
        if parsed.2 then
          let finished := finishRequest processCommand parsed.1 world
          processRequests rounds finished.1 finished.2
        else some (parsed.1, world)

def processInputBuffer (c : Client) (world : World) :
    Option (Client × World) := do
  let served ← processRequests protoMaxBulkLen processCommand
    (c.querybuf.length - c.qbPos) c world
  some ({ served.1 with querybuf := served.1.pending, qbPos := 0 }, served.2)

/-- How much is read at once. -/
def readlen (c : Client) : Nat :=
  match c.bulklen with
  | some bulklen =>
      if c.reqtype = some .multibulk ∧ c.multibulklen ≠ 0 ∧
          bulklen ≥ protoMbulkBigArg then
        let remaining := bulklen + 2 - c.querybuf.length
        if remaining > 0 ∧ remaining < protoIobufLen then remaining
        else protoIobufLen
      else protoIobufLen
  | none => protoIobufLen

/--
Some of the bytes on their way are available and are appended and processed;
with none of them the read is tried again later.  A client whose buffer grows
too large is freed, which leaves none.
-/
def readQueryFromClient (clientMaxQuerybufLen available : Nat) (wire : Sds)
    (c : Client) (world : World) : Option (Option Client × Sds × World) :=
  let nread := min available (readlen c)
  let querybuf := c.querybuf ++ wire.take nread
  if wire.take nread = [] then some (some c, wire, world)
  else if querybuf.length > clientMaxQuerybufLen then
    some (none, wire.drop nread, world)
  else
    (processInputBuffer protoMaxBulkLen processCommand
      { c with querybuf := querybuf } world).map
      fun served => (some served.1, wire.drop nread, served.2)

end Requests

/-! ## Searching a buffer -/

theorem strchr_lt {wanted : Char} {text : Sds} {index : Nat}
    (found : strchr wanted text = some index) : index < text.length := by
  induction text generalizing index with
  | nil => cases found
  | cons first rest inductionHypothesis =>
      unfold strchr at found
      split_ifs at found with isWanted isZero
      · cases found
        simp
      · obtain ⟨before, there, rfl⟩ := Option.map_eq_some_iff.mp found
        have bound := inductionHypothesis there
        simp only [List.length_cons]
        omega

theorem strchr_append {wanted : Char} {text : Sds} {index : Nat}
    (found : strchr wanted text = some index) (more : Sds) :
    strchr wanted (text ++ more) = some index := by
  induction text generalizing index with
  | nil => cases found
  | cons first rest inductionHypothesis =>
      unfold strchr at found
      rw [List.cons_append, strchr]
      split_ifs at found with isWanted isZero
      · rw [if_pos isWanted, found]
      · obtain ⟨before, there, rfl⟩ := Option.map_eq_some_iff.mp found
        rw [if_neg isWanted, if_neg isZero, inductionHypothesis there]
        rfl

/-- The first occurrence behind a text without the character or a zero. -/
theorem strchr_behind {wanted : Char} {text : Sds}
    (clean : ∀ character ∈ text, character ≠ wanted ∧ character ≠ '\x00')
    (more : Sds) :
    strchr wanted (text ++ wanted :: more) = some text.length := by
  induction text with
  | nil => simp [strchr]
  | cons first rest inductionHypothesis =>
      obtain ⟨notWanted, notZero⟩ := clean first (by simp)
      rw [List.cons_append, strchr, if_neg notWanted, if_neg notZero,
        inductionHypothesis fun character member =>
          clean character (by simp [member])]
      rfl

theorem charAt_append {text : Sds} {index : Nat}
    (inside : index < text.length) (more : Sds) :
    charAt (text ++ more) index = charAt text index := by
  simp only [charAt, List.getD_eq_getElem?_getD,
    List.getElem?_append_left inside]

/-! ## Sessions -/

/-- The record of a connection without its buffer, and the server. -/
structure Session (World : Type) where
  argv : List Sds
  multibulklen : Nat
  bulklen : Option Nat
  closeAfterReply : Bool
  reply : Sds
  world : World

namespace Session

variable {World : Type} (session : Session World)

/-- An error in the protocol closes the connection. -/
def fail (message : Sds) : Session World :=
  { session with
    closeAfterReply := true
    reply := session.reply ++
      ("-ERR ".toList ++ message ++ "\r\n".toList) }

/-- All arguments of a request are there. -/
def IsReady : Prop := session.multibulklen = 0 ∧ session.argv ≠ []

instance : Decidable session.IsReady :=
  inferInstanceAs (Decidable (_ ∧ _))

end Session

/-- A line that ends with `\r` and one more byte, and what follows it. -/
def headerLine (buffer : Sds) : Option (Sds × Sds) :=
  (strchr '\r' buffer).bind fun newline =>
    if newline + 2 > buffer.length then none
    else some (buffer.take newline, buffer.drop (newline + 2))

/-- A line that ends with `\n` or `\r\n`, and what follows it. -/
def inlineLine (buffer : Sds) : Option (Sds × Sds) :=
  (strchr '\n' buffer).map fun newline =>
    if newline ≠ 0 ∧ charAt buffer (newline - 1) = '\r' then
      (buffer.take (newline - 1), buffer.drop (newline + 1))
    else (buffer.take newline, buffer.drop (newline + 1))

theorem headerLine_append {buffer line left : Sds}
    (found : headerLine buffer = some (line, left)) (more : Sds) :
    headerLine (buffer ++ more) = some (line, left ++ more) := by
  obtain ⟨newline, there, split⟩ := Option.bind_eq_some_iff.mp found
  split_ifs at split with short
  cases split
  have long : ¬ newline + 2 > (buffer ++ more).length := by
    simp only [List.length_append]
    omega
  rw [headerLine, strchr_append there more, Option.bind_some, if_neg long,
    List.take_append_of_le_length (by omega),
    List.drop_append_of_le_length (by omega)]

theorem headerLine_length {buffer line left : Sds}
    (found : headerLine buffer = some (line, left)) :
    left.length < buffer.length := by
  obtain ⟨newline, there, split⟩ := Option.bind_eq_some_iff.mp found
  split_ifs at split with short
  cases split
  simp only [List.length_drop]
  omega

theorem inlineLine_append {buffer line left : Sds}
    (found : inlineLine buffer = some (line, left)) (more : Sds) :
    inlineLine (buffer ++ more) = some (line, left ++ more) := by
  obtain ⟨newline, there, split⟩ := Option.map_eq_some_iff.mp found
  have inside := strchr_lt there
  rw [inlineLine, strchr_append there more, Option.map_some,
    charAt_append (by omega) more]
  split_ifs at split ⊢ with carriage
  all_goals
    cases split
    rw [List.take_append_of_le_length (by omega),
      List.drop_append_of_le_length (by omega)]

theorem inlineLine_length {buffer line left : Sds}
    (found : inlineLine buffer = some (line, left)) :
    left.length < buffer.length := by
  obtain ⟨newline, there, split⟩ := Option.map_eq_some_iff.mp found
  have inside := strchr_lt there
  split_ifs at split
  all_goals
    cases split
    simp only [List.length_drop]
    omega

namespace Session

variable {World : Type} (protoMaxBulkLen : Nat)
  (processCommand : List Sds → World → Answer World)
  (session : Session World)

/-- The number of arguments; none is as good as an empty line. -/
def readCount (buffer : Sds) : Option (Session World × Sds) :=
  (headerLine buffer).map fun split =>
    match string2ll (split.1.drop 1) with
    | none =>
        (session.fail "Protocol error: invalid multibulk length".toList,
          buffer)
    | some ll =>
        if ll > 1048576 then
          (session.fail "Protocol error: invalid multibulk length".toList,
            buffer)
        else ({ session with multibulklen := ll.toNat }, split.2)

def readInline (buffer : Sds) : Option (Session World × Sds) :=
  (inlineLine buffer).map fun split =>
    match sdssplitargs split.1 with
    | none =>
        (session.fail "Protocol error: unbalanced quotes in request".toList,
          buffer)
    | some argv =>
        ({ session with
            argv := argv.filter fun argument => !argument.isEmpty },
          split.2)

/-- What the first byte of a length has to be, and what it is. -/
def expectedDollar (first : Char) : Sds :=
  ("Protocol error: expected '$', got '".toList ++ [first] ++
    "'".toList).map fun character =>
      if character = '\r' ∨ character = '\n' then ' ' else character

def readLength (buffer : Sds) : Option (Session World × Sds) :=
  (headerLine buffer).map fun split =>
    if charAt buffer 0 ≠ '$' then
      (session.fail (expectedDollar (charAt buffer 0)), buffer)
    else
      match string2ll (split.1.drop 1) with
      | none =>
          (session.fail "Protocol error: invalid bulk length".toList, buffer)
      | some ll =>
          if ll < 0 ∨ ll > protoMaxBulkLen then
            (session.fail "Protocol error: invalid bulk length".toList,
              buffer)
          else ({ session with bulklen := some ll.toNat }, split.2)

def readArgument (bulklen : Nat) (buffer : Sds) :
    Option (Session World × Sds) :=
  if buffer.length < bulklen + 2 then none
  else
    some ({ session with
        argv := session.argv ++ [buffer.take bulklen]
        multibulklen := session.multibulklen - 1
        bulklen := none },
      buffer.drop (bulklen + 2))

/-- The command is executed; the one that closes the connection stays. -/
def execute : Session World :=
  let answer := processCommand session.argv session.world
  { session with
    argv := if answer.closes then session.argv else []
    closeAfterReply := answer.closes
    reply := session.reply ++ answer.reply
    world := answer.world }

/-- One step: a line, an argument or a command. -/
def next (buffer : Sds) : Option (Session World × Sds) :=
  if session.closeAfterReply then none
  else if session.multibulklen = 0 then
    if session.argv ≠ [] then
      some (session.execute processCommand, buffer)
    else
      match buffer with
      | [] => none
      | first :: rest =>
          if first = '*' then session.readCount (first :: rest)
          else session.readInline (first :: rest)
  else
    match session.bulklen with
    | none => session.readLength protoMaxBulkLen buffer
    | some bulklen => session.readArgument bulklen buffer

def weight (buffer : Sds) : Nat :=
  2 * buffer.length + (if session.IsReady then 1 else 0) +
    if session.closeAfterReply then 0 else 1

section Steps

variable {session} {buffer : Sds} {after : Session World} {left : Sds}

theorem readCount_append (more : Sds)
    (step : session.readCount buffer = some (after, left)) :
    session.readCount (buffer ++ more) = some (after, left ++ more) := by
  obtain ⟨⟨line, rest⟩, found, result⟩ := Option.map_eq_some_iff.mp step
  rw [readCount, headerLine_append found more, Option.map_some]
  dsimp only at result ⊢
  split at result
  next => cases result; rfl
  next ll read =>
    split_ifs at result ⊢ <;> cases result <;> rfl

theorem readInline_append (more : Sds)
    (step : session.readInline buffer = some (after, left)) :
    session.readInline (buffer ++ more) = some (after, left ++ more) := by
  obtain ⟨⟨line, rest⟩, found, result⟩ := Option.map_eq_some_iff.mp step
  rw [readInline, inlineLine_append found more, Option.map_some]
  dsimp only at result ⊢
  split at result <;> cases result <;> rfl

theorem readLength_append (more : Sds)
    (step : session.readLength protoMaxBulkLen buffer =
      some (after, left)) :
    session.readLength protoMaxBulkLen (buffer ++ more) =
      some (after, left ++ more) := by
  obtain ⟨⟨line, rest⟩, found, result⟩ := Option.map_eq_some_iff.mp step
  have nonempty : 0 < buffer.length := by
    have shorter := headerLine_length found
    omega
  rw [readLength, headerLine_append found more, Option.map_some,
    charAt_append nonempty more]
  dsimp only at result ⊢
  split_ifs at result ⊢
  · cases result
    rfl
  · split at result
    next => cases result; rfl
    next ll read =>
      split_ifs at result ⊢ <;> cases result <;> rfl

theorem readArgument_append {bulklen : Nat} (more : Sds)
    (step : session.readArgument bulklen buffer = some (after, left)) :
    session.readArgument bulklen (buffer ++ more) =
      some (after, left ++ more) := by
  unfold readArgument at step ⊢
  split_ifs at step with short
  cases step
  have long : ¬ (buffer ++ more).length < bulklen + 2 := by
    simp only [List.length_append]
    omega
  rw [if_neg long, List.take_append_of_le_length (by omega),
    List.drop_append_of_le_length (by omega)]

theorem next_append (more : Sds)
    (step : session.next protoMaxBulkLen processCommand buffer =
      some (after, left)) :
    session.next protoMaxBulkLen processCommand (buffer ++ more) =
      some (after, left ++ more) := by
  unfold next at step ⊢
  split_ifs at step ⊢ with closed idle ready
  · cases step
    rfl
  · cases buffer with
    | nil => cases step
    | cons first rest =>
        dsimp only [List.cons_append] at step ⊢
        split_ifs at step ⊢
        · exact readCount_append more step
        · exact readInline_append more step
  · cases known : session.bulklen with
    | none =>
        rw [known] at step
        exact readLength_append protoMaxBulkLen more step
    | some bulklen =>
        rw [known] at step
        exact readArgument_append more step

/-- A step closes the connection and takes nothing, or takes something. -/
def Advances (session : Session World) (buffer : Sds)
    (after : Session World) (left : Sds) : Prop :=
  (left = buffer ∧ after.closeAfterReply = true ∧
      (after.IsReady ↔ session.IsReady)) ∨
    left.length < buffer.length

theorem Advances.lighter (advances : session.Advances buffer after left)
    (opened : session.closeAfterReply = false) :
    after.weight left < session.weight buffer := by
  unfold weight
  rw [opened]
  rcases advances with ⟨rfl, closed, same⟩ | shorter
  · simp only [closed, same, if_true, Bool.false_eq_true, if_false]
    omega
  · simp only [Bool.false_eq_true, if_false]
    split_ifs <;> omega

theorem readCount_advances
    (step : session.readCount buffer = some (after, left)) :
    session.Advances buffer after left := by
  obtain ⟨⟨line, rest⟩, found, result⟩ := Option.map_eq_some_iff.mp step
  have shorter := headerLine_length found
  dsimp only at result
  split at result
  next =>
    cases result
    exact .inl ⟨rfl, rfl, Iff.rfl⟩
  next ll read =>
    split_ifs at result
    · cases result
      exact .inl ⟨rfl, rfl, Iff.rfl⟩
    · cases result
      exact .inr shorter

theorem readInline_advances
    (step : session.readInline buffer = some (after, left)) :
    session.Advances buffer after left := by
  obtain ⟨⟨line, rest⟩, found, result⟩ := Option.map_eq_some_iff.mp step
  have shorter := inlineLine_length found
  dsimp only at result
  split at result
  next =>
    cases result
    exact .inl ⟨rfl, rfl, Iff.rfl⟩
  next =>
    cases result
    exact .inr shorter

theorem readLength_advances
    (step : session.readLength protoMaxBulkLen buffer =
      some (after, left)) :
    session.Advances buffer after left := by
  obtain ⟨⟨line, rest⟩, found, result⟩ := Option.map_eq_some_iff.mp step
  have shorter := headerLine_length found
  dsimp only at result
  split_ifs at result
  · cases result
    exact .inl ⟨rfl, rfl, Iff.rfl⟩
  · split at result
    next =>
      cases result
      exact .inl ⟨rfl, rfl, Iff.rfl⟩
    next ll read =>
      split_ifs at result
      · cases result
        exact .inl ⟨rfl, rfl, Iff.rfl⟩
      · cases result
        exact .inr shorter

theorem readArgument_advances {bulklen : Nat}
    (step : session.readArgument bulklen buffer = some (after, left)) :
    session.Advances buffer after left := by
  unfold readArgument at step
  split_ifs at step with short
  cases step
  refine .inr ?_
  simp only [List.length_drop]
  omega

theorem execute_lighter (opened : session.closeAfterReply = false)
    (ready : session.IsReady) :
    (session.execute processCommand).weight buffer <
      session.weight buffer := by
  unfold weight
  rw [if_pos ready, opened]
  by_cases closes : (processCommand session.argv session.world).closes = true
  · simp only [execute, closes, if_true, Bool.false_eq_true, if_false]
    split_ifs <;> omega
  · have notReady : ¬ (session.execute processCommand).IsReady := by
      simp [execute, IsReady, closes]
    rw [if_neg notReady]
    simp [execute, closes]

theorem next_lighter
    (step : session.next protoMaxBulkLen processCommand buffer =
      some (after, left)) :
    after.weight left < session.weight buffer := by
  unfold next at step
  split_ifs at step with closed idle ready
  · cases step
    exact execute_lighter processCommand (by simpa using closed)
      ⟨idle, ready⟩
  · refine Advances.lighter ?_ (by simpa using closed)
    cases buffer with
    | nil => cases step
    | cons first rest =>
        dsimp only at step
        split_ifs at step
        · exact readCount_advances step
        · exact readInline_advances step
  · refine Advances.lighter ?_ (by simpa using closed)
    cases known : session.bulklen with
    | none =>
        rw [known] at step
        exact readLength_advances protoMaxBulkLen step
    | some bulklen =>
        rw [known] at step
        exact readArgument_advances step

end Steps

/-- Sessions read the buffer step by step. -/
def reader : BufferedReader (Session World) Char where
  next := next protoMaxBulkLen processCommand
  weight := weight
  lighter := next_lighter protoMaxBulkLen processCommand
  stable := next_append protoMaxBulkLen processCommand

/-- The complaint about a line that does not end in time. -/
def complaint (buffer : Sds) : Option Sds :=
  if session.closeAfterReply ∨ buffer.length ≤ protoInlineMaxSize then none
  else if session.multibulklen = 0 then
    if charAt buffer 0 = '*' then
      if (strchr '\r' buffer).isSome then none
      else some "Protocol error: too big mbulk count string".toList
    else if (strchr '\n' buffer).isSome then none
    else some "Protocol error: too big inline request".toList
  else if session.bulklen.isSome ∨ (strchr '\r' buffer).isSome then none
  else some "Protocol error: too big bulk count string".toList

/-- A session that waits in the middle of a long line is ended. -/
def complain (buffer : Sds) : Session World :=
  match session.complaint buffer with
  | none => session
  | some message => session.fail message

@[simp]
theorem complaint_of_closed {session : Session World}
    (closed : session.closeAfterReply = true) (buffer : Sds) :
    session.complaint buffer = none := by
  simp [complaint, closed]

@[simp]
theorem complain_of_closed {session : Session World}
    (closed : session.closeAfterReply = true) (buffer : Sds) :
    session.complain buffer = session := by
  simp [complain, closed]

@[simp]
theorem reader_next :
    (reader protoMaxBulkLen processCommand).next =
      next protoMaxBulkLen processCommand := rfl

theorem next_of_closed {session : Session World}
    (closed : session.closeAfterReply = true) (buffer : Sds) :
    session.next protoMaxBulkLen processCommand buffer = none := by
  simp [next, closed]

end Session

end NomadiCore.Redis
