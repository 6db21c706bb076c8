import NomadiCore.RedisRequests

/-!
# Pipelines of requests

A client may send request after request without waiting for the replies.  The
bytes arrive in pieces that have nothing to do with the requests; still every
request is executed once, in order, as soon as it is complete.
-/

namespace NomadiCore.Redis

open NomadiCore.Library

/-! ## Requests on the wire -/

def crlf : Sds := ['\r', '\n']

/-- The number of something that follows. -/
def header (sign : Char) (count : Nat) : Sds :=
  sign :: numeral count ++ crlf

def encodeBulk (argument : Sds) : Sds :=
  header '$' argument.length ++ (argument ++ crlf)

def encodeRequest (argv : List Sds) : Sds :=
  header '*' argv.length ++ argv.flatMap encodeBulk

/-- A request in one of the two forms, and its arguments. -/
inductive Encodes (protoMaxBulkLen : Nat) : Sds → List Sds → Prop where
  | multibulk {argv : List Sds} (nonempty : argv ≠ [])
      (count : argv.length ≤ 1048576)
      (fits : ∀ argument ∈ argv, argument.length ≤ protoMaxBulkLen) :
      Encodes protoMaxBulkLen (encodeRequest argv) argv
  | inline {text ending : Sds} {argv : List Sds} (line : Line text argv)
      (nonempty : argv ≠ []) (proper : ∀ argument ∈ argv, argument ≠ [])
      (noStar : charAt text 0 ≠ '*')
      (oneLine : ∀ character ∈ text, character ≠ '\n' ∧ character ≠ '\r')
      (short : text.length + 2 ≤ protoInlineMaxSize)
      (ends : ending = ['\n'] ∨ ending = crlf) :
      Encodes protoMaxBulkLen (text ++ ending) argv

/-- Requests one after another. -/
inductive Pipeline (protoMaxBulkLen : Nat) : Sds → List (List Sds) → Prop where
  | done : Pipeline protoMaxBulkLen [] []
  | more {text stream : Sds} {argv : List Sds} {requests : List (List Sds)}
      (request : Encodes protoMaxBulkLen text argv)
      (rest : Pipeline protoMaxBulkLen stream requests) :
      Pipeline protoMaxBulkLen (text ++ stream) (argv :: requests)

/-- Requests in the form that libraries send. -/
theorem pipeline_encodeRequest {protoMaxBulkLen : Nat}
    {requests : List (List Sds)}
    (nonempty : ∀ argv ∈ requests, argv ≠ [])
    (count : ∀ argv ∈ requests, argv.length ≤ 1048576)
    (fits : ∀ argv ∈ requests, ∀ argument ∈ argv,
      argument.length ≤ protoMaxBulkLen) :
    Pipeline protoMaxBulkLen (requests.flatMap encodeRequest) requests := by
  induction requests with
  | nil => exact .done
  | cons argv others inductionHypothesis =>
      rw [List.flatMap_cons]
      refine .more (.multibulk (nonempty argv (by simp))
        (count argv (by simp)) (fits argv (by simp)))
        (inductionHypothesis ?_ ?_ ?_)
      · exact fun other member => nonempty other (by simp [member])
      · exact fun other member => count other (by simp [member])
      · exact fun other member => fits other (by simp [member])

theorem numeral_natCast (count : Nat) :
    numeral count = Nat.toDigits 10 count := by
  rw [numeral, if_neg (by omega), Int.natAbs_natCast]

theorem strchr_header {sign : Char} (notReturn : sign ≠ '\r')
    (notZero : sign ≠ '\x00') (count : Nat) (more : Sds) :
    strchr '\r' (header sign count ++ more) =
      some (sign :: numeral count).length := by
  have clean : ∀ character ∈ sign :: numeral count,
      character ≠ '\r' ∧ character ≠ '\x00' := by
    intro character member
    rcases List.mem_cons.mp member with rfl | digit
    · exact ⟨notReturn, notZero⟩
    · have isDigit : character.isDigit = true := by
        rw [numeral_natCast] at digit
        exact Nat.isDigit_of_mem_toDigits (by decide) (by decide) digit
      constructor <;> (rintro rfl; revert isDigit; decide)
  have found := strchr_behind clean ('\n' :: more)
  simpa [header, crlf] using found

theorem headerLine_header {sign : Char} (notReturn : sign ≠ '\r')
    (notZero : sign ≠ '\x00') (count : Nat) (more : Sds) :
    headerLine (header sign count ++ more) =
      some (sign :: numeral count, more) := by
  rw [headerLine, strchr_header notReturn notZero, Option.bind_some,
    if_neg (by simp [header, crlf])]
  simp [header, crlf]

theorem string2ll_numeral {count : Nat} (fits : count ≤ llongMax) :
    string2ll (numeral count) = some (count : Int) := by
  have maximum : llongMax = 9223372036854775807 := rfl
  exact (string2ll_iff _ _).mpr ⟨⟨by omega, by omega⟩, rfl⟩

theorem length_header_le {count : Nat} (fits : count ≤ llongMax)
    (sign : Char) : (header sign count).length ≤ 23 := by
  have maximum : llongMax = 9223372036854775807 := rfl
  have digits := @numeral_length_le count ⟨by omega, by omega⟩
  simp only [header, crlf, List.cons_append, List.length_cons,
    List.length_append, List.length_nil]
  omega

theorem charAt_header (sign : Char) (count : Nat) (more : Sds) :
    charAt (header sign count ++ more) 0 = sign := rfl

/-- A line in its own buffer. -/
theorem inlineLine_line {text ending : Sds}
    (oneLine : ∀ character ∈ text, character ≠ '\n' ∧ character ≠ '\r')
    (noZero : ∀ character ∈ text, character ≠ '\x00')
    (ends : ending = ['\n'] ∨ ending = crlf) (more : Sds) :
    inlineLine (text ++ ending ++ more) = some (text, more) ∧
      ∃ newline, strchr '\n' (text ++ ending ++ more) = some newline ∧
        newline ≤ text.length + 1 := by
  have clean : ∀ character ∈ text,
      character ≠ '\n' ∧ character ≠ '\x00' := fun character member =>
    ⟨(oneLine character member).1, noZero character member⟩
  rcases ends with rfl | rfl
  · have found := strchr_behind clean more
    have isText : text ++ ['\n'] ++ more = text ++ '\n' :: more := by simp
    rw [isText]
    refine ⟨?_, text.length, found, by omega⟩
    have noReturn : ¬ (text.length ≠ 0 ∧
        charAt (text ++ '\n' :: more) (text.length - 1) = '\r') := by
      rintro ⟨nonempty, isReturn⟩
      have inside : text.length - 1 < text.length := by omega
      rw [charAt_append inside, charAt, List.getD_eq_getElem?_getD,
        List.getElem?_eq_getElem inside, Option.getD_some] at isReturn
      exact (oneLine _ (List.getElem_mem inside)).2 isReturn
    rw [inlineLine, found, Option.map_some, if_neg noReturn]
    simp
  · have clean' : ∀ character ∈ text ++ ['\r'],
        character ≠ '\n' ∧ character ≠ '\x00' := by
      intro character member
      rcases List.mem_append.mp member with inside | last
      · exact clean character inside
      · rw [List.mem_singleton.mp last]
        decide
    have found := strchr_behind clean' more
    have isText : text ++ crlf ++ more = text ++ ['\r'] ++ '\n' :: more := by
      simp [crlf]
    rw [isText]
    refine ⟨?_, _, found, by simp⟩
    have isReturn : (text ++ ['\r']).length ≠ 0 ∧
        charAt (text ++ ['\r'] ++ '\n' :: more)
          ((text ++ ['\r']).length - 1) = '\r' := by
      refine ⟨by simp, ?_⟩
      rw [charAt_append (by simp), charAt]
      simp
    have dropped : (text ++ ['\r'] ++ '\n' :: more).drop
        ((text ++ ['\r']).length + 1) = more := by
      have isSplit : text ++ ['\r'] ++ '\n' :: more =
          text ++ ['\r', '\n'] ++ more := by simp
      rw [isSplit]
      exact List.drop_left' (by simp)
    rw [inlineLine, found, Option.map_some, if_pos isReturn, dropped]
    simp

/-! ## What a session waits for -/

section Sessions

variable {World : Type} (protoMaxBulkLen : Nat)
  (processCommand : List Sds → World → Answer World)

/--
An open session with the bytes that are still to come, and the requests it will
execute: the one it is reading first.
-/
inductive Awaits (session : Session World) :
    Sds → List (List Sds) → Prop where
  | idle {stream : Sds} {requests : List (List Sds)}
      (count : session.multibulklen = 0) (empty : session.argv = [])
      (noLength : session.bulklen = none)
      (pipeline : Pipeline protoMaxBulkLen stream requests) :
      Awaits session stream requests
  | ready {stream : Sds} {requests : List (List Sds)}
      (count : session.multibulklen = 0) (full : session.argv ≠ [])
      (noLength : session.bulklen = none)
      (pipeline : Pipeline protoMaxBulkLen stream requests) :
      Awaits session stream (session.argv :: requests)
  | length {argument stream : Sds} {others : List Sds}
      {requests : List (List Sds)}
      (count : session.multibulklen = others.length + 1)
      (unknown : session.bulklen = none)
      (fits : ∀ other ∈ argument :: others,
        other.length ≤ protoMaxBulkLen)
      (pipeline : Pipeline protoMaxBulkLen stream requests) :
      Awaits session
        (encodeBulk argument ++ (others.flatMap encodeBulk ++ stream))
        ((session.argv ++ argument :: others) :: requests)
  | argument {argument stream : Sds} {others : List Sds}
      {requests : List (List Sds)}
      (count : session.multibulklen = others.length + 1)
      (known : session.bulklen = some argument.length)
      (fits : ∀ other ∈ argument :: others,
        other.length ≤ protoMaxBulkLen)
      (pipeline : Pipeline protoMaxBulkLen stream requests) :
      Awaits session
        (argument ++ crlf ++ (others.flatMap encodeBulk ++ stream))
        ((session.argv ++ argument :: others) :: requests)

/-- After an argument there is another one, or the request is complete. -/
theorem awaits_arguments {session : Session World} {others : List Sds}
    {stream : Sds} {requests : List (List Sds)}
    (count : session.multibulklen = others.length)
    (unknown : session.bulklen = none) (started : session.argv ≠ [])
    (fits : ∀ other ∈ others, other.length ≤ protoMaxBulkLen)
    (pipeline : Pipeline protoMaxBulkLen stream requests) :
    Awaits protoMaxBulkLen session (others.flatMap encodeBulk ++ stream)
      ((session.argv ++ others) :: requests) := by
  cases others with
  | nil =>
      rw [List.append_nil]
      exact .ready count started unknown pipeline
  | cons argument others =>
      rw [List.flatMap_cons, List.append_assoc]
      exact .length count unknown fits pipeline

/-- What a step of a session does on its way through a pipeline. -/
inductive Proceeds (session : Session World) (stream : Sds)
    (requests : List (List Sds)) : Session World → Sds → Prop where
  | reads {after : Session World} {left : Sds}
      (opened : after.closeAfterReply = false)
      (sameWorld : after.world = session.world)
      (sameReply : after.reply = session.reply)
      (awaits : Awaits protoMaxBulkLen after left requests) :
      Proceeds session stream requests after left
  | executes {rest : List (List Sds)}
      (first : requests = session.argv :: rest)
      (count : session.multibulklen = 0)
      (noLength : session.bulklen = none)
      (pipeline : Pipeline protoMaxBulkLen stream rest) :
      Proceeds session stream requests (session.execute processCommand)
        stream

end Sessions

section Steps

variable {World : Type} {protoMaxBulkLen : Nat}
  {processCommand : List Sds → World → Answer World}
  {session : Session World}

theorem next_ready (opened : session.closeAfterReply = false)
    (count : session.multibulklen = 0) (full : session.argv ≠ [])
    (buffer : Sds) :
    session.next protoMaxBulkLen processCommand buffer =
      some (session.execute processCommand, buffer) := by
  simp [Session.next, opened, count, full]

theorem next_argument (opened : session.closeAfterReply = false)
    (busy : session.multibulklen ≠ 0) {bulklen : Nat}
    (known : session.bulklen = some bulklen) (buffer : Sds) :
    session.next protoMaxBulkLen processCommand buffer =
      session.readArgument bulklen buffer := by
  simp [Session.next, opened, busy, known]

/-- The count of a request is read. -/
theorem readCount_request {argv : List Sds}
    (count : argv.length ≤ 1048576) (more : Sds) :
    session.readCount (encodeRequest argv ++ more) =
      some ({ session with multibulklen := argv.length },
        argv.flatMap encodeBulk ++ more) := by
  have maximum : llongMax = 9223372036854775807 := rfl
  rw [encodeRequest, List.append_assoc, Session.readCount,
    headerLine_header (by decide) (by decide), Option.map_some]
  simp only [List.drop_succ_cons, List.drop_zero]
  rw [string2ll_numeral (by omega)]
  simp only [Int.toNat_natCast]
  rw [if_neg (by omega)]

/-- The length of an argument is read. -/
theorem readLength_argument (representable : protoMaxBulkLen ≤ llongMax)
    {argument : Sds} (fits : argument.length ≤ protoMaxBulkLen)
    (more : Sds) :
    session.readLength protoMaxBulkLen (encodeBulk argument ++ more) =
      some ({ session with bulklen := some argument.length },
        argument ++ crlf ++ more) := by
  rw [encodeBulk, List.append_assoc, Session.readLength,
    headerLine_header (by decide) (by decide), Option.map_some,
    charAt_header, if_neg (by simp)]
  simp only [List.drop_succ_cons, List.drop_zero]
  rw [string2ll_numeral (by omega)]
  simp only [Int.toNat_natCast]
  rw [if_neg (by omega)]

theorem readArgument_argument (argument more : Sds) :
    session.readArgument argument.length (argument ++ crlf ++ more) =
      some ({ session with
          argv := session.argv ++ [argument]
          multibulklen := session.multibulklen - 1
          bulklen := none }, more) := by
  have short : ¬ (argument ++ crlf ++ more).length <
      argument.length + 2 := by
    simp [crlf]
  have dropped : (argument ++ crlf ++ more).drop (argument.length + 2) =
      more := List.drop_left' (by simp [crlf])
  rw [Session.readArgument, if_neg short, dropped, List.append_assoc,
    List.take_left' rfl]

theorem charAt_line {text ending : Sds} (noStar : charAt text 0 ≠ '*')
    (ends : ending = ['\n'] ∨ ending = crlf) (more : Sds) :
    charAt (text ++ ending ++ more) 0 ≠ '*' := by
  cases text with
  | nil =>
      rcases ends with rfl | rfl
      · simp [charAt]
      · simp [charAt, crlf]
  | cons first rest => exact noStar

/-- The words of a line are the arguments. -/
theorem readInline_line {text ending : Sds} {argv : List Sds}
    (line : Line text argv) (proper : ∀ argument ∈ argv, argument ≠ [])
    (oneLine : ∀ character ∈ text, character ≠ '\n' ∧ character ≠ '\r')
    (ends : ending = ['\n'] ∨ ending = crlf) (more : Sds) :
    session.readInline (text ++ ending ++ more) =
      some ({ session with argv := argv }, more) := by
  have kept : (argv.filter fun argument => !argument.isEmpty) = argv := by
    rw [List.filter_eq_self]
    intro argument member
    simpa using proper argument member
  rw [Session.readInline, (inlineLine_line oneLine line.noZero ends more).1,
    Option.map_some]
  dsimp only
  rw [sdssplitargs_line line]
  simp only [kept]

/-- With all its bytes in the buffer, a session makes the next step. -/
theorem awaits_next (representable : protoMaxBulkLen ≤ llongMax)
    (opened : session.closeAfterReply = false) {stream : Sds}
    {requests : List (List Sds)}
    (awaits : Awaits protoMaxBulkLen session stream requests) :
    (stream = [] ∧ requests = [] ∧
        session.next protoMaxBulkLen processCommand stream = none) ∨
      ∃ after left,
        session.next protoMaxBulkLen processCommand stream =
          some (after, left) ∧
        Proceeds protoMaxBulkLen processCommand session stream requests
          after left := by
  cases awaits with
  | idle count empty noLength pipeline =>
      cases pipeline with
      | done =>
          refine .inl ⟨rfl, rfl, ?_⟩
          simp [Session.next, count, empty]
      | more request rest =>
          rename_i text stream argv requests
          refine .inr ?_
          cases request with
          | multibulk nonempty few fits =>
              have step : session.next protoMaxBulkLen processCommand
                  (encodeRequest argv ++ stream) =
                    some ({ session with multibulklen := argv.length },
                      argv.flatMap encodeBulk ++ stream) := by
                rw [next_idle opened count empty (by
                  simp [encodeRequest, header]),
                  readCount_request few]
                exact if_pos rfl
              refine ⟨_, _, step, .reads opened rfl rfl ?_⟩
              obtain ⟨argument, others, rfl⟩ :=
                List.exists_cons_of_ne_nil nonempty
              have awaits := @Awaits.length World protoMaxBulkLen
                { session with multibulklen := others.length + 1 } argument
                stream others requests rfl noLength fits rest
              rw [List.flatMap_cons, List.append_assoc]
              simpa only [empty, List.nil_append, List.length_cons]
                using awaits
          | inline line nonempty proper noStar oneLine short ends =>
              rename_i text ending
              have first := charAt_line noStar ends stream
              have step : session.next protoMaxBulkLen processCommand
                  (text ++ ending ++ stream) =
                    some ({ session with argv := argv }, stream) := by
                rw [next_idle opened count empty, if_neg first,
                  readInline_line line proper oneLine ends]
                rcases ends with rfl | rfl <;> simp [crlf]
              exact ⟨_, _, step, .reads opened rfl rfl
                (.ready count nonempty noLength rest)⟩
  | ready count full noLength pipeline =>
      exact .inr ⟨_, _, next_ready opened count full _,
        .executes rfl count noLength pipeline⟩
  | length count unknown fits pipeline =>
      rename_i argument stream others requests
      have step := @next_busy World protoMaxBulkLen processCommand session
        (encodeBulk argument ++ (others.flatMap encodeBulk ++ stream))
        opened (by omega) unknown
      rw [readLength_argument representable
        (fits argument (by simp))] at step
      exact .inr ⟨_, _, step, .reads opened rfl rfl
        (.argument count rfl fits pipeline)⟩
  | argument count known fits pipeline =>
      rename_i argument stream others requests
      have step := @next_argument World protoMaxBulkLen processCommand
        session opened (by omega) _ known
        (argument ++ crlf ++ (others.flatMap encodeBulk ++ stream))
      rw [readArgument_argument] at step
      refine .inr ⟨_, _, step, .reads opened rfl rfl ?_⟩
      have awaits := @awaits_arguments World protoMaxBulkLen
        { session with
          argv := session.argv ++ [argument]
          multibulklen := session.multibulklen - 1
          bulklen := none } others stream requests (by simp [count]) rfl
        (by simp) (fun other member => fits other (by simp [member]))
        pipeline
      rw [List.append_assoc] at awaits
      exact awaits

/-- A buffer that is no shorter than the front of the stream has it. -/
theorem front_of_buffer {front more buffer rest : Sds}
    (same : front ++ more = buffer ++ rest)
    (long : front.length ≤ buffer.length) :
    ∃ behind, buffer = front ++ behind := by
  have isFront : front <+: buffer ++ rest := ⟨more, same⟩
  obtain ⟨behind, isBuffer⟩ := List.prefix_of_prefix_length_le isFront
    (List.prefix_append buffer rest) long
  exact ⟨behind, isBuffer.symm⟩

/-- An unfinished line or string is not longer than the longest. -/
def Bounded (protoMaxBulkLen : Nat) (session : Session World)
    (buffer : Sds) : Prop :=
  buffer.length ≤ protoInlineMaxSize ∨
    session.multibulklen ≠ 0 ∧ session.bulklen.isSome = true ∧
      buffer.length ≤ protoMaxBulkLen + 1

/-- A session that waits has no complaint and a short buffer. -/
theorem awaits_waiting (representable : protoMaxBulkLen ≤ llongMax)
    (opened : session.closeAfterReply = false) {buffer rest : Sds}
    {requests : List (List Sds)}
    (awaits : Awaits protoMaxBulkLen session (buffer ++ rest) requests)
    (waits : session.next protoMaxBulkLen processCommand buffer = none) :
    Bounded protoMaxBulkLen session buffer := by
  have maximum : protoInlineMaxSize = 65536 := rfl
  have largest : llongMax = 9223372036854775807 := rfl
  generalize isStream : buffer ++ rest = stream at awaits
  by_cases nonempty : buffer = []
  · exact .inl (by simp [nonempty])
  cases awaits with
  | idle count empty noLength pipeline =>
      refine .inl ?_
      rw [next_idle opened count empty nonempty] at waits
      cases pipeline with
      | done => exact absurd (List.append_eq_nil_iff.mp isStream).1 nonempty
      | more request more =>
          cases request with
          | multibulk someArgument few fits =>
              rename_i _ argv _
              rw [encodeRequest, List.append_assoc] at isStream
              have short := @length_header_le argv.length (by omega) '*'
              by_contra long
              obtain ⟨behind, rfl⟩ :=
                front_of_buffer isStream.symm (by omega)
              rw [charAt_header, if_pos rfl, Session.readCount,
                headerLine_header (by decide) (by decide)] at waits
              cases waits
          | inline line someArgument proper noStar oneLine short ends =>
              rename_i text ending
              have isShort : (text ++ ending).length ≤
                  protoInlineMaxSize := by
                rcases ends with rfl | rfl
                · simp only [List.length_append, List.length_cons,
                    List.length_nil]
                  omega
                · simp only [List.length_append, crlf, List.length_cons,
                    List.length_nil]
                  omega
              by_contra long
              obtain ⟨behind, rfl⟩ :=
                front_of_buffer isStream.symm (by omega)
              rw [if_neg (charAt_line noStar ends behind),
                readInline_line line proper oneLine ends] at waits
              cases waits
  | ready count full noLength pipeline =>
      rw [next_ready opened count full] at waits
      cases waits
  | length count unknown fits pipeline =>
      rename_i argument _ _ _
      refine .inl ?_
      have fitting := fits argument (by simp)
      have short := @length_header_le argument.length (by omega) '$'
      rw [next_busy opened (by omega) unknown] at waits
      rw [encodeBulk, List.append_assoc] at isStream
      by_contra long
      obtain ⟨behind, rfl⟩ := front_of_buffer isStream.symm (by omega)
      rw [Session.readLength,
        headerLine_header (by decide) (by decide)] at waits
      cases waits
  | argument count known fits pipeline =>
      rename_i argument _ _ _
      have fitting := fits argument (by simp)
      refine .inr ⟨by omega, by rw [known]; rfl, ?_⟩
      rw [next_argument opened (by omega) known,
        Session.readArgument] at waits
      by_contra long
      rw [if_neg (by omega)] at waits
      cases waits

theorem complaint_of_bounded {buffer : Sds}
    (bounded : Bounded protoMaxBulkLen session buffer) :
    session.complaint buffer = none := by
  rcases bounded with short | ⟨busy, known, -⟩
  · simp [Session.complaint, short]
  · simp [Session.complaint, busy, known]

/-! ## Whole pipelines -/

/-- Requests are executed one after another: the server and the replies. -/
def executeAll (processCommand : List Sds → World → Answer World) :
    List (List Sds) → World → World × Sds
  | [], world => (world, [])
  | argv :: requests, world =>
      let answer := processCommand argv world
      let later := executeAll processCommand requests answer.world
      (later.1, answer.reply ++ later.2)

theorem executeAll_snoc (requests : List (List Sds)) (argv : List Sds)
    (world : World) :
    executeAll processCommand (requests ++ [argv]) world =
      ((processCommand argv
          (executeAll processCommand requests world).1).world,
        (executeAll processCommand requests world).2 ++
          (processCommand argv
            (executeAll processCommand requests world).1).reply) := by
  induction requests generalizing world with
  | nil => simp [executeAll]
  | cons first others inductionHypothesis =>
      simp only [List.cons_append, executeAll, inductionHypothesis,
        List.append_assoc]

/-- None of the requests closes the connection. -/
def Stay (processCommand : List Sds → World → Answer World)
    (requests : List (List Sds)) : Prop :=
  ∀ argv ∈ requests, ∀ world, (processCommand argv world).closes = false

/-- Some of the requests have been executed, the others are to come. -/
structure Underway (protoMaxBulkLen : Nat)
    (processCommand : List Sds → World → Answer World)
    (start : Session World) (requests executed : List (List Sds))
    (session : Session World) (stream : Sds) : Prop where
  opened : session.closeAfterReply = false
  world : session.world =
    (executeAll processCommand executed start.world).1
  reply : session.reply =
    start.reply ++ (executeAll processCommand executed start.world).2
  awaits : ∃ coming, requests = executed ++ coming ∧
    Awaits protoMaxBulkLen session stream coming

theorem Underway.step (representable : protoMaxBulkLen ≤ llongMax)
    {start after : Session World} {requests executed : List (List Sds)}
    {stream left : Sds} (stay : Stay processCommand requests)
    (underway : Underway protoMaxBulkLen processCommand start requests
      executed session stream)
    (step : session.next protoMaxBulkLen processCommand stream =
      some (after, left)) :
    ∃ executed, Underway protoMaxBulkLen processCommand start requests
      executed after left := by
  obtain ⟨coming, isSplit, awaits⟩ := underway.awaits
  rcases @awaits_next World protoMaxBulkLen processCommand session
    representable underway.opened _ _ awaits with
    ⟨-, -, waits⟩ | ⟨after', left', isStep, proceeds⟩
  · rw [waits] at step
    cases step
  · rw [isStep] at step
    cases step
    cases proceeds with
    | reads opened sameWorld sameReply awaitsAfter =>
        exact ⟨executed, opened, sameWorld.trans underway.world,
          sameReply.trans underway.reply, coming, isSplit, awaitsAfter⟩
    | executes first count noLength pipeline =>
        rename_i rest
        have member : session.argv ∈ requests := by
          rw [isSplit, first]
          simp
        have stays := stay session.argv member session.world
        refine ⟨executed ++ [session.argv], ?_, ?_, ?_, rest, ?_, ?_⟩
        · simpa [Session.execute] using stays
        · rw [executeAll_snoc, ← underway.world]
          rfl
        · rw [executeAll_snoc, ← underway.world, ← List.append_assoc,
            ← underway.reply]
          rfl
        · rw [isSplit, first]
          simp
        · exact .idle count (by simp [Session.execute, stays]) noLength
            pipeline

/-- The limits of a server, which hold of the defaults. -/
structure Limits (protoMaxBulkLen clientMaxQuerybufLen : Nat) : Prop where
  representable : protoMaxBulkLen ≤ llongMax
  room : max protoInlineMaxSize (protoMaxBulkLen + 1) + protoIobufLen ≤
    clientMaxQuerybufLen

theorem default_limits : Limits 536870912 1073741824 where
  representable := by decide
  room := by decide

theorem readlen_le (c : Client) : readlen c ≤ protoIobufLen := by
  unfold readlen
  split
  · split_ifs
    · dsimp only
      split_ifs <;> omega
    · exact Nat.le_refl _
  · exact Nat.le_refl _

/-- A client between two reads, and the requests that are to come. -/
structure Expects (protoMaxBulkLen : Nat)
    (processCommand : List Sds → World → Answer World) (c : Client)
    (wire : Sds) (requests : List (List Sds)) : Prop where
  resting : Resting c
  opened : c.closeAfterReply = false
  waits : ∀ world : World,
    (c.session world).next protoMaxBulkLen processCommand c.querybuf = none
  awaits : ∀ world : World,
    Awaits protoMaxBulkLen (c.session world) (c.querybuf ++ wire) requests

/-- A new connection. -/
theorem expects_new {stream : Sds} {requests : List (List Sds)}
    (pipeline : Pipeline protoMaxBulkLen stream requests) :
    Expects protoMaxBulkLen processCommand {} stream requests where
  resting := resting_new
  opened := rfl
  waits := next_of_empty resting_new.tidy
  awaits := fun _ => .idle rfl rfl rfl pipeline

/-- What a session waits for does not depend on the server. -/
theorem Awaits.other {c : Client} {world : World} {stream : Sds}
    {requests : List (List Sds)}
    (awaits : Awaits protoMaxBulkLen (c.session world) stream requests)
    (other : World) :
    Awaits protoMaxBulkLen (c.session other) stream requests := by
  cases awaits with
  | idle count empty noLength pipeline =>
      exact .idle count empty noLength pipeline
  | ready count full noLength pipeline =>
      exact .ready count full noLength pipeline
  | length count unknown fits pipeline =>
      exact .length count unknown fits pipeline
  | argument count known fits pipeline =>
      exact .argument count known fits pipeline

theorem waits_other {c : Client} {world : World} {buffer : Sds}
    (waits : (c.session world).next protoMaxBulkLen processCommand buffer =
      none) (other : World) :
    (c.session other).next protoMaxBulkLen processCommand buffer =
      none := by
  simp only [Session.next, Client.session_closeAfterReply,
    Client.session_multibulklen, Client.session_argv,
    Client.session_bulklen] at waits ⊢
  split_ifs at waits ⊢ with closed idle full
  · rfl
  · cases buffer with
    | nil => rfl
    | cons first rest =>
        dsimp only at waits ⊢
        split_ifs at waits ⊢
        · exact Option.map_eq_none_iff.mpr (Option.map_eq_none_iff.mp waits)
        · exact Option.map_eq_none_iff.mpr (Option.map_eq_none_iff.mp waits)
  · cases known : c.bulklen with
    | none =>
        rw [known] at waits
        exact Option.map_eq_none_iff.mpr (Option.map_eq_none_iff.mp waits)
    | some bulklen =>
        rw [known] at waits
        dsimp only [Session.readArgument] at waits ⊢
        split_ifs at waits ⊢
        rfl

/-- Requests that are underway stay so until the session waits. -/
theorem underway_settle (representable : protoMaxBulkLen ≤ llongMax)
    {requests : List (List Sds)} {buffer rest : Sds}
    (stay : Stay processCommand requests)
    (opened : session.closeAfterReply = false)
    (awaits : Awaits protoMaxBulkLen session (buffer ++ rest) requests) :
    ∃ executed, Underway protoMaxBulkLen processCommand session requests
      executed
      ((Session.reader protoMaxBulkLen processCommand).settle session
        buffer).1
      (((Session.reader protoMaxBulkLen processCommand).settle session
        buffer).2 ++ rest) := by
  refine (Session.reader protoMaxBulkLen processCommand).settle_induction
    (motive := fun after left => ∃ executed, Underway protoMaxBulkLen
      processCommand session requests executed after (left ++ rest)) ?_ ?_
  · rintro state buffer after left ⟨executed, underway⟩ step
    exact underway.step representable stay
      (Session.next_append protoMaxBulkLen processCommand rest step)
  · exact ⟨[], opened, rfl, (List.append_nil _).symm, requests, rfl, awaits⟩

/--
A read executes the requests that it completes, in their order, and leaves a
client that expects the others.
-/
theorem read_expected {clientMaxQuerybufLen : Nat}
    (limits : Limits protoMaxBulkLen clientMaxQuerybufLen) {c : Client}
    {wire : Sds} {requests : List (List Sds)}
    (expects : Expects protoMaxBulkLen processCommand c wire requests)
    (stay : Stay processCommand requests) (available : Nat)
    (world : World) :
    ∃ served left executed coming,
      readQueryFromClient protoMaxBulkLen processCommand
          clientMaxQuerybufLen available wire c world =
        some (some served, left,
          (executeAll processCommand executed world).1) ∧
      requests = executed ++ coming ∧
      served.reply =
        c.reply ++ (executeAll processCommand executed world).2 ∧
      Expects protoMaxBulkLen processCommand served left coming := by
  by_cases new : wire.take (nread available c) = []
  · exact ⟨c, wire, [], requests, readQueryFromClient_empty world new, rfl,
      (List.append_nil _).symm, expects⟩
  · have opened : (c.session world).closeAfterReply = false := expects.opened
    have bounded := awaits_waiting limits.representable opened
      (expects.awaits world) (expects.waits world)
    have room : (c.querybuf ++ wire.take (nread available c)).length ≤
        clientMaxQuerybufLen := by
      have taken : (wire.take (nread available c)).length ≤
          protoIobufLen := by
        have few := readlen_le c
        rw [List.length_take, nread]
        omega
      have limit := limits.room
      rw [List.length_append]
      rcases bounded with short | ⟨-, -, short⟩
      · omega
      · omega
    obtain ⟨served, after, isRead, resting, agrees⟩ :=
      @readQueryFromClient_serve World protoMaxBulkLen processCommand c
        clientMaxQuerybufLen available wire expects.resting world new room
    have whole : c.querybuf ++ wire.take (nread available c) ++
        wire.drop (nread available c) = c.querybuf ++ wire := by
      rw [List.append_assoc, List.take_append_drop]
    obtain ⟨executed, underway⟩ := @underway_settle World protoMaxBulkLen
      processCommand (c.session world) limits.representable requests
      (c.querybuf ++ wire.take (nread available c))
      (wire.drop (nread available c)) stay opened
      (by rw [whole]; exact expects.awaits world)
    obtain ⟨coming, isSplit, awaits⟩ := underway.awaits
    have waits := (Session.reader protoMaxBulkLen processCommand).next_settle
      (c.session world) (c.querybuf ++ wire.take (nread available c))
    have calm := complaint_of_bounded
      (awaits_waiting limits.representable underway.opened awaits waits)
    have isSettled : (served.session after, served.querybuf) =
        (Session.reader protoMaxBulkLen processCommand).settle
          (c.session world)
          (c.querybuf ++ wire.take (nread available c)) := by
      rw [agrees]
      simp only [Session.serve, Session.complain, calm]
    rw [← isSettled] at underway awaits waits
    have isAfter : after = (executeAll processCommand executed world).1 :=
      underway.world
    refine ⟨served, wire.drop (nread available c), executed, coming, ?_,
      isSplit, underway.reply, resting, underway.opened, waits_other waits,
      awaits.other⟩
    rw [isRead, isAfter]

theorem executeAll_append (first second : List (List Sds)) (world : World) :
    executeAll processCommand (first ++ second) world =
      ((executeAll processCommand second
          (executeAll processCommand first world).1).1,
        (executeAll processCommand first world).2 ++
          (executeAll processCommand second
            (executeAll processCommand first world).1).2) := by
  induction first generalizing world with
  | nil => simp [executeAll]
  | cons argv others inductionHypothesis =>
      simp only [List.cons_append, executeAll, inductionHypothesis,
        List.append_assoc]

/-- Once all bytes are read, no request is to come. -/
theorem Expects.all_read (representable : protoMaxBulkLen ≤ llongMax)
    {c : Client} {requests : List (List Sds)}
    (expects : Expects protoMaxBulkLen processCommand c [] requests)
    (world : World) : requests = [] ∧ c.querybuf = [] := by
  have awaits := expects.awaits world
  have waits := expects.waits world
  rw [List.append_nil] at awaits
  rcases @awaits_next World protoMaxBulkLen processCommand _ representable
    (by exact expects.opened) _ _ awaits with
    ⟨empty, none, -⟩ | ⟨after, left, step, -⟩
  · exact ⟨none, empty⟩
  · rw [waits] at step
    cases step

theorem serveReads_expected {clientMaxQuerybufLen : Nat}
    (limits : Limits protoMaxBulkLen clientMaxQuerybufLen) {c : Client}
    {wire : Sds} {requests : List (List Sds)}
    (expects : Expects protoMaxBulkLen processCommand c wire requests)
    (stay : Stay processCommand requests) (reads : List Nat)
    (world : World) :
    ∃ served left executed coming,
      serveReads protoMaxBulkLen processCommand clientMaxQuerybufLen reads
          (some c) wire world =
        some (some served, left,
          (executeAll processCommand executed world).1) ∧
      requests = executed ++ coming ∧
      served.reply =
        c.reply ++ (executeAll processCommand executed world).2 ∧
      Expects protoMaxBulkLen processCommand served left coming := by
  induction reads generalizing c wire requests world with
  | nil =>
      exact ⟨c, wire, [], requests, rfl, rfl, (List.append_nil _).symm,
        expects⟩
  | cons available later inductionHypothesis =>
      obtain ⟨served, left, executed, coming, isRead, rfl, isReply, next⟩ :=
        read_expected limits expects stay available world
      obtain ⟨last, rest, more, others, isRun, rfl, lastReply, lastNext⟩ :=
        inductionHypothesis next
          (fun argv member => stay argv (by simp [member]))
          (executeAll processCommand executed world).1
      refine ⟨last, rest, executed ++ more, others, ?_, ?_, ?_, lastNext⟩
      · rw [serveReads, isRead, executeAll_append]
        exact isRun
      · rw [List.append_assoc]
      · rw [lastReply, isReply, executeAll_append, List.append_assoc]

/--
However the bytes of a pipeline are cut into reads, a server with sufficient
limits executes its requests in order and each of them once, and has executed
all of them when everything is read.
-/
theorem pipeline_executed {clientMaxQuerybufLen : Nat}
    (limits : Limits protoMaxBulkLen clientMaxQuerybufLen) {stream : Sds}
    {requests : List (List Sds)}
    (pipeline : Pipeline protoMaxBulkLen stream requests)
    (stay : Stay processCommand requests) (reads : List Nat)
    (world : World) :
    ∃ served left executed coming,
      serveReads protoMaxBulkLen processCommand clientMaxQuerybufLen reads
          (some {}) stream world =
        some (some served, left,
          (executeAll processCommand executed world).1) ∧
      requests = executed ++ coming ∧
      served.reply = (executeAll processCommand executed world).2 ∧
      served.closeAfterReply = false ∧
      (left = [] → coming = [] ∧ served.querybuf = []) := by
  obtain ⟨served, left, executed, coming, isRun, isSplit, isReply, expects⟩ :=
    serveReads_expected limits
      (@expects_new World protoMaxBulkLen processCommand _ _ pipeline) stay
      reads world
  refine ⟨served, left, executed, coming, isRun, isSplit, isReply,
    expects.opened, ?_⟩
  rintro rfl
  exact expects.all_read limits.representable world

end Steps

/-- A line and a request with its lengths, read in two pieces. -/
theorem pipeline_executed_ping :
    ∃ served left executed coming,
      serveReads 536870912 keepRequest 1073741824 [3, 40] (some {})
          (['P', 'I', 'N', 'G'] ++ crlf ++
            ([[['G', 'E', 'T'], ['a']]].flatMap encodeRequest)) [] =
        some (some served, left, (executeAll keepRequest executed []).1) ∧
      [['P', 'I', 'N', 'G']] :: [[['G', 'E', 'T'], ['a']]] =
        executed ++ coming ∧
      served.reply = (executeAll keepRequest executed []).2 ∧
      served.closeAfterReply = false ∧
      (left = [] → coming = [] ∧ served.querybuf = []) :=
  pipeline_executed default_limits
    (.more
      (.inline (.last (.bare (by simp) (by
          simp [isBare, isspace, doubleQuote, singleQuote]))) (by simp)
        (by simp) (by decide) (by simp) (by decide) (.inr rfl))
      (pipeline_encodeRequest (by simp) (by simp) (by simp)))
    (fun _ _ _ => rfl) [3, 40] []

end NomadiCore.Redis
