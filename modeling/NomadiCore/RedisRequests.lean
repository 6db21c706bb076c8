import NomadiCore.RedisProtocol

/-!
# Requests in any number of pieces

The functions of `networking.c` make the steps of a session, as far as the
buffer allows, and keep what they have read of a request.  So it cannot be
observed how the bytes of a connection were cut into reads, unless a line gets
too long.
-/

namespace NomadiCore.Redis

open NomadiCore.Library

/-! ## The code as a reader -/

@[simps]
def Client.session {World : Type} (c : Client) (world : World) :
    Session World where
  argv := c.argv
  multibulklen := c.multibulklen
  bulklen := c.bulklen
  closeAfterReply := c.closeAfterReply
  reply := c.reply
  world := world

def requestType (first : Char) : RequestType :=
  if first = '*' then .multibulk else .inline

/-- What holds of a client between two reads. -/
structure Tidy (c : Client) : Prop where
  inside : c.qbPos ≤ c.querybuf.length
  idle : c.closeAfterReply = false → c.multibulklen = 0 →
    c.argv = [] ∧ c.bulklen = none
  typed : c.closeAfterReply = false → c.multibulklen = 0 →
    ∀ type, c.reqtype = some type →
      c.pending ≠ [] ∧ type = requestType (charAt c.pending 0)
  busy : c.closeAfterReply = false → c.multibulklen ≠ 0 →
    c.reqtype = some .multibulk

theorem Client.length_pending (c : Client) :
    c.pending.length = c.querybuf.length - c.qbPos := by
  simp [Client.pending]

section Requests

variable {World : Type} (protoMaxBulkLen : Nat)
  (processCommand : List Sds → World → Answer World)

/-- Some steps of the session lead from one client to the other. -/
def Reaches (c reached : Client) : Prop :=
  ∀ world : World,
    (Session.reader protoMaxBulkLen processCommand).settle
        (c.session world) c.pending =
      (Session.reader protoMaxBulkLen processCommand).settle
        (reached.session world) reached.pending

/-- The client that is told about a long line. -/
def Client.complain (c : Client) : Client :=
  match (c.session ()).complaint c.pending with
  | none => c
  | some message => setProtocolError (addReplyError c message)

/-- What parsing does: a request is complete, or no step is possible. -/
inductive Parsed (c : Client) : Client × Bool → Prop where
  | complete {reached : Client}
      (reaches : Reaches protoMaxBulkLen processCommand c reached)
      (inside : reached.qbPos ≤ reached.querybuf.length)
      (opened : reached.closeAfterReply = false)
      (idle : reached.multibulklen = 0) (noLength : reached.bulklen = none)
      (shorter : reached.pending.length < c.pending.length) :
      Parsed c (reached, true)
  | stopped {reached : Client}
      (reaches : Reaches protoMaxBulkLen processCommand c reached)
      (tidy : Tidy reached)
      (waits : ∀ world : World,
        (reached.session world).next protoMaxBulkLen processCommand
          reached.pending = none) :
      Parsed c (reached.complain, false)

/-- The loop goes on with the next string, whose length is known. -/
structure Started (c started : Client) (bulklen : Nat) : Prop where
  reaches : Reaches protoMaxBulkLen processCommand c started
  tidy : Tidy started
  opened : started.closeAfterReply = false
  same : started.multibulklen = c.multibulklen
  known : started.bulklen = some bulklen
  shorter : started.pending.length ≤ c.pending.length

section Parsing

variable {protoMaxBulkLen processCommand} {c reached : Client}

theorem Reaches.refl (c : Client) :
    Reaches protoMaxBulkLen processCommand c c := fun _ => rfl

theorem Reaches.trans {between : Client}
    (first : Reaches protoMaxBulkLen processCommand c between)
    (second : Reaches protoMaxBulkLen processCommand between reached) :
    Reaches protoMaxBulkLen processCommand c reached := fun world =>
  (first world).trans (second world)

theorem Reaches.step
    (steps : ∀ world : World,
      (c.session world).next protoMaxBulkLen processCommand c.pending =
        some (reached.session world, reached.pending)) :
    Reaches protoMaxBulkLen processCommand c reached := fun world =>
  BufferedReader.settle_of_some _ (steps world)

theorem Parsed.after {result : Client × Bool}
    (reaches : Reaches protoMaxBulkLen processCommand c reached)
    (shorter : reached.pending.length ≤ c.pending.length)
    (parsed : Parsed protoMaxBulkLen processCommand reached result) :
    Parsed protoMaxBulkLen processCommand c result := by
  cases parsed with
  | complete further inside opened idle noLength less =>
      exact .complete (reaches.trans further) inside opened idle noLength
        (by omega)
  | stopped further tidy waits =>
      exact .stopped (reaches.trans further) tidy waits

/-- A closed client makes no further step. -/
theorem Tidy.of_closed (closed : reached.closeAfterReply = true)
    (inside : reached.qbPos ≤ reached.querybuf.length) : Tidy reached where
  inside := inside
  idle := by simp [closed]
  typed := by simp [closed]
  busy := by simp [closed]

theorem Client.complain_of_closed (closed : c.closeAfterReply = true) :
    c.complain = c := by
  have none : (c.session ()).complaint c.pending = none :=
    Session.complaint_of_closed closed c.pending
  simp [Client.complain, none]

/-- A step that closes the connection ends the parsing. -/
theorem Parsed.failed {message : Sds} (tidy : Tidy c)
    (steps : ∀ world : World,
      (c.session world).next protoMaxBulkLen processCommand c.pending =
        some ((c.session world).fail message, c.pending))
    (opened : c.closeAfterReply = false) :
    Parsed protoMaxBulkLen processCommand c
      (setProtocolError (addReplyError c message), false) := by
  have sessionOf (world : World) :
      (setProtocolError (addReplyError c message)).session world =
        (c.session world).fail message := by
    simp [setProtocolError, addReplyError, addReply, opened, Client.session,
      Session.fail]
  have pendingOf :
      (setProtocolError (addReplyError c message)).pending = c.pending := by
    simp [setProtocolError, addReplyError, addReply, opened, Client.pending]
  have closed :
      (setProtocolError (addReplyError c message)).closeAfterReply = true :=
    rfl
  have inside : (setProtocolError (addReplyError c message)).qbPos ≤
      (setProtocolError (addReplyError c message)).querybuf.length := by
    simpa [setProtocolError, addReplyError, addReply, opened]
      using tidy.inside
  rw [← Client.complain_of_closed closed]
  refine .stopped (Reaches.step fun world => ?_)
    (Tidy.of_closed closed inside) fun world => ?_
  · rw [steps world, sessionOf, pendingOf]
  · exact Session.next_of_closed _ _ closed _

theorem next_idle {session : Session World} {buffer : Sds}
    (opened : session.closeAfterReply = false)
    (idle : session.multibulklen = 0) (empty : session.argv = [])
    (nonempty : buffer ≠ []) :
    session.next protoMaxBulkLen processCommand buffer =
      if charAt buffer 0 = '*' then session.readCount buffer
      else session.readInline buffer := by
  obtain ⟨first, rest, rfl⟩ := List.exists_cons_of_ne_nil nonempty
  simp [Session.next, opened, idle, empty, charAt]

/-- Nothing is complete, and the line is not too long yet. -/
theorem Parsed.waiting (tidy : Tidy c)
    (waits : ∀ world : World,
      (c.session world).next protoMaxBulkLen processCommand c.pending = none)
    (calm : (c.session ()).complaint c.pending = none) :
    Parsed protoMaxBulkLen processCommand c (c, false) := by
  have parsed := Parsed.stopped (Reaches.refl c) tidy waits
  simpa [Client.complain, calm] using parsed

theorem Parsed.long {message : Sds} (tidy : Tidy c)
    (waits : ∀ world : World,
      (c.session world).next protoMaxBulkLen processCommand c.pending = none)
    (told : (c.session ()).complaint c.pending = some message) :
    Parsed protoMaxBulkLen processCommand c
      (setProtocolError (addReplyError c message), false) := by
  have parsed := Parsed.stopped (Reaches.refl c) tidy waits
  simpa [Client.complain, told] using parsed

theorem processInlineBuffer_parsed (tidy : Tidy c)
    (opened : c.closeAfterReply = false) (idle : c.multibulklen = 0)
    (nonempty : c.pending ≠ []) (isInline : charAt c.pending 0 ≠ '*') :
    Parsed protoMaxBulkLen processCommand c (processInlineBuffer c) := by
  obtain ⟨empty, noLength⟩ := tidy.idle opened idle
  have inside := tidy.inside
  have length := c.length_pending
  have next (world : World) :
      (c.session world).next protoMaxBulkLen processCommand c.pending =
        (c.session world).readInline c.pending := by
    rw [next_idle (by exact opened) (by exact idle) (by exact empty) nonempty,
      if_neg isInline]
  unfold processInlineBuffer
  cases found : strchr '\n' c.pending with
  | none =>
      have waits (world : World) :
          (c.session world).next protoMaxBulkLen processCommand c.pending =
            none := by
        rw [next world, Session.readInline, inlineLine, found]
        rfl
      dsimp only
      split
      next tooBig =>
        refine Parsed.long tidy waits ?_
        have long : ¬ c.pending.length ≤ protoInlineMaxSize := by omega
        simp [Session.complaint, Client.session, opened, idle, isInline,
          found, long]
      next short =>
        refine Parsed.waiting tidy waits ?_
        have small : c.pending.length ≤ protoInlineMaxSize := by omega
        simp [Session.complaint, small]
  | some newline =>
      have within := strchr_lt found
      have isUnbalanced {querylen taken : Nat}
          (isLine : inlineLine c.pending =
            some (c.pending.take querylen, c.pending.drop taken))
          (unbalanced : sdssplitargs (c.pending.take querylen) = none) :
          Parsed protoMaxBulkLen processCommand c
            (setProtocolError (addReplyError c
              "Protocol error: unbalanced quotes in request".toList),
              false) := by
        refine Parsed.failed tidy (fun world => ?_) opened
        rw [next world, Session.readInline, isLine, Option.map_some]
        simp only [unbalanced]
      have isRead {querylen taken : Nat} {argv : List Sds}
          (isLine : inlineLine c.pending =
            some (c.pending.take querylen, c.pending.drop taken))
          (positive : 0 < taken) (bound : taken ≤ c.pending.length)
          (balanced : sdssplitargs (c.pending.take querylen) = some argv) :
          Parsed protoMaxBulkLen processCommand c
            ({ c with
                qbPos := c.qbPos + taken
                argv := argv.filter fun argument =>
                  !argument.isEmpty }, true) := by
        refine Parsed.complete (Reaches.step fun world => ?_) ?_ opened
          idle noLength ?_
        · rw [next world, Session.readInline, isLine, Option.map_some]
          simp only [balanced]
          simp only [Client.session, Client.pending, List.drop_drop]
        · dsimp only
          omega
        · simp only [Client.pending, List.length_drop]
          omega
      by_cases carriage :
          newline ≠ 0 ∧ charAt c.pending (newline - 1) = '\r'
      · have sum : newline - 1 + 2 = newline + 1 := by omega
        have isLine : inlineLine c.pending =
            some (c.pending.take (newline - 1),
              c.pending.drop (newline + 1)) := by
          rw [inlineLine, found, Option.map_some, if_pos carriage]
        simp only [carriage, not_false_eq_true, ne_eq, and_self, if_true, sum]
        cases split : sdssplitargs (c.pending.take (newline - 1)) with
        | none => exact isUnbalanced isLine split
        | some argv => exact isRead isLine (by omega) (by omega) split
      · have isLine : inlineLine c.pending =
            some (c.pending.take newline,
              c.pending.drop (newline + 1)) := by
          rw [inlineLine, found, Option.map_some, if_neg carriage]
        simp only [if_neg carriage]
        cases split : sdssplitargs (c.pending.take newline) with
        | none => exact isUnbalanced isLine split
        | some argv => exact isRead isLine (by omega) (by omega) split

theorem next_busy {session : Session World} {buffer : Sds}
    (opened : session.closeAfterReply = false)
    (busy : session.multibulklen ≠ 0) (unknown : session.bulklen = none) :
    session.next protoMaxBulkLen processCommand buffer =
      session.readLength protoMaxBulkLen buffer := by
  simp [Session.next, opened, busy, unknown]

/-- The header of an idle client's request. -/
theorem headerLine_pending {newline : Nat}
    (found : strchr '\r' c.pending = some newline)
    (whole : newline + 2 ≤ c.querybuf.length - c.qbPos) :
    headerLine c.pending =
      some (c.pending.take newline, c.pending.drop (newline + 2)) := by
  have length := c.length_pending
  rw [headerLine, found, Option.bind_some, if_neg (by omega)]

theorem headerLine_of_missing (missing : strchr '\r' c.pending = none) :
    headerLine c.pending = none := by
  rw [headerLine, missing, Option.bind_none]

theorem headerLine_of_short {newline : Nat}
    (found : strchr '\r' c.pending = some newline)
    (short : newline + 2 > c.querybuf.length - c.qbPos) :
    headerLine c.pending = none := by
  have length := c.length_pending
  rw [headerLine, found, Option.bind_some, if_pos (by omega)]

theorem startBulk_pending (c : Client) (ll : Nat) :
    (startBulk c ll).pending = c.pending := by
  unfold startBulk
  split_ifs <;> simp [Client.pending]

theorem startBulk_session (c : Client) (ll : Nat) (world : World) :
    (startBulk c ll).session world =
      { c.session world with bulklen := some ll } := by
  unfold startBulk
  split_ifs <;> rfl

theorem startBulk_inside (inside : c.qbPos ≤ c.querybuf.length)
    (ll : Nat) :
    (startBulk c ll).qbPos ≤ (startBulk c ll).querybuf.length := by
  unfold startBulk
  split_ifs
  · exact Nat.zero_le _
  · exact inside

theorem startBulk_fields (c : Client) (ll : Nat) :
    (startBulk c ll).reqtype = c.reqtype ∧
      (startBulk c ll).multibulklen = c.multibulklen ∧
      (startBulk c ll).bulklen = some ll ∧
      (startBulk c ll).closeAfterReply = c.closeAfterReply := by
  unfold startBulk
  split_ifs <;> simp

theorem startBulk_started {taken ll : Nat} (tidy : Tidy c)
    (opened : c.closeAfterReply = false) (busy : c.multibulklen ≠ 0)
    (bound : c.qbPos + taken ≤ c.querybuf.length)
    (steps : ∀ world : World,
      (c.session world).next protoMaxBulkLen processCommand c.pending =
        some ({ c.session world with bulklen := some ll },
          c.pending.drop taken)) :
    Started protoMaxBulkLen processCommand c
      (startBulk { c with qbPos := c.qbPos + taken } ll) ll := by
  obtain ⟨sameType, sameCount, isKnown, sameFlag⟩ :=
    startBulk_fields { c with qbPos := c.qbPos + taken } ll
  have isPending :
      (startBulk { c with qbPos := c.qbPos + taken } ll).pending =
        c.pending.drop taken := by
    rw [startBulk_pending]
    simp only [Client.pending, List.drop_drop]
  refine ⟨Reaches.step fun world => ?_,
    ⟨startBulk_inside bound ll, ?_, ?_, ?_⟩, sameFlag.trans opened,
    sameCount, isKnown, ?_⟩
  · rw [steps world, isPending, startBulk_session]
    rfl
  · intro _ idle
    exact absurd (sameCount.symm.trans idle) busy
  · intro _ idle
    exact absurd (sameCount.symm.trans idle) busy
  · intro _ _
    exact sameType.trans (tidy.busy opened busy)
  · rw [isPending, List.length_drop]
    omega

/-- The length of a string is read, was known, or stops the loop. -/
theorem readBulkLength_parsed (tidy : Tidy c)
    (opened : c.closeAfterReply = false) (busy : c.multibulklen ≠ 0) :
    (∃ stopped, readBulkLength protoMaxBulkLen c = .error stopped ∧
      Parsed protoMaxBulkLen processCommand c (stopped, false)) ∨
    ∃ started bulklen,
      readBulkLength protoMaxBulkLen c = .ok (started, bulklen) ∧
      Started protoMaxBulkLen processCommand c started bulklen := by
  have inside := tidy.inside
  have length := c.length_pending
  unfold readBulkLength
  split
  next bulklen known =>
    exact .inr ⟨c, bulklen, rfl, Reaches.refl c, tidy, opened, rfl, known,
      Nat.le_refl _⟩
  next unknown =>
    have next (world : World) :
        (c.session world).next protoMaxBulkLen processCommand c.pending =
          (c.session world).readLength protoMaxBulkLen c.pending :=
      next_busy opened busy unknown
    split
    next missing =>
      have waits (world : World) :
          (c.session world).next protoMaxBulkLen processCommand c.pending =
            none := by
        rw [next world, Session.readLength, headerLine_of_missing missing,
          Option.map_none]
      refine .inl ?_
      split
      next tooBig =>
        refine ⟨_, rfl, Parsed.long tidy waits ?_⟩
        have long : ¬ c.pending.length ≤ protoInlineMaxSize := by omega
        simp [Session.complaint, Client.session, opened, busy, unknown,
          missing, long]
      next small =>
        refine ⟨_, rfl, Parsed.waiting tidy waits ?_⟩
        have short : c.pending.length ≤ protoInlineMaxSize := by omega
        simp [Session.complaint, short]
    next newline found =>
      split
      next short =>
        refine .inl ⟨_, rfl, Parsed.waiting tidy (fun world => ?_) ?_⟩
        · rw [next world, Session.readLength,
            headerLine_of_short found short, Option.map_none]
        · simp [Session.complaint, Client.session, opened, busy, unknown,
            found]
      next whole =>
        have line := headerLine_pending found (by omega)
        split
        next notDollar =>
          refine .inl ⟨_, rfl, Parsed.failed tidy (fun world => ?_) opened⟩
          rw [next world, Session.readLength, line, Option.map_some,
            if_pos notDollar]
          rfl
        next dollar =>
          split
          next unread =>
            refine .inl ⟨_, rfl,
              Parsed.failed tidy (fun world => ?_) opened⟩
            rw [next world, Session.readLength, line, Option.map_some,
              if_neg dollar]
            simp only [unread]
          next ll read =>
            split
            next invalid =>
              refine .inl ⟨_, rfl,
                Parsed.failed tidy (fun world => ?_) opened⟩
              rw [next world, Session.readLength, line, Option.map_some,
                if_neg dollar]
              simp only [read, if_pos invalid]
            next valid =>
              refine .inr ⟨_, _, rfl, startBulk_started tidy opened busy
                (by omega) fun world => ?_⟩
              rw [next world, Session.readLength, line, Option.map_some,
                if_neg dollar]
              simp only [read, if_neg valid]

/-- Taking over the buffer and copying from it give the same argument. -/
theorem readBulk_cases {bulklen : Nat} (inside : c.qbPos ≤ c.querybuf.length) :
    (c.pending.length < bulklen + 2 ∧ readBulk c bulklen = none) ∨
    ∃ read, readBulk c bulklen = some read ∧
      bulklen + 2 ≤ c.pending.length ∧
      read.pending = c.pending.drop (bulklen + 2) ∧
      read.argv = c.argv ++ [c.pending.take bulklen] ∧
      read.bulklen = none ∧ read.reqtype = c.reqtype ∧
      read.closeAfterReply = c.closeAfterReply ∧ read.reply = c.reply ∧
      read.qbPos ≤ read.querybuf.length := by
  have length := c.length_pending
  unfold readBulk
  split_ifs with short takenOver
  · exact .inl ⟨by omega, rfl⟩
  · obtain ⟨atStart, -, exact'⟩ := takenOver
    have isPending : c.pending = c.querybuf := by
      rw [Client.pending, atStart, List.drop_zero]
    have isLength : c.querybuf.length - 2 = bulklen := by omega
    refine .inr ⟨_, rfl, by omega, ?_, ?_, rfl, rfl, rfl, rfl, ?_⟩
    · rw [isPending, List.drop_of_length_le (by omega)]
      exact List.drop_nil
    · rw [isPending]
      simp only [isLength]
    · simp [atStart]
  · refine .inr ⟨_, rfl, by omega, ?_, rfl, rfl, rfl, rfl, rfl, ?_⟩
    · simp only [Client.pending, List.drop_drop]
    · dsimp only
      omega

/-- One round of the loop over the strings. -/
theorem readBulks_round {left : Nat} (tidy : Tidy c)
    (opened : c.closeAfterReply = false) (count : c.multibulklen = left + 1) :
    (∃ stopped, readBulks protoMaxBulkLen (left + 1) c = (stopped, false) ∧
      Parsed protoMaxBulkLen processCommand c (stopped, false)) ∨
    ∃ read, readBulks protoMaxBulkLen (left + 1) c =
        readBulks protoMaxBulkLen left read ∧
      Reaches protoMaxBulkLen processCommand c read ∧
      read.qbPos ≤ read.querybuf.length ∧ read.multibulklen = left ∧
      read.bulklen = none ∧ read.closeAfterReply = false ∧
      read.reqtype = some .multibulk ∧
      read.pending.length < c.pending.length := by
  have busy : c.multibulklen ≠ 0 := by omega
  rw [readBulks]
  rcases @readBulkLength_parsed World protoMaxBulkLen processCommand c tidy
    opened busy with
    ⟨stopped, result, parsed⟩ | ⟨started, bulklen, result, isStarted⟩
  · exact .inl ⟨stopped, by rw [result], parsed⟩
  · obtain ⟨reaches, startedTidy, startedOpen, same, known, shorter⟩ :=
      isStarted
    have startedBusy : started.multibulklen ≠ 0 := by omega
    have next (world : World) :
        (started.session world).next protoMaxBulkLen processCommand
            started.pending =
          (started.session world).readArgument bulklen started.pending := by
      simp [Session.next, Client.session, startedOpen, startedBusy, known]
    rcases @readBulk_cases started bulklen startedTidy.inside with
      ⟨short, unread⟩ | ⟨read, isRead, whole, isPending, isArgv, noLength,
        sameType, sameFlag, sameReply, inside⟩
    · refine .inl ⟨started, by rw [result]; simp only [unread], ?_⟩
      refine Parsed.after reaches shorter
        (Parsed.waiting startedTidy (fun world => ?_) ?_)
      · rw [next world, Session.readArgument, if_pos short]
      · simp [Session.complaint, Client.session, startedOpen, startedBusy,
          known]
    · refine .inr ⟨{ read with multibulklen := left }, ?_, ?_, inside, rfl,
        noLength, sameFlag.trans startedOpen,
        sameType.trans (startedTidy.busy startedOpen startedBusy), ?_⟩
      · rw [result]
        simp only [isRead]
      · refine reaches.trans (Reaches.step fun world => ?_)
        rw [next world, Session.readArgument, if_neg (by omega)]
        have isSession :
            { started.session world with
              argv := started.argv ++ [started.pending.take bulklen]
              multibulklen := started.multibulklen - 1
              bulklen := none } =
              ({ read with multibulklen := left } : Client).session
                world := by
          simp only [Client.session, isArgv, noLength, sameFlag, sameReply,
            same, count, Nat.add_sub_cancel]
        have stays : ({ read with multibulklen := left } : Client).pending =
            read.pending := rfl
        rw [stays, isPending, ← isSession]
        rfl
      · have fewer : read.pending.length < started.pending.length := by
          rw [isPending, List.length_drop]
          omega
        exact Nat.lt_of_lt_of_le fewer shorter

theorem readBulks_parsed {left : Nat} (tidy : Tidy c)
    (opened : c.closeAfterReply = false) (count : c.multibulklen = left + 1) :
    Parsed protoMaxBulkLen processCommand c
      (readBulks protoMaxBulkLen (left + 1) c) := by
  induction left generalizing c with
  | zero =>
      rcases @readBulks_round World protoMaxBulkLen processCommand c 0 tidy
        opened count with
        ⟨stopped, result, parsed⟩ | ⟨read, result, reaches, inside, done,
          noLength, readOpen, isType, shorter⟩
      · rw [result]
        exact parsed
      · rw [result]
        exact .complete reaches inside readOpen done noLength shorter
  | succ left inductionHypothesis =>
      rcases @readBulks_round World protoMaxBulkLen processCommand c
        (left + 1) tidy opened count with
        ⟨stopped, result, parsed⟩ | ⟨read, result, reaches, inside, more,
          noLength, readOpen, isType, shorter⟩
      · rw [result]
        exact parsed
      · rw [result]
        refine Parsed.after reaches (Nat.le_of_lt shorter)
          (inductionHypothesis ⟨inside, ?_, ?_, fun _ _ => isType⟩ readOpen
            more)
        · intro _ idle
          omega
        · intro _ idle
          omega

theorem processMultibulkBuffer_parsed (tidy : Tidy c)
    (opened : c.closeAfterReply = false)
    (isType : c.reqtype = some .multibulk) :
    ∃ result, processMultibulkBuffer protoMaxBulkLen c = some result ∧
      Parsed protoMaxBulkLen processCommand c result := by
  have inside := tidy.inside
  have length := c.length_pending
  unfold processMultibulkBuffer
  split
  next idle =>
    obtain ⟨empty, noLength⟩ := tidy.idle opened idle
    obtain ⟨nonempty, isFirst⟩ := tidy.typed opened idle _ isType
    have star : charAt c.pending 0 = '*' := by
      by_contra other
      rw [requestType, if_neg other] at isFirst
      cases isFirst
    have next (world : World) :
        (c.session world).next protoMaxBulkLen processCommand c.pending =
          (c.session world).readCount c.pending := by
      rw [next_idle (by exact opened) (by exact idle) (by exact empty)
        nonempty, if_pos star]
    rw [if_neg (not_not.mpr empty)]
    split
    next missing =>
      have waits (world : World) :
          (c.session world).next protoMaxBulkLen processCommand c.pending =
            none := by
        rw [next world, Session.readCount, headerLine_of_missing missing,
          Option.map_none]
      split
      next tooBig =>
        refine ⟨_, rfl, Parsed.long tidy waits ?_⟩
        have long : ¬ c.pending.length ≤ protoInlineMaxSize := by omega
        simp [Session.complaint, Client.session, opened, idle, star,
          missing, long]
      next small =>
        refine ⟨_, rfl, Parsed.waiting tidy waits ?_⟩
        have short : c.pending.length ≤ protoInlineMaxSize := by omega
        simp [Session.complaint, short]
    next newline found =>
      split
      next short =>
        refine ⟨_, rfl, Parsed.waiting tidy (fun world => ?_) ?_⟩
        · rw [next world, Session.readCount,
            headerLine_of_short found short, Option.map_none]
        · simp [Session.complaint, Client.session, opened, idle, star, found]
      next whole =>
        have line := headerLine_pending found (by omega)
        rw [if_neg (not_not.mpr star)]
        split
        next unread =>
          refine ⟨_, rfl, Parsed.failed tidy (fun world => ?_) opened⟩
          rw [next world, Session.readCount, line, Option.map_some]
          simp only [unread]
        next ll read =>
          split
          next tooMany =>
            refine ⟨_, rfl, Parsed.failed tidy (fun world => ?_) opened⟩
            rw [next world, Session.readCount, line, Option.map_some]
            simp only [read, if_pos tooMany]
          next bounded =>
            have reaches : Reaches protoMaxBulkLen processCommand c
                { c with
                  qbPos := c.qbPos + (newline + 2)
                  multibulklen := ll.toNat } := by
              refine Reaches.step fun world => ?_
              rw [next world, Session.readCount, line, Option.map_some]
              simp only [read, if_neg bounded]
              simp only [Client.session, Client.pending, List.drop_drop]
            have shorter : (c.pending.drop (newline + 2)).length <
                c.pending.length := by
              rw [List.length_drop]
              omega
            rw [Client.pending, List.drop_drop] at shorter
            dsimp only
            split
            next none =>
              have zero : ll.toNat = 0 := by omega
              rw [zero] at reaches
              refine ⟨_, rfl, .complete ?_ (by dsimp only; omega) opened
                idle noLength shorter⟩
              have same : ({ c with
                  qbPos := c.qbPos + (newline + 2)
                  multibulklen := 0 } : Client) =
                  { c with qbPos := c.qbPos + (newline + 2) } := by
                rw [← idle]
              rwa [same] at reaches
            next some =>
              obtain ⟨left, isLeft⟩ :=
                Nat.exists_eq_succ_of_ne_zero (n := ll.toNat) (by omega)
              refine ⟨_, rfl,
                Parsed.after reaches (Nat.le_of_lt shorter) ?_⟩
              rw [isLeft]
              refine readBulks_parsed ⟨by dsimp only; omega, ?_, ?_,
                fun _ _ => isType⟩ opened rfl
              · intro _ isZero
                cases isZero
              · intro _ isZero
                cases isZero
  next busy =>
    obtain ⟨left, isLeft⟩ := Nat.exists_eq_succ_of_ne_zero busy
    refine ⟨_, rfl, ?_⟩
    rw [isLeft]
    exact readBulks_parsed tidy opened isLeft

/-- The type of a request is determined at its first byte and then kept. -/
theorem determineType_tidy (tidy : Tidy c)
    (opened : c.closeAfterReply = false) (nonempty : c.pending ≠ []) :
    Tidy (determineType c) ∧
      (determineType c).pending = c.pending ∧
      (determineType c).closeAfterReply = false ∧
      (∀ world : World,
        (determineType c).session world = c.session world) ∧
      ((determineType c).reqtype = some .multibulk ∨
        (determineType c).reqtype = some .inline ∧
          c.multibulklen = 0 ∧ charAt c.pending 0 ≠ '*') := by
  unfold determineType
  split
  next type isType =>
    refine ⟨tidy, rfl, opened, fun _ => rfl, ?_⟩
    by_cases idle : c.multibulklen = 0
    · obtain ⟨-, isFirst⟩ := tidy.typed opened idle type isType
      rw [isType, isFirst, requestType]
      split_ifs with star
      · exact .inl rfl
      · exact .inr ⟨rfl, idle, star⟩
    · exact .inl (tidy.busy opened idle)
  next unknown =>
    have idle : c.multibulklen = 0 := by
      by_contra busy
      have isType := tidy.busy opened busy
      rw [unknown] at isType
      cases isType
    split_ifs with star
    · refine ⟨⟨tidy.inside, tidy.idle, ?_, fun _ _ => rfl⟩, rfl, opened,
        fun _ => rfl, .inl rfl⟩
      intro _ _ type isType
      cases isType
      exact ⟨nonempty, by rw [requestType, if_pos]; exact star⟩
    · refine ⟨⟨tidy.inside, tidy.idle, ?_, fun _ busy => absurd idle busy⟩,
        rfl, opened, fun _ => rfl, .inr ⟨rfl, idle, star⟩⟩
      intro _ _ type isType
      cases isType
      exact ⟨nonempty, by rw [requestType, if_neg]; exact star⟩

theorem parseRequest_parsed (tidy : Tidy c)
    (opened : c.closeAfterReply = false) (nonempty : c.pending ≠ []) :
    ∃ result,
      parseRequest protoMaxBulkLen (determineType c) = some result ∧
      Parsed protoMaxBulkLen processCommand c result := by
  obtain ⟨typedTidy, same, typedOpen, sameSession, isType⟩ :=
    @determineType_tidy World c tidy opened nonempty
  have reaches :
      Reaches protoMaxBulkLen processCommand c (determineType c) :=
    fun world => by rw [same, sameSession]
  have noLonger : (determineType c).pending.length ≤ c.pending.length := by
    rw [same]
  unfold parseRequest
  rcases isType with multibulk | ⟨inline, idle, noStar⟩
  · obtain ⟨result, isResult, parsed⟩ :=
      @processMultibulkBuffer_parsed World protoMaxBulkLen processCommand _
        typedTidy typedOpen multibulk
    rw [multibulk]
    exact ⟨result, isResult, parsed.after reaches noLonger⟩
  · have sameCount : (determineType c).multibulklen = 0 := by
      unfold determineType
      split
      · exact idle
      · split_ifs <;> exact idle
    rw [inline]
    refine ⟨_, rfl, Parsed.after reaches noLonger
      (processInlineBuffer_parsed typedTidy typedOpen sameCount ?_ ?_)⟩
    · rwa [same]
    · rwa [same]

end Parsing

/-- Where the steps of a session lead, with a complaint at the end. -/
def Session.serve (session : Session World) (buffer : Sds) :
    Session World × Sds :=
  let settled := (Session.reader protoMaxBulkLen processCommand).settle
    session buffer
  (settled.1.complain settled.2, settled.2)

section Serving

variable {protoMaxBulkLen processCommand} {c : Client}

/-- The client's complaint is the session's. -/
theorem Client.complain_spec (tidy : Tidy c) (world : World) :
    c.complain.session world = (c.session world).complain c.pending ∧
      c.complain.pending = c.pending ∧ Tidy c.complain := by
  have same : (c.session world).complaint c.pending =
      (c.session ()).complaint c.pending := rfl
  unfold Client.complain Session.complain
  rw [same]
  cases told : (c.session ()).complaint c.pending with
  | none => exact ⟨rfl, rfl, tidy⟩
  | some message =>
      have opened : c.closeAfterReply = false := by
        by_contra notOpen
        have closed : (c.session ()).closeAfterReply = true :=
          (Bool.not_eq_false _).mp notOpen
        rw [Session.complaint_of_closed closed] at told
        cases told
      have replied : addReplyError c message =
          { c with reply := c.reply ++
            ("-ERR ".toList ++ message ++ "\r\n".toList) } := by
        rw [addReplyError, addReply, if_neg (by simp [opened])]
      dsimp only
      rw [replied]
      exact ⟨rfl, rfl, Tidy.of_closed rfl tidy.inside⟩

/-- Nothing happens without input. -/
theorem next_of_empty (tidy : Tidy c) (world : World) :
    (c.session world).next protoMaxBulkLen processCommand [] = none := by
  unfold Session.next
  split_ifs with closed idle ready
  · rfl
  · have opened : c.closeAfterReply = false :=
      (Bool.not_eq_true _).mp closed
    exact absurd (tidy.idle opened idle).1 ready
  · rfl
  · cases known : (c.session world).bulklen with
    | none => rfl
    | some bulklen => rfl

theorem serve_of_waiting {session : Session World} {buffer : Sds}
    (waits : session.next protoMaxBulkLen processCommand buffer = none) :
    session.serve protoMaxBulkLen processCommand buffer =
      (session.complain buffer, buffer) := by
  have settled := BufferedReader.settle_of_none
    (Session.reader protoMaxBulkLen processCommand) waits
  simp only [Session.serve, settled]

theorem serve_of_empty (tidy : Tidy c) (empty : c.pending = [])
    (world : World) :
    (c.session world).serve protoMaxBulkLen processCommand c.pending =
      (c.session world, c.pending) := by
  have calm : (c.session world).complaint [] = none := by
    simp [Session.complaint]
  rw [empty, serve_of_waiting (next_of_empty tidy world), Session.complain,
    calm]

theorem Reaches.serve {reached : Client}
    (reaches : Reaches protoMaxBulkLen processCommand c reached)
    (world : World) :
    (c.session world).serve protoMaxBulkLen processCommand c.pending =
      (reached.session world).serve protoMaxBulkLen processCommand
        reached.pending := by
  simp only [Session.serve, reaches world]

/-- The end of a round is the execution of the command, if there is one. -/
theorem finishRequest_serve (world : World)
    (inside : c.qbPos ≤ c.querybuf.length)
    (opened : c.closeAfterReply = false) (idle : c.multibulklen = 0)
    (noLength : c.bulklen = none) :
    Tidy (finishRequest processCommand c world).1 ∧
      (finishRequest processCommand c world).1.pending = c.pending ∧
      ((finishRequest processCommand c world).1.session
          (finishRequest processCommand c world).2).serve protoMaxBulkLen
            processCommand c.pending =
        (c.session world).serve protoMaxBulkLen processCommand
          c.pending := by
  have resetTidy {other : Client}
      (within : other.qbPos ≤ other.querybuf.length) :
      Tidy (resetClient other) :=
    ⟨within, fun _ _ => ⟨rfl, rfl⟩,
      fun _ _ _ isType => (nomatch isType), fun _ busy => absurd rfl busy⟩
  unfold finishRequest
  split_ifs with empty
  · refine ⟨resetTidy inside, rfl, ?_⟩
    have same : (resetClient c).session world = c.session world := by
      simp [resetClient, Client.session, empty, idle, noLength]
    rw [same]
  · have step : (c.session world).next protoMaxBulkLen processCommand
        c.pending =
          some ((c.session world).execute processCommand, c.pending) := by
      simp [Session.next, Client.session, opened, idle, empty]
    have executed := BufferedReader.settle_of_some
      (Session.reader protoMaxBulkLen processCommand) step
    have replied : addReply c (processCommand c.argv world).reply =
        { c with
          reply := c.reply ++ (processCommand c.argv world).reply } := by
      rw [addReply, if_neg (by simp [opened])]
    dsimp only
    rw [replied]
    split_ifs with closes
    · refine ⟨Tidy.of_closed rfl inside, rfl, ?_⟩
      simp only [Session.serve, executed]
      simp only [Session.execute, Client.session, closes, if_true]
    · refine ⟨resetTidy inside, rfl, ?_⟩
      simp only [Session.serve, executed]
      simp only [Session.execute, Client.session, closes, resetClient,
        Bool.false_eq_true, if_false, idle, noLength, opened]

theorem processRequests_serve {rounds : Nat} (tidy : Tidy c)
    (enough : c.pending.length ≤ rounds) (world : World) :
    ∃ served after,
      processRequests protoMaxBulkLen processCommand rounds c world =
        some (served, after) ∧
      Tidy served ∧
      (served.session after, served.pending) =
        (c.session world).serve protoMaxBulkLen processCommand
          c.pending := by
  induction rounds generalizing c world with
  | zero =>
      have empty : c.pending = [] :=
        List.length_eq_zero_iff.mp (Nat.le_zero.mp enough)
      exact ⟨c, world, rfl, tidy, (serve_of_empty tidy empty world).symm⟩
  | succ rounds inductionHypothesis =>
      have length := c.length_pending
      unfold processRequests
      split_ifs with atEnd closed
      · have empty : c.pending = [] :=
          List.length_eq_zero_iff.mp (by omega)
        exact ⟨c, world, rfl, tidy, (serve_of_empty tidy empty world).symm⟩
      · refine ⟨c, world, rfl, tidy, ?_⟩
        rw [serve_of_waiting (Session.next_of_closed _ _ closed _),
          Session.complain_of_closed closed]
      · have opened : c.closeAfterReply = false := by simpa using closed
        have nonempty : c.pending ≠ [] := by
          intro empty
          rw [empty, List.length_nil] at length
          omega
        obtain ⟨result, isResult, parsed⟩ :=
          @parseRequest_parsed World protoMaxBulkLen processCommand c tidy
            opened nonempty
        rw [isResult]
        cases parsed with
        | complete reaches inside reachedOpen idle noLength shorter =>
            rename_i reached
            obtain ⟨finishedTidy, same, isServe⟩ :=
              @finishRequest_serve World protoMaxBulkLen processCommand
                reached world inside reachedOpen idle noLength
            obtain ⟨served, after, isServed, servedTidy, agrees⟩ :=
              inductionHypothesis finishedTidy (by rw [same]; omega)
                (finishRequest processCommand reached world).2
            refine ⟨served, after, isServed, servedTidy, ?_⟩
            rw [agrees, same, isServe, reaches.serve world]
        | stopped reaches reachedTidy waits =>
            rename_i reached
            obtain ⟨isSession, same, complainTidy⟩ :=
              Client.complain_spec reachedTidy world
            refine ⟨reached.complain, world, rfl, complainTidy, ?_⟩
            rw [reaches.serve world, serve_of_waiting (waits world),
              isSession, same]

/--
`processInputBuffer` never fails an assertion and makes the steps of the
session, as many as there are.
-/
theorem processInputBuffer_serve (tidy : Tidy c) (world : World) :
    ∃ served after,
      processInputBuffer protoMaxBulkLen processCommand c world =
        some (served, after) ∧
      Tidy served ∧ served.qbPos = 0 ∧
      (served.session after, served.querybuf) =
        (c.session world).serve protoMaxBulkLen processCommand
          c.pending := by
  obtain ⟨served, after, isServed, servedTidy, agrees⟩ :=
    @processRequests_serve World protoMaxBulkLen processCommand c
      (c.querybuf.length - c.qbPos) tidy
      (Nat.le_of_eq c.length_pending) world
  refine ⟨{ served with querybuf := served.pending, qbPos := 0 }, after,
    ?_, ⟨Nat.zero_le _, servedTidy.idle, servedTidy.typed,
      servedTidy.busy⟩, rfl, agrees⟩
  rw [processInputBuffer, isServed]
  rfl

/-! ## Reads -/

/-- What holds of a client between two reads. -/
structure Resting (c : Client) : Prop where
  tidy : Tidy c
  atStart : c.qbPos = 0

theorem Resting.pending (resting : Resting c) : c.pending = c.querybuf := by
  rw [Client.pending, resting.atStart, List.drop_zero]

/-- A new connection. -/
theorem resting_new : Resting {} where
  tidy :=
    ⟨Nat.zero_le _, fun _ _ => ⟨rfl, rfl⟩,
      fun _ _ _ isType => (nomatch isType), fun _ busy => absurd rfl busy⟩
  atStart := rfl

/-- More input does not change the type of a request. -/
theorem Resting.append (resting : Resting c) (piece : Sds) :
    Tidy { c with querybuf := c.querybuf ++ piece } := by
  have isPending := resting.pending
  have pendingOf : ({ c with querybuf := c.querybuf ++ piece } :
      Client).pending = c.querybuf ++ piece := by
    rw [Client.pending, resting.atStart, List.drop_zero]
  refine ⟨?_, resting.tidy.idle, ?_, resting.tidy.busy⟩
  · rw [resting.atStart]
    exact Nat.zero_le _
  · intro opened idle type isType
    obtain ⟨nonempty, isFirst⟩ := resting.tidy.typed opened idle type isType
    rw [isPending] at nonempty isFirst
    rw [pendingOf, charAt_append (List.length_pos_iff.mpr nonempty)]
    exact ⟨by simp [nonempty], isFirst⟩

/-- How many bytes of those on their way a read takes. -/
def nread (available : Nat) (c : Client) : Nat := min available (readlen c)

/-- A read serves what the client had and what is new. -/
theorem readQueryFromClient_serve {clientMaxQuerybufLen available : Nat}
    {wire : Sds} (resting : Resting c) (world : World)
    (new : wire.take (nread available c) ≠ [])
    (room : (c.querybuf ++ wire.take (nread available c)).length ≤
      clientMaxQuerybufLen) :
    ∃ served after,
      readQueryFromClient protoMaxBulkLen processCommand
          clientMaxQuerybufLen available wire c world =
        some (some served, wire.drop (nread available c), after) ∧
      Resting served ∧
      (served.session after, served.querybuf) =
        (c.session world).serve protoMaxBulkLen processCommand
          (c.querybuf ++ wire.take (nread available c)) := by
  obtain ⟨served, after, isServed, servedTidy, atStart, agrees⟩ :=
    @processInputBuffer_serve World protoMaxBulkLen processCommand
      { c with querybuf := c.querybuf ++ wire.take (nread available c) }
      (resting.append _) world
  refine ⟨served, after, ?_, ⟨servedTidy, atStart⟩, ?_⟩
  · unfold readQueryFromClient
    simp only [nread] at new room isServed ⊢
    rw [if_neg new, if_neg (by omega), isServed]
    rfl
  · rw [agrees, Client.pending, resting.atStart, List.drop_zero]
    rfl

/-- A read without new bytes changes nothing. -/
theorem readQueryFromClient_empty {clientMaxQuerybufLen available : Nat}
    {wire : Sds} (world : World)
    (none : wire.take (nread available c) = []) :
    readQueryFromClient protoMaxBulkLen processCommand clientMaxQuerybufLen
        available wire c world =
      some (some c, wire, world) := by
  unfold readQueryFromClient
  simp only [nread] at none ⊢
  rw [if_pos none]

/-- A client that was not freed had room for what is new. -/
theorem room_of_read {clientMaxQuerybufLen available : Nat} {wire left : Sds}
    {world after : World} {served : Client}
    (new : wire.take (nread available c) ≠ [])
    (isRead : readQueryFromClient protoMaxBulkLen processCommand
        clientMaxQuerybufLen available wire c world =
      some (some served, left, after)) :
    (c.querybuf ++ wire.take (nread available c)).length ≤
      clientMaxQuerybufLen := by
  by_contra noRoom
  unfold readQueryFromClient at isRead
  simp only [nread] at new noRoom
  rw [if_neg new, if_pos (by omega)] at isRead
  cases isRead

end Serving

/-- The reads of a connection, with what is available at each. -/
def serveReads (clientMaxQuerybufLen : Nat) :
    List Nat → Option Client → Sds → World →
      Option (Option Client × Sds × World)
  | [], c, wire, world => some (c, wire, world)
  | _ :: _, none, wire, world => some (none, wire, world)
  | available :: later, some c, wire, world => do
      let read ← readQueryFromClient protoMaxBulkLen processCommand
        clientMaxQuerybufLen available wire c world
      serveReads clientMaxQuerybufLen later read.1 read.2.1 read.2.2

/--
The client is not freed, and after no read more than 64 kilobytes are left
outside of a string.
-/
def Moderate (clientMaxQuerybufLen : Nat) :
    List Nat → Client → Sds → World → Prop
  | [], _, _, _ => True
  | available :: later, c, wire, world =>
      ∃ served left after,
        readQueryFromClient protoMaxBulkLen processCommand
            clientMaxQuerybufLen available wire c world =
          some (some served, left, after) ∧
        (served.multibulklen ≠ 0 ∧ served.bulklen.isSome ∨
          served.querybuf.length ≤ protoInlineMaxSize) ∧
        Moderate clientMaxQuerybufLen later served left after

section Cuts

variable {protoMaxBulkLen processCommand} {c : Client}

/-- A complaint leaves a long buffer outside of a string. -/
theorem complain_of_moderate {session : Session World} {buffer : Sds}
    (moderate : (session.complain buffer).multibulklen ≠ 0 ∧
        (session.complain buffer).bulklen.isSome = true ∨
      buffer.length ≤ protoInlineMaxSize) :
    session.complain buffer = session := by
  cases told : session.complaint buffer with
  | none => simp [Session.complain, told]
  | some message =>
      have failed : session.complain buffer = session.fail message := by
        simp [Session.complain, told]
      rw [failed] at moderate
      simp only [Session.fail] at moderate
      rcases moderate with ⟨busy, known⟩ | short
      · simp [Session.complaint, busy, known] at told
      · simp [Session.complaint, short] at told

/-- A run of reads leads where the bytes lead if they are read at once. -/
theorem serveReads_settle {clientMaxQuerybufLen : Nat} {reads : List Nat}
    {wire : Sds} {world : World} (resting : Resting c)
    (waits : (c.session world).next protoMaxBulkLen processCommand
      c.querybuf = none)
    (moderate : Moderate protoMaxBulkLen processCommand
      clientMaxQuerybufLen reads c wire world) :
    ∃ served left after piece,
      serveReads protoMaxBulkLen processCommand clientMaxQuerybufLen reads
          (some c) wire world =
        some (some served, left, after) ∧
      wire = piece ++ left ∧
      (served.session after, served.querybuf) =
        (Session.reader protoMaxBulkLen processCommand).settle
          (c.session world) (c.querybuf ++ piece) := by
  induction reads generalizing c wire world with
  | nil =>
      refine ⟨c, wire, world, [], rfl, rfl, ?_⟩
      rw [List.append_nil, BufferedReader.settle_of_none _ waits]
  | cons available later inductionHypothesis =>
      obtain ⟨served, left, after, isRead, calm, further⟩ := moderate
      rw [serveReads, isRead]
      by_cases new : wire.take (nread available c) = []
      · rw [readQueryFromClient_empty world new] at isRead
        cases isRead
        exact inductionHypothesis resting waits further
      · obtain ⟨served', after', isServed, servedResting, agrees⟩ :=
          @readQueryFromClient_serve World protoMaxBulkLen processCommand c
            clientMaxQuerybufLen available wire resting world new
            (room_of_read new isRead)
        rw [isServed] at isRead
        cases isRead
        obtain ⟨isSession, isBuffer⟩ := Prod.mk.inj agrees
        rw [isBuffer] at calm
        have calmly := complain_of_moderate (calm.imp_left fun inString => by
          rw [← isSession]
          exact inString)
        rw [calmly] at isSession
        obtain ⟨last, rest, final, piece, isRun, isWire, isSettled⟩ :=
          inductionHypothesis servedResting
            (by
              rw [isSession, isBuffer]
              exact BufferedReader.next_settle
                (Session.reader protoMaxBulkLen processCommand) _ _)
            further
        refine ⟨last, rest, final, wire.take (nread available c) ++ piece,
          isRun, ?_, ?_⟩
        · rw [List.append_assoc, ← isWire, List.take_append_drop]
        · rw [isSettled, isSession, isBuffer, ← List.append_assoc]
          exact (BufferedReader.settle_append _ _ _ _).symm

/--
Two runs that have read the same bytes of a connection, cut in different ways,
have executed the same commands, sent the same replies and kept the same part of
a request.
-/
theorem cuts_not_observed {clientMaxQuerybufLen : Nat} {wire left : Sds}
    {world afterFirst afterSecond : World} {firstReads secondReads : List Nat}
    {first second : Client}
    (firstModerate : Moderate protoMaxBulkLen processCommand
      clientMaxQuerybufLen firstReads {} wire world)
    (secondModerate : Moderate protoMaxBulkLen processCommand
      clientMaxQuerybufLen secondReads {} wire world)
    (firstRun : serveReads protoMaxBulkLen processCommand
        clientMaxQuerybufLen firstReads (some {}) wire world =
      some (some first, left, afterFirst))
    (secondRun : serveReads protoMaxBulkLen processCommand
        clientMaxQuerybufLen secondReads (some {}) wire world =
      some (some second, left, afterSecond)) :
    first.session afterFirst = second.session afterSecond ∧
      first.querybuf = second.querybuf := by
  have waits : (({} : Client).session world).next protoMaxBulkLen
      processCommand ({} : Client).querybuf = none :=
    next_of_empty resting_new.tidy world
  obtain ⟨one, leftOne, afterOne, pieceOne, isOne, wireOne, settledOne⟩ :=
    serveReads_settle resting_new waits firstModerate
  obtain ⟨two, leftTwo, afterTwo, pieceTwo, isTwo, wireTwo, settledTwo⟩ :=
    serveReads_settle resting_new waits secondModerate
  rw [firstRun] at isOne
  rw [secondRun] at isTwo
  cases isOne
  cases isTwo
  have samePiece : pieceOne = pieceTwo :=
    List.append_cancel_right (wireOne.symm.trans wireTwo)
  subst samePiece
  exact Prod.mk.inj (settledOne.trans settledTwo.symm)

end Cuts

end Requests

/-- A server that only keeps its requests. -/
def keepRequest (argv : List Sds) (requests : List (List Sds)) :
    Answer (List (List Sds)) where
  world := requests ++ [argv]
  reply := "+OK\r\n".toList
  closes := false

/-- A request and the start of another one, read at once or in pieces. -/
theorem cuts_not_observed_ping :
    ∃ first second afterFirst afterSecond,
      serveReads 10 keepRequest 100 [30] (some {})
          "*1\r\n$4\r\nPING\r\n*1".toList [] =
        some (some first, [], afterFirst) ∧
      serveReads 10 keepRequest 100 [3, 1, 8, 30] (some {})
          "*1\r\n$4\r\nPING\r\n*1".toList [] =
        some (some second, [], afterSecond) ∧
      first.session afterFirst = second.session afterSecond ∧
      first.querybuf = second.querybuf := by
  refine ⟨_, _, _, _, rfl, rfl, @cuts_not_observed _ 10 keepRequest 100
    "*1\r\n$4\r\nPING\r\n*1".toList [] [] _ _ [30] [3, 1, 8, 30] _ _
    ?_ ?_ rfl rfl⟩
  · exact ⟨_, _, _, rfl, by decide, trivial⟩
  · exact ⟨_, _, _, rfl, by decide, _, _, _, rfl, by decide, _, _, _, rfl,
      by decide, _, _, _, rfl, by decide, trivial⟩

end NomadiCore.Redis
