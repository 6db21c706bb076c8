import NomadiCore.RedisPipelines

/-!
# The Redis server and its clients

Clients send requests over their connections, the server reads some of the bytes
of one connection at a time, looks up the commands in its table, executes them
on the one key space and answers with bytes.  In between the active cycle
removes keys that have expired.  What the clients see is what a plain map with
deadlines would answer to one sequence of all their commands.
-/

namespace NomadiCore.Redis

open NomadiCore.Library
open NomadiCore.Library.TimedMap

/-! ## Replies -/

/-- Small numbers have shared headers, with the same bytes. -/
def addReplyLongLongWithPrefix (value : Int) (sign : Char) : Sds :=
  sign :: (ll2string 127 value).getD [] ++ crlf

def addReplyLongLong (value : Int) : Sds :=
  if value = 0 then ":0\r\n".toList
  else if value = 1 then ":1\r\n".toList
  else addReplyLongLongWithPrefix value ':'

def addReplyBulk (text : Sds) : Sds :=
  addReplyLongLongWithPrefix text.length '$' ++ text ++ crlf

def errorReply (message : String) : Sds :=
  "-ERR ".toList ++ message.toList ++ crlf

def replyBytes : Reply → Sds
  | .ok => "+OK\r\n".toList
  | .nullbulk => "$-1\r\n".toList
  | .integer value => addReplyLongLong value
  | .bulk text => addReplyBulk text
  | .wrongtypeerr =>
      "-WRONGTYPE Operation against a key ".toList ++
        "holding the wrong kind of value\r\n".toList
  | .syntaxerr => errorReply "syntax error"
  | .error message => errorReply message

/-! ## The command table -/

/-- A negative arity is the least number of arguments. -/
structure RedisCommand where
  name : String
  arity : Int
  proc : List Sds → Option Command

def oneArgument (command : Sds → Command) : List Sds → Option Command
  | [first] => some (command first)
  | _ => none

def twoArguments (command : Sds → Sds → Command) :
    List Sds → Option Command
  | [first, second] => some (command first second)
  | _ => none

def threeArguments (command : Sds → Sds → Sds → Command) :
    List Sds → Option Command
  | [first, second, third] => some (command first second third)
  | _ => none

def someArguments (command : List Sds → Command) :
    List Sds → Option Command
  | [] => none
  | first :: others => some (command (first :: others))

def keyAndValue (command : Sds → Sds → List Sds → Command) :
    List Sds → Option Command
  | key :: value :: others => some (command key value others)
  | _ => none

/-- The commands of the table that are modelled. -/
def redisCommandTable : List RedisCommand :=
  [⟨"get", 2, oneArgument .get⟩,
    ⟨"set", -3, keyAndValue .set⟩,
    ⟨"setnx", 3, twoArguments .setnx⟩,
    ⟨"setex", 4, threeArguments .setex⟩,
    ⟨"psetex", 4, threeArguments .psetex⟩,
    ⟨"del", -2, someArguments .del⟩,
    ⟨"unlink", -2, someArguments .del⟩,
    ⟨"exists", -2, someArguments .existsKeys⟩,
    ⟨"incr", 2, oneArgument .incr⟩,
    ⟨"decr", 2, oneArgument .decr⟩,
    ⟨"rpush", -3, keyAndValue (.push .tail)⟩,
    ⟨"lpush", -3, keyAndValue (.push .head)⟩,
    ⟨"incrby", 3, twoArguments .incrby⟩,
    ⟨"decrby", 3, twoArguments .decrby⟩,
    ⟨"getset", 3, twoArguments .getset⟩,
    ⟨"expire", 3, twoArguments (.expire .seconds)⟩,
    ⟨"expireat", 3, twoArguments (.expireat .seconds)⟩,
    ⟨"pexpire", 3, twoArguments (.expire .milliseconds)⟩,
    ⟨"pexpireat", 3, twoArguments (.expireat .milliseconds)⟩,
    ⟨"ttl", 2, oneArgument (.ttl .seconds)⟩,
    ⟨"pttl", 2, oneArgument (.ttl .milliseconds)⟩,
    ⟨"persist", 2, oneArgument .persist⟩]

/-- Names are compared without regard to case. -/
def lookupCommand (name : Sds) : Option RedisCommand :=
  redisCommandTable.find? fun command =>
    command.name.toList == name.map Char.toLower

def RedisCommand.rejects (command : RedisCommand) (argc : Nat) : Bool :=
  (command.arity > 0 && command.arity != argc) || argc < -command.arity

/-- The data of the server, and how often it has read its clock. -/
structure Store where
  db : RedisDb
  readings : Nat

/-- The name of a request. -/
def commandName (argv : List Sds) : Sds := argv.headD []

/--
A request is executed at the next reading of the clock.  What the rest of the
table does is a parameter; there is no store once an assertion has failed.
-/
def processCommand (clock : Nat → Int)
    (otherCommand : List Sds → Option Store → Answer (Option Store))
    (argv : List Sds) (store : Option Store) : Answer (Option Store) :=
  if (commandName argv).map Char.toLower = "quit".toList then
    ⟨store, "+OK\r\n".toList, true⟩
  else
    match lookupCommand (commandName argv) with
    | none => otherCommand argv store
    | some command =>
        if command.rejects argv.length then
          ⟨store, errorReply ("wrong number of arguments for '" ++
            command.name ++ "' command"), false⟩
        else
          match command.proc argv.tail, store with
          | some command, some store =>
              match act command (clock store.readings) store.db with
              | some (reply, db) =>
                  ⟨some ⟨db, store.readings + 1⟩, replyBytes reply, false⟩
              | none => ⟨none, [], false⟩
          | _, _ => ⟨none, [], false⟩

/-- The command a request stands for, if it is one that is modelled. -/
def readCommand (argv : List Sds) : Option Command :=
  (lookupCommand (commandName argv)).bind fun command =>
    if command.rejects argv.length then none else command.proc argv.tail

theorem name_ne_quit {name : Sds} {command : RedisCommand}
    (found : lookupCommand name = some command) :
    name.map Char.toLower ≠ "quit".toList := by
  intro isQuit
  have missing : (redisCommandTable.find? fun command =>
      command.name.toList == "quit".toList).isNone = true := by
    decide
  rw [lookupCommand, isQuit] at found
  rw [found] at missing
  cases missing

theorem processCommand_of_read {argv : List Sds} {command : Command}
    (read : readCommand argv = some command) (clock : Nat → Int)
    (otherCommand : List Sds → Option Store → Answer (Option Store))
    {store : Store} {reply : Reply} {db : RedisDb}
    (acts : act command (clock store.readings) store.db =
      some (reply, db)) :
    processCommand clock otherCommand argv (some store) =
      ⟨some ⟨db, store.readings + 1⟩, replyBytes reply, false⟩ := by
  obtain ⟨entry, found, isRead⟩ := Option.bind_eq_some_iff.mp read
  split_ifs at isRead with rejected
  rw [processCommand, if_neg (name_ne_quit found)]
  simp only [found, rejected, isRead, acts, Bool.false_eq_true, if_false]

/-- Commands of the table close no connection. -/
theorem stays_of_read {argv : List Sds} {command : Command}
    (read : readCommand argv = some command) (clock : Nat → Int)
    (otherCommand : List Sds → Option Store → Answer (Option Store))
    (store : Option Store) :
    (processCommand clock otherCommand argv store).closes = false := by
  obtain ⟨entry, found, isRead⟩ := Option.bind_eq_some_iff.mp read
  split_ifs at isRead with rejected
  rw [processCommand, if_neg (name_ne_quit found)]
  simp only [found, rejected, isRead, Bool.false_eq_true, if_false]
  split
  · split <;> rfl
  · rfl

/-! ## The plain map -/

/-- A command as it was executed. -/
structure Performed where
  client : Nat
  now : Int
  command : Command

/-- Who gets which bytes from a plain map. -/
def answers : Entries Sds Content → List Performed → List (Nat × Sds)
  | _, [] => []
  | map, entry :: history =>
      let result := perform entry.command entry.now (living entry.now map)
      (entry.client, replyBytes result.1) :: answers result.2 history

/-- The plain map afterwards. -/
def mapAfter : Entries Sds Content → List Performed → Entries Sds Content
  | map, [] => map
  | map, entry :: history =>
      mapAfter (perform entry.command entry.now (living entry.now map)).2
        history

def bytesFor (client : Nat) (sent : List (Nat × Sds)) : Sds :=
  (sent.filter fun answer => answer.1 == client).flatMap (·.2)

/-- The commands of one client. -/
def commandsOf (client : Nat) (history : List Performed) : List Command :=
  (history.filter fun entry => entry.client == client).map (·.command)

theorem answers_append (map : Entries Sds Content)
    (first second : List Performed) :
    answers map (first ++ second) =
      answers map first ++ answers (mapAfter map first) second := by
  induction first generalizing map with
  | nil => rfl
  | cons entry history inductionHypothesis =>
      simp only [List.cons_append, answers, mapAfter, inductionHypothesis]

theorem mapAfter_append (map : Entries Sds Content)
    (first second : List Performed) :
    mapAfter map (first ++ second) =
      mapAfter (mapAfter map first) second := by
  induction first generalizing map with
  | nil => rfl
  | cons entry history inductionHypothesis =>
      simp only [List.cons_append, mapAfter, inductionHypothesis]

@[simp]
theorem bytesFor_append (client : Nat) (first second : List (Nat × Sds)) :
    bytesFor client (first ++ second) =
      bytesFor client first ++ bytesFor client second := by
  simp [bytesFor]

@[simp]
theorem commandsOf_append (client : Nat) (first second : List Performed) :
    commandsOf client (first ++ second) =
      commandsOf client first ++ commandsOf client second := by
  simp [commandsOf]

/-! ## The server -/

structure Server where
  clients : Nat → Option Client
  wires : Nat → Sds
  store : Option Store

/-- Bytes of a connection are read, or the active cycle tries a key. -/
inductive Action where
  | read (client available : Nat)
  | tryExpire (key : Sds)

section Runs

variable (protoMaxBulkLen clientMaxQuerybufLen : Nat) (clock : Nat → Int)
  (otherCommand : List Sds → Option Store → Answer (Option Store))

def serverStep (server : Server) : Action → Option Server
  | .read client available =>
      match server.clients client with
      | none => some server
      | some c => do
          let read ← readQueryFromClient protoMaxBulkLen
            (processCommand clock otherCommand) clientMaxQuerybufLen
            available (server.wires client) c server.store
          some
            { clients := Function.update server.clients client read.1
              wires := Function.update server.wires client read.2.1
              store := read.2.2 }
  | .tryExpire key =>
      some { server with
        store := server.store.map fun store =>
          ⟨activeExpireCycleTryExpire key (clock store.readings) store.db,
            store.readings + 1⟩ }

def serverRun (server : Server) : List Action → Option Server
  | [] => some server
  | action :: later => do
      let after ← serverStep protoMaxBulkLen clientMaxQuerybufLen clock
        otherCommand server action
      serverRun after later

end Runs

/-- New connections with their bytes on the way. -/
def newServer (wires : Nat → Sds) (db : RedisDb) : Server where
  clients := fun _ => some {}
  wires := wires
  store := some ⟨db, 0⟩

/-! ## One sequence of commands -/

/-- The clock of the server is never set back. -/
def ClockRuns (clock : Nat → Int) : Prop :=
  ∀ first second, first ≤ second → clock first ≤ clock second

section Histories

variable {protoMaxBulkLen clientMaxQuerybufLen : Nat} {clock : Nat → Int}
  {otherCommand : List Sds → Option Store → Answer (Option Store)}
  {map : Entries Sds Content} {history : List Performed} {store : Store}

/-- The store holds what the plain map holds after some commands. -/
structure Tracks (clock : Nat → Int) (map : Entries Sds Content)
    (history : List Performed) (store : Store) : Prop where
  consistent : Consistent store.db
  ordered : history.Pairwise fun first second => first.now ≤ second.now
  past : ∀ entry ∈ history, entry.now ≤ clock store.readings
  same : living (clock store.readings) (entries store.db) =
    living (clock store.readings) (mapAfter map history)

/-- A request that is a command at every reading of the clock. -/
def Sendable (clock : Nat → Int) (argv : List Sds) : Prop :=
  ∃ command, readCommand argv = some command ∧
    ∀ reading, Allowed (clock reading) command

theorem Tracks.execute (runs : ClockRuns clock)
    (tracks : Tracks clock map history store) {argv : List Sds}
    (sendable : Sendable clock argv) (client : Nat) :
    ∃ command after,
      readCommand argv = some command ∧
      processCommand clock otherCommand argv (some store) =
        ⟨some after, replyBytes (perform command (clock store.readings)
          (living (clock store.readings) (mapAfter map history))).1,
          false⟩ ∧
      Tracks clock map
        (history ++ [⟨client, clock store.readings, command⟩]) after := by
  obtain ⟨command, read, allowed⟩ := sendable
  obtain ⟨db, acts, consistent, isMap⟩ :=
    act_performs tracks.consistent (allowed store.readings)
  rw [tracks.same] at acts isMap
  have later : clock store.readings ≤ clock (store.readings + 1) :=
    runs _ _ (Nat.le_succ _)
  refine ⟨command, ⟨db, store.readings + 1⟩, read,
    processCommand_of_read read clock otherCommand acts, consistent, ?_, ?_,
    ?_⟩
  · rw [List.pairwise_append]
    refine ⟨tracks.ordered, List.pairwise_singleton _ _, ?_⟩
    intro first member second last
    rw [List.mem_singleton.mp last]
    exact tracks.past first member
  · intro entry member
    rcases List.mem_append.mp member with earlier | last
    · exact Int.le_trans (tracks.past entry earlier) later
    · rw [List.mem_singleton.mp last]
      exact later
  · rw [mapAfter_append]
    exact living_eq_later later isMap

theorem Tracks.tryExpire (runs : ClockRuns clock)
    (tracks : Tracks clock map history store) (key : Sds) :
    Tracks clock map history
      ⟨activeExpireCycleTryExpire key (clock store.readings) store.db,
        store.readings + 1⟩ := by
  have later : clock store.readings ≤ clock (store.readings + 1) :=
    runs _ _ (Nat.le_succ _)
  obtain ⟨consistent, isMap⟩ :=
    @act_implements.collects store.db (clock store.readings) key
      tracks.consistent
  exact ⟨consistent, tracks.ordered,
    fun entry member => Int.le_trans (tracks.past entry member) later,
    living_eq_later later (isMap.trans tracks.same)⟩

/-- The requests of one read, executed one after another. -/
theorem Tracks.executeAll (runs : ClockRuns clock)
    (tracks : Tracks clock map history store) (client : Nat)
    {executed : List (List Sds)}
    (sendable : ∀ argv ∈ executed, Sendable clock argv) :
    ∃ after performed,
      executeAll (processCommand clock otherCommand) executed
          (some store) =
        (some after,
          (answers (mapAfter map history) performed).flatMap (·.2)) ∧
      Tracks clock map (history ++ performed) after ∧
      (∀ entry ∈ performed, entry.client = client) ∧
      executed.map readCommand = performed.map fun entry =>
        some entry.command := by
  induction executed generalizing history store with
  | nil =>
      exact ⟨store, [], rfl, by simpa using tracks, by simp, rfl⟩
  | cons argv others inductionHypothesis =>
      obtain ⟨command, between, read, processed, betweenTracks⟩ :=
        @Tracks.execute clock otherCommand map history store runs tracks
          argv (sendable argv (by simp)) client
      obtain ⟨after, performed, isExecuted, afterTracks, own, commands⟩ :=
        inductionHypothesis betweenTracks
          (fun other member => sendable other (by simp [member]))
      refine ⟨after, ⟨client, clock store.readings, command⟩ :: performed,
        ?_, ?_, ?_, ?_⟩
      · rw [executeAll, processed]
        simp only [isExecuted, mapAfter_append]
        rfl
      · simpa using afterTracks
      · intro entry member
        rcases List.mem_cons.mp member with rfl | later
        · rfl
        · exact own entry later
      · rw [List.map_cons, List.map_cons, read, commands]

theorem answers_own {client : Nat} {performed : List Performed}
    (own : ∀ entry ∈ performed, entry.client = client)
    (map : Entries Sds Content) :
    ∀ answer ∈ answers map performed, answer.1 = client := by
  induction performed generalizing map with
  | nil => simp [answers]
  | cons entry others inductionHypothesis =>
      intro answer member
      rcases List.mem_cons.mp member with rfl | later
      · exact own entry (by simp)
      · exact inductionHypothesis
          (fun other member => own other (by simp [member])) _ answer later

theorem bytesFor_own {client : Nat} {sent : List (Nat × Sds)}
    (own : ∀ answer ∈ sent, answer.1 = client) :
    bytesFor client sent = sent.flatMap (·.2) := by
  rw [bytesFor, List.filter_eq_self.mpr]
  intro answer member
  simp [own answer member]

theorem bytesFor_other {client other : Nat} {sent : List (Nat × Sds)}
    (different : other ≠ client)
    (own : ∀ answer ∈ sent, answer.1 = client) :
    bytesFor other sent = [] := by
  rw [bytesFor, List.filter_eq_nil_iff.mpr, List.flatMap_nil]
  intro answer member
  simpa [own answer member] using different.symm

theorem commandsOf_own {client : Nat} {performed : List Performed}
    (own : ∀ entry ∈ performed, entry.client = client) :
    commandsOf client performed = performed.map (·.command) := by
  rw [commandsOf, List.filter_eq_self.mpr]
  intro entry member
  simp [own entry member]

theorem commandsOf_other {client other : Nat} {performed : List Performed}
    (different : other ≠ client)
    (own : ∀ entry ∈ performed, entry.client = client) :
    commandsOf other performed = [] := by
  rw [commandsOf, List.filter_eq_nil_iff.mpr, List.map_nil]
  intro entry member
  simpa [own entry member] using different.symm

/-- A client has the answers to the commands it has sent so far. -/
structure Answered (protoMaxBulkLen : Nat) (clock : Nat → Int)
    (otherCommand : List Sds → Option Store → Answer (Option Store))
    (map : Entries Sds Content) (requests : List (List Sds))
    (history : List Performed) (client : Nat) (c : Client)
    (wire : Sds) : Prop where
  reply : c.reply = bytesFor client (answers map history)
  sent : ∃ executed coming, requests = executed ++ coming ∧
    executed.map readCommand = (commandsOf client history).map some ∧
    Expects protoMaxBulkLen (processCommand clock otherCommand) c wire
      coming

/-- All clients, and the store they share. -/
structure Serves (protoMaxBulkLen : Nat) (clock : Nat → Int)
    (otherCommand : List Sds → Option Store → Answer (Option Store))
    (map : Entries Sds Content) (requests : Nat → List (List Sds))
    (history : List Performed) (server : Server) : Prop where
  store : ∃ store, server.store = some store ∧
    Tracks clock map history store
  clients : ∀ client, ∃ c, server.clients client = some c ∧
    Answered protoMaxBulkLen clock otherCommand map (requests client)
      history client c (server.wires client)

theorem Serves.step {requests : Nat → List (List Sds)} {server : Server}
    (limits : Limits protoMaxBulkLen clientMaxQuerybufLen)
    (runs : ClockRuns clock)
    (sendable : ∀ client, ∀ argv ∈ requests client, Sendable clock argv)
    (serves : Serves protoMaxBulkLen clock otherCommand map requests history
      server) (action : Action) :
    ∃ after performed,
      serverStep protoMaxBulkLen clientMaxQuerybufLen clock otherCommand
        server action = some after ∧
      Serves protoMaxBulkLen clock otherCommand map requests
        (history ++ performed) after := by
  obtain ⟨store, isStore, tracks⟩ := serves.store
  cases action with
  | tryExpire key =>
      refine ⟨_, [], rfl, ?_⟩
      rw [List.append_nil]
      refine ⟨⟨_, ?_, tracks.tryExpire runs key⟩, serves.clients⟩
      rw [isStore]
      rfl
  | read client available =>
      obtain ⟨c, isClient, answered⟩ := serves.clients client
      obtain ⟨before, requestsLeft, isSplit, commandsBefore, expects⟩ :=
        answered.sent
      have stay : Stay (processCommand clock otherCommand) requestsLeft := by
        intro argv member world
        obtain ⟨command, read, -⟩ :=
          sendable client argv (by rw [isSplit]; simp [member])
        exact stays_of_read read clock otherCommand world
      obtain ⟨served, left, executed, coming, isRead, rfl, isReply, next⟩ :=
        read_expected limits expects stay available (some store)
      obtain ⟨after, performed, isExecuted, afterTracks, own, commands⟩ :=
        @Tracks.executeAll clock otherCommand map history store runs
          tracks client executed
          (fun argv member =>
            sendable client argv (by rw [isSplit]; simp [member]))
      rw [isExecuted] at isRead isReply
      refine ⟨⟨Function.update server.clients client (some served),
        Function.update server.wires client left, some after⟩, performed,
        ?_, ⟨after, rfl, afterTracks⟩, ?_⟩
      · simp only [serverStep, isClient, isStore, isRead,
          Option.bind_eq_bind, Option.bind_some]
      · intro other
        by_cases same : other = client
        · subst same
          refine ⟨served, by simp, ?_, before ++ executed, coming, ?_, ?_,
            by simpa using next⟩
          · rw [isReply, answered.reply, answers_append, bytesFor_append,
              bytesFor_own (answers_own own _)]
          · rw [isSplit, List.append_assoc]
          · rw [List.map_append, commandsBefore, commands,
              commandsOf_append, List.map_append, commandsOf_own own,
              List.map_map]
            rfl
        · obtain ⟨otherClient, isOther, otherAnswered⟩ :=
            serves.clients other
          refine ⟨otherClient, by simp [same, isOther], ?_, ?_⟩
          · rw [otherAnswered.reply, answers_append, bytesFor_append,
              bytesFor_other same (answers_own own _), List.append_nil]
          · simpa [same, commandsOf_other same own] using otherAnswered.sent

theorem Serves.run {requests : Nat → List (List Sds)} {server : Server}
    (limits : Limits protoMaxBulkLen clientMaxQuerybufLen)
    (runs : ClockRuns clock)
    (sendable : ∀ client, ∀ argv ∈ requests client, Sendable clock argv)
    (serves : Serves protoMaxBulkLen clock otherCommand map requests history
      server) (actions : List Action) :
    ∃ after history,
      serverRun protoMaxBulkLen clientMaxQuerybufLen clock otherCommand
        server actions = some after ∧
      Serves protoMaxBulkLen clock otherCommand map requests history
        after := by
  induction actions generalizing server history with
  | nil => exact ⟨server, history, rfl, serves⟩
  | cons action later inductionHypothesis =>
      obtain ⟨between, performed, isStep, betweenServes⟩ :=
        serves.step limits runs sendable action
      obtain ⟨after, wholeHistory, isRun, afterServes⟩ :=
        inductionHypothesis betweenServes
      refine ⟨after, wholeHistory, ?_, afterServes⟩
      rw [serverRun, isStep]
      exact isRun

end Histories

/--
However the connections are read, and whatever the active cycle removes, the
server does not fail, and there is one sequence of commands such that every
client has got the bytes of a plain map's answers to its own commands in it;
these are the first of those it has sent, and all of them once its bytes are
read.
-/
theorem clients_see_one_map {protoMaxBulkLen clientMaxQuerybufLen : Nat}
    (limits : Limits protoMaxBulkLen clientMaxQuerybufLen)
    {clock : Nat → Int} (runs : ClockRuns clock)
    (otherCommand : List Sds → Option Store → Answer (Option Store))
    {db : RedisDb} (consistent : Consistent db) {wires : Nat → Sds}
    {requests : Nat → List (List Sds)}
    (pipelines : ∀ client,
      Pipeline protoMaxBulkLen (wires client) (requests client))
    (sendable : ∀ client, ∀ argv ∈ requests client, Sendable clock argv)
    (actions : List Action) :
    ∃ server history,
      serverRun protoMaxBulkLen clientMaxQuerybufLen clock otherCommand
        (newServer wires db) actions = some server ∧
      history.Pairwise (fun first second => first.now ≤ second.now) ∧
      ∀ client, ∃ c executed coming,
        server.clients client = some c ∧
        c.reply = bytesFor client (answers (entries db) history) ∧
        requests client = executed ++ coming ∧
        executed.map readCommand = (commandsOf client history).map some ∧
        (server.wires client = [] → coming = []) := by
  have start : Serves protoMaxBulkLen clock otherCommand (entries db)
      requests [] (newServer wires db) := by
    refine ⟨⟨⟨db, 0⟩, rfl, consistent, .nil, by simp, rfl⟩, fun client =>
      ⟨{}, rfl, rfl, [], requests client, rfl, rfl,
        expects_new (pipelines client)⟩⟩
  obtain ⟨server, history, isRun, serves⟩ :=
    @Serves.run protoMaxBulkLen clientMaxQuerybufLen clock otherCommand
      (entries db) [] requests _ limits runs sendable start actions
  obtain ⟨store, -, tracks⟩ := serves.store
  refine ⟨server, history, isRun, tracks.ordered, fun client => ?_⟩
  obtain ⟨c, isClient, answered⟩ := serves.clients client
  obtain ⟨executed, coming, isSplit, commands, expects⟩ := answered.sent
  refine ⟨c, executed, coming, isClient, answered.reply, isSplit, commands,
    fun allRead => ?_⟩
  rw [allRead] at expects
  exact (expects.all_read limits.representable none).1

/-- One client sets and increments a counter, another one reads it. -/
def counterRequests (client : Nat) : List (List Sds) :=
  if client = 0 then
    [["SET".toList, "a".toList, "7".toList], ["incr".toList, "a".toList]]
  else if client = 1 then [["GET".toList, "a".toList]]
  else []

theorem clients_see_one_map_counter :
    ∃ server history,
      serverRun 536870912 1073741824 (fun _ => 1000)
        (fun _ store => ⟨store, [], false⟩)
        (newServer (fun client =>
          (counterRequests client).flatMap encodeRequest)
          ⟨fun _ => none, fun _ => none⟩)
        [.read 0 30, .read 1 99, .tryExpire "a".toList, .read 0 99] =
          some server ∧
      history.Pairwise (fun first second => first.now ≤ second.now) ∧
      ∀ client, ∃ c executed coming,
        server.clients client = some c ∧
        c.reply = bytesFor client (answers
          (entries ⟨fun _ => none, fun _ => none⟩) history) ∧
        counterRequests client = executed ++ coming ∧
        executed.map readCommand = (commandsOf client history).map some ∧
        (server.wires client = [] → coming = []) := by
  refine clients_see_one_map default_limits (fun _ _ _ => Int.le_refl _) _
    ⟨by simp, by simp, by simp⟩ (fun client => ?_) (fun client => ?_) _
  · unfold counterRequests
    split_ifs
    · exact pipeline_encodeRequest (by simp) (by simp) (by simp)
    · exact pipeline_encodeRequest (by simp) (by simp) (by simp)
    · exact .done
  · unfold counterRequests
    split_ifs
    · intro argv member
      simp only [List.mem_cons, List.not_mem_nil, or_false] at member
      rcases member with rfl | rfl
      · refine ⟨.set "a".toList "7".toList [], rfl, fun _ => ⟨by simp, ?_⟩⟩
        rintro options isOptions text number isText
        cases isOptions
        cases isText
      · exact ⟨.incr "a".toList, rfl, fun _ => ⟨by simp, trivial⟩⟩
    · intro argv member
      rw [List.mem_singleton.mp member]
      exact ⟨.get "a".toList, rfl, fun _ => ⟨by simp, trivial⟩⟩
    · simp

end NomadiCore.Redis
