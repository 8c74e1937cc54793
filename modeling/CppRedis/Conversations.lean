import CppRedis.Contexts

/-!
Commands on one connection, each sent and waited for. A context is `Fresh` between
calls that gave replies: what was asked for has been sent as a whole, and what was
answered has come in as a whole. Whatever `write` and `read` do, the replies are those
of the server to the commands, in order, up to the first call that fails; from then on
every call fails (`answered_in_order`).
-/
namespace CppRedis.Conversations
open CppRedis.Strings CppRedis.Reply CppRedis.Connection CppRedis.Requests CppRedis.Frames CppRedis.Streams CppRedis.Readers
open CppRedis.ReplyStreams CppRedis.Deliveries CppRedis.Encodings CppRedis.Contexts

variable {serve : Server} {before : List RedisCmd} {cmd : RedisCmd} {link link' : Link} {r r' : RedisReader} {l : Str}

/-! ### Commands and answers -/

/-- A command whose arguments an `int` can count, and whose format is defined; hiredis may
    refuse it all the same. -/
structure Command where
  args : RedisCmd
  few : args.length < 2 ^ 31
  defined : redisFormatCommandArgv (pointed args) ≠ .undefined

/-- What `shallow_assign` makes of the arguments. -/
def Command.argv (c : Command) : Argv := pointed c.args

theorem Command.formatted (c : Command) :
    (Sendable c.args ∧ redisFormatCommandArgv c.argv = .command (protocol.message c.args)) ∨
      (¬ Sendable c.args ∧ redisFormatCommandArgv c.argv = .error) := by
  by_cases sendable : Sendable c.args
  · exact .inl ⟨sendable, format_sendable sendable⟩
  · refine .inr ⟨sendable, ?_⟩
    unfold Command.argv
    cases is : redisFormatCommandArgv (pointed c.args) with
    | command bytes => exact absurd ((format_iff _ _).mp is).1 sendable
    | error => rfl
    | undefined => exact absurd is c.defined

theorem answers_append (serve : Server) (before cmds more : List RedisCmd) :
    answers serve before (cmds ++ more) = answers serve before cmds ++ answers serve (before ++ cmds) more := by
  induction cmds generalizing before with
  | nil => simp [answers]
  | cons cmd cmds ih => simp [answers, ih]

/-- What the server has sent for the commands so far. -/
def sentFor (serve : Server) (cmds : List RedisCmd) : Str := wire (answers serve [] cmds)

theorem sentFor_snoc (serve : Server) (before : List RedisCmd) (cmd : RedisCmd) :
    sentFor serve (before ++ [cmd]) = sentFor serve before ++ (serve before cmd).bytes := by
  simp [sentFor, answers_append, answers, wire]

/-- The bytes of a server are replies that the reader has room for. -/
structure Orderly (serve : Server) : Prop where
  sent : ∀ before cmd, Sent (serve before cmd)
  shallow : ∀ before cmd, (serve before cmd).levels ≤ 8
  short : ∀ before cmd, (serve before cmd).bytes.length + 1024 < 2 ^ 31

/-! ### The reader between two chunks -/

/-- The reader stands where the bytes `fed` since the last reply leave it, and has no
    reply to give. -/
structure Starved (r : RedisReader) (fed : Str) : Prop where
  stands : ∃ cur below, Rep r (.reading cur below) r.unread ∧ step (.reading cur below) r.unread = none ∧
    reader.Steps idle fed [] (.reading cur below) r.unread
  low : r.pos < 1024

theorem Starved.short {fed : Str} (starved : Starved r fed) : r.buf.length < 1024 + fed.length := by
  obtain ⟨cur, below, rep, stops, steps⟩ := starved.stands
  have := steps_length steps
  have := unread_length r
  have := starved.low
  omega

theorem starved_create : Starved redisReaderCreate [] :=
  ⟨⟨root, [], rep_create, idle_stops, .refl _ _⟩, by decide⟩

/-- A reader without a reply stays without one. -/
theorem Starved.get {fed : Str} (starved : Starved r fed) :
    ∃ r', redisReaderGetReply r = some (.ok none, r') ∧ Starved r' fed := by
  obtain ⟨cur, below, rep, stops, steps⟩ := starved.stands
  have got := get_reply rep
  revert got
  cases redisReaderGetReply r with
  | none =>
    intro got
    cases got with
    | undefined later => cases (later.stopped stops).2.1
  | some result =>
    intro got
    cases got with
    | refused later rep' => cases (later.stopped stops).2.1
    | given le low later rep' => cases (later.stopped stops).1
    | @pending r' cur' below' l' le low later rep' stops' =>
      obtain ⟨_, same, rfl⟩ := later.stopped stops
      cases same
      cases rep' with
      | reading err reply counted tasks shallow unread =>
        refine ⟨r', rfl, ⟨cur, below, .reading err reply counted tasks shallow rfl, ?_, ?_⟩, low⟩
        · rw [unread]
          exact stops
        · rw [unread]
          exact steps

/-- More bytes come in, up to the end of a reply at most: it is given if it is whole. -/
theorem Starved.feed {fed bytes : Str} (starved : Starved r fed) {p : Part} (sent : Sent p) (shallow : p.levels ≤ 8)
    (front : fed ++ bytes <+: p.bytes) (short : p.bytes.length + 1024 < 2 ^ 31) :
    ∃ reader', redisReaderFeed bytes r = (true, reader') ∧
      ((∃ r', redisReaderGetReply reader' = some (.ok none, r') ∧ Starved r' (fed ++ bytes)) ∨
        (∃ r', redisReaderGetReply reader' = some (.ok (some p.reply), r') ∧ Starved r' [] ∧ fed ++ bytes = p.bytes)) := by
  have room := starved.short
  have length := front.length_le
  rw [List.length_append] at length
  obtain ⟨cur, below, rep, stops, steps⟩ := starved.stands
  have sound : r.err = 0 := by
    cases rep with
    | reading err => exact err
  have fed_is : redisReaderFeed bytes r = (true, (redisReaderFeed bytes r).2) := by
    unfold redisReaderFeed
    rw [if_neg (not_not.mpr sound)]
  have behind := feed_rep rep bytes fun _ => by omega
  have one : ∀ q ∈ [p], Sent q := by simpa using sent
  have flat : ∀ q ∈ [p], q.levels ≤ 8 := by simpa using shallow
  have whole : fed ++ bytes <+: wire [p] := by simpa [wire] using front
  have arrived_is := decoded_arrived one flat whole
  have ahead : reader.Ahead idle (fed ++ bytes) 0 (.reading cur below) (r.unread ++ bytes) :=
    ((Transducer.Ahead.feed (.start idle) fed).silent steps).feed bytes
  refine ⟨_, fed_is, ?_⟩
  have got := get_reply behind
  revert got
  cases redisReaderGetReply (redisReaderFeed bytes r).2 with
  | none =>
    intro got
    cases got with
    | undefined later =>
      obtain ⟨_, state⟩ := (ahead.silent later).none rfl
      cases (congrArg Parser.ending state).symm.trans (Prod.mk.inj arrived_is).2
  | some result =>
    intro got
    cases got with
    | refused later rep' =>
      obtain ⟨_, state⟩ := (ahead.silent later).none rfl
      cases (congrArg Parser.ending state).symm.trans (Prod.mk.inj arrived_is).2
    | @pending r' cur' below' l' le low later rep' stops' =>
      left
      cases rep' with
      | reading err reply counted tasks shallow unread =>
        subst unread
        refine ⟨r', rfl, ⟨cur', below', .reading err reply counted tasks shallow rfl, stops', ?_⟩, low⟩
        exact (steps.extend bytes).trans later
    | @given r' s' l' reply le low later rep' =>
      right
      obtain ⟨_, found⟩ := ahead.next later
      have here : (arrived [p] (fed ++ bytes).length)[0]? = some reply := by
        rw [← (Prod.mk.inj arrived_is).1]
        exact found
      unfold arrived at here
      split at here
      · rename_i whole
        obtain rfl := Option.some.inj here
        have all : fed ++ bytes = p.bytes := front.eq_of_length_le whole
        obtain ⟨s₁, l₁, silent, last⟩ := (sent_readBack sent).room root [] [] rfl roomy_nil shallow
        rw [List.append_nil, ← all] at silent
        obtain ⟨s₂, l₂, s₃, l₃, silent', puts, rest⟩ := ((steps.extend bytes).trans later).first
        obtain ⟨same, same', _⟩ := Transducer.Steps.first_unique silent last silent' puts
        subst same same'
        obtain ⟨_, rfl, rfl⟩ := rest.stopped idle_stops
        have nothing : r'.unread = [] := by
          cases rep' with
          | reading err reply counted tasks shallow unread => exact unread
        refine ⟨r', rfl, ⟨⟨root, [], ?_, ?_, ?_⟩, low⟩, all⟩
        · rw [nothing]
          exact rep'
        · rw [nothing]
          exact idle_stops
        · rw [nothing]
          exact .refl _ _
      · cases here

/-! ### Calls -/

/-- Between calls: what was asked for has been sent, and what was answered has come
    in. -/
structure Fresh (serve : Server) (before : List RedisCmd) (link : Link) : Prop where
  err : link.ctx.err = 0
  obuf : link.ctx.obuf = []
  sent : link.sent = before.flatMap protocol.message
  received : link.received = sentFor serve before
  starved : Starved link.ctx.reader []

/-- The context has failed, and its reader has no reply. -/
structure Dead (link : Link) : Prop where
  err : link.ctx.err ≠ 0
  starved : ∃ fed, Starved link.ctx.reader fed

/-- A call on the way: the command has been sent up to what is in the buffer, and a part
    of its reply has come in. -/
structure Underway (serve : Server) (before : List RedisCmd) (cmd : RedisCmd) (fed : Str) (link : Link) : Prop where
  err : link.ctx.err = 0
  sent : link.sent ++ link.ctx.obuf = (before ++ [cmd]).flatMap protocol.message
  received : link.received = sentFor serve before ++ fed
  front : fed <+: (serve before cmd).bytes
  starved : Starved link.ctx.reader fed

/-- How a call may end. -/
def Ends (serve : Server) (before : List RedisCmd) (cmd : RedisCmd) : Outcome → Prop
  | .returns (some reply) link => reply = (serve before cmd).reply ∧ Fresh serve (before ++ [cmd]) link
  | .returns none link => Dead link
  | .waits => True
  | .undefined => False

private theorem fetched_starved (link : Link) {fed : Str} (starved : Starved link.ctx.reader fed) (later : Link → Outcome) :
    ∃ reader, fetched link later = later { link with ctx := { link.ctx with reader := reader } } ∧ Starved reader fed := by
  obtain ⟨reader, got, starved⟩ := starved.get
  refine ⟨reader, ?_, starved⟩
  unfold fetched redisGetReplyFromReader
  rw [got]

/-- What is written leaves the buffer. -/
private theorem flush_underway {writes : List Wrote} {fed : Str} (underway : Underway serve before cmd fed link)
    {done : Bool} (is : flush writes link = some (done, link')) :
    (done = true ∧ Underway serve before cmd fed link' ∧ link'.ctx.obuf = []) ∨ (done = false ∧ Dead link') := by
  induction writes generalizing link with
  | nil =>
    unfold flush at is
    rw [if_neg (not_not.mpr underway.err)] at is
    split at is
    · rename_i empty
      cases is
      exact .inl ⟨rfl, underway, empty⟩
    · cases is
  | cons nwritten writes ih =>
    unfold flush at is
    rcases redisBufferWrite_takes nwritten underway.err with ⟨n, wrote⟩ | ⟨strerror, failed⟩
    · have next : Underway serve before cmd fed
          { link with ctx := { link.ctx with obuf := link.ctx.obuf.drop n }, sent := link.sent ++ link.ctx.obuf.take n } := by
        refine ⟨underway.err, ?_, underway.received, underway.front, underway.starved⟩
        simpa using underway.sent
      rw [wrote, redisBufferWrite_wrote n underway.err] at is
      by_cases all : link.ctx.obuf.drop n = []
      · simp only [all, decide_true] at is
        cases is
        rw [all] at next
        exact .inl ⟨rfl, next, rfl⟩
      · simp only [all, decide_false] at is
        exact ih next is
    · rw [failed] at is
      cases is
      exact .inr ⟨rfl, ⟨by simp [RedisContext.setError, REDIS_ERR_IO], fed, underway.starved⟩⟩

/-- The bytes that a server has still to send for the command. -/
private theorem available_underway {fed : Str} (underway : Underway serve before cmd fed link)
    (written : link.ctx.obuf = []) : available serve link = (serve before cmd).bytes.drop fed.length := by
  have sent := underway.sent
  rw [written, List.append_nil] at sent
  unfold available
  rw [sent, protocol.read_stream_messages]
  show (sentFor serve (before ++ [cmd])).drop link.received.length = _
  rw [sentFor_snoc, underway.received, List.length_append, ← List.drop_drop, List.drop_left]

/-- The context fails where nothing more comes in. -/
private theorem loaded_fails {fed : Str} {nread : Nread} (starved : Starved link.ctx.reader fed) (later : Link → Outcome)
    {type : Int} {text : Str} (bad : type ≠ 0)
    (fails : redisBufferRead nread link.ctx = (false, link.ctx.setError type text)) :
    ∃ link', loaded nread link later = .returns none link' ∧ Dead link' := by
  unfold loaded
  rw [fails]
  exact ⟨_, rfl, ⟨bad, fed, starved⟩⟩

/-- Nothing comes in where the call is to be tried again. -/
private theorem receive_again (arrivals : List Arrival) {fed : Str} {errno : Errno} (strerror : Str)
    (underway : Underway serve before cmd fed link) (again : link.ctx.again errno = true) :
    ∃ reader, receive serve (.error errno strerror :: arrivals) link =
        receive serve arrivals { link with ctx := { link.ctx with reader := reader } } ∧
      Underway serve before cmd fed { link with ctx := { link.ctx with reader := reader } } := by
  have waits : redisBufferRead (.error errno strerror) link.ctx = (true, link.ctx) := by
    unfold redisBufferRead
    rw [if_neg (not_not.mpr underway.err)]
    simp only [again, ↓reduceIte]
  obtain ⟨reader, same, starved⟩ := fetched_starved link underway.starved (receive serve arrivals)
  refine ⟨reader, ?_, underway.err, underway.sent, underway.received, underway.front, starved⟩
  rw [receive_error, loaded, waits]
  exact same

/-- Some bytes come in: the reply goes on or is whole. -/
private theorem receive_some (orderly : Orderly serve) (arrivals : List Arrival) {fed : Str} {n : Nat}
    (underway : Underway serve before cmd fed link) (written : link.ctx.obuf = [])
    (something : (available serve link).take n ≠ []) :
    (∃ link' fed', receive serve (.some n :: arrivals) link = receive serve arrivals link' ∧
        Underway serve before cmd fed' link' ∧ link'.ctx.obuf = [] ∧ fed.length < fed'.length) ∨
      ∃ link', receive serve (.some n :: arrivals) link = .returns (some (serve before cmd).reply) link' ∧
        Fresh serve (before ++ [cmd]) link' := by
  have there := available_underway underway written
  rw [receive_bytes serve arrivals something]
  generalize bytes : (available serve link).take n = buf at something
  have front : fed ++ buf <+: (serve before cmd).bytes := by
    obtain ⟨back, whole⟩ := underway.front
    rw [← bytes, there, ← whole, List.drop_left]
    exact (List.prefix_append_right_inj fed).mpr (List.take_prefix n back)
  obtain ⟨reader, fed_is, ends⟩ := underway.starved.feed (orderly.sent before cmd) (orderly.shallow before cmd) front
    (orderly.short before cmd)
  have reads : redisBufferRead (.bytes buf) link.ctx = (true, { link.ctx with reader := reader }) := by
    unfold redisBufferRead
    rw [if_neg (not_not.mpr underway.err)]
    cases buf with
    | nil => exact absurd rfl something
    | cons b buf =>
      dsimp only
      rw [fed_is]
  unfold loaded
  simp only [reads]
  unfold fetched redisGetReplyFromReader
  rcases ends with ⟨reader', got, starved⟩ | ⟨reader', got, starved, all⟩
  · left
    simp only [got]
    refine ⟨_, fed ++ buf, rfl, ⟨underway.err, underway.sent, ?_, front, starved⟩, written, ?_⟩
    · rw [← List.append_assoc, ← underway.received]
    · have := List.length_pos_iff.mpr something
      rw [List.length_append]
      omega
  · right
    simp only [got]
    have sent := underway.sent
    rw [written, List.append_nil] at sent
    refine ⟨_, rfl, underway.err, written, sent, ?_, starved⟩
    show link.received ++ buf = _
    rw [sentFor_snoc, underway.received, List.append_assoc, all]

private theorem receive_ends (orderly : Orderly serve) {arrivals : List Arrival} {fed : Str}
    (underway : Underway serve before cmd fed link) (written : link.ctx.obuf = []) :
    Ends serve before cmd (receive serve arrivals link) := by
  induction arrivals generalizing link fed with
  | nil =>
    unfold receive
    rw [if_neg (not_not.mpr underway.err)]
    trivial
  | cons arrival arrivals ih =>
    cases arrival with
    | eof =>
      have fails : redisBufferRead (.bytes []) link.ctx =
          (false, link.ctx.setError REDIS_ERR_EOF (lit "Server closed the connection")) := by
        unfold redisBufferRead
        rw [if_neg (not_not.mpr underway.err)]
      obtain ⟨link', ends, dead⟩ := loaded_fails underway.starved (receive serve arrivals)
        (show REDIS_ERR_EOF ≠ 0 by decide) fails
      rw [receive_eof, ends]
      exact dead
    | error errno strerror =>
      by_cases again : link.ctx.again errno = true
      · obtain ⟨reader, same, underway'⟩ := receive_again arrivals strerror underway again
        rw [same]
        exact ih underway' written
      · have fails : redisBufferRead (.error errno strerror) link.ctx =
            (false, link.ctx.setError REDIS_ERR_IO strerror) := by
          unfold redisBufferRead
          rw [if_neg (not_not.mpr underway.err)]
          simp only [again, ↓reduceIte, Bool.false_eq_true]
        obtain ⟨link', ends, dead⟩ := loaded_fails underway.starved (receive serve arrivals)
          (show REDIS_ERR_IO ≠ 0 by decide) fails
        rw [receive_error, ends]
        exact dead
    | some n =>
      by_cases nothing : (available serve link).take n = []
      · unfold receive
        rw [if_pos ⟨underway.err, nothing⟩]
        trivial
      · rcases receive_some orderly arrivals underway written nothing with
          ⟨link', fed', same, underway', written', _⟩ | ⟨link', same, fresh⟩
        · rw [same]
          exact ih underway' written'
        · rw [same]
          exact ⟨rfl, fresh⟩

/-- A call begins with the whole command in the buffer. -/
private theorem command_asked (fresh : Fresh serve before link) {args : RedisCmd} (sendable : Sendable args) (writes : List Wrote)
    (arrivals : List Arrival) :
    ∃ link', redisCommandArgv serve (pointed args) writes arrivals link = exchanged serve writes arrivals link' ∧
      Underway serve before args [] link' ∧ link'.ctx.obuf = protocol.message args := by
  have filled : (link.ctx.append (protocol.message args)).obuf = protocol.message args := by
    show link.ctx.obuf ++ protocol.message args = _
    rw [fresh.obuf, List.nil_append]
  obtain ⟨reader, same, starved⟩ := fetched_starved
    { link with ctx := link.ctx.append (protocol.message args) } fresh.starved (exchanged serve writes arrivals)
  unfold redisCommandArgv
  rw [format_sendable sendable]
  refine ⟨_, same, ⟨fresh.err, ?_, ?_, List.nil_prefix, starved⟩, filled⟩
  · show link.sent ++ (link.ctx.append (protocol.message args)).obuf = _
    rw [fresh.sent, filled]
    simp
  · rw [List.append_nil]
    exact fresh.received

/-- The formatter's error ends the context. -/
theorem outOfMemory_dead {fed : Str} (starved : Starved link.ctx.reader fed) :
    Dead { link with ctx := link.ctx.outOfMemory } := ⟨show REDIS_ERR_OOM ≠ 0 by decide, fed, starved⟩

/-- A call on a context between calls gives the server's reply to its command, or it
    fails. -/
theorem command_ends (orderly : Orderly serve) (fresh : Fresh serve before link) (c : Command) (writes : List Wrote)
    (arrivals : List Arrival) : Ends serve before c.args (redisCommandArgv serve c.argv writes arrivals link) := by
  rcases c.formatted with ⟨sendable, -⟩ | ⟨-, refused⟩
  · obtain ⟨asked, same, underway, _⟩ := command_asked fresh sendable writes arrivals
    rw [Command.argv, same, exchanged]
    cases flushed : flush writes asked with
    | none => trivial
    | some result =>
      obtain ⟨done, link'⟩ := result
      rcases flush_underway underway flushed with ⟨rfl, underway', written⟩ | ⟨rfl, dead⟩
      · exact receive_ends orderly underway' written
      · exact dead
  · unfold redisCommandArgv
    rw [refused]
    exact outOfMemory_dead fresh.starved

/-- A context that has failed fails again, with the same error, whatever is appended. -/
theorem dead_fails (serve : Server) (dead : Dead link) (bytes : Str) (writes : List Wrote) (arrivals : List Arrival) :
    ∃ link', redisFormatted serve writes arrivals link (.command bytes) = .returns none link' ∧ Dead link' ∧
      link'.ctx.errstr = link.ctx.errstr := by
  obtain ⟨fed, starved⟩ := dead.starved
  have asked : Starved (link.ctx.append bytes).reader fed := starved
  obtain ⟨reader, same, starved'⟩ := fetched_starved
    { link with ctx := link.ctx.append bytes } asked (exchanged serve writes arrivals)
  unfold redisFormatted redisGetReply
  dsimp only
  rw [same]
  unfold exchanged
  cases writes with
  | nil =>
    simp only [flush, RedisContext.append, ne_eq, dead.err, not_false_eq_true, ↓reduceIte]
    exact ⟨_, rfl, ⟨dead.err, fed, starved'⟩, rfl⟩
  | cons nwritten writes =>
    simp only [flush, redisBufferWrite, RedisContext.append, ne_eq, dead.err, not_false_eq_true, ↓reduceIte]
    exact ⟨_, rfl, ⟨dead.err, fed, starved'⟩, rfl⟩

/-- A context that has failed fails again. -/
theorem dead_ends (serve : Server) (dead : Dead link) (c : Command) (writes : List Wrote) (arrivals : List Arrival) :
    ∃ link', redisCommandArgv serve c.argv writes arrivals link = .returns none link' ∧ Dead link' := by
  unfold redisCommandArgv
  rcases c.formatted with ⟨-, bytes⟩ | ⟨-, refused⟩
  · rw [bytes]
    obtain ⟨link', ends, dead', _⟩ := dead_fails serve dead _ writes arrivals
    exact ⟨link', ends, dead'⟩
  · obtain ⟨fed, starved⟩ := dead.starved
    rw [refused]
    exact ⟨_, rfl, outOfMemory_dead starved⟩

/-! ### Conversations -/

/-- A call, and how its system calls end. -/
structure Call where
  command : Command
  writes : List Wrote
  arrivals : List Arrival

/-- What a call says to its caller. -/
inductive Said
  | reply (reply : RedisReply)
  | null
  | undefined

/-- The calls in order, up to one that waits. -/
def converse (serve : Server) : List Call → Link → List Said
  | [], _ => []
  | call :: calls, link =>
    match redisCommandArgv serve call.command.argv call.writes call.arrivals link with
    | .returns (some reply) link => .reply reply :: converse serve calls link
    | .returns none link => .null :: converse serve calls link
    | .waits => []
    | .undefined => [.undefined]

private theorem converse_dead (serve : Server) (calls : List Call) (dead : Dead link) :
    converse serve calls link = List.replicate calls.length .null := by
  induction calls generalizing link with
  | nil => rfl
  | cons call calls ih =>
    obtain ⟨link', ends, dead'⟩ := dead_ends serve dead call.command call.writes call.arrivals
    unfold converse
    rw [ends]
    show Said.null :: converse serve calls link' = _
    rw [ih dead']
    rfl

private theorem converse_fresh (orderly : Orderly serve) (calls : List Call) (fresh : Fresh serve before link) :
    ∃ k m, converse serve calls link =
      ((answers serve before (calls.map (·.command.args))).take k).map (Said.reply ·.reply) ++ List.replicate m .null := by
  induction calls generalizing before link with
  | nil => exact ⟨0, 0, rfl⟩
  | cons call calls ih =>
    have ends := command_ends orderly fresh call.command call.writes call.arrivals
    unfold converse
    revert ends
    cases redisCommandArgv serve call.command.argv call.writes call.arrivals link with
    | undefined => exact False.elim
    | waits => exact fun _ => ⟨0, 0, rfl⟩
    | returns reply link' =>
      cases reply with
      | none =>
        intro dead
        refine ⟨0, calls.length + 1, ?_⟩
        show Said.null :: converse serve calls link' = _
        rw [converse_dead serve calls dead]
        rfl
      | some reply =>
        rintro ⟨rfl, fresh'⟩
        obtain ⟨k, m, later⟩ := ih fresh'
        refine ⟨k + 1, m, ?_⟩
        show Said.reply _ :: converse serve calls link' = _
        rw [later]
        rfl

theorem fresh_connected (serve : Server) : Fresh serve [] {} := ⟨rfl, rfl, rfl, rfl, starved_create⟩

/-- However the socket takes and gives bytes, and whatever fails: the calls on a new
    context are answered by the server's replies to their commands, in order, and after
    the first that fails they all fail. -/
theorem answered_in_order (orderly : Orderly serve) (calls : List Call) :
    ∃ k m, converse serve calls {} =
      ((answers serve [] (calls.map (·.command.args))).take k).map (Said.reply ·.reply) ++ List.replicate m .null :=
  converse_fresh orderly calls (fresh_connected serve)

/-- Every command is answered by OK. -/
def obliging : Server := fun _ _ => ⟨.status (lit "OK"), lit "+OK\r\n", 0⟩

theorem obliging_orderly : Orderly obliging where
  sent _ _ := @Sent.status (lit "OK") (by decide)
  shallow _ _ := Nat.zero_le 8
  short _ _ := show 5 + 1024 < 2 ^ 31 by decide

def ping : Command := ⟨[lit "PING"], by decide, by decide⟩

/-- Three calls, of which the second is cut off within its reply. -/
theorem answered_in_order_cut :
    ∃ k m, converse obliging
        [⟨ping, [.wrote 5, .error .EINTR (lit "Interrupted system call"), .wrote 9], [.some 2, .some 100]⟩,
          ⟨ping, [.wrote 14], [.some 3, .eof]⟩, ⟨ping, [.wrote 14], [.some 100]⟩] {} =
      ((answers obliging [] (List.replicate 3 ping.args)).take k).map (Said.reply ·.reply) ++ List.replicate m .null :=
  answered_in_order obliging_orderly _

/-! ### Calls that are answered -/

/-- The system call takes or gives a byte. -/
def Wrote.Moves : Wrote → Bool
  | .wrote n => 0 < n
  | .error _ _ => false

def Arrival.Moves : Arrival → Bool
  | .some n => 0 < n
  | .eof => false
  | .error _ _ => false

/-- No system call fails for good, and so many of each kind move a byte. -/
structure Lively (call : Call) (out back : Nat) : Prop where
  writes : ∀ w ∈ call.writes, Wrote.Moves w = true ∨ ∃ text, w = .error .EINTR text
  arrivals : ∀ a ∈ call.arrivals, Arrival.Moves a = true ∨ ∃ text, a = .error .EINTR text
  out : out ≤ (call.writes.filter Wrote.Moves).length
  back : back ≤ (call.arrivals.filter Arrival.Moves).length

private theorem flush_done {writes : List Wrote} (sound : link.ctx.err = 0)
    (fine : ∀ w ∈ writes, Wrote.Moves w = true ∨ ∃ text, w = .error .EINTR text)
    (enough : link.ctx.obuf.length ≤ (writes.filter Wrote.Moves).length) : ∃ link', flush writes link = some (true, link') := by
  induction writes generalizing link with
  | nil =>
    have empty : link.ctx.obuf = [] := List.length_eq_zero_iff.mp (Nat.le_zero.mp enough)
    unfold flush
    rw [if_neg (not_not.mpr sound), if_pos empty]
    exact ⟨_, rfl⟩
  | cons w writes ih =>
    have later := fun w member => fine w (List.mem_cons_of_mem _ member)
    have next : ∀ n, link.ctx.obuf.length ≤ n + (writes.filter Wrote.Moves).length →
        ∃ link', flush (.wrote n :: writes) link = some (true, link') := by
      intro n room
      unfold flush
      rw [redisBufferWrite_wrote n sound]
      by_cases all : link.ctx.obuf.drop n = []
      · simp only [all, decide_true]
        exact ⟨_, rfl⟩
      · simp only [all, decide_false]
        refine ih sound later ?_
        show (link.ctx.obuf.drop n).length ≤ _
        rw [List.length_drop]
        omega
    rcases fine w List.mem_cons_self with moves | ⟨text, rfl⟩
    · cases w with
      | error errno text => cases moves
      | wrote n =>
        rw [List.filter_cons_of_pos moves, List.length_cons] at enough
        have some : 0 < n := of_decide_eq_true moves
        exact next n (by omega)
    · have again := redisBufferWrite_again text sound (show link.ctx.again .EINTR = true by simp [RedisContext.again])
      have same : flush (.error .EINTR text :: writes) link = flush (.wrote 0 :: writes) link := by
        rw [flush, flush, again]
      rw [same]
      refine next 0 ?_
      simpa [Wrote.Moves] using enough

/-- Something is still to come in. -/
private theorem underway_short (orderly : Orderly serve) {fed : Str} (underway : Underway serve before cmd fed link) :
    fed.length < (serve before cmd).bytes.length := by
  by_contra whole
  have all := underway.front.eq_of_length_le (by omega)
  obtain ⟨cur, below, rep, stops, steps⟩ := underway.starved.stands
  have one : ∀ q ∈ [serve before cmd], Sent q := by simpa using orderly.sent before cmd
  have flat : ∀ q ∈ [serve before cmd], q.levels ≤ 8 := by simpa using orderly.shallow before cmd
  have front : fed <+: wire [serve before cmd] := by simpa [wire] using underway.front
  have decoded_is := decoded_arrived one flat front
  have outputs := congrArg Prod.fst decoded_is
  unfold decoded at outputs
  rw [Transducer.settle_eq steps stops, arrived, if_pos (by omega)] at outputs
  cases outputs

private theorem receive_done (orderly : Orderly serve) {arrivals : List Arrival} {fed : Str}
    (underway : Underway serve before cmd fed link) (written : link.ctx.obuf = [])
    (fine : ∀ a ∈ arrivals, Arrival.Moves a = true ∨ ∃ text, a = .error .EINTR text)
    (enough : (serve before cmd).bytes.length ≤ fed.length + (arrivals.filter Arrival.Moves).length) :
    ∃ link', receive serve arrivals link = .returns (some (serve before cmd).reply) link' ∧
      Fresh serve (before ++ [cmd]) link' := by
  induction arrivals generalizing link fed with
  | nil =>
    have short := underway_short orderly underway
    simp only [List.filter_nil, List.length_nil] at enough
    omega
  | cons a arrivals ih =>
    have later := fun a member => fine a (List.mem_cons_of_mem _ member)
    rcases fine a List.mem_cons_self with moves | ⟨text, rfl⟩
    · cases a with
      | eof => cases moves
      | error errno text => cases moves
      | some n =>
        have short := underway_short orderly underway
        have positive : 0 < n := of_decide_eq_true moves
        have something : (available serve link).take n ≠ [] := by
          rw [available_underway underway written]
          intro none
          have length := congrArg List.length none
          rw [List.length_take, List.length_drop, List.length_nil] at length
          omega
        rw [List.filter_cons_of_pos moves, List.length_cons] at enough
        rcases receive_some orderly arrivals underway written something with
          ⟨link', fed', same, underway', written', longer⟩ | ⟨link', same, fresh⟩
        · rw [same]
          exact ih underway' written' later (by omega)
        · exact ⟨link', same, fresh⟩
    · obtain ⟨reader, same, underway'⟩ := receive_again arrivals text underway
        (show link.ctx.again .EINTR = true by simp [RedisContext.again])
      rw [same]
      exact ih underway' written later (by simpa [Arrival.Moves] using enough)

/-- The commands can be sent, and enough system calls move a byte in each of the calls. -/
def Served (serve : Server) : List RedisCmd → List Call → Prop
  | _, [] => True
  | before, call :: calls =>
    Sendable call.command.args ∧
      Lively call (protocol.message call.command.args).length (serve before call.command.args).bytes.length ∧
      Served serve (before ++ [call.command.args]) calls

private theorem command_done (orderly : Orderly serve) (fresh : Fresh serve before link) {call : Call}
    (sendable : Sendable call.command.args)
    (lively : Lively call (protocol.message call.command.args).length (serve before call.command.args).bytes.length) :
    ∃ link', redisCommandArgv serve call.command.argv call.writes call.arrivals link =
        .returns (some (serve before call.command.args).reply) link' ∧
      Fresh serve (before ++ [call.command.args]) link' := by
  obtain ⟨asked, same, underway, filled⟩ := command_asked fresh sendable call.writes call.arrivals
  obtain ⟨link', flushed⟩ := flush_done underway.err lively.writes (filled ▸ lively.out)
  rw [Command.argv, same, exchanged, flushed]
  rcases flush_underway underway flushed with ⟨_, underway', written⟩ | ⟨is, _⟩
  · exact receive_done orderly underway' written lively.arrivals (by simpa using lively.back)
  · cases is

/-- Where the socket goes on taking and giving bytes, every call is answered. -/
theorem all_answered (orderly : Orderly serve) {calls : List Call} (served : Served serve [] calls) :
    converse serve calls {} = (answers serve [] (calls.map (·.command.args))).map (Said.reply ·.reply) := by
  have from_fresh : ∀ {calls : List Call} {before : List RedisCmd} {link : Link}, Fresh serve before link →
      Served serve before calls →
      converse serve calls link = (answers serve before (calls.map (·.command.args))).map (Said.reply ·.reply) := by
    intro calls
    induction calls with
    | nil => exact fun _ _ => rfl
    | cons call calls ih =>
      rintro before link fresh ⟨sendable, lively, later⟩
      obtain ⟨link', ends, fresh'⟩ := command_done orderly fresh sendable lively
      unfold converse
      rw [ends]
      show Said.reply _ :: converse serve calls link' = _
      rw [ih fresh' later]
      rfl
  exact from_fresh (fresh_connected serve) served

/-- One byte at a time, and an interruption. -/
def byte_by_byte : Call :=
  ⟨ping, .error .EINTR [] :: List.replicate 14 (.wrote 1), .error .EINTR [] :: List.replicate 5 (.some 1)⟩

private theorem byte_by_byte_lively : Lively byte_by_byte 14 5 where
  writes w member := by
    rcases List.mem_cons.mp member with rfl | member
    · exact .inr ⟨[], rfl⟩
    · exact .inl (List.eq_of_mem_replicate member ▸ rfl)
  arrivals a member := by
    rcases List.mem_cons.mp member with rfl | member
    · exact .inr ⟨[], rfl⟩
    · exact .inl (List.eq_of_mem_replicate member ▸ rfl)
  out := by decide
  back := by decide

theorem all_answered_bytewise :
    converse obliging [byte_by_byte, byte_by_byte] {} = [.reply (.status (lit "OK")), .reply (.status (lit "OK"))] :=
  all_answered obliging_orderly ⟨by decide, byte_by_byte_lively, by decide, byte_by_byte_lively, trivial⟩

end CppRedis.Conversations
