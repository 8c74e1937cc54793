import CppRedis.Encodings

/-!
A blocking context of hiredis at the bytes: its output buffer, which `write` takes in
parts, its reader, which `read` feeds, and the loops of `redisGetReply`. How each system
call ends is given. The server is a function from the commands that it has read to the
bytes that it sends; a context and what has gone both ways on its socket make a `Link`.
-/
namespace CppRedis.Contexts
open CppRedis.Strings CppRedis.Reply CppRedis.Connection CppRedis.Requests CppRedis.Readers CppRedis.Encodings

def REDIS_ERR_IO : Int := 1
def REDIS_ERR_EOF : Int := 3
def REDIS_ERR_OOM : Int := 5

/-- A `redisContext`; `blocking` is `REDIS_BLOCK`. -/
structure RedisContext where
  err : Int := 0
  errstr : Str := []
  blocking : Bool := true
  obuf : Str := []
  reader : RedisReader := redisReaderCreate

inductive Errno
  | EAGAIN
  | EINTR
  | other
  deriving DecidableEq

/-- How `write` ends, with the text of `strerror_r`. -/
inductive Wrote
  | error (errno : Errno) (strerror : Str)
  | wrote (nwritten : Nat)

/-- How `read` ends; no bytes are the end of the file. -/
inductive Nread
  | error (errno : Errno) (strerror : Str)
  | bytes (buf : Str)

namespace RedisContext

/-- `__redisSetError`. -/
def setError (type : Int) (str : Str) (c : RedisContext) : RedisContext := { c with err := type, errstr := str.take 127 }

/-- The call is to be tried again later. -/
def again (errno : Errno) (c : RedisContext) : Bool := (errno = .EAGAIN && !c.blocking) || errno = .EINTR

/-- `__redisAppendCommand`. -/
def append (cmd : Str) (c : RedisContext) : RedisContext := { c with obuf := c.obuf ++ cmd }

/-- A command could not be formatted. -/
def outOfMemory (c : RedisContext) : RedisContext := c.setError REDIS_ERR_OOM (lit "Out of memory")

end RedisContext

/-- `redisBufferRead`, true for `REDIS_OK`. -/
def redisBufferRead (nread : Nread) (c : RedisContext) : Bool × RedisContext :=
  if c.err ≠ 0 then (false, c)
  else
    match nread with
    | .error errno strerror => if c.again errno then (true, c) else (false, c.setError REDIS_ERR_IO strerror)
    | .bytes [] => (false, c.setError REDIS_ERR_EOF (lit "Server closed the connection"))
    | .bytes buf =>
      match redisReaderFeed buf c.reader with
      | (true, reader) => (true, { c with reader := reader })
      | (false, reader) => (false, { c with reader := reader }.setError reader.err reader.errstr)

/-- `redisBufferWrite`: `done` where it returns `REDIS_OK`, and the bytes that are
    taken. -/
def redisBufferWrite (nwritten : Wrote) (c : RedisContext) : Option Bool × Str × RedisContext :=
  if c.err ≠ 0 then (none, [], c)
  else if c.obuf = [] then (some true, [], c)
  else
    match nwritten with
    | .error errno strerror =>
      if c.again errno then (some false, [], c) else (none, [], c.setError REDIS_ERR_IO strerror)
    | .wrote n =>
      let obuf := if n = c.obuf.length then [] else sdsrange_from c.obuf n
      (some (obuf = []), c.obuf.take n, { c with obuf := obuf })

theorem redisBufferWrite_wrote (n : Nat) {c : RedisContext} (sound : c.err = 0) :
    redisBufferWrite (.wrote n) c =
      (some (decide (c.obuf.drop n = [])), c.obuf.take n, { c with obuf := c.obuf.drop n }) := by
  unfold redisBufferWrite
  rw [if_neg (not_not.mpr sound)]
  by_cases empty : c.obuf = []
  · rw [if_pos empty, empty, List.drop_nil, List.take_nil]
    exact congrArg (fun obuf => (some true, [], { c with obuf := obuf })) empty
  · have left_over : (if n = c.obuf.length then [] else sdsrange_from c.obuf n) = c.obuf.drop n := by
      split
      · rename_i all
        rw [all, List.drop_length]
      · rw [sdsrange_from, if_neg (by omega), Int.toNat_natCast]
    rw [if_neg empty]
    simp only [left_over]

/-- A call that is to be tried again takes nothing. -/
theorem redisBufferWrite_again {errno : Errno} (strerror : Str) {c : RedisContext} (sound : c.err = 0)
    (again : c.again errno = true) :
    redisBufferWrite (.error errno strerror) c = redisBufferWrite (.wrote 0) c := by
  rw [redisBufferWrite_wrote 0 sound]
  unfold redisBufferWrite
  rw [if_neg (not_not.mpr sound), List.drop_zero, List.take_zero]
  by_cases empty : c.obuf = []
  · rw [if_pos empty, decide_eq_true empty]
  · simp only [if_neg empty, if_pos again, decide_eq_false empty]

/-- A front part of the buffer is taken, which may be empty, or the context fails. -/
theorem redisBufferWrite_takes (nwritten : Wrote) {c : RedisContext} (sound : c.err = 0) :
    (∃ n, redisBufferWrite nwritten c = redisBufferWrite (.wrote n) c) ∨
      ∃ strerror, redisBufferWrite nwritten c = (none, [], c.setError REDIS_ERR_IO strerror) := by
  cases nwritten with
  | wrote n => exact .inl ⟨n, rfl⟩
  | error errno strerror =>
    by_cases again : c.again errno = true
    · exact .inl ⟨0, redisBufferWrite_again strerror sound again⟩
    · by_cases empty : c.obuf = []
      · exact .inl ⟨0, by simp only [redisBufferWrite, sound, empty, ne_eq, not_true_eq_false, ↓reduceIte]⟩
      · refine .inr ⟨strerror, ?_⟩
        simp only [redisBufferWrite, sound, empty, again, ne_eq, not_true_eq_false, ↓reduceIte, Bool.false_eq_true]

/-- `redisGetReplyFromReader`. -/
def redisGetReplyFromReader (c : RedisContext) : Option (Except Unit (Option RedisReply) × RedisContext) :=
  match redisReaderGetReply c.reader with
  | none => none
  | some (.error (), reader) => some (.error (), { c with reader := reader }.setError reader.err reader.errstr)
  | some (.ok reply, reader) => some (.ok reply, { c with reader := reader })

/-! ### A context and a server -/

/-- What a server sends for a command, given those before it. -/
abbrev Server := List RedisCmd → RedisCmd → Part

/-- What it sends for commands in a row. -/
def answers (serve : Server) : (before : List RedisCmd) → List RedisCmd → List Part
  | _, [] => []
  | before, cmd :: rest => serve before cmd :: answers serve (before ++ [cmd]) rest

/-- A context, and the bytes that its socket has taken and given. -/
structure Link where
  ctx : RedisContext := {}
  sent : Str := []
  received : Str := []

/-- The bytes of the server that have not come in; it answers what it has read in
    whole. -/
def available (serve : Server) (link : Link) : Str :=
  match protocol.read_stream link.sent with
  | none => []
  | some cmds => (wire (answers serve [] cmds)).drop link.received.length

/-- How a call of `read` ends: with at most so many of the bytes that are there, at the
    end of the stream, or with an error. -/
inductive Arrival
  | some (n : Nat)
  | eof
  | error (errno : Errno) (strerror : Str)

/-- What a call gives: a reply or NULL; it waits for a system call, or has no result. -/
inductive Outcome
  | returns (reply : Option RedisReply) (link : Link)
  | waits
  | undefined

/-- The loop that writes; none while it waits, and whether it is done. -/
def flush : List Wrote → Link → Option (Bool × Link)
  | [], link =>
    if link.ctx.err ≠ 0 then some (false, link) else if link.ctx.obuf = [] then some (true, link) else none
  | nwritten :: writes, link =>
    match redisBufferWrite nwritten link.ctx with
    | (none, taken, ctx) => some (false, { link with ctx := ctx, sent := link.sent ++ taken })
    | (some true, taken, ctx) => some (true, { link with ctx := ctx, sent := link.sent ++ taken })
    | (some false, taken, ctx) => flush writes { link with ctx := ctx, sent := link.sent ++ taken }

/-- `redisGetReplyFromReader` in `redisGetReply`, and what follows where there is no
    reply. -/
def fetched (link : Link) (later : Link → Outcome) : Outcome :=
  match redisGetReplyFromReader link.ctx with
  | none => .undefined
  | some (.error (), ctx) => .returns none { link with ctx := ctx }
  | some (.ok none, ctx) => later { link with ctx := ctx }
  | some (.ok (some reply), ctx) => .returns (some reply) { link with ctx := ctx }

/-- `redisBufferRead` in `redisGetReply`, and what follows. -/
def loaded (nread : Nread) (link : Link) (later : Link → Outcome) : Outcome :=
  match redisBufferRead nread link.ctx with
  | (false, ctx) => .returns none { link with ctx := ctx }
  | (true, ctx) => fetched { link with ctx := ctx } later

/-- The loop that reads. -/
def receive (serve : Server) : List Arrival → Link → Outcome
  | [], link => if link.ctx.err ≠ 0 then .returns none link else .waits
  | .some n :: arrivals, link =>
    let buf := (available serve link).take n
    if link.ctx.err = 0 ∧ buf = [] then .waits
    else loaded (.bytes buf) { link with received := link.received ++ buf } (receive serve arrivals)
  | .eof :: arrivals, link => loaded (.bytes []) link (receive serve arrivals)
  | .error errno strerror :: arrivals, link => loaded (.error errno strerror) link (receive serve arrivals)

theorem receive_eof (serve : Server) (arrivals : List Arrival) (link : Link) :
    receive serve (.eof :: arrivals) link = loaded (.bytes []) link (receive serve arrivals) := rfl

theorem receive_error (serve : Server) (errno : Errno) (strerror : Str) (arrivals : List Arrival) (link : Link) :
    receive serve (.error errno strerror :: arrivals) link =
      loaded (.error errno strerror) link (receive serve arrivals) := rfl

theorem receive_bytes (serve : Server) {n : Nat} (arrivals : List Arrival) {link : Link}
    (something : (available serve link).take n ≠ []) :
    receive serve (.some n :: arrivals) link =
      loaded (.bytes ((available serve link).take n))
        { link with received := link.received ++ (available serve link).take n } (receive serve arrivals) :=
  if_neg fun both => something both.2

/-- The two loops of `redisGetReply`. -/
def exchanged (serve : Server) (writes : List Wrote) (arrivals : List Arrival) (link : Link) : Outcome :=
  match flush writes link with
  | none => .waits
  | some (false, link) => .returns none link
  | some (true, link) => receive serve arrivals link

/-- `redisGetReply` on a blocking context. -/
def redisGetReply (serve : Server) (writes : List Wrote) (arrivals : List Arrival) (link : Link) : Outcome :=
  fetched link (exchanged serve writes arrivals)

/-- What is done with the command of `redisCommand` and `redisCommandArgv` on a blocking
    context. -/
def redisFormatted (serve : Server) (writes : List Wrote) (arrivals : List Arrival) (link : Link) : Formatted → Outcome
  | .command cmd => redisGetReply serve writes arrivals { link with ctx := link.ctx.append cmd }
  | .error => .returns none { link with ctx := link.ctx.outOfMemory }
  | .undefined => .undefined

/-- `redisCommandArgv` on a blocking context. -/
def redisCommandArgv (serve : Server) (h : Argv) (writes : List Wrote) (arrivals : List Arrival) (link : Link) : Outcome :=
  redisFormatted serve writes arrivals link (redisFormatCommandArgv h)

end CppRedis.Contexts
