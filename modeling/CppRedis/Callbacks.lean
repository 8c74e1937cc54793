import CppRedis.Contexts
import CppRedis.Dicts
import CppRedis.Runs

/-!
An asynchronous context of hiredis that is attached to libevent: commands with a
callback each, and the events of its socket. A reply callback may make calls itself,
which are given by the `Program`; what it asks for is done when it has returned. Those
for the connection make none, as those of `AsyncConnection`. `log` records the commands,
the callbacks that have been run with their replies, and how the context has been
connected and disconnected.
-/
namespace CppRedis.Callbacks
open CppRedis.Strings CppRedis.Reply CppRedis.Connection CppRedis.Requests CppRedis.Readers CppRedis.Contexts CppRedis.Dicts
open CppRedis.Buckets

def REDIS_ERR_OTHER : Int := 2

/-- A `redisCallback`: its function, if there is one, and its `privdata`. -/
structure RedisCallback where
  fn : Option Nat := none
  privdata : Nat := 0
  deriving DecidableEq

/-- A `redisAsyncContext` with the flags of its context; `onConnect` and `onDisconnect`
    are whether these callbacks are set, `rev` and `wev` whether libevent waits for its
    events. -/
structure RedisAsyncContext where
  c : RedisContext
  connected : Bool := false
  disconnecting : Bool := false
  freeing : Bool := false
  in_callback : Bool := false
  subscribed : Bool := false
  monitoring : Bool := false
  err : Int := 0
  errstr : Str := []
  rev : Bool := false
  wev : Bool := false
  onConnect : Bool := false
  onDisconnect : Bool := false
  replies : List RedisCallback := []
  invalid : List RedisCallback := []
  channels : Dict Str RedisCallback := {}
  patterns : Dict Str RedisCallback := {}

/-- A call of the program. -/
inductive Call
  | command (cb : RedisCallback) (argv : Argv)
  | disconnect
  | free

inductive Event
  | issued (cb : RedisCallback) (argv : Argv) (ok : Bool)
  | ran (cb : RedisCallback) (reply : Option RedisReply)
  | connected (ok : Bool)
  | disconnected (ok : Bool)

/-- The calls that a callback makes, by all that has happened up to it. -/
abbrev Program := List Event → List Call

/-- The context, what has happened, and the bytes that its socket has taken and given. -/
structure World where
  ac : RedisAsyncContext
  log : List Event := []
  sent : Str := []
  received : Str := []
  freed : Bool := false

namespace World

def record (e : Event) (w : World) : World := { w with log := w.log ++ [e] }

end World

/-- `redisAsyncSetConnectCallback`, true for `REDIS_OK`. -/
def redisAsyncSetConnectCallback (ac : RedisAsyncContext) : Bool × RedisAsyncContext :=
  if ac.onConnect = false then (true, { ac with onConnect := true, wev := true }) else (false, ac)

/-- `redisAsyncSetDisconnectCallback`. -/
def redisAsyncSetDisconnectCallback (ac : RedisAsyncContext) : Bool × RedisAsyncContext :=
  if ac.onDisconnect = false then (true, { ac with onDisconnect := true }) else (false, ac)

/-- `redisAsyncInitialize` on a new context, and the callbacks that `AsyncConnection`
    sets. -/
def opened : World :=
  { ac := (redisAsyncSetDisconnectCallback (redisAsyncSetConnectCallback { c := { blocking := false } }).2).2 }

/-! ### Commands -/

/-- `strchr`; a NUL is behind the buffer. -/
def strchr (c : UInt8) : Str → Option Str
  | [] => none
  | b :: s => if b = c then some (b :: s) else if b = 0 then none else strchr c s

/-- `strncasecmp(a, b, n) == 0`. -/
def strncasecmp_eq (a b : Str) (n : Nat) : Bool := strncmp_eq (a.map tolower) (b.map tolower) n

/-- `nextArgument`: the bytes from the argument on, its length, and the bytes behind it;
    none inside for NULL, and none where its assertion fails or the length is negative. -/
def nextArgument (start : Str) : Option (Option (Str × Nat × Str)) :=
  match strchr 36 start with
  | none => some none
  | some p =>
    let len := atoi p.tail
    match strchr 13 p with
    | none => none
    | some p => if len < 0 then none else some (some (p.drop 2, len.toNat, p.drop (2 + len.toNat + 2)))

namespace RedisAsyncContext

def callbacks (pvariant : Bool) (ac : RedisAsyncContext) : Dict Str RedisCallback :=
  if pvariant then ac.patterns else ac.channels

def setCallbacks (pvariant : Bool) (d : Dict Str RedisCallback) (ac : RedisAsyncContext) : RedisAsyncContext :=
  if pvariant then { ac with patterns := d } else { ac with channels := d }

/-- The loop over the channels or patterns; an argument takes one byte at least. -/
def subscribe_all (pvariant : Bool) (cb : RedisCallback) : Nat → Str → RedisAsyncContext → Option RedisAsyncContext
  | 0, _, _ => none
  | fuel + 1, p, ac =>
    match nextArgument p with
    | none => none
    | some none => some ac
    | some (some (astr, alen, p)) =>
      match (ac.callbacks pvariant).dictReplace callbackDict (astr.take alen) cb with
      | none => none
      | some (_, d) => subscribe_all pvariant cb fuel p (ac.setCallbacks pvariant d)

/-- `__redisAppendCommand`, and `_EL_ADD_WRITE`. -/
def append (cmd : Str) (ac : RedisAsyncContext) : RedisAsyncContext := { ac with c := ac.c.append cmd, wev := true }

/-- `__redisAsyncCommand`, true for `REDIS_OK`; none where an assertion fails. -/
def redisAsyncCommand (cb : RedisCallback) (cmd : Str) (ac : RedisAsyncContext) : Option (Bool × RedisAsyncContext) :=
  if ac.disconnecting = true ∨ ac.freeing = true then some (false, ac)
  else
    match nextArgument cmd with
    | some (some (cstr, _, p)) =>
      let hasnext := p.head? = some 36
      let pvariant : Bool := tolower (cstr.headD 0) = 112
      let cstr := if pvariant then cstr.tail else cstr
      if hasnext ∧ strncasecmp_eq cstr (lit "subscribe\r\n") 11 = true then
        (subscribe_all pvariant cb (cmd.length + 1) p { ac with subscribed := true }).map fun ac => (true, ac.append cmd)
      else if strncasecmp_eq cstr (lit "unsubscribe\r\n") 13 = true then
        if ac.subscribed = true then some (true, ac.append cmd) else some (false, ac)
      else if strncasecmp_eq cstr (lit "monitor\r\n") 9 = true then
        some (true, { ac with monitoring := true, replies := ac.replies ++ [cb] }.append cmd)
      else if ac.subscribed = true then some (true, { ac with invalid := ac.invalid ++ [cb] }.append cmd)
      else some (true, { ac with replies := ac.replies ++ [cb] }.append cmd)
    | _ => none

end RedisAsyncContext

/-- `redisAsyncCommandArgv`, which does not look whether the command was formatted: where
    it was not, there is no result. -/
def redisAsyncCommandArgv (cb : RedisCallback) (argv : Argv) (w : World) : Option World :=
  match redisFormatCommandArgv argv with
  | .command cmd =>
    (w.ac.redisAsyncCommand cb cmd).map fun (ok, ac) => { w with ac := ac }.record (.issued cb argv ok)
  | .error | .undefined => none

theorem redisAsyncCommandArgv_sendable {cmd : RedisCmd} (sendable : Sendable cmd) (cb : RedisCallback) (w : World) :
    redisAsyncCommandArgv cb (pointed cmd) w =
      (w.ac.redisAsyncCommand cb (protocol.message cmd)).map fun (ok, ac) =>
        { w with ac := ac }.record (.issued cb (pointed cmd) ok) := by
  unfold redisAsyncCommandArgv
  rw [format_sendable sendable]

/-- A result means that the command was formatted. -/
theorem redisAsyncCommandArgv_some {cb : RedisCallback} {argv : Argv} {w w' : World}
    (is : redisAsyncCommandArgv cb argv w = some w') :
    ∃ cmd ok ac, redisFormatCommandArgv argv = .command cmd ∧ w.ac.redisAsyncCommand cb cmd = some (ok, ac) ∧
      w' = { w with ac := ac }.record (.issued cb argv ok) := by
  unfold redisAsyncCommandArgv at is
  cases formatted : redisFormatCommandArgv argv with
  | error | undefined =>
    rw [formatted] at is
    cases is
  | command cmd =>
    rw [formatted] at is
    obtain ⟨⟨ok, ac⟩, taken, rfl⟩ := Option.map_eq_some_iff.mp is
    exact ⟨cmd, ok, ac, rfl, taken, rfl⟩

/-! ### Callbacks -/

/-- A call from within a callback: `redisAsyncDisconnect` and `redisAsyncFree` leave the
    rest to whoever runs the callback. -/
def called : Call → World → Option World
  | .command cb argv, w => redisAsyncCommandArgv cb argv w
  | .disconnect, w => some { w with ac := { w.ac with disconnecting := true } }
  | .free, w => some { w with ac := { w.ac with freeing := true } }

def called_all : List Call → World → Option World
  | [], w => some w
  | call :: calls, w => (called call w).bind (called_all calls)

/-- `__redisRunCallback`. -/
def redisRunCallback (program : Program) (cb : RedisCallback) (reply : Option RedisReply) (w : World) : Option World :=
  if cb.fn = none then some w
  else
    let w := { w with ac := { w.ac with in_callback := true } }.record (.ran cb reply)
    (called_all (program w.log) w).map fun w => { w with ac := { w.ac with in_callback := false } }

/-- The callbacks of a list with a NULL reply. -/
def run_nulls (program : Program) : List RedisCallback → World → Option World
  | [], w => some w
  | cb :: rest, w => (redisRunCallback program cb none w).bind (run_nulls program rest)

/-- A loop of `__redisAsyncFree` over `replies`, while there are any. -/
def run_replies (program : Program) : Nat → World → Option World
  | 0, w => some w
  | fuel + 1, w =>
    match w.ac.replies with
    | [] => some w
    | cb :: rest =>
      (redisRunCallback program cb none { w with ac := { w.ac with replies := rest } }).bind (run_replies program fuel)

/-- The same over `sub.invalid`. -/
def run_invalid (program : Program) : Nat → World → Option World
  | 0, w => some w
  | fuel + 1, w =>
    match w.ac.invalid with
    | [] => some w
    | cb :: rest =>
      (redisRunCallback program cb none { w with ac := { w.ac with invalid := rest } }).bind (run_invalid program fuel)

/-- `__redisAsyncFree`. The loops do not wait for commands of the callbacks: none is
    taken any more. -/
def asyncFree (program : Program) (w : World) : Option World :=
  (run_replies program w.ac.replies.length w).bind fun w =>
  (run_invalid program w.ac.invalid.length w).bind fun w =>
  (run_nulls program (w.ac.channels.walk.map (·.2)) w).bind fun w =>
  (run_nulls program (w.ac.patterns.walk.map (·.2)) w).map fun w =>
    let w :=
      if w.ac.onDisconnect = true ∧ w.ac.connected = true then
        w.record (.disconnected (w.ac.freeing = true ∨ w.ac.err = 0))
      else w
    { w with ac := { w.ac with rev := false, wev := false }, freed := true }

/-- `redisAsyncFree`. -/
def redisAsyncFree (program : Program) (w : World) : Option World :=
  let ac := { w.ac with freeing := true }
  if w.ac.in_callback = true then some { w with ac := ac } else asyncFree program { w with ac := ac }

/-- `__redisAsyncCopyError`. -/
def redisAsyncCopyError (ac : RedisAsyncContext) : RedisAsyncContext := { ac with err := ac.c.err, errstr := ac.c.errstr }

/-- `__redisAsyncDisconnect`; none where its assertion fails. -/
def asyncDisconnect (program : Program) (w : World) : Option World :=
  let ac := redisAsyncCopyError w.ac
  if ac.err = 0 then
    if ac.replies = [] then asyncFree program { w with ac := ac } else none
  else asyncFree program { w with ac := { ac with disconnecting := true } }

/-- `redisAsyncDisconnect`. -/
def redisAsyncDisconnect (program : Program) (w : World) : Option World :=
  let w := { w with ac := { w.ac with disconnecting := true } }
  if w.ac.in_callback = false ∧ w.ac.replies = [] then asyncDisconnect program w else some w

/-! ### Events -/

/-- `__redisGetSubscribeCallback`, which may leave the callback as it was; none where an
    assertion fails or a NULL pointer is read. -/
def redisGetSubscribeCallback (reply : RedisReply) (dstcb : RedisCallback) (ac : RedisAsyncContext) :
    Option (RedisCallback × RedisAsyncContext) :=
  match reply with
  | .array (.string stype :: .string name :: rest) =>
    let pvariant : Bool := tolower (stype.headD 0) = 112
    match (ac.callbacks pvariant).dictFind callbackDict name with
    | none => some (dstcb, ac)
    | some de =>
      if strcasecmp_eq (if pvariant then stype.tail else stype) (lit "unsubscribe") = true then
        let ac := ac.setCallbacks pvariant ((ac.callbacks pvariant).dictDelete callbackDict name).2
        match rest with
        | .integer n :: _ => some (de.2, if n = 0 then { ac with subscribed := false } else ac)
        | _ => none
      else some (de.2, ac)
  | .array _ | .hollow _ _ => none
  | _ =>
    match ac.invalid with
    | [] => some (dstcb, ac)
    | cb :: rest => some (cb, { ac with invalid := rest })

/-- Which callback a reply is for, by `redisProcessCallbacks`. -/
inductive Chosen
  | callback (cb : RedisCallback) (ac : RedisAsyncContext)
  | refused (ac : RedisAsyncContext)

def chosen (reply : RedisReply) (cb : RedisCallback) (ac : RedisAsyncContext) : Option Chosen :=
  match ac.replies with
  | cb :: rest => some (.callback cb { ac with replies := rest })
  | [] =>
    match reply with
    | .error str => some (.refused { ac with c := ac.c.setError REDIS_ERR_OTHER (cstr str) })
    | _ =>
      if ac.subscribed = true then (redisGetSubscribeCallback reply cb ac).map fun (cb, ac) => .callback cb ac
      else if ac.monitoring = true then some (.callback cb ac)
      else none

/-- The loop of `redisProcessCallbacks`; a reply takes one byte at least. -/
def process (program : Program) : Nat → RedisCallback → World → Option World
  | 0, _, _ => none
  | fuel + 1, cb, w =>
    match redisGetReplyFromReader w.ac.c with
    | none => none
    | some (.error (), c) => asyncDisconnect program { w with ac := { w.ac with c := c } }
    | some (.ok none, c) =>
      let w := { w with ac := { w.ac with c := c } }
      if w.ac.disconnecting = true ∧ w.ac.c.obuf = [] then asyncDisconnect program w
      else if w.ac.monitoring = true then some { w with ac := { w.ac with replies := w.ac.replies ++ [cb] } }
      else some w
    | some (.ok (some reply), c) =>
      match chosen reply cb { w.ac with c := c } with
      | none => none
      | some (.refused ac) => asyncDisconnect program { w with ac := ac }
      | some (.callback cb ac) =>
        if cb.fn = none then process program fuel cb { w with ac := ac }
        else
          match redisRunCallback program cb (some reply) { w with ac := ac } with
          | none => none
          | some w => if w.ac.freeing = true then asyncFree program w else process program fuel cb w

def redisProcessCallbacks (program : Program) (w : World) : Option World :=
  process program (w.ac.c.reader.unread.length + 1) {} w

/-- How `redisCheckSocketError` ends: also an attempt that is still in progress is an
    error of the context. -/
inductive Checked
  | ok
  | error (in_progress : Bool) (errstr : Str)

/-- `__redisAsyncHandleConnect`, and whether it returns `REDIS_OK`. -/
def redisAsyncHandleConnect (program : Program) (check : Checked) (w : World) : Option (Bool × World) :=
  match check with
  | .error in_progress errstr =>
    let w := { w with ac := { w.ac with c := w.ac.c.setError REDIS_ERR_IO errstr } }
    if in_progress = true then some (true, w)
    else
      (asyncDisconnect program (if w.ac.onConnect = true then w.record (.connected false) else w)).map fun w => (false, w)
  | .ok =>
    let ac := { w.ac with connected := true }
    some (true, if w.ac.onConnect = true then { w with ac := ac }.record (.connected true) else { w with ac := ac })

/-- The bytes that `read` gives. -/
def given : Nread → Str
  | .error _ _ => []
  | .bytes buf => buf

/-- `redisAsyncHandleRead` on a connected context. -/
def read_connected (program : Program) (nread : Nread) (w : World) : Option World :=
  match redisBufferRead nread w.ac.c with
  | (false, c) => asyncDisconnect program { w with ac := { w.ac with c := c } }
  | (true, c) =>
    redisProcessCallbacks program { w with ac := { w.ac with c := c, rev := true }, received := w.received ++ given nread }

/-- `redisAsyncHandleWrite` on a connected context. -/
def write_connected (program : Program) (nwritten : Wrote) (w : World) : Option World :=
  match redisBufferWrite nwritten w.ac.c with
  | (none, _, c) => asyncDisconnect program { w with ac := { w.ac with c := c } }
  | (some done, taken, c) =>
    some { w with ac := { w.ac with c := c, wev := !done, rev := true }, sent := w.sent ++ taken }

/-- The front part that both handlers have, and what follows on a connected context. -/
def connected_first (program : Program) (check : Checked) (later : World → Option World) (w : World) : Option World :=
  if w.ac.connected = true then later w
  else
    match redisAsyncHandleConnect program check w with
    | none => none
    | some (false, w) => some w
    | some (true, w) => if w.ac.connected = true then later w else some w

def redisAsyncHandleRead (program : Program) (check : Checked) (nread : Nread) : World → Option World :=
  connected_first program check (read_connected program nread)

def redisAsyncHandleWrite (program : Program) (check : Checked) (nwritten : Wrote) : World → Option World :=
  connected_first program check (write_connected program nwritten)

/-! ### Acts -/

inductive Act
  | call (call : Call)
  | readable (check : Checked) (nread : Nread)
  | writable (check : Checked) (nwritten : Wrote)

/-- A call from outside of any callback, or an event that libevent waits for, and then
    no more. A context that has been freed is not used. -/
def step (program : Program) (w : World) (act : Act) : Option World :=
  if w.freed = true then some w
  else
    match act with
    | .call (.command cb argv) => redisAsyncCommandArgv cb argv w
    | .call .disconnect => redisAsyncDisconnect program w
    | .call .free => redisAsyncFree program w
    | .readable check nread =>
      if w.ac.rev = true then redisAsyncHandleRead program check nread { w with ac := { w.ac with rev := false } } else some w
    | .writable check nwritten =>
      if w.ac.wev = true then redisAsyncHandleWrite program check nwritten { w with ac := { w.ac with wev := false } }
      else some w

/-- The commands that were taken, in order. -/
def accepted (log : List Event) : List (RedisCallback × Argv) :=
  log.filterMap fun
    | .issued cb argv true => some (cb, argv)
    | _ => none

/-- The callbacks that were run, in order. -/
def ran (log : List Event) : List (RedisCallback × Option RedisReply) :=
  log.filterMap fun
    | .ran cb reply => some (cb, reply)
    | _ => none

/-- The front part changes nothing but the error, the flag of the connection and what is
    told of it; then the handler goes on, waits, or ends the context. -/
theorem connected_first_cases (program : Program) (check : Checked) (later : World → Option World) (w : World) :
    ∃ c connected log, ∃ w₁ : World, w₁ = { w with ac := { w.ac with c := c, connected := connected }, log := log } ∧
      c.reader = w.ac.c.reader ∧ c.obuf = w.ac.c.obuf ∧ accepted log = accepted w.log ∧ ran log = ran w.log ∧
        (connected_first program check later w = later w₁ ∨ connected_first program check later w = some w₁ ∨
          (c.err ≠ 0 ∧ connected_first program check later w = asyncDisconnect program w₁)) := by
  unfold connected_first
  by_cases connected : w.ac.connected = true
  · rw [if_pos connected]
    exact ⟨w.ac.c, w.ac.connected, w.log, w, rfl, rfl, rfl, rfl, rfl, .inl rfl⟩
  · rw [if_neg connected]
    cases check with
    | ok =>
      by_cases told : w.ac.onConnect = true
      · refine ⟨w.ac.c, true, w.log ++ [.connected true], _, rfl, rfl, rfl, by simp [accepted], by simp [ran], .inl ?_⟩
        simp only [redisAsyncHandleConnect, if_pos told, World.record, ↓reduceIte]
      · refine ⟨w.ac.c, true, w.log, _, rfl, rfl, rfl, rfl, rfl, .inl ?_⟩
        simp only [redisAsyncHandleConnect, if_neg told, ↓reduceIte]
    | error in_progress errstr =>
      cases in_progress with
      | true =>
        refine ⟨w.ac.c.setError REDIS_ERR_IO errstr, w.ac.connected, w.log, _, rfl, rfl, rfl, rfl, rfl, .inr (.inl ?_)⟩
        simp only [redisAsyncHandleConnect, connected, Bool.false_eq_true, ↓reduceIte]
      | false =>
        have fails : ∀ w₁ : World, (match (asyncDisconnect program w₁).map fun w => (false, w) with
            | none => none
            | some (false, w) => some w
            | some (true, w) => if w.ac.connected = true then later w else some w) = asyncDisconnect program w₁ := by
          intro w₁
          cases asyncDisconnect program w₁ <;> rfl
        have bad : (w.ac.c.setError REDIS_ERR_IO errstr).err ≠ 0 := show REDIS_ERR_IO ≠ 0 by decide
        by_cases told : w.ac.onConnect = true
        · refine ⟨w.ac.c.setError REDIS_ERR_IO errstr, w.ac.connected, w.log ++ [.connected false], _, rfl, rfl, rfl,
            by simp [accepted], by simp [ran], .inr (.inr ⟨bad, ?_⟩)⟩
          simp only [redisAsyncHandleConnect, if_pos told, World.record, Bool.false_eq_true, ↓reduceIte]
          exact fails _
        · refine ⟨w.ac.c.setError REDIS_ERR_IO errstr, w.ac.connected, w.log, _, rfl, rfl, rfl, rfl, rfl, .inr (.inr ⟨bad, ?_⟩)⟩
          simp only [redisAsyncHandleConnect, if_neg told, Bool.false_eq_true, ↓reduceIte]
          exact fails _

end CppRedis.Callbacks
